/-
**An adapter gives back whatever it takes.**

Two kinds of things pass through an adapter and have to be given back: views of the runtime's texts, and
texts that the host returned.  They are counted in two places.  The recorded steps show when something
is taken and when it is given back, and a book that is kept behind the functions of the host shows which
texts were returned, which were freed, and which engines were released.  The book changes nothing for
those who use the functions.

Of a single use, every course is looked at: the steps come in a proper order, and the book gains the
same texts on both sides.  Both survive any number of uses, in which host and runtime may fail as they
like.

Main definitions:

* `Host.Book`, `Host.Native.watched` — the functions of a host with a book behind them;
* `Host.Adapter.Allowed`, `Host.Adapter.Orderly` — which step may come behind others, and **the proper
  order**;
* `Host.Adapter.run`, `Host.Adapter.Balanced` — uses of an adapter, one after the other, and their balance;
* `Host.Adapter.Settles` — **what is given back.**

Main results:

* `Host.Adapter.Course.orderly` — the steps of every course come in the proper order;
* `Host.Adapter.Course.book` — what a course leaves in the book;
* `Host.Adapter.Balanced.run` — any number of uses keeps the balance of what was taken and given back;
* `Host.Adapter.settles` — **an adapter gives back whatever it takes.**
-/
import FeatureFlags.Proofs.Courses

set_option autoImplicit false

namespace FeatureFlags.Host

/-! ### A book behind the functions of a host -/

/-- The texts that were returned, those that were freed, and the engines that were released. -/
structure Book where
  issued : List (List UInt8)
  freed : List (List UInt8)
  destroyed : List Handle
  deriving DecidableEq, Repr

namespace Book

/-- A book without entries. -/
def empty : Book := ⟨[], [], []⟩

/-- The book after a text, if there is one, was returned. -/
def issue (b : Book) (text : Option (List UInt8)) : Book := { b with issued := b.issued ++ text.toList }

/-- The book after a text was freed. -/
def free (b : Book) (text : List UInt8) : Book := { b with freed := b.freed ++ [text] }

/-- The book after an engine was released. -/
def destroy (b : Book) (h : Handle) : Book := { b with destroyed := b.destroyed ++ [h] }

end Book

section

variable {σ : Type}

/-- A function that returns a text, with a book behind it. -/
def Book.watch (f : σ → Option (List UInt8) × σ) (t : σ × Book) : Option (List UInt8) × (σ × Book) :=
  ((f t.1).1, (f t.1).2, t.2.issue (f t.1).1)

/-- The functions of a host, with a book behind them. -/
def Native.watched (n : Native σ) : Native (σ × Book) where
  create ns options t := ((n.create ns options t.1).1, (n.create ns options t.1).2, t.2)
  evaluate kind h request := Book.watch (n.evaluate kind h request)
  query kind h := Book.watch (n.query kind h)
  destroy h t := (n.destroy h t.1, t.2.destroy h)
  lastError := Book.watch n.lastError
  free text t := (n.free text t.1, t.2.free text)

theorem Book.watch_eq_iff {f : σ → Option (List UInt8) × σ} {t t' : σ × Book}
    {text : Option (List UInt8)} :
    watch f t = (text, t') ↔ f t.1 = (text, t'.1) ∧ t'.2 = t.2.issue text := by
  rw [watch, Prod.ext_iff, Prod.ext_iff, Prod.ext_iff]
  constructor
  · rintro ⟨rfl, hstate, hbook⟩
    exact ⟨⟨rfl, hstate⟩, hbook.symm⟩
  · rintro ⟨⟨rfl, hstate⟩, hbook⟩
    exact ⟨rfl, hstate, hbook.symm⟩

theorem Native.watched_create_eq_iff {n : Native σ} {ns options : Option (List UInt8)} {h : Handle}
    {t t' : σ × Book} :
    n.watched.create ns options t = (h, t') ↔ n.create ns options t.1 = (h, t'.1) ∧ t'.2 = t.2 := by
  rw [watched, Prod.ext_iff, Prod.ext_iff, Prod.ext_iff]
  constructor
  · rintro ⟨rfl, hstate, hbook⟩
    exact ⟨⟨rfl, hstate⟩, hbook.symm⟩
  · rintro ⟨⟨rfl, hstate⟩, hbook⟩
    exact ⟨rfl, hstate, hbook.symm⟩

theorem Native.watched_settle (n : Native σ) (text : Option (List UInt8)) (t : σ × Book) :
    n.watched.settle text t = (n.settle text t.1, { t.2 with freed := t.2.freed ++ text.toList }) := by
  cases text with
  | none => simp [settle]
  | some bytes => rfl

end

namespace Adapter

variable {σ : Type}

/-! ### The order of the steps -/

/-- May a step come behind others?  Nothing is viewed any more once something was copied; a view is
given back if there is one; a text is copied when there is no view left; and a text is freed if there is
one, an answer only after it was copied. -/
def Allowed (answers : Bool) (before : List Event) : Event → Prop
  | .acquire => .copy ∉ before
  | .release => before.count .release < before.count .acquire
  | .copy => before.count .release = before.count .acquire
  | .free => before.count .free < before.count .issue ∧ (answers = true → .copy ∈ before)
  | .call | .issue | .destroy => True

/-- The steps of a use come in the proper order, and nothing is left in the end. -/
structure Orderly (answers : Bool) (es : List Event) : Prop where
  allowed : ∀ before e after, es = before ++ e :: after → Allowed answers before e
  released : es.count .release = es.count .acquire
  freed : es.count .free = es.count .issue

/-- Steps that may come behind others, one after the other. -/
def AllowedFrom (answers : Bool) (before : List Event) : List Event → Prop
  | [] => True
  | e :: es => Allowed answers before e ∧ AllowedFrom answers (before ++ [e]) es

theorem AllowedFrom.allowed {answers : Bool} {done es : List Event} (h : AllowedFrom answers done es)
    {before after : List Event} {e : Event} (hes : es = before ++ e :: after) :
    Allowed answers (done ++ before) e := by
  induction before generalizing done es with
  | nil =>
      subst hes
      rw [List.append_nil]
      exact h.1
  | cons b before ih =>
      subst hes
      have hrest := ih h.2 rfl
      rwa [List.append_assoc] at hrest

/-- Does a use return answers?  A construction at most returns a message about its failure. -/
def Operation.answers : Operation → Bool
  | .evaluate .. => true
  | .query .. => true
  | .create .. => false
  | .destroy _ => false

variable {n : Native σ} {rt : Runtime} {op : Operation} {s s' : σ} {r : Reply} {es : List Event}

/-- **The steps of every course come in the proper order.** -/
theorem Course.orderly (h : Course n rt op s r s' es) : Orderly op.answers es := by
  have hallowed : AllowedFrom op.answers [] es ∧ es.count .release = es.count .acquire ∧
      es.count .free = es.count .issue := by
    -- which texts are there decides which steps there are, and then they can be gone through
    cases h with
    | noOptions | unviewedSpace | unviewedRequest | noHandle | destroyed =>
        simp [AllowedFrom, Allowed]
    | @unviewedOptions ns | @created ns =>
        cases ns <;> simp [AllowedFrom, Allowed, Operation.answers, viewed]
    | @failed ns _ _ _ text =>
        cases ns <;> cases text <;>
          simp [AllowedFrom, Allowed, Operation.answers, viewed, issued, noted]
    | @evaluated _ _ request _ text =>
        cases request <;> cases text <;>
          simp [AllowedFrom, Allowed, Operation.answers, viewed, issued, answered]
    | @queried _ _ text =>
        cases text <;> simp [AllowedFrom, Allowed, Operation.answers, issued, answered]
  obtain ⟨hfrom, hreleased, hfreed⟩ := hallowed
  exact ⟨fun before e after hes => hfrom.allowed hes, hreleased, hfreed⟩

/-! ### The book of a use -/

/-- The engines that a use releases. -/
def Operation.destroys : Operation → List Handle
  | .destroy h => if h = 0 then [] else [h]
  | .create .. => []
  | .evaluate .. => []
  | .query .. => []

/-- **What a course leaves in the book**: the same texts on both sides, and the engines that are
released. -/
theorem Course.book {t t' : σ × Book} (h : Course n.watched rt op t r t' es) :
    ∃ texts, t'.2 = ⟨t.2.issued ++ texts, t.2.freed ++ texts, t.2.destroyed ++ op.destroys⟩ := by
  cases h with
  | noOptions | unviewedSpace | unviewedOptions | unviewedRequest | noHandle =>
      exact ⟨[], by simp [Operation.destroys]⟩
  | created _ _ hcall _ =>
      obtain ⟨-, hbook⟩ := Native.watched_create_eq_iff.1 hcall
      exact ⟨[], by simp [Operation.destroys, hbook]⟩
  | @failed _ _ _ _ text _ _ _ _ _ hcall hlast =>
      obtain ⟨-, hbook⟩ := Native.watched_create_eq_iff.1 hcall
      obtain ⟨-, hissue⟩ := Book.watch_eq_iff.1 hlast
      exact ⟨text.toList, by simp [Operation.destroys, Native.watched_settle, hissue, hbook, Book.issue]⟩
  | @evaluated _ _ _ _ text _ _ _ hcall =>
      obtain ⟨-, hissue⟩ := Book.watch_eq_iff.1 hcall
      exact ⟨text.toList, by simp [Operation.destroys, Native.watched_settle, hissue, Book.issue]⟩
  | @queried _ _ text _ _ hcall =>
      obtain ⟨-, hissue⟩ := Book.watch_eq_iff.1 hcall
      exact ⟨text.toList, by simp [Operation.destroys, Native.watched_settle, hissue, Book.issue]⟩
  | destroyed hh => exact ⟨[], by simp [Operation.destroys, hh, Native.watched, Book.destroy]⟩

/-- The book changes nothing for those who use the functions. -/
theorem Course.unwatched {t t' : σ × Book} (h : Course n.watched rt op t r t' es) :
    Course n rt op t.1 r t'.1 es := by
  cases h with
  | noOptions => exact .noOptions
  | unviewedSpace hns => exact .unviewedSpace hns
  | unviewedOptions hns hoptions => exact .unviewedOptions hns hoptions
  | created hns hoptions hcall hh =>
      exact .created hns hoptions (Native.watched_create_eq_iff.1 hcall).1 hh
  | failed hns hoptions hcall hlast =>
      rw [Native.watched_settle]
      exact .failed hns hoptions (Native.watched_create_eq_iff.1 hcall).1 (Book.watch_eq_iff.1 hlast).1
  | unviewedRequest hview => exact .unviewedRequest hview
  | evaluated hview hcall =>
      rw [Native.watched_settle]
      exact .evaluated hview (Book.watch_eq_iff.1 hcall).1
  | queried hcall =>
      rw [Native.watched_settle]
      exact .queried (Book.watch_eq_iff.1 hcall).1
  | noHandle => exact .noHandle
  | destroyed hh => exact .destroyed hh

/-! ### Many uses -/

/-- Uses of an adapter, one after the other.  The runtime of each may fail in its own way. -/
def run (n : Native σ) : List (Runtime × Operation) → Trace σ → Trace σ
  | [], t => t
  | u :: us, t => run n us ((u.2.perform n u.1).run t).2

/-- Whatever was taken was given back: the views, and each text that was returned, once. -/
structure Balanced (t : Trace (σ × Book)) : Prop where
  released : t.events.count .release = t.events.count .acquire
  freed : t.events.count .free = t.events.count .issue
  texts : t.state.2.freed = t.state.2.issued

/-- What one use leaves. -/
theorem perform_book (n : Native σ) (rt : Runtime) (op : Operation) (t : Trace (σ × Book)) :
    ∃ r t' es, Course n.watched rt op t.state r t' es ∧
      ((op.perform n.watched rt).run t).2 = ⟨t', t.events ++ es⟩ := by
  obtain ⟨r, t', es, hcourse⟩ := exists_course n.watched rt op t.state
  exact ⟨r, t', es, hcourse, by rw [hcourse.does t.events]⟩

/-- One use keeps the balance. -/
theorem Balanced.perform {t : Trace (σ × Book)} (h : Balanced t) (n : Native σ) (rt : Runtime)
    (op : Operation) : Balanced ((op.perform n.watched rt).run t).2 := by
  obtain ⟨r, t', es, hcourse, hrun⟩ := perform_book n rt op t
  obtain ⟨texts, hbook⟩ := hcourse.book
  rw [hrun]
  constructor
  · rw [List.count_append, List.count_append, h.released, hcourse.orderly.released]
  · rw [List.count_append, List.count_append, h.freed, hcourse.orderly.freed]
  · rw [hbook, h.texts]

/-- **Any number of uses keeps the balance.** -/
theorem Balanced.run {t : Trace (σ × Book)} (h : Balanced t) (n : Native σ)
    (us : List (Runtime × Operation)) : Balanced (run n.watched us t) := by
  induction us generalizing t with
  | nil => exact h
  | cons u us ih => exact ih (h.perform n u.1 u.2)

/-- The engines that any number of uses releases. -/
theorem run_destroyed (n : Native σ) (us : List (Runtime × Operation)) (t : Trace (σ × Book)) :
    (run n.watched us t).state.2.destroyed = t.state.2.destroyed ++ us.flatMap (·.2.destroys) := by
  induction us generalizing t with
  | nil => exact (List.append_nil _).symm
  | cons u us ih =>
      obtain ⟨r, t', es, hcourse, hrun⟩ := perform_book n u.1 u.2 t
      obtain ⟨texts, hbook⟩ := hcourse.book
      rw [run, ih, hrun, hbook, List.flatMap_cons, List.append_assoc]

/-- The book changes nothing for those who use the functions, as often as they do. -/
theorem run_watched (n : Native σ) (us : List (Runtime × Operation)) (t : Trace (σ × Book)) :
    run n us ⟨t.state.1, t.events⟩ =
      ⟨(run n.watched us t).state.1, (run n.watched us t).events⟩ := by
  induction us generalizing t with
  | nil => rfl
  | cons u us ih =>
      obtain ⟨r, t', es, hcourse, hrun⟩ := perform_book n u.1 u.2 t
      rw [run, run, hrun, ← ih, hcourse.unwatched.does t.events]

/-! ### Constructions -/

/-- The course of a construction, and what it returns. -/
theorem exists_course_create (n : Native σ) (rt : Runtime) (ns options : Option String) (t : Trace σ) :
    ∃ outcome s' es, Course n rt (.create ns options) t.state (.handle outcome) s' es ∧
      (create n rt ns options).run t = (outcome, ⟨s', t.events ++ es⟩) := by
  obtain ⟨r, s', es, hcourse⟩ := exists_course n rt (.create ns options) t.state
  have hdoes := hcourse.does t.events
  have hreply : r = .handle ((create n rt ns options).run t).1 := (congrArg Prod.fst hdoes).symm
  have htrace := congrArg Prod.snd hdoes
  subst hreply
  exact ⟨_, s', es, hcourse, Prod.ext rfl htrace⟩

/-- **A construction succeeds exactly if the host returns a handle.** -/
theorem create_eq_ok_iff {ns options : Option String} {t : Trace σ} {h : Handle} :
    ((create n rt ns options).run t).1 = .ok h ↔ h ≠ 0 ∧ ∃ o v w, options = some o ∧
      rt.view? ns = .ok v ∧ rt.view o = .ok w ∧ (n.create v (some w) t.state).1 = h := by
  obtain ⟨outcome, s', es, hcourse, hrun⟩ := exists_course_create n rt ns options t
  rw [hrun]
  cases hcourse with
  | noOptions => simp
  | unviewedSpace hns => simp [hns]
  | unviewedOptions hns hoptions => simp [hoptions]
  | created hns hoptions hcall hh =>
      have hne : ∀ k, _ = k → k ≠ 0 := fun k hk => hk ▸ hh
      simpa [hns, hoptions, hcall] using hne h
  | failed hns hoptions hcall hlast =>
      have hne : h ≠ 0 → 0 ≠ h := Ne.symm
      simpa [hns, hoptions, hcall] using hne

/-- If only the options cannot be viewed, the view of the namespace is given back and the host is not
called. -/
theorem create_unviewed {ns : Option String} {options r : String} {v : Option (List UInt8)}
    (hns : rt.view? ns = .ok v) (hoptions : rt.view options = .error r) (t : Trace σ) :
    (create n rt ns (some options)).run t =
      (.error (.runtime r), ⟨t.state, t.events ++ viewed ns []⟩) := by
  obtain ⟨outcome, s', es, hcourse, hrun⟩ := exists_course_create n rt ns (some options) t
  rw [hrun]
  cases hcourse with
  | unviewedSpace hns' => simp [hns] at hns'
  | created _ hoptions' _ _ => simp [hoptions] at hoptions'
  | failed _ hoptions' _ _ => simp [hoptions] at hoptions'
  | unviewedOptions _ hoptions' =>
      rw [hoptions] at hoptions'
      cases hoptions'
      rfl

/-! ### What is given back -/

/-- What is given back by an adapter for the functions of a host. -/
structure Settles (n : Native σ) : Prop where
  /-- After any number of uses everything that was taken was given back. -/
  balanced : ∀ s us, Balanced (run n.watched us ⟨(s, .empty), []⟩)
  /-- The engines that were released are those that were to be, each as often as it was to be. -/
  destroyed : ∀ s us, (run n.watched us ⟨(s, .empty), []⟩).state.2.destroyed =
    us.flatMap (·.2.destroys)
  /-- Without the book the uses are the same. -/
  unwatched : ∀ s us, run n us ⟨s, []⟩ =
    ⟨(run n.watched us ⟨(s, .empty), []⟩).state.1, (run n.watched us ⟨(s, .empty), []⟩).events⟩
  /-- The steps of each use come in the proper order. -/
  orderly : ∀ s rt (op : Operation), Orderly op.answers ((op.perform n rt).run ⟨s, []⟩).2.events
  /-- If only the options cannot be viewed, the namespace is given back and the host is not called. -/
  unviewed : ∀ s rt ns options v r, rt.view ns = .ok v → rt.view options = .error r →
    (create n rt (some ns) (some options)).run ⟨s, []⟩ =
      (.error (.runtime r), ⟨s, [.acquire, .release]⟩)
  /-- A construction succeeds exactly if the host returns a handle. -/
  created : ∀ s rt ns options h, ((create n rt ns options).run ⟨s, []⟩).1 = .ok h ↔
    h ≠ 0 ∧ ∃ o v w, options = some o ∧ rt.view? ns = .ok v ∧ rt.view o = .ok w ∧
      (n.create v (some w) s).1 = h

/-- **An adapter gives back whatever it takes**, in the proper order, whatever the functions of the host
return and however the runtime fails. -/
theorem settles (n : Native σ) : Settles n where
  balanced s us := Balanced.run ⟨rfl, rfl, rfl⟩ n us
  destroyed s us := run_destroyed n us _
  unwatched s us := run_watched n us ⟨(s, .empty), []⟩
  orderly s rt op := by
    obtain ⟨r, s', es, hcourse⟩ := exists_course n rt op s
    rw [hcourse.does []]
    exact hcourse.orderly
  unviewed s rt ns options v r hns hoptions := by
    have hview : rt.view? (some ns) = .ok (some v) :=
      Runtime.view?_some_eq_ok_iff.2 ⟨v, hns, rfl⟩
    exact create_unviewed hview hoptions ⟨s, []⟩
  created s rt ns options h := create_eq_ok_iff

end Adapter

end FeatureFlags.Host
