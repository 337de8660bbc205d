/-
**The digest of a file is never observed.**

An evaluator that is refreshed from a file keeps the digest of the bytes that it was last given, and
skips a file with this digest.  The digest is recorded once the bytes were a document, before it is known
whether the document can be served, and it is forgotten after every fault.  So it is not at once clear
that a skipped file is one that is being served.

What carries the proof is an invariant of memory and evaluator together (`Remembers`): a digest in memory
is that of bytes read before which can be served, *and they are what is served, without an error*.  Under
it a refresh has the same effect as one that reads the file in full, as long as no two contents of the
file have the same digest.

Main definitions:

* `served` — the snapshot that the content of a file comes to, or the fault that it is;
* `FileEvent`, `FileWatch.run` — changes of how files are read, and refreshes, in any order;
* `readings`, `contentsRead`, `outcomes` — what the refreshes of a history read, and what that came to;
* `Fetcher.rereading` — a fetcher that remembers nothing;
* `NoCollision`, `Remembers` — the assumption on digests, and **the invariant**.

Main results:

* `refresh_file` — one refresh takes in what the file holds, and keeps the invariant;
* `run_file_evaluator`, `run_rereading_evaluator` — so does a history, with and without the digest;
* `refresh_serves_file` — **right after a refresh the evaluator is what the file makes of it.**
-/
import Mathlib.Control.Monad.Basic
import FeatureFlags.Files
import FeatureFlags.Proofs.Refresh
import FeatureFlags.Proofs.Served

set_option autoImplicit false

namespace FeatureFlags

/-! ### What a file comes to -/

/-- The snapshot that reading a file comes to for a namespace, or the fault that it is. -/
def served (path ns : String) (reading : Except ReadFault (List UInt8)) :
    Except EngineFault Snapshot :=
  match reading with
  | .error f => .error (.unreadable path f.message)
  | .ok bytes =>
    match Json.decode Document.decoder bytes with
    | .error p => .error (.evaluation p.failure)
    | .ok d =>
      match Snapshot.build ns d with
      | .error f => .error (.evaluation f.failure)
      | .ok s => .ok s

/-- Fetches from a file and remembers nothing: the document is given again each time. -/
def Fetcher.rereading (read : Reader) (path : String) : Fetcher Unit where
  fetch _ :=
    match read path with
    | .error f => (.error (.unreadable path f.message), ())
    | .ok bytes =>
      match Json.decode Document.decoder bytes with
      | .error p => (.error (.evaluation p.failure), ())
      | .ok d => (.ok (some d), ())
  reset _ := ()

/-- A refresh that remembers nothing takes in what the file holds. -/
theorem refresh_rereading (read : Reader) (path : String) (strategy : ErrorStrategy)
    (memory : Unit) (e : Evaluator) :
    (refresh (Fetcher.rereading read path) strategy (memory, e)).2 =
      e.takeIn strategy ((served path e.space (read path)).map some) := by
  rw [refresh_eq]
  cases hr : read path with
  | error f =>
      simp only [Fetcher.rereading, hr]
      rfl
  | ok bytes =>
      simp only [Fetcher.rereading, hr, served]
      cases hd : Json.decode Document.decoder bytes with
      | error p => rfl
      | ok d =>
          simp only [Fetched.snapshot]
          cases Snapshot.build e.space d <;> rfl

/-! ### The invariant -/

/-- Different contents have different digests. -/
def NoCollision (contents : List (List UInt8)) : Prop :=
  ∀ a ∈ contents, ∀ b ∈ contents, Sha256.digest a = Sha256.digest b → a = b

/-- **What a digest in memory says**: it is that of a content read before, this content can be served, and
it is what the evaluator serves, without an error. -/
structure Remembers (path ns : String) (contents : List (List UInt8)) (known : Option Digest)
    (e : Evaluator) : Prop where
  space : e.space = ns
  served : ∀ digest, known = some digest → ∃ bytes ∈ contents, Sha256.digest bytes = digest ∧
    ∃ s, FeatureFlags.served path ns (.ok bytes) = .ok s ∧ e = Evaluator.new ns s

/-- A memory without a digest says nothing. -/
theorem Remembers.of_none {path ns : String} {contents : List (List UInt8)} {e : Evaluator}
    (h : e.space = ns) : Remembers path ns contents none e :=
  ⟨h, fun _ hd => nomatch hd⟩

/-- **One refresh from a file** takes in what the file holds, whether the digest hides it or not, and the
digest in memory afterwards again says what it should. -/
theorem refresh_file {path ns : String} {contents : List (List UInt8)} {known : Option Digest}
    {e : Evaluator} (read : Reader) (strategy : ErrorStrategy)
    (h : Remembers path ns contents known e)
    (hc : NoCollision (contents ++ (read path).toOption.toList)) :
    (refresh (Fetcher.file read path) strategy (known, e)).2 =
        e.takeIn strategy ((served path ns (read path)).map some) ∧
      Remembers path ns (contents ++ (read path).toOption.toList)
        (refresh (Fetcher.file read path) strategy (known, e)).1
        (refresh (Fetcher.file read path) strategy (known, e)).2 := by
  obtain rfl := h.space
  rw [refresh_eq]
  cases hr : read path with
  | error f =>
      simp only [Fetcher.file, hr, Fetched.snapshot]
      exact ⟨rfl, .of_none (by simp)⟩
  | ok bytes =>
      have hmem : bytes ∈ contents ++ [bytes] := by simp
      rw [hr] at hc
      by_cases hk : known = some (Sha256.digest bytes)
      · -- the file is skipped: by the invariant its content is the one that is served
        obtain ⟨old, hold, hdigest, s, hs, he⟩ := h.served _ hk
        have hsame : old = bytes := hc old (List.mem_append_left _ hold) bytes hmem hdigest
        subst hsame
        simp only [Fetcher.file, hr, hk, Fetched.snapshot, if_true]
        rw [hs]
        have hstill : e.replace s = e := by rw [he]; rfl
        refine ⟨hstill.symm, rfl, fun digest hd => ?_⟩
        obtain rfl := Option.some.inj hd
        exact ⟨old, hmem, rfl, s, hs, he⟩
      · simp only [Fetcher.file, hr, hk, if_false, served]
        cases hd : Json.decode Document.decoder bytes with
        | error p => exact ⟨rfl, .of_none (by simp)⟩
        | ok d =>
            simp only [Fetched.snapshot]
            cases hb : Snapshot.build e.space d with
            | error f => exact ⟨rfl, .of_none (by simp)⟩
            | ok s =>
                refine ⟨rfl, rfl, fun digest hdigest => ?_⟩
                refine ⟨bytes, hmem, Option.some.inj hdigest, s, ?_, rfl⟩
                simp only [served, hd, hb]

/-! ### Histories -/

/-- What happens while an evaluator is kept up to date from a file: the files change, in whatever way,
and are read differently from then on, or the evaluator is refreshed. -/
inductive FileEvent where
  | change (read : Reader)
  | refresh

/-- How files are read after an event. -/
def FileEvent.reader (read : Reader) : FileEvent → Reader
  | .change read => read
  | .refresh => read

/-- How files are read, an evaluator refreshed from one of them, and what its fetcher remembers. -/
structure FileWatch (σ : Type) where
  read : Reader
  memory : σ
  evaluator : Evaluator

namespace FileWatch

variable {σ : Type}

/-- One event. -/
def step (fetcher : Reader → Fetcher σ) (strategy : ErrorStrategy) (w : FileWatch σ) :
    FileEvent → FileWatch σ
  | .change read => { w with read := read }
  | .refresh =>
    let next := refresh (fetcher w.read) strategy (w.memory, w.evaluator)
    ⟨w.read, next.1, next.2⟩

/-- Several events, one after the other. -/
def run (fetcher : Reader → Fetcher σ) (strategy : ErrorStrategy) (w : FileWatch σ)
    (events : List FileEvent) : FileWatch σ :=
  events.foldl (step fetcher strategy) w

theorem run_cons (fetcher : Reader → Fetcher σ) (strategy : ErrorStrategy) (w : FileWatch σ)
    (event : FileEvent) (events : List FileEvent) :
    w.run fetcher strategy (event :: events) =
      (w.step fetcher strategy event).run fetcher strategy events := rfl

/-- Only the changes change how files are read. -/
theorem run_read (fetcher : Reader → Fetcher σ) (strategy : ErrorStrategy) (w : FileWatch σ)
    (events : List FileEvent) :
    (w.run fetcher strategy events).read = events.foldl FileEvent.reader w.read := by
  induction events generalizing w with
  | nil => rfl
  | cons event events ih =>
      rw [run_cons, ih, List.foldl_cons]
      cases event <;> rfl

end FileWatch

/-- What the refreshes of a history read at a path, in order. -/
def readings (path : String) : Reader → List FileEvent → List (Except ReadFault (List UInt8))
  | _, [] => []
  | _, .change read :: events => readings path read events
  | read, .refresh :: events => read path :: readings path read events

/-- The contents that the refreshes of a history read at a path. -/
def contentsRead (path : String) (read : Reader) (events : List FileEvent) : List (List UInt8) :=
  (readings path read events).filterMap Except.toOption

/-- What the refreshes of a history came to for a namespace. -/
def outcomes (path ns : String) (read : Reader) (events : List FileEvent) :
    List (Except EngineFault Snapshot) :=
  (readings path read events).map (served path ns)

/-- A last refresh reads the files as the history left them. -/
theorem readings_append_refresh (path : String) (read : Reader) (events : List FileEvent) :
    readings path read (events ++ [.refresh]) =
      readings path read events ++ [events.foldl FileEvent.reader read path] := by
  induction events generalizing read with
  | nil => rfl
  | cons event events ih =>
      cases event with
      | change changed => exact ih changed
      | refresh => exact congrArg (read path :: ·) (ih read)

/-- Without a memory, a history takes in what its refreshes came to. -/
theorem run_rereading_evaluator (path : String) (strategy : ErrorStrategy) (read : Reader)
    (memory : Unit) (e : Evaluator) (events : List FileEvent) :
    (FileWatch.run (Fetcher.rereading · path) strategy ⟨read, memory, e⟩ events).evaluator =
      e.takeInAll strategy (outcomes path e.space read events) := by
  induction events generalizing read memory e with
  | nil => rfl
  | cons event events ih =>
      cases event with
      | change changed => exact ih changed memory e
      | refresh =>
          rw [FileWatch.run_cons]
          refine (ih read _ _).trans ?_
          dsimp only
          rw [refresh_rereading, Evaluator.takeIn_space]
          rfl

/-- **With the digest, a history takes in the same**, if no two of the contents that it reads have one
digest. -/
theorem run_file_evaluator {path ns : String} {contents : List (List UInt8)}
    {known : Option Digest} {e : Evaluator} (strategy : ErrorStrategy) (read : Reader)
    (events : List FileEvent) (h : Remembers path ns contents known e)
    (hc : NoCollision (contents ++ contentsRead path read events)) :
    (FileWatch.run (Fetcher.file · path) strategy ⟨read, known, e⟩ events).evaluator =
      e.takeInAll strategy (outcomes path ns read events) := by
  induction events generalizing read contents known e with
  | nil => rfl
  | cons event events ih =>
      cases event with
      | change changed => exact ih changed h hc
      | refresh =>
          have hsplit : contentsRead path read (.refresh :: events) =
              (read path).toOption.toList ++ contentsRead path read events := by
            simp only [contentsRead, readings, List.filterMap_cons]
            cases (read path).toOption <;> rfl
          rw [hsplit, ← List.append_assoc] at hc
          have hnow : NoCollision (contents ++ (read path).toOption.toList) :=
            fun a ha b hb => hc a (List.mem_append_left _ ha) b (List.mem_append_left _ hb)
          obtain ⟨hstep, hinv⟩ := refresh_file read strategy h hnow
          rw [FileWatch.run_cons]
          refine (ih read hinv hc).trans ?_
          rw [hstep]
          rfl

/-! ### Right after a refresh -/

/-- **Right after a refresh the evaluator is what the file makes of it.**  Let an evaluator without an
error be refreshed from a file by a fetcher that knows no digest yet, while the files change in any way,
and let no two of the contents that are read have one digest.  If the file can be read and served as the
last change left it, its snapshot is served and no error is held.  If not, the last snapshot before it is served, and
the failure that the fault leaves behind is the error held if the strategy says so.  A fetcher that
remembers nothing would have come to the same evaluator. -/
theorem refresh_serves_file (strategy : ErrorStrategy) (path ns : String) (start : Snapshot)
    (read : Reader) (events : List FileEvent)
    (hdigests : NoCollision (contentsRead path read (events ++ [.refresh]))) :
    let now := FileWatch.run (Fetcher.file · path) strategy ⟨read, none, Evaluator.new ns start⟩
      (events ++ [.refresh])
    now.read = events.foldl FileEvent.reader read ∧
      (∀ s, served path ns (now.read path) = .ok s → now.evaluator = Evaluator.new ns s) ∧
      (∀ fault, served path ns (now.read path) = .error fault →
        now.evaluator =
            ⟨ns, lastServed start (outcomes path ns read events), strategy.kept fault⟩ ∧
          fault.Leaves fault.failure) ∧
      now.evaluator =
        (FileWatch.run (Fetcher.rereading · path) strategy ⟨read, (), Evaluator.new ns start⟩
          (events ++ [.refresh])).evaluator := by
  intro now
  have hread : now.read = events.foldl FileEvent.reader read := by
    simp only [now, FileWatch.run_read, List.foldl_append]
    rfl
  have hstart : Remembers path ns [] none (Evaluator.new ns start) := .of_none rfl
  have hall : now.evaluator =
      (Evaluator.new ns start).takeInAll strategy (outcomes path ns read (events ++ [.refresh])) :=
    run_file_evaluator strategy read _ hstart (by simpa using hdigests)
  have houtcomes : outcomes path ns read (events ++ [.refresh]) =
      outcomes path ns read events ++ [served path ns (now.read path)] := by
    rw [outcomes, readings_append_refresh, List.map_append, hread]
    rfl
  refine ⟨hread, fun s hs => ?_, fun fault hf => ⟨?_, fault.leaves_failure⟩, ?_⟩
  · rw [hall, houtcomes, hs]
    exact Evaluator.takeInAll_append_ok strategy _ _ s
  · rw [hall, houtcomes, hf]
    exact Evaluator.takeInAll_append_error strategy _ rfl _ fault
  · rw [hall, run_rereading_evaluator]
    rfl

/-- A file with some content is served, broken, replaced by a directory, and restored.  Each time the tree
of files is read anew. -/
def restoredFile (content : List UInt8) : List FileEvent :=
  let written := Files.empty.write "/srv/flags.json" content
  let broken := written.write "/srv/flags.json" [0x7B]
  let replaced := (broken.remove "/srv/flags.json").makeDirectory "/srv/flags.json"
  let restored := (replaced.remove "/srv/flags.json").write "/srv/flags.json" content
  [.change written.read, .refresh, .change broken.read, .refresh, .change replaced.read, .refresh,
    .change restored.read, .refresh]

/-- A restored file is served again, and still after one more refresh, which its digest cuts short. -/
theorem refresh_serves_file_restored :
    let content := Utf8.encode "\x7b\"flags\":[\x7b\"key\":\"a\"\x7d]\x7d"
    let flag : Flag := ⟨"a", "", .variant, none, false, [], [], none⟩
    let events := restoredFile content ++ [.refresh]
    NoCollision (contentsRead "/srv/flags.json" Files.empty.read events) ∧
      (FileWatch.run (Fetcher.file · "/srv/flags.json") .fail
        ⟨Files.empty.read, none, Evaluator.new "n" (Snapshot.empty "n")⟩ events).evaluator =
          Evaluator.new "n" (.ofDocument ⟨⟨"n", none⟩, [flag]⟩) := by
  intro content flag events
  have hread : readings "/srv/flags.json" Files.empty.read events =
      [.ok content, .ok [0x7B], .error .isDirectory, .ok content, .ok content] := by decide +kernel
  have hdigests : NoCollision (contentsRead "/srv/flags.json" Files.empty.read events) := by
    rw [contentsRead, hread, NoCollision]
    decide +kernel
  exact ⟨hdigests, (refresh_serves_file .fail "/srv/flags.json" "n" (Snapshot.empty "n")
    Files.empty.read (restoredFile content) hdigests).2.1 _ (by decide +kernel)⟩

end FeatureFlags
