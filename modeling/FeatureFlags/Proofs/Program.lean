/-
**The program answers like an engine.**

The program evaluates a flag for an entity with properties from its arguments.  It knows no requests as
texts, and it finds out by the list of flags of which kind the flag is.  An engine over the same file gets
one request as a text, finds the flag under its key, and is told by its caller what kind of answer to give.
Both come to the same.  The program ends with code 1 if no such engine can be built.  If there is one, the
program prints the answer of this engine to a request with the same flag, entity and properties: the answer
for a boolean flag if a boolean flag is listed under the key, and else the answer for a variant flag.

So the program never asks for an answer of the wrong kind, and the failure for such a question is none of
its answers.  No flag, entity or property can make it say so either: a report about a value does not end in
the same words, and a report that there is no such flag is longer.

Main definitions:

* `Evaluator.Lists` — a flag of a kind is listed under a key;
* `Engine.Owes` — **the line that an engine owes for a flag, an entity and properties.**

Main results:

* `Envelope.eq_failure_of_text` — an envelope with the text of a failure is this failure;
* `Evaluator.kindOf?_eq`, `Evaluator.lists_iff` — what is listed is what is found under a key;
* `Engine.exists_build_of_new`, `Engine.new_eq_map` — what an engine over a file is built of;
* `CommandLine.evaluation_like_engine` — **the program answers like an engine.**
-/
import FeatureFlags.CommandLine.Run
import FeatureFlags.Proofs.Arguments
import FeatureFlags.Proofs.HostAnswers
import FeatureFlags.Proofs.Isolation
import FeatureFlags.Proofs.RequestTexts

set_option autoImplicit false

namespace FeatureFlags

open Json (Node Value)
open CommandLine (kindOf? evalEnvelope optionsFor)

/-! ### Envelopes by their texts -/

namespace Envelope

variable {message : String}

/-- What shows an envelope has one error message. -/
theorem exists_message {n : Node} {outcome : Except String Value} (h : n.Shows (tree outcome)) :
    ∃ start fs stop, n = .object start fs (.closed stop) ∧
      List.Forall₂ Node.Shows (Json.occurrences "error_message" (Json.Field.named fs))
        [match outcome with | .ok _ => .null | .error message => .string message] := by
  cases outcome with
  | ok v =>
      cases h with
      | object hms => exact ⟨_, _, _, rfl, Json.forall₂_occurrences "error_message" hms⟩
  | error message =>
      cases h with
      | object hms => exact ⟨_, _, _, rfl, Json.forall₂_occurrences "error_message" hms⟩

/-- What shows an envelope and also a failure shows this failure. -/
theorem eq_error_of_shows {n : Node} {outcome : Except String Value} (h : n.Shows (tree outcome))
    (h' : n.Shows (tree (.error message))) : outcome = .error message := by
  obtain ⟨start, fs, stop, rfl, hmessages⟩ := exists_message h
  obtain ⟨_, _, _, hsame, hmessages'⟩ := exists_message h'
  cases hsame
  generalize Json.occurrences "error_message" (Json.Field.named fs) = ns at hmessages hmessages'
  cases hmessages' with
  | cons hn' hnil' =>
      cases hnil'
      cases hmessages with
      | cons hn _ =>
          cases hn'
          cases outcome with
          | ok v => cases hn
          | error m =>
              cases hn
              rfl

/-- **An envelope with the text of a failure is this failure.** -/
theorem eq_failure_of_text {e : Envelope} (h : e.text = (failure message).text) : e = failure message := by
  have hchars : e.toJson.chars = (failure message).toJson.chars := String.ofList_injective h
  have hroot := (Json.readsAs_of_tree e.toJson.spells).root
  have hroot' := (Json.readsAs_of_tree (failure message).toJson.spells).root
  rw [← hchars] at hroot'
  cases e with
  | success v =>
      have hshows : Node.Shows _ (tree (.ok v)) := hroot
      cases eq_error_of_shows hshows hroot'
  | failure m =>
      have hshows : Node.Shows _ (tree (.error m)) := hroot
      cases eq_error_of_shows hshows hroot'
      rfl

theorem newline_notMem_text (e : Envelope) : '\n' ∉ e.text.toList := by
  rw [text, Value.text, String.toList_ofList]
  exact e.toJson.visible.notMem (by decide)

end Envelope

/-- Failures of one kind are told apart by their texts. -/
theorem Failure.eq_of_message {f g : Failure} (hkind : f.kind = g.kind) (h : f.message = g.message) :
    f = g := by
  obtain ⟨kind, detail⟩ := f
  obtain ⟨kind', detail'⟩ := g
  obtain rfl : kind = kind' := hkind
  rw [message, message, String.append_right_inj] at h
  rw [show detail = detail' from h]

/-! ### The flags that are listed -/

namespace Evaluator

variable {e : Evaluator} {ns flag : String} {d : Document} {kind : FlagKind}

/-- A flag of a kind is listed under a key. -/
def Lists (e : Evaluator) (kind : FlagKind) (flag : String) : Prop :=
  ∃ infos, e.list = .ok infos ∧ ∃ i ∈ infos, i.key = flag ∧ i.kind = kind

/-- **What is listed first under a key is found under it.** -/
theorem kindOf?_eq (hbuild : Snapshot.build ns d = .ok e.snapshot) (herror : e.error = none)
    (flag : String) : kindOf? e flag = (e.get? flag).map (·.info.kind) := by
  obtain ⟨-, hholds, -⟩ := Snapshot.build_ok hbuild
  rw [kindOf?, list, unlessFailed_of_sound herror, get?, Snapshot.list?, Snapshot.get?]
  by_cases hspace : e.snapshot.space = e.space
  · simp only [if_pos hspace, Snapshot.flags, hholds.flags, hholds.get?_eq, List.find?_map,
      Option.map_map]
    rfl
  · simp only [if_neg hspace, Option.map_none]

/-- **A flag of a kind is listed under a key exactly if it is the first one there.** -/
theorem lists_iff (hbuild : Snapshot.build ns d = .ok e.snapshot) (herror : e.error = none) :
    e.Lists kind flag ↔ kindOf? e flag = some kind := by
  constructor
  · rintro ⟨infos, hlist, i, hi, rfl, rfl⟩
    obtain ⟨-, hholds, -⟩ := Snapshot.build_ok hbuild
    rw [list, unlessFailed_of_sound herror, Snapshot.list?] at hlist
    by_cases hspace : e.snapshot.space = e.space
    · rw [if_pos hspace] at hlist
      cases hlist
      rw [Snapshot.flags, hholds.flags, List.map_map] at hi
      obtain ⟨f, hf, rfl⟩ := List.mem_map.1 hi
      have hget : e.get? f.key = some f.compile := by
        rw [get?, Snapshot.get?, if_pos hspace, hholds.found f hf]
      have hfound : kindOf? e f.key = some f.kind := by
        rw [kindOf?_eq hbuild herror, hget]
        rfl
      exact hfound
    · rw [if_neg hspace] at hlist
      cases hlist
  · intro h
    rw [kindOf?] at h
    split at h
    · next infos hlist =>
        obtain ⟨i, hi, hkind⟩ := Option.map_eq_some_iff.1 h
        exact ⟨infos, hlist, i, List.mem_of_find?_eq_some hi, by simpa using List.find?_some hi, hkind⟩
    · cases h

end Evaluator

/-! ### Engines over a file -/

namespace Engine

variable {read : Reader} {ns : Option String} {o : Options} {e : Engine}

/-- An engine serves a snapshot that was built for its namespace, and holds no error. -/
theorem exists_build_of_new (h : new read ns o = .ok e) :
    e.evaluator.error = none ∧ ∃ d, Snapshot.build (spaceOf ns) d = .ok e.evaluator.snapshot := by
  simp only [new, bind, Except.bind] at h
  split at h
  · cases h
  · split at h
    · cases h
    · next document _ =>
        split at h
        · cases h
        · next s hbuild =>
            cases h
            exact ⟨rfl, _, hbuild⟩

/-- **Engines over one file that is not read again differ only in what happens when a refresh fails.** -/
theorem new_eq_map {path : String} (hsource : o.source = .file) (hpath : o.path = some path)
    (hinterval : o.interval = 0) :
    new read ns o = (new read ns (optionsFor path)).map fun e => { e with strategy := o.strategy } := by
  have hof : sourceOf o = .ok (.ofPath path) := by simp only [sourceOf, hsource, hpath]
  have hof' : sourceOf (optionsFor path) = .ok (.ofPath path) := rfl
  have hstill : o.refreshInterval? = none := by
    rw [Options.refreshInterval?, hinterval]
    exact if_neg fun h => Nat.lt_irrefl 0 h.2
  simp only [new, hof, hof', bind, Except.bind, hstill]
  cases ((Source.fetcher read).fetch (.ofPath path)).1 with
  | error f => rfl
  | ok d =>
      cases hbuild : Snapshot.build (spaceOf ns) (d.getD (.empty (spaceOf ns))) <;> simp only [hbuild] <;> rfl

end Engine

/-! ### Answers -/

/-- A report about a value, or about a missing flag, does not say that the flag is of another kind. -/
theorem RequestFault.message_ne_of_mismatch {flag : String} {m : RequestFault}
    (hm : m = .notBoolean flag ∨ m = .notVariant flag) :
    (∀ v : ValueFault, v.failure.message ≠ m.failure.message) ∧
      ∀ space, (noSuchFlag space flag).failure.message ≠ m.failure.message := by
  constructor
  · intro v h
    have hmismatch : m.IsMismatch := by
      rcases hm with rfl | rfl
      · exact .notBoolean flag
      · exact .notVariant flag
    have hkind : v.failure.kind = m.failure.kind := rfl
    exact v.failure_ne hmismatch (Failure.eq_of_message hkind h)
  · intro space h
    have hkind : (noSuchFlag space flag).failure.kind = m.failure.kind := rfl
    have hmessage : (noSuchFlag space flag).message = m.message :=
      congrArg Failure.detail (Failure.eq_of_message hkind h)
    -- the report of a missing flag is longer, whatever the namespace
    have hhead : "failed to get flag information ".length = 31 := by decide
    have hlong : ("failed to get flag information " ++ space ++ "/" ++ flag).length =
        31 + space.length + "/".length + flag.length := by
      rw [String.length_append, String.length_append, String.length_append, hhead]
    have hboolean : " is not a boolean flag".length = 22 := by decide
    have hvariant : " is not a variant flag".length = 22 := by decide
    have hshort : m.message.length = flag.length + 22 := by
      rcases hm with rfl | rfl
      · exact (String.length_append _ _).trans (by rw [hboolean])
      · exact (String.length_append _ _).trans (by rw [hvariant])
    have hsame : ("failed to get flag information " ++ space ++ "/" ++ flag).length = m.message.length :=
      congrArg String.length hmessage
    omega

namespace Evaluator

variable {e : Evaluator} {ns : String} {d : Document} {clock : Clock}

/-- Requests with the same values are answered alike. -/
theorem envelopes_congr (hbuild : Snapshot.build ns d = .ok e.snapshot) {r r' : Request}
    (hflag : r.flag = r'.flag) (hid : r.entity.id = r'.entity.id)
    (hvalue : ∀ k, r.entity.context.value? k = r'.entity.context.value? k) :
    e.booleanEnvelope r' clock = e.booleanEnvelope r clock ∧
      e.variantEnvelope r' clock = e.variantEnvelope r clock := by
  have hagree : ∀ f : Flag, Entity.AgreeOn f.properties r.entity r'.entity :=
    fun f => ⟨hid, fun p _ => by rw [Context.value, Context.value, hvalue]⟩
  obtain ⟨hvariant, hboolean⟩ :=
    answers_congr hbuild hbuild rfl rfl rfl (.mk hflag (fun f _ _ => hagree f) hid)
  rw [booleanEnvelope, booleanEnvelope, variantEnvelope, variantEnvelope, hvariant, hboolean]
  exact ⟨rfl, rfl⟩

/-- **A request as a text is answered like one whose properties are given one after the other.** -/
theorem evaluate_of_spelledBy (hbuild : Snapshot.build ns d = .ok e.snapshot)
    {text flag entity : String} {properties : List (String × String)}
    (h : Request.SpelledBy text flag entity properties) :
    e.evaluate .boolean (Utf8.encode text) clock =
        e.booleanEnvelope ⟨flag, entity, Context.ofList properties⟩ clock ∧
      e.evaluate .variant (Utf8.encode text) clock =
        e.variantEnvelope ⟨flag, entity, Context.ofList properties⟩ clock := by
  obtain ⟨r, hr, rfl, rfl, hvalue⟩ := Request.decode_of_spelledBy h
  have hsame : ∀ k, (Context.ofList properties).value? k = r.entity.context.value? k := by
    intro k
    rw [Context.value?_ofList, hvalue]
  have hcongr :
      e.booleanEnvelope r clock =
          e.booleanEnvelope ⟨r.flag, r.entity.id, .ofList properties⟩ clock ∧
        e.variantEnvelope r clock =
          e.variantEnvelope ⟨r.flag, r.entity.id, .ofList properties⟩ clock :=
    envelopes_congr hbuild rfl rfl hsame
  simp only [evaluate, hr]
  exact hcongr

/-- An envelope whose failures are all reports about values has no other message. -/
theorem envelope_mapError_ne {α : Type} (result : α → Value) {message : String}
    (h : ∀ v : ValueFault, v.failure.message ≠ message) (outcome : Except ValueFault α) :
    envelope result (outcome.mapError (·.failure)) ≠ .failure message := by
  intro hsame
  cases outcome with
  | ok a => cases hsame
  | error v => exact h v (Envelope.failure.inj hsame)

/-- **The answer that belongs to the kind of a flag does not say that the flag is of another kind.** -/
theorem evalEnvelope_ne (hbuild : Snapshot.build ns d = .ok e.snapshot) (herror : e.error = none)
    (r : Request) {m : RequestFault}
    (hm : m = .notBoolean r.flag ∨ m = .notVariant r.flag) :
    evalEnvelope e r clock ≠ .failure m.failure.message := by
  obtain ⟨hvalue, hmissing⟩ := RequestFault.message_ne_of_mismatch hm
  rw [evalEnvelope, kindOf?_eq hbuild herror]
  cases hget : e.get? r.flag with
  | none =>
      have hvariant : e.variant r = .error (RequestFault.noSuchFlag e.space r.flag).failure := by
        rw [variant, unlessFailed_of_sound herror, hget]
      rw [Option.map_none, variantEnvelope, hvariant]
      exact fun h => hmissing e.space (Envelope.failure.inj h)
  | some f =>
      cases hkind : f.info.kind with
      | boolean =>
          have hboolean : e.boolean r = (f.boolean r).mapError (·.failure) := by
            simp only [boolean, unlessFailed_of_sound herror, hget, hkind, if_true]
          simp only [Option.map_some, hkind, booleanEnvelope, hboolean]
          exact envelope_mapError_ne _ hvalue (f.boolean r)
      | variant =>
          have hvariant : e.variant r = (f.variant r).mapError (·.failure) := by
            simp only [variant, unlessFailed_of_sound herror, hget, hkind, if_true]
          simp only [Option.map_some, hkind, variantEnvelope, hvariant]
          exact envelope_mapError_ne _ hvalue (f.variant r)

end Evaluator

/-! ### What the program prints -/

/-- The line that an engine owes for a flag, an entity and properties, by a clock. -/
structure Engine.Owes (e : Engine) (clock : Clock) (flag entity : String)
    (properties : List (String × String)) (line : String) : Prop where
  /-- There is a text of a request for them. -/
  requested : ∃ text, Request.SpelledBy text flag entity properties
  /-- If a boolean flag is listed under the key, the line is the boolean answer to every such text. -/
  boolean : e.evaluator.Lists .boolean flag → ∀ text,
    Request.SpelledBy text flag entity properties → line = e.evaluate .boolean text clock
  /-- If there is none, the line is the variant answer to every such text. -/
  variant : ¬e.evaluator.Lists .boolean flag → ∀ text,
    Request.SpelledBy text flag entity properties → line = e.evaluate .variant text clock
  /-- It is a single line. -/
  single : '\n' ∉ line.toList
  /-- It does not say that the flag is of another kind. -/
  matching : ∀ m, m = .notBoolean flag ∨ m = .notVariant flag →
    line ≠ (Envelope.failure (RequestFault.failure m).message).text

namespace CommandLine

variable {read : Reader} {space : Option String} {path flag entity : String}
  {properties : List (String × String)} {o : Options} {clock : Clock}

/-- What is evaluated by the kind of the flag is what an engine owes. -/
theorem owes_of_new {e : Engine} {strategy : ErrorStrategy} (h : Engine.new read space o = .ok e) :
    { e with strategy := strategy }.Owes clock flag entity properties
      (evalEnvelope e.evaluator ⟨flag, entity, Context.ofList properties⟩ clock).text := by
  obtain ⟨herror, d, hbuild⟩ := Engine.exists_build_of_new h
  have hlists : e.evaluator.Lists .boolean flag ↔ kindOf? e.evaluator flag = some .boolean :=
    Evaluator.lists_iff hbuild herror
  refine ⟨Request.exists_spelledBy flag entity properties, fun hlisted text htext => ?_,
    fun hunlisted text htext => ?_, Envelope.newline_notMem_text _, fun m hm h => ?_⟩
  · rw [Engine.evaluate, (Evaluator.evaluate_of_spelledBy hbuild htext).1, evalEnvelope,
      hlists.1 hlisted]
  · rw [Engine.evaluate, (Evaluator.evaluate_of_spelledBy hbuild htext).2, evalEnvelope]
    split
    · next hkind => exact absurd (hlists.2 hkind) hunlisted
    · rfl
  · exact Evaluator.evalEnvelope_ne hbuild herror _ hm (Envelope.eq_failure_of_text h)

/-- **The program answers like an engine.**  It can be asked for whatever flag and entity, and for properties
with proper names.  It ends with code 1 exactly if no engine can be built over the file; and with the
line that this engine owes by the same clock, if there is one. -/
theorem evaluation_like_engine (hsource : o.source = .file) (hpath : o.path = some path)
    (hinterval : o.interval = 0) :
    ((∃ args, Invocation.parse args = .command (.eval path flag entity space properties)) ↔
      path ≠ "" ∧ ∀ p ∈ properties, p.1 ≠ "" ∧ '=' ∉ p.1.toList) ∧
    ∀ args clock, Invocation.parse args = .command (.eval path flag entity space properties) →
      ((run read args clock).code = 1 ↔ ¬∃ e, Engine.new read space o = .ok e) ∧
      ∀ e, Engine.new read space o = .ok e →
        ∃ line, run read args clock = .line line ∧ e.Owes clock flag entity properties line := by
  refine ⟨Invocation.exists_parse_eval_iff, fun args clock hargs => ?_⟩
  have hrun : run read args clock =
      (Command.eval path flag entity space properties).run read clock := by
    rw [run, hargs]
    rfl
  rw [hrun, Command.run, Engine.new_eq_map hsource hpath hinterval]
  simp only [Command.space, Command.path]
  cases hnew : Engine.new read space (optionsFor path) with
  | error f =>
      refine ⟨iff_of_true rfl ?_, fun e h => nomatch h⟩
      rintro ⟨e, h⟩
      cases h
  | ok e =>
      refine ⟨iff_of_false (by simp [Outcome.line]) (not_not.2 ⟨_, rfl⟩), ?_⟩
      rintro _ ⟨⟩
      exact ⟨_, rfl, owes_of_new hnew⟩

/-- A boolean flag.  Of the properties one is given twice, and its last value has an `=` in it. -/
theorem evaluation_like_engine_repeated :
    let content := "\x7b\"flags\":[\x7b\"key\":\"f\",\"type\":\"BOOLEAN_FLAG_TYPE\"\x7d]\x7d"
    let read : Reader := fun path => if path = "/flags" then .ok (Utf8.encode content) else .error .notFound
    let o : Options := ⟨.file, none, some "/flags", 0, .fallback, none⟩
    let args := ["eval", "-c", "plan=free", "/flags", "-ff", "--entity=e7", "-n", "shop",
      "--context=plan=pro=1"]
    let properties := [("plan", "free"), ("plan", "pro=1")]
    Invocation.parse args = .command (.eval "/flags" "f" "e7" (some "shop") properties) ∧
      ∃ e, Engine.new read (some "shop") o = .ok e ∧ e.evaluator.Lists .boolean "f" ∧
        ∀ clock, ∃ line, run read args clock = .line line ∧ e.Owes clock "f" "e7" properties line := by
  intro content read o args properties
  have hargs : Invocation.parse args = .command (.eval "/flags" "f" "e7" (some "shop") properties) := by
    decide +kernel
  have hlisted : (Engine.new read (some "shop") o).toOption.bind (fun e => kindOf? e.evaluator "f") =
      some .boolean := by decide +kernel
  obtain ⟨e, he, hkind⟩ := Option.bind_eq_some_iff.1 hlisted
  have hnew : Engine.new read (some "shop") o = .ok e := Json.toOption_eq_some_iff.1 he
  obtain ⟨-, hrun⟩ :=
    @evaluation_like_engine read (some "shop") "/flags" "f" "e7" properties o rfl rfl rfl
  obtain ⟨herror, d, hbuild⟩ := Engine.exists_build_of_new hnew
  exact ⟨hargs, e, hnew, (Evaluator.lists_iff hbuild herror).2 hkind, 
    fun clock => (hrun args clock hargs).2 e hnew⟩

end CommandLine

end FeatureFlags
