/-
**Which evaluations can be asked for.**

A list of arguments asks for the evaluation of a flag if it names the command and has a flag, an entity and
the path of a document.  The properties of the entity come one by one, each cut at its first `=`.  So the
name of a property is never empty and has no `=` in it, while its value may be any text; and this is all:
whatever texts there are for the parts, there are arguments that ask for just this evaluation.  They have
each value in the argument of its parameter, and the path behind a lone `--`, so that it does not matter
what these texts look like.

Main definitions:

* `Parameter.long` — a parameter with its value in one argument;
* `Command.evalArguments` — **arguments that ask for an evaluation.**

Main results:

* `cut_append`, `eq_of_cut`, `readProperty?_eq_some_iff` — what a text is cut into;
* `Grammar.collect_keeps` — what one reading keeps, all the reading keeps;
* `Grammar.collect_long`, `Given.addAll_of_accepts` — values in the arguments of their parameters are all
  added;
* `Invocation.exists_parse_eval_iff` — **which evaluations can be asked for.**
-/
import Mathlib.Data.List.Basic
import FeatureFlags.CommandLine.Invocation

set_option autoImplicit false

namespace FeatureFlags.CommandLine

/-! ### Cutting a text -/

section

variable {mark : Char} {before : List Char}

theorem cut_append (h : mark ∉ before) (after : List Char) :
    cut mark (before ++ mark :: after) = (before, some after) := by
  induction before with
  | nil => rw [List.nil_append, cut, if_pos rfl]
  | cons c before ih =>
      rw [List.mem_cons, not_or] at h
      rw [List.cons_append, cut, if_neg (Ne.symm h.1), ih h.2]

theorem eq_of_cut {s after : List Char} (h : cut mark s = (before, some after)) :
    s = before ++ mark :: after ∧ mark ∉ before := by
  induction s generalizing before with
  | nil => cases h
  | cons c s ih =>
      rw [cut] at h
      split at h
      · next hc =>
          cases h
          exact ⟨by rw [hc, List.nil_append], List.not_mem_nil⟩
      · next hc =>
          cases hcut : cut mark s with
          | mk head rest =>
              rw [hcut] at h
              cases h
              obtain ⟨hs, hnot⟩ := ih hcut
              exact ⟨by rw [hs, List.cons_append],
                List.not_mem_cons_of_ne_of_not_mem (Ne.symm hc) hnot⟩

end

/-- **A property is cut at its first `=`**, and its name may not be empty. -/
theorem readProperty?_eq_some_iff {s name value : String} :
    readProperty? s = some (name, value) ↔
      s = name ++ "=" ++ value ∧ name ≠ "" ∧ '=' ∉ name.toList := by
  have hchars : s = name ++ "=" ++ value ↔ s.toList = name.toList ++ '=' :: value.toList := by
    rw [← String.toList_inj, String.toList_append, String.toList_append, List.append_assoc]
    rfl
  constructor
  · intro h
    rw [readProperty?] at h
    split at h
    · cases h
    · cases h
    · next name' value' hne hcut =>
        cases h
        obtain ⟨hs, hnot⟩ := eq_of_cut hcut
        rw [hchars, String.toList_ofList, String.toList_ofList]
        refine ⟨hs, fun hempty => ?_, hnot⟩
        have hnil : name' = [] := by simpa using hempty
        exact hne hnil
  · rintro ⟨hs, hne, hnot⟩
    rw [readProperty?, hchars.1 hs, cut_append hnot]
    cases hname : name.toList with
    | nil => exact absurd (by simpa using hname) hne
    | cons c cs =>
        simp only [← hname, String.ofList_toList]

/-! ### Reading arguments -/

/-- A parameter with its value in one argument. -/
def Parameter.long (p : Parameter) (value : String) : String := "--" ++ p.name ++ "=" ++ value

namespace Given

/-- Adds values one after the other. -/
def addAll (given : Given) (vs : List (Parameter × String)) : Except Stop Given :=
  vs.foldlM (fun given x => given.add x.1 x.2) given

variable {given : Given}

theorem addAll_cons (given : Given) (x : Parameter × String) (vs : List (Parameter × String)) :
    given.addAll (x :: vs) =
      match given.add x.1 x.2 with
      | .error why => .error why
      | .ok given => given.addAll vs := by
  rw [addAll, List.foldlM_cons]
  cases given.add x.1 x.2 <;> rfl

theorem add_of_accepts {p : Parameter} {value : String}
    (hnew : p.repeatable = false → given.value? p.name = none) (h : p.accepts value = true) :
    given.add p value = .ok { given with values := given.values ++ [(p.name, value)] } := by
  have hfree : ¬(!p.repeatable && (given.value? p.name).isSome) = true := by
    cases hrepeat : p.repeatable with
    | true => simp
    | false => simp [hnew hrepeat]
  rw [add, if_neg hfree, if_pos h]

/-- **Values are all added** that their parameters take, if no parameter has two that may be given only
once. -/
theorem addAll_of_accepts {vs : List (Parameter × String)} (haccepts : ∀ x ∈ vs, x.1.accepts x.2 = true)
    (hnew : ∀ x ∈ vs, x.1.repeatable = false → given.value? x.1.name = none)
    (hpairs : vs.Pairwise fun x y => y.1.repeatable = false → y.1.name ≠ x.1.name) :
    given.addAll vs =
      .ok { given with values := given.values ++ vs.map fun x => (x.1.name, x.2) } := by
  induction vs generalizing given with
  | nil =>
      rw [List.map_nil, List.append_nil]
      rfl
  | cons x vs ih =>
      rw [List.forall_mem_cons] at haccepts hnew
      obtain ⟨hx, hvs⟩ := List.pairwise_cons.1 hpairs
      rw [addAll_cons, add_of_accepts hnew.1 haccepts.1]
      refine (ih haccepts.2 ?_ hvs).trans ?_
      · intro y hy hrepeat
        have hother : given.values.lookup y.1.name = none := hnew.2 y hy hrepeat
        rw [value?, List.lookup_append, hother, List.lookup_cons,
          beq_false_of_ne (hx y hy hrepeat)]
        rfl
      · simp only [List.append_assoc, List.singleton_append, List.map_cons]

end Given

namespace Grammar

variable {g : Grammar} {wantsCommand : Bool}

/-- A parameter is found under its name. -/
structure Knows (g : Grammar) (p : Parameter) : Prop where
  found : (g.parameters.find? fun q => q.name.toList = p.name.toList) = some p
  whole : '=' ∉ p.name.toList

theorem piece_long {p : Parameter} (h : g.Knows p) (value : String) :
    g.piece (p.long value) = .value p value := by
  have hchars : (p.long value).toList = '-' :: '-' :: (p.name.toList ++ '=' :: value.toList) := by
    simp [Parameter.long]
  have hlong : g.longPiece (p.name.toList ++ '=' :: value.toList) = .value p value := by
    rw [longPiece, cut_append h.whole]
    simp only [h.found, String.ofList_toList]
  rw [piece, hchars]
  cases hname : p.name.toList ++ '=' :: value.toList with
  | nil => simp at hname
  | cons c cs =>
      rw [hname] at hlong
      exact hlong

/-- **Values in the arguments of their parameters are added one after the other.** -/
theorem collect_long {vs : List (Parameter × String)} (hvs : ∀ x ∈ vs, g.Knows x.1) (given : Given)
    (rest : List String) :
    g.collect wantsCommand given (vs.map (fun x => x.1.long x.2) ++ rest) =
      match given.addAll vs with
      | .error why => .error why
      | .ok given => g.collect wantsCommand given rest := by
  induction vs generalizing given with
  | nil => rfl
  | cons x vs ih =>
      rw [List.forall_mem_cons] at hvs
      rw [List.map_cons, List.cons_append, collect, Given.addAll_cons]
      cases hadd : given.add x.1 x.2 with
      | error why => simp only [piece_long hvs.1, hadd]
      | ok given =>
          simp only [piece_long hvs.1, hadd]
          exact ih hvs.2 given

end Grammar

/-! ### What reading keeps -/

section

variable {P : Given → Prop} (hother : ∀ {given : Given} {arg : String} {given' : Given}, P given →
  given.addOther arg = .ok given' → P given')
include hother

theorem Given.foldlM_addOther_keeps {args : List String} {given given' : Given} (hP : P given)
    (h : args.foldlM addOther given = .ok given') : P given' := by
  induction args generalizing given with
  | nil =>
      cases h
      exact hP
  | cons arg args ih =>
      rw [List.foldlM_cons] at h
      cases harg : given.addOther arg with
      | error why =>
          rw [harg] at h
          cases h
      | ok next =>
          rw [harg] at h
          exact ih (hother hP harg) h

/-- **What one reading keeps, all the reading keeps**, be it of a value or of another argument. -/
theorem Grammar.collect_keeps {g : Grammar} {wantsCommand : Bool}
    (hadd : ∀ {given : Given} {p : Parameter} {value : String} {given' : Given}, P given →
      given.add p value = .ok given' → P given')
    {args rest : List String} {given given' : Given} (hP : P given)
    (h : g.collect wantsCommand given args = .ok (given', rest)) : P given' := by
  fun_induction collect g wantsCommand given args with
  | case1 =>
      cases h
      exact hP
  | case4 given arg args =>
      -- behind a lone `--` there are only arguments that stand for themselves
      cases hfold : args.foldlM Given.addOther given with
      | error why =>
          rw [hfold] at h
          cases h
      | ok next =>
          rw [hfold] at h
          cases h
          exact Given.foldlM_addOther_keeps hother hP hfold
  | case5 =>
      cases h
      exact hP
  | case7 _ _ _ _ _ _ harg ih => exact ih (hother hP harg) h
  | case9 _ _ _ _ _ _ _ hvalue ih => exact ih (hadd hP hvalue) h
  | case12 _ _ _ _ _ _ _ _ hvalue ih => exact ih (hadd hP hvalue) h
  | case2 | case3 | case6 | case8 | case10 | case11 | case13 => cases h

end

/-- What stands for itself is not empty. -/
theorem Grammar.other_ne_of_collect {g : Grammar} {wantsCommand : Bool} {args rest : List String}
    {given : Given} (h : g.collect wantsCommand .empty args = .ok (given, rest)) :
    given.other ≠ some "" := by
  refine collect_keeps (P := fun given => given.other ≠ some "") ?_ ?_ (by decide) h
  · intro given arg given' _ h
    rw [Given.addOther] at h
    split at h
    · cases h
    · next hnew =>
        cases h
        rintro ⟨⟩
        simp at hnew
  · intro given p value given' hP h
    rw [Given.add] at h
    split at h
    · cases h
    · split at h
      · cases h
        exact hP
      · cases h

/-! ### Evaluations -/

/-- What an evaluation is given, each with its parameter. -/
def Command.evalValues (flag entity : String) (space : Option String)
    (properties : List (String × String)) : List (Parameter × String) :=
  (.flag, flag) :: (.entity, entity) :: (space.toList.map (Parameter.space, ·) ++
    properties.map fun p => (.property, p.1 ++ "=" ++ p.2))

/-- What an evaluation is given, by the names of the parameters. -/
def Command.evalNamed (flag entity : String) (space : Option String)
    (properties : List (String × String)) : List (String × String) :=
  (evalValues flag entity space properties).map fun x => (x.1.name, x.2)

/-- Arguments that ask for an evaluation. -/
def Command.evalArguments (path flag entity : String) (space : Option String)
    (properties : List (String × String)) : List String :=
  "eval" :: ((evalValues flag entity space properties).map (fun x => x.1.long x.2) ++ ["--", path])

namespace Invocation

variable {path flag entity : String} {space : Option String} {properties : List (String × String)}

/-- What stands after the name of the command. -/
def evaluating : Grammar := ⟨[.logLevel, .flag, .entity, .space, .property], false⟩

theorem knows_of_mem_evalValues :
    ∀ x ∈ Command.evalValues flag entity space properties, evaluating.Knows x.1 := by
  simp only [Command.evalValues, List.forall_mem_cons, List.forall_mem_append, List.forall_mem_map]
  have hproperty : evaluating.Knows .property := ⟨rfl, by decide⟩
  exact ⟨⟨rfl, by decide⟩, ⟨rfl, by decide⟩, fun _ _ => ⟨rfl, by decide⟩, fun _ _ => hproperty⟩

/-- Of the parameters only that of a property may come again. -/
theorem addAll_evalValues (hproperties : ∀ p ∈ properties, p.1 ≠ "" ∧ '=' ∉ p.1.toList) :
    Given.empty.addAll (Command.evalValues flag entity space properties) =
      .ok ⟨Command.evalNamed flag entity space properties, none⟩ := by
  refine Given.addAll_of_accepts ?_ (fun _ _ _ => rfl) ?_
  · simp only [Command.evalValues, List.forall_mem_cons, List.forall_mem_append, List.forall_mem_map]
    refine ⟨rfl, rfl, fun _ _ => rfl, fun p hp => Option.isSome_iff_exists.2 ⟨p, ?_⟩⟩
    exact readProperty?_eq_some_iff.2 ⟨rfl, hproperties p hp⟩
  · have hspace : (space.toList.map (Parameter.space, ·)).Pairwise fun x y =>
        y.1.repeatable = false → y.1.name ≠ x.1.name := by
      cases space with
      | none => exact .nil
      | some name => exact List.pairwise_singleton _ _
    have hproperty : ∀ {P : Prop}, Parameter.property.repeatable = false → P := fun h => nomatch h
    simp only [Command.evalValues, List.pairwise_cons, List.pairwise_append, List.forall_mem_append,
      List.forall_mem_cons, List.forall_mem_map]
    refine ⟨⟨fun _ => by decide, fun _ _ _ => by decide, fun _ _ => hproperty⟩,
      ⟨fun _ _ _ => by decide, fun _ _ => hproperty⟩, hspace, ?_, fun _ _ _ _ => hproperty⟩
    exact List.pairwise_map.2 (List.pairwise_of_forall fun _ _ => hproperty)

/-- The namespace of an evaluation is found among what it is given. -/
theorem value?_space_evalNamed (other : Option String) :
    (⟨Command.evalNamed flag entity space properties, other⟩ : Given).value? "namespace" = space := by
  cases space with
  | none =>
      -- no other parameter has this name
      rw [Given.value?, List.lookup_eq_none_iff]
      simp only [Command.evalNamed, Command.evalValues, List.forall_mem_map, List.forall_mem_cons]
      exact ⟨rfl, rfl, List.forall_mem_map.2 fun _ _ => rfl⟩
  | some name => rfl

/-- So are all its properties, in their order. -/
theorem all_context_evalNamed (other : Option String) :
    (⟨Command.evalNamed flag entity space properties, other⟩ : Given).all "context" =
      properties.map fun p => p.1 ++ "=" ++ p.2 := by
  have hproperties : (properties.map fun p => (Parameter.property.name, p.1 ++ "=" ++ p.2)).filterMap
      (fun v => if v.1 = "context" then some v.2 else none) = properties.map fun p => p.1 ++ "=" ++ p.2 := by
    rw [List.filterMap_map, ← List.filterMap_eq_map]
    rfl
  rw [← hproperties, Given.all, Command.evalNamed, Command.evalValues]
  -- the parameters in front have other names
  cases space <;> simp only [List.map_cons, List.map_append, List.map_map] <;> rfl

/-- **What an evaluation is given asks for it.** -/
theorem command?_evalNamed (hproperties : ∀ p ∈ properties, p.1 ≠ "" ∧ '=' ∉ p.1.toList) :
    command? "eval" ⟨Command.evalNamed flag entity space properties, some path⟩ =
      some (.eval path flag entity space properties) := by
  have hcommand : ∀ given : Given, given = ⟨Command.evalNamed flag entity space properties, some path⟩ →
      command? "eval" given = some (.eval path flag entity (given.value? "namespace")
        ((given.all "context").filterMap readProperty?)) := by
    rintro _ rfl
    rfl
  have hread : ∀ p ∈ properties, readProperty? (p.1 ++ "=" ++ p.2) = some p :=
    fun p hp => readProperty?_eq_some_iff.2 ⟨rfl, hproperties p hp⟩
  have hcut : (properties.map fun p => p.1 ++ "=" ++ p.2).filterMap readProperty? = properties := by
    rw [List.filterMap_map]
    exact (List.filterMap_congr hread).trans List.filterMap_some
  rw [hcommand _ rfl, value?_space_evalNamed, all_context_evalNamed, hcut]

/-- Behind a lone `--` stands one argument that stands for itself. -/
theorem collect_path (hpath : path ≠ "") (values : List (String × String)) :
    evaluating.collect false ⟨values, none⟩ ["--", path] = .ok (⟨values, some path⟩, []) := by
  have hends : evaluating.piece "--" = .ends := rfl
  have hnonempty : path.isEmpty = false := by simpa using hpath
  simp [Grammar.collect, hends, Given.addOther, hnonempty, Except.map]

/-- The arguments of an evaluation ask for it. -/
theorem parse_evalArguments (hpath : path ≠ "")
    (hproperties : ∀ p ∈ properties, p.1 ≠ "" ∧ '=' ∉ p.1.toList) :
    parse (Command.evalArguments path flag entity space properties) =
      .command (.eval path flag entity space properties) := by
  have hparse : ∀ behind, parse ("eval" :: behind) = parseCommand "eval" behind := fun _ => rfl
  have hinner : inner? "eval" = some evaluating := rfl
  rw [Command.evalArguments, hparse, parseCommand, hinner]
  simp only [Grammar.collect_long knows_of_mem_evalValues, addAll_evalValues hproperties,
    collect_path hpath, command?_evalNamed hproperties]

theorem ofStop_ne_command (why : Stop) (c : Command) : ofStop why ≠ .command c := by
  cases why <;> exact fun h => nomatch h

/-- What is asked for was given. -/
theorem of_command?_eval {name : String} {given : Given}
    (h : command? name given = some (.eval path flag entity space properties)) :
    given.other = some path ∧ properties = (given.all "context").filterMap readProperty? := by
  rw [command?, Option.bind_eq_bind, Option.bind_eq_some_iff] at h
  obtain ⟨path', hpath, h⟩ := h
  split at h
  · cases h
  · split at h
    · cases h
    · rw [Option.bind_eq_some_iff] at h
      obtain ⟨flag', -, h⟩ := h
      rw [Option.bind_eq_some_iff] at h
      obtain ⟨entity', -, h⟩ := h
      cases h
      exact ⟨hpath, rfl⟩

/-- What is asked for is read off what stands behind the name of a command. -/
theorem exists_of_parse {args : List String} {c : Command} (h : parse args = .command c) :
    ∃ (g : Grammar) (name : String) (behind rest : List String) (given : Given),
      g.collect false .empty behind = .ok (given, rest) ∧ command? name given = some c := by
  rw [parse] at h
  split at h
  · exact absurd h (ofStop_ne_command _ c)
  · cases h
  · next name behind _ =>
      rw [parseCommand] at h
      split at h
      · split at h <;> cases h
      · next g _ =>
          split at h
          · exact absurd h (ofStop_ne_command _ c)
          · next given rest hcollect =>
              split at h
              · next hcommand =>
                  cases h
                  exact ⟨g, name, behind, rest, given, hcollect, hcommand⟩
              · cases h

/-- **Which evaluations can be asked for**: the path is not empty, and neither is the name of a property, in
which there is no `=`. -/
theorem exists_parse_eval_iff :
    (∃ args, parse args = .command (.eval path flag entity space properties)) ↔
      path ≠ "" ∧ ∀ p ∈ properties, p.1 ≠ "" ∧ '=' ∉ p.1.toList := by
  constructor
  · rintro ⟨args, h⟩
    obtain ⟨g, name, behind, rest, given, hcollect, hcommand⟩ := exists_of_parse h
    obtain ⟨hother, rfl⟩ := of_command?_eval hcommand
    refine ⟨?_, fun p hp => ?_⟩
    · rintro rfl
      exact Grammar.other_ne_of_collect hcollect hother
    · obtain ⟨s, -, hs⟩ := List.mem_filterMap.1 hp
      exact (readProperty?_eq_some_iff.1 hs).2
  · rintro ⟨hpath, hproperties⟩
    exact ⟨_, parse_evalArguments hpath hproperties⟩

end Invocation

end FeatureFlags.CommandLine
