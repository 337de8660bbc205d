/-
**Reading back what was written.**

A tree of files is read and changed by paths, and one place has many paths: `flags.json`, `./flags.json`,
`/srv/flags.json` and `/srv/old/../flags.json` may all be the same.  A path is read through the
directories on its way.  So whether a change is seen under a path depends on the place that the path
names before the change and on whether it still names it afterwards.

The second question is answered once for all changes: following a path only asks which places are
directories, so a change that leaves every directory in its place leaves the places of all paths alone
(`placeOf_of_keeps`).

Main definitions:

* `Files.Keeps` — a change of a tree that leaves every directory where it is.

Main results:

* `Files.read_write`, `Files.read_write_of_ne` — **what was written is read under every path of the
  place**, and nothing else under the paths of other places;
* `Files.read_withWay` — making the directories on a way hides no file;
* `Files.read_remove` — what was removed is not found.
-/
import Mathlib.Tactic.SplitIfs
import FeatureFlags.Entity
import FeatureFlags.Files

set_option autoImplicit false

namespace FeatureFlags.Files

/-! ### Places after a change -/

/-- What stands at the places of a tree after something was put at one of them. -/
theorem node?_put (f : Files) (place other : FilePath) (n : FileNode) :
    (f.put place n).node? other = if other = place then some n else f.node? other := by
  rw [node?, put, lookup_replace]
  by_cases h : other = place
  · rw [if_pos h, if_pos h]
  · rw [if_neg h, if_neg h]
    rfl

/-- A change that leaves every directory where it is. -/
structure Keeps (f g : Files) : Prop where
  working : g.working = f.working
  directory : ∀ place, f.node? place = some .directory → g.node? place = some .directory

theorem Keeps.refl (f : Files) : f.Keeps f := ⟨rfl, fun _ h => h⟩

theorem Keeps.trans {f g k : Files} (hfg : f.Keeps g) (hgk : g.Keeps k) : f.Keeps k :=
  ⟨hgk.working.trans hfg.working, fun place h => hgk.directory place (hfg.directory place h)⟩

/-- What is put at a place without a directory leaves the directories alone. -/
theorem keeps_put {f : Files} {place : FilePath} (h : f.node? place ≠ some .directory)
    (n : FileNode) : f.Keeps (f.put place n) := by
  refine ⟨rfl, fun other hother => ?_⟩
  have hne : other ≠ place := by
    rintro rfl
    exact h hother
  rw [node?_put, if_neg hne, hother]

/-- **Following names only asks which places are directories.** -/
theorem locate_of_keeps {f g : Files} (h : f.Keeps g) (names : FilePath) {start place : FilePath}
    (hplace : f.locate start names = .ok place) : g.locate start names = .ok place := by
  induction names generalizing start with
  | nil => exact hplace
  | cons name names ih =>
      rw [locate] at hplace ⊢
      split_ifs at hplace ⊢
      · exact ih hplace
      · exact ih hplace
      · exact hplace
      · split at hplace
        · cases hplace
        · next hnode =>
            rw [h.directory _ hnode]
            exact ih hplace
        · cases hplace

/-- A path names the same place after a change that leaves the directories alone. -/
theorem placeOf_of_keeps {f g : Files} (h : f.Keeps g) {path : String} {place : FilePath}
    (hplace : f.placeOf path = .ok place) : g.placeOf path = .ok place := by
  simp only [placeOf, origin, h.working] at hplace ⊢
  split_ifs at hplace ⊢ <;> exact locate_of_keeps h _ hplace

/-! ### Making directories -/

/-- Making a directory replaces nothing. -/
theorem node?_settle {f : Files} {place other : FilePath} {n : FileNode}
    (h : f.node? other = some n) : (f.settle place).node? other = some n := by
  rw [settle]
  split_ifs with hplace
  · exact h
  · have hne : other ≠ place := by
      rintro rfl
      exact hplace (by rw [h]; rfl)
    rw [node?_put, if_neg hne, h]

theorem keeps_settle (f : Files) (place : FilePath) : f.Keeps (f.settle place) := by
  refine ⟨?_, fun _ h => node?_settle h⟩
  rw [settle]
  split_ifs <;> rfl

/-- Making the directories on a way replaces nothing and leaves the others where they are. -/
theorem withWay_spec (f : Files) (path : String) :
    f.Keeps (f.withWay path) ∧
      ∀ place n, f.node? place = some n → (f.withWay path).node? place = some n := by
  rw [withWay]
  generalize List.range _ = lengths
  induction lengths generalizing f with
  | nil => exact ⟨.refl f, fun _ _ h => h⟩
  | cons l lengths ih =>
      rw [List.foldl_cons]
      split
      · next place _ =>
          obtain ⟨hkeeps, hnodes⟩ := ih (f.settle place)
          exact ⟨(keeps_settle f place).trans hkeeps, fun p n h => hnodes p n (node?_settle h)⟩
      · exact ih f

/-- **Making the directories on a way hides no file.** -/
theorem read_withWay {f : Files} (path : String) {other : String} {content : List UInt8}
    (h : f.read other = .ok content) : (f.withWay path).read other = .ok content := by
  obtain ⟨hkeeps, hnodes⟩ := f.withWay_spec path
  simp only [read] at h ⊢
  cases hplace : f.placeOf other with
  | error fault => rw [hplace] at h; cases h
  | ok place =>
      rw [hplace] at h
      rw [placeOf_of_keeps hkeeps hplace]
      dsimp only at h ⊢
      cases hnode : f.node? place with
      | none => rw [hnode] at h; cases h
      | some n =>
          rw [hnode] at h
          rw [hnodes place n hnode]
          exact h

/-! ### Writing and removing -/

section Change

variable {f : Files} {path other : String} {place spot : FilePath} {content : List UInt8}

theorem write_eq (hplace : (f.withWay path).placeOf path = .ok place)
    (hfile : (f.withWay path).node? place ≠ some .directory) :
    f.write path content = (f.withWay path).put place (.file content) := by
  simp only [write, hplace, if_neg hfile]

/-- **What was written is read**, under every path of the place. -/
theorem read_write (hplace : (f.withWay path).placeOf path = .ok place)
    (hfile : (f.withWay path).node? place ≠ some .directory)
    (hother : (f.withWay path).placeOf other = .ok place) :
    (f.write path content).read other = .ok content := by
  rw [write_eq hplace hfile, read, placeOf_of_keeps (keeps_put hfile _) hother]
  simp only [node?_put, if_true]

example : ((empty.write "/srv/flags.json" [1]).write "f" [2]).read "../srv/./flags.json" = .ok [1] :=
  rfl

/-- Under the paths of other places nothing has changed. -/
theorem read_write_of_ne (hplace : (f.withWay path).placeOf path = .ok place)
    (hfile : (f.withWay path).node? place ≠ some .directory)
    (hother : (f.withWay path).placeOf other = .ok spot) (hne : spot ≠ place) :
    (f.write path content).read other = (f.withWay path).read other := by
  rw [write_eq hplace hfile, read, read, placeOf_of_keeps (keeps_put hfile _) hother, hother]
  simp only [node?_put, if_neg hne]

/-- A directory that was made is read as one. -/
theorem read_makeDirectory (hplace : (f.withWay path).placeOf path = .ok place)
    (hfree : (f.withWay path).node? place = none) :
    (f.makeDirectory path).read path = .error .isDirectory := by
  have hmake : f.makeDirectory path = (f.withWay path).settle place := by
    simp only [makeDirectory, hplace]
  have hnode : ((f.withWay path).settle place).node? place = some .directory := by
    simp only [settle, hfree, node?_put, if_true, Option.isSome_none, Bool.false_eq_true, if_false]
  rw [hmake, read, placeOf_of_keeps (keeps_settle _ _) hplace]
  simp only [hnode]

/-- What stands at the places of a tree of which a part was removed. -/
theorem node?_clear (f : Files) (place other : FilePath) :
    (f.clear place).node? other =
      if place.isPrefixOf other then
        if other.isPrefixOf f.working then some .directory else none
      else f.node? other := by
  simp only [node?, clear, lookup_filter f.entries (!place.isPrefixOf ·) other]
  cases place.isPrefixOf other <;> rfl

/-- Where a part of the tree was removed, following names leads where it did, or nowhere. -/
theorem locate_clear (f : Files) (place : FilePath) (names : FilePath) {start spot : FilePath}
    (h : f.locate start names = .ok spot) :
    (f.clear place).locate start names = .ok spot ∨
      (f.clear place).locate start names = .error .notFound := by
  induction names generalizing start with
  | nil => exact .inl h
  | cons name names ih =>
      rw [locate] at h ⊢
      split_ifs at h ⊢
      · exact ih h
      · exact ih h
      · exact .inl h
      · split at h
        · cases h
        · next hnode =>
            rw [node?_clear, hnode]
            split_ifs
            · exact ih h
            · exact .inr rfl
            · exact ih h
        · cases h

/-- **What was removed is not found**; the directories down to the working directory stay. -/
theorem read_remove (hplace : f.placeOf path = .ok place)
    (hfree : place.isPrefixOf f.working = false) :
    (f.remove path).read path = .error .notFound := by
  have hremove : f.remove path = f.clear place := by simp only [remove, hplace]
  have hgone : (f.clear place).node? place = none := by simp [node?_clear, hfree]
  have hlocate : (f.clear place).placeOf path = .ok place ∨
      (f.clear place).placeOf path = .error .notFound := by
    simp only [placeOf] at hplace ⊢
    split_ifs at hplace ⊢
    exact locate_clear f place _ hplace
  rw [hremove, read]
  rcases hlocate with h | h
  · rw [h]
    simp only [hgone]
  · rw [h]

end Change

end FeatureFlags.Files
