/-
**Entities and the requests about them.**

A flag is evaluated for an entity, which has an identifier and properties.  A property that an entity
does not have reads as the empty text.

Main definitions:

* `Context`, `Context.value`, `Context.insert` — the properties of an entity by their names;
* `Entity`, `Request` — an entity, and a flag to be evaluated for it.
-/

set_option autoImplicit false

namespace FeatureFlags

section Lookup

variable {α β : Type} [BEq α] [LawfulBEq α] [DecidableEq α]

/-- Among the entries with certain keys, these keys have what they had. -/
theorem lookup_filter (entries : List (α × β)) (keep : α → Bool) (other : α) :
    (entries.filter fun e => keep e.1).lookup other =
      if keep other then entries.lookup other else none := by
  induction entries with
  | nil => simp
  | cons e entries ih =>
      obtain ⟨k, b⟩ := e
      by_cases ho : other = k
      · subst ho
        cases hk : keep other <;> simp [hk, ih]
      · cases hk : keep k <;> simp [List.lookup_cons, beq_false_of_ne ho, hk, ih]

/-- Without its entries a key is not found, and nothing else changes. -/
theorem lookup_filter_key (entries : List (α × β)) (key other : α) :
    (entries.filter fun e => e.1 != key).lookup other =
      if other = key then none else entries.lookup other := by
  rw [lookup_filter entries (· != key)]
  by_cases h : other = key <;> simp [h]

/-- Behind a new entry that takes the place of the old ones for its key, only this key has changed. -/
theorem lookup_replace (entries : List (α × β)) (key other : α) (b : β) :
    ((key, b) :: entries.filter fun e => e.1 != key).lookup other =
      if other = key then some b else entries.lookup other := by
  rw [List.lookup_cons, lookup_filter_key]
  by_cases h : other = key
  · simp [h]
  · simp [h, beq_false_of_ne h]

end Lookup

/-- Properties by name.  Of entries with the same name the first counts. -/
structure Context where
  entries : List (String × String)
  deriving DecidableEq, Repr

namespace Context

/-- No properties. -/
def empty : Context := ⟨[]⟩

/-- The value of a property, if there is such a property. -/
def value? (c : Context) (property : String) : Option String := c.entries.lookup property

/-- The value of a property; that of a property which is not there is empty. -/
def value (c : Context) (property : String) : String := (c.value? property).getD ""

/-- Gives a property a value, whether it had one or not. -/
def insert (c : Context) (property value : String) : Context :=
  ⟨(property, value) :: c.entries.filter fun e => e.1 != property⟩

/-- Gives properties their values one after the other. -/
def ofList (entries : List (String × String)) : Context :=
  entries.foldl (fun c e => c.insert e.1 e.2) empty

end Context

/-- What a flag is evaluated for. -/
structure Entity where
  id : String
  context : Context
  deriving DecidableEq, Repr

/-- A flag to be evaluated for an entity. -/
structure Request where
  flag : String
  entity : Entity
  deriving DecidableEq, Repr

end FeatureFlags
