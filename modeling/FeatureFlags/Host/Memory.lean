/-
**Engines behind addresses.**

A host holds an engine by an address, of which zero stands for none.  Between two calls there is nothing
but the address.  Each call makes a handle of it again, looks at the engine through the handle, and lets
go of the handle in the end, which does nothing to the engine: it stays in memory until a handle is
destroyed.

To look at an address behind which there is no engine any more, or to destroy it, is a mistake of the
host.  An engine that is destroyed is taken out of memory and released; the memory keeps those that were,
so that an engine that is lost would show, and so would one that is released twice.

Main definitions:

* `Memory`, `Memory.engine?` — the engines in memory, and the one behind an address;
* `EngineHandle`, `EngineHandle.ofRaw?` — a handle, and the one that is made of an address;
* `EngineHandle.discard` — letting go of a handle;
* `EngineHandle.new`, `EngineHandle.destroy` — **the beginning and the end of an engine**.
-/

set_option autoImplicit false

namespace FeatureFlags.Host

/-- Where an engine is in memory; zero is nowhere. -/
abbrev Address := Nat

/-- The engines in memory, how many there ever were, and those that were released, in order. -/
structure Memory (E : Type) where
  engines : List (Address × E)
  count : Nat
  released : List E
  deriving DecidableEq, Repr

namespace Memory

variable {E : Type}

/-- A memory without engines. -/
def empty : Memory E := ⟨[], 0, []⟩

/-- The engine behind an address. -/
def engine? (m : Memory E) (a : Address) : Option E := m.engines.lookup a

end Memory

/-- An address that stands for an engine. -/
structure EngineHandle where
  address : Address
  nonzero : address ≠ 0

namespace EngineHandle

variable {E : Type}

/-- Puts an engine into memory. -/
def new (e : E) (m : Memory E) : EngineHandle × Memory E :=
  let a := m.count + 1
  (⟨a, Nat.succ_ne_zero _⟩, { m with engines := (a, e) :: m.engines, count := a })

/-- The handle for an address, unless it is zero. -/
def ofRaw? (a : Address) : Option EngineHandle := if h : a = 0 then none else some ⟨a, h⟩

/-- The address for a handle, which keeps the engine in memory. -/
def intoRaw (h : EngineHandle) : Address := h.address

/-- The engine of a handle. -/
def engine? (h : EngineHandle) (m : Memory E) : Option E := m.engine? h.address

/-- Lets go of a handle at the end of a call.  A handle does not own its engine, which stays. -/
def discard (_ : EngineHandle) (m : Memory E) : Memory E := m

/-- Takes the engine of a handle out of memory and releases it. -/
def destroy (h : EngineHandle) (m : Memory E) : Memory E :=
  match h.engine? m with
  | none => m
  | some e =>
    { m with
      engines := m.engines.filter fun p => p.1 != h.address
      released := m.released ++ [e] }

end EngineHandle

end FeatureFlags.Host
