/-!
Listener registries.

Listeners are kept in registration order, each under a number handed out when it is added,
starting from 1. Removing a number that is not registered changes nothing. A fan-out calls the
listeners registered when it starts, in order; listeners added during it are first called by
the next fan-out.
-/
namespace Stowage

/-- Registered listeners of type `β`. -/
structure Listeners (β : Type) where
  entries : List (Nat × β)
  nextId : Nat

namespace Listeners

variable {β : Type}

/-- No listener yet. -/
def empty : Listeners β := ⟨[], 1⟩

instance : Inhabited (Listeners β) := ⟨empty⟩

/-- Register a listener, answering its number. -/
def add (ls : Listeners β) (l : β) : Listeners β × Nat :=
  (⟨ls.entries ++ [(ls.nextId, l)], ls.nextId + 1⟩, ls.nextId)

/-- Unregister a number; `false` when it was not registered. -/
def remove (ls : Listeners β) (n : Nat) : Listeners β × Bool :=
  let kept := ls.entries.filter (·.1 != n)
  (⟨kept, ls.nextId⟩, kept.length != ls.entries.length)

/-- Number of registered listeners. -/
def size (ls : Listeners β) : Nat := ls.entries.length

/-- The listeners a fan-out starting now calls, in order. -/
def snapshot (ls : Listeners β) : List β := ls.entries.map (·.2)

end Listeners

end Stowage
