/-!
Keyed first-in first-out queues.

A keyed queue holds each key at most once, in the order keys were first pushed. It keeps two
structures: the keys in queue order, and a map from each key to its slot, which holds the
value and the time the key was first queued. Pushing a key that is queued replaces the value in
its slot and keeps the key's place and its time, so a value that keeps being replaced is not
pushed to the back. Taking everything walks the keys in order and takes each key's slot out of
the map.
-/
namespace Stowage

/-- The slot of a queued key: its value and the time the key was first queued. -/
structure Slot (κ : Type) (α : Type) where
  key : κ
  value : α
  since : Nat

/-- A keyed queue: the keys in the order they were first pushed, beside the map of their slots,
kept as a list searched by key whose own order means nothing. The order lists exactly the keys
of the map; that it lists each of them once is what the operations keep. -/
structure KeyedQueue (κ : Type) (α : Type) where
  order : List κ
  slots : List (Slot κ α)
  listed : order.Perm (slots.map (·.key))

namespace KeyedQueue

variable {κ : Type} {α : Type} [BEq κ]

/-- The empty queue. -/
def empty : KeyedQueue κ α := ⟨[], [], .nil⟩

/-- The slot of a key in the map. -/
def slot? (q : KeyedQueue κ α) (k : κ) : Option (Slot κ α) := q.slots.find? (·.key == k)

/-- Whether a key is queued: whether the map holds it. -/
def contains (q : KeyedQueue κ α) (k : κ) : Bool := q.slots.any (·.key == k)

/-- Number of queued keys: the size of the map. -/
def size (q : KeyedQueue κ α) : Nat := q.slots.length

/-- Whether nothing is queued: whether the map is empty. -/
def isEmpty (q : KeyedQueue κ α) : Bool := q.slots.isEmpty

/-- Put `v` in the slot of `k`. -/
def fill (slots : List (Slot κ α)) (k : κ) (v : α) : List (Slot κ α) :=
  slots.map fun s => if s.key == k then { s with value := v } else s

theorem keys_fill (slots : List (Slot κ α)) (k : κ) (v : α) :
    (fill slots k v).map (·.key) = slots.map (·.key) := by
  unfold fill
  rw [List.map_map]
  exact List.map_congr_left fun s _ => by by_cases h : s.key == k <;> simp [h]

theorem listed_filter {order : List κ} {slots : List (Slot κ α)}
    (h : order.Perm (slots.map (·.key))) (k : κ) :
    (order.filter fun x => !(x == k)).Perm
      ((slots.filter fun s => !(s.key == k)).map (·.key)) := by
  have h' := h.filter fun x => !(x == k)
  rwa [List.filter_map] at h'

/-- Queue `v` under `k` at time `now`; `false` when it replaced a queued value. -/
def push (q : KeyedQueue κ α) (k : κ) (v : α) (now : Nat) : KeyedQueue κ α × Bool :=
  if q.contains k then
    (⟨q.order, fill q.slots k v, (keys_fill q.slots k v).symm ▸ q.listed⟩, false)
  else
    (⟨q.order ++ [k], ⟨k, v, now⟩ :: q.slots,
      (List.perm_append_singleton k q.order).trans (q.listed.cons k)⟩, true)

/-- Take `k` out of the map and then out of the order, answering its value; nothing changes
when the map does not hold it. -/
def remove (q : KeyedQueue κ α) (k : κ) : KeyedQueue κ α × Option α :=
  match q.slot? k with
  | none => (q, none)
  | some s =>
    (⟨q.order.filter (fun x => !(x == k)), q.slots.filter (fun s => !(s.key == k)),
      listed_filter q.listed k⟩, some s.value)

/-- When the oldest queued key was first queued: the slot of the first key of the order. -/
def oldest? (q : KeyedQueue κ α) : Option Nat := ((q.order.head?).bind q.slot?).map (·.since)

/-- Walk keys in order, taking each key's slot out of the map. -/
def takeSlots : List κ → List (Slot κ α) → List (κ × α)
  | [], _ => []
  | k :: ks, slots =>
    match slots.find? (·.key == k) with
    | some s => (k, s.value) :: takeSlots ks (slots.filter fun s => !(s.key == k))
    | none => takeSlots ks slots

/-- Every key with its value, in queue order: what taking everything answers. -/
def toList (q : KeyedQueue κ α) : List (κ × α) := takeSlots q.order q.slots

end KeyedQueue

end Stowage
