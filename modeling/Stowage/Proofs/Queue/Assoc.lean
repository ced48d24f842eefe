import Stowage.Proofs.Queue.Slots
/-!
Keyed queues refine association lists.

An association list of queued entries acts on the first entry of a key: queuing a key that is
there replaces the value of its first entry, keeping the entry's place and the time it was
first queued; queuing a new key adds an entry at the back; removing a key takes out its first
entry and answers that entry's value; taking everything answers every key with its value, in
order, and leaves nothing.

A keyed queue keeps an order of keys beside a map of slots, and its list is its entries: the
slot of each key of the order. Its representation invariant is that the order lists exactly the
keys of the map, each once. The first half is re-established by every operation as it builds
the queue; the second is kept by every push and removal. Under it the map holds exactly the
entries, the map's fill and filter act on the first entry of a key only, and taking the slots out
of the map key by key answers the entries in order. So over every run of pushes, removals and
takes, a queue that holds each key once answers as the association list of its entries does,
ends holding the list's entries, and its size, membership test, emptiness test and oldest time
are those of the list.
-/
namespace Stowage

namespace KeyedQueue

/-- An operation on a keyed queue. -/
inductive Op (κ α : Type) where
  | push (k : κ) (v : α) (now : Nat)
  | remove (k : κ)
  | takeAll

/-- What an operation answers: whether a push queued a new key, the value a removal took out,
or every key with its value. -/
inductive Reply (κ α : Type) where
  | pushed (fresh : Bool)
  | removed (value : Option α)
  | taken (entries : List (κ × α))

variable {κ α : Type} [BEq κ]

/-- Apply an operation; taking everything leaves the empty queue. -/
def apply (q : KeyedQueue κ α) : Op κ α → KeyedQueue κ α × Reply κ α
  | .push k v now => ((q.push k v now).1, .pushed (q.push k v now).2)
  | .remove k => ((q.remove k).1, .removed (q.remove k).2)
  | .takeAll => (empty, .taken q.toList)

/-- Apply operations in turn, collecting the answers. -/
def run (q : KeyedQueue κ α) : List (Op κ α) → KeyedQueue κ α × List (Reply κ α)
  | [] => (q, [])
  | op :: ops => (((q.apply op).1.run ops).1, (q.apply op).2 :: ((q.apply op).1.run ops).2)

end KeyedQueue

/-! ### The association list -/

namespace AssocQueue

variable {κ α : Type} [BEq κ]

/-- The keys of the entries, in order. -/
def keys (l : List (Slot κ α)) : List κ := l.map (·.key)

/-- The first entry of `k` with its value replaced by `v`. -/
def replaceValue (k : κ) (v : α) (s : Slot κ α) : Option (Slot κ α) :=
  if s.key == k then some { s with value := v } else none

/-- Queue `v` under `k`: the first entry of `k` takes the value, or a new entry goes to the
back; `true` for a new entry. -/
def push (l : List (Slot κ α)) (k : κ) (v : α) (now : Nat) : List (Slot κ α) × Bool :=
  if l.any (·.key == k) then (l.replaceF (replaceValue k v), false) else (l ++ [⟨k, v, now⟩], true)

/-- Take out the first entry of `k`, answering its value. -/
def remove (l : List (Slot κ α)) (k : κ) : List (Slot κ α) × Option α :=
  (l.eraseP (·.key == k), (l.find? (·.key == k)).map (·.value))

/-- Apply an operation of a keyed queue. -/
def apply (l : List (Slot κ α)) : KeyedQueue.Op κ α → List (Slot κ α) × KeyedQueue.Reply κ α
  | .push k v now => ((push l k v now).1, .pushed (push l k v now).2)
  | .remove k => ((remove l k).1, .removed (remove l k).2)
  | .takeAll => ([], .taken (l.map fun s => (s.key, s.value)))

/-- Apply operations in turn, collecting the answers. -/
def run (l : List (Slot κ α)) : List (KeyedQueue.Op κ α) → List (Slot κ α) × List (KeyedQueue.Reply κ α)
  | [] => (l, [])
  | op :: ops => ((run (apply l op).1 ops).1, (apply l op).2 :: (run (apply l op).1 ops).2)

end AssocQueue

namespace KeyedQueue

/-! ### Acting on every entry of a key is acting on the first one -/

theorem key_ne_of_nodup {κ α : Type} {s : Slot κ α} {rest : List (Slot κ α)}
    (h : ((s :: rest).map (·.key)).Nodup) {t : Slot κ α} (ht : t ∈ rest) : t.key ≠ s.key := by
  intro e
  rw [List.map_cons, List.nodup_cons] at h
  exact h.1 (e ▸ List.mem_map_of_mem ht)

variable {κ α : Type} [BEq κ] [LawfulBEq κ]

theorem fill_eq_replaceF {l : List (Slot κ α)} (h : (l.map (·.key)).Nodup) (k : κ) (v : α) :
    fill l k v = l.replaceF (AssocQueue.replaceValue k v) := by
  induction l with
  | nil => rfl
  | cons s rest ih =>
    have hcons : fill (s :: rest) k v =
        (if s.key == k then { s with value := v } else s) :: fill rest k v := rfl
    rw [hcons]
    by_cases hs : s.key = k
    · -- the rest holds no entry of `k`, so filling leaves it as it is
      have keep : fill rest k v = rest := by
        unfold fill
        conv_rhs => rw [← List.map_id rest]
        exact List.map_congr_left fun t ht => by simp [hs ▸ key_ne_of_nodup h ht]
      simp [AssocQueue.replaceValue, hs, keep]
    · simp [AssocQueue.replaceValue, hs, ih (List.nodup_cons.mp h).2]

theorem filter_eq_eraseP {l : List (Slot κ α)} (h : (l.map (·.key)).Nodup) (k : κ) :
    l.filter (fun s => !(s.key == k)) = l.eraseP (·.key == k) := by
  induction l with
  | nil => rfl
  | cons s rest ih =>
    by_cases hs : s.key = k
    · have keep : rest.filter (fun s => !(s.key == k)) = rest :=
        List.filter_eq_self.mpr fun t ht => by simp [hs ▸ key_ne_of_nodup h ht]
      simp [hs, keep]
    · simp [hs, ih (List.nodup_cons.mp h).2]

/-! ### The invariant and the step -/

omit [LawfulBEq κ] in
theorem push_fresh (q : KeyedQueue κ α) (k : κ) (v : α) (now : Nat) :
    (q.push k v now).2 = !(q.contains k) := by
  unfold push
  split <;> rename_i hk <;> simp [hk]

theorem any_entries (q : KeyedQueue κ α) (k : κ) :
    q.entries.any (·.key == k) = decide (k ∈ q.keys) := by
  rw [Bool.eq_iff_iff, List.any_eq_true, decide_eq_true_iff, ← map_key_entries, List.mem_map]
  simp

theorem push_refines {q : KeyedQueue κ α} (h : q.keys.Nodup) (k : κ) (v : α) (now : Nat) :
    (q.push k v now).1.entries = (AssocQueue.push q.entries k v now).1 ∧
      (q.push k v now).2 = (AssocQueue.push q.entries k v now).2 := by
  have hn : (q.entries.map (·.key)).Nodup := (map_key_entries q).symm ▸ h
  rw [entries_push, push_fresh]
  unfold AssocQueue.push
  rw [any_entries]
  by_cases hk : k ∈ q.keys
  · simp [hk, contains_iff.mpr hk, fill_eq_replaceF hn]
  · simp [hk, show q.contains k = false from Bool.eq_false_iff.mpr fun h => hk (contains_iff.mp h)]

/-- **One operation.** A queue that holds each key once answers as the association list of its
entries does, ends holding the list's entries, and still holds each key once. -/
theorem apply_refines {q : KeyedQueue κ α} (h : q.keys.Nodup) (op : Op κ α) :
    (q.apply op).2 = (AssocQueue.apply q.entries op).2 ∧
      (q.apply op).1.entries = (AssocQueue.apply q.entries op).1 ∧ (q.apply op).1.keys.Nodup := by
  have hn : (q.entries.map (·.key)).Nodup := (map_key_entries q).symm ▸ h
  cases op with
  | push k v now =>
    obtain ⟨hentries, hreply⟩ := push_refines h k v now
    exact ⟨by simp [apply, AssocQueue.apply, hreply], hentries, nodup_keys_push h k v now⟩
  | remove k =>
    refine ⟨by simp [apply, AssocQueue.apply, AssocQueue.remove, remove_value], ?_,
      nodup_keys_remove h k⟩
    exact (entries_remove q k).trans (filter_eq_eraseP hn k)
  | takeAll => exact ⟨by simp [apply, AssocQueue.apply, toList_eq h], rfl, List.nodup_nil⟩

/-- **Every run.** Over every run of operations, a queue that holds each key once answers as the
association list of its entries does, ends holding the list's entries, and still holds each key
once. -/
theorem run_refines {q : KeyedQueue κ α} (h : q.keys.Nodup) (ops : List (Op κ α)) :
    (q.run ops).2 = (AssocQueue.run q.entries ops).2 ∧
      (q.run ops).1.entries = (AssocQueue.run q.entries ops).1 ∧ (q.run ops).1.keys.Nodup := by
  induction ops generalizing q with
  | nil => exact ⟨rfl, rfl, h⟩
  | cons op ops ih =>
    -- the step lemma hands the run the same entries, with the invariant
    obtain ⟨hreply, hentries, hnodup⟩ := apply_refines h op
    obtain ⟨hreplies, hend, hkeys⟩ := ih hnodup
    refine ⟨?_, ?_, hkeys⟩
    · simp only [run, AssocQueue.run, hreply, ← hentries, hreplies]
    · simp only [run, AssocQueue.run, ← hentries, hend]

/-- **A keyed queue refines an association list.** Over every run of pushes, removals and takes
from a queue whose order holds each key once (with the order listing exactly the keys of its
map, the queue's representation invariant, which the empty queue has), the queue answers as the
association list of its entries does and ends holding the list's entries, with each key still
once in its order and its map holding exactly those entries; and its size, membership test,
emptiness test and oldest time are the list's length, whether a key is in the list, whether the
list is empty, and when the list's first entry was queued. -/
theorem refines_assoc (q : KeyedQueue κ α) (distinct : q.keys.Nodup) (ops : List (Op κ α))
    (k : κ) :
    (q.run ops).2 = (AssocQueue.run q.entries ops).2 ∧
      (q.run ops).1.entries = (AssocQueue.run q.entries ops).1 ∧ (q.run ops).1.keys.Nodup ∧
      (q.run ops).1.entries.Perm (q.run ops).1.slots ∧
      (q.run ops).1.size = (AssocQueue.run q.entries ops).1.length ∧
      ((q.run ops).1.contains k = true ↔ k ∈ AssocQueue.keys (AssocQueue.run q.entries ops).1) ∧
      ((q.run ops).1.isEmpty = true ↔ (AssocQueue.run q.entries ops).1 = []) ∧
      (q.run ops).1.oldest? = (AssocQueue.run q.entries ops).1.head?.map (·.since) := by
  obtain ⟨hreplies, hend, hkeys⟩ := run_refines distinct ops
  refine ⟨hreplies, hend, hkeys, entries_perm hkeys, ?_, ?_, ?_, ?_⟩
  · rw [size_eq_length_keys, ← length_entries, hend]
  · rw [contains_iff, ← map_key_entries, hend]
    rfl
  · rw [isEmpty_iff, ← map_key_entries, hend, List.map_eq_nil_iff]
  · rw [oldest?_eq, hend]

/-- The refinement over a run that queues two keys, pushes the first again, removes the second
and takes what is left. -/
theorem refines_assoc_replaced :
    let q : KeyedQueue String Nat := empty
    let ops : List (Op String Nat) :=
      [.push "a" 1 0, .push "b" 2 5, .push "a" 3 9, .remove "b", .takeAll]
    q.keys.Nodup ∧
      ((q.run ops).2 = (AssocQueue.run q.entries ops).2 ∧
        (q.run ops).1.entries = (AssocQueue.run q.entries ops).1 ∧ (q.run ops).1.keys.Nodup ∧
        (q.run ops).1.entries.Perm (q.run ops).1.slots ∧
        (q.run ops).1.size = (AssocQueue.run q.entries ops).1.length ∧
        ((q.run ops).1.contains "a" = true ↔
          "a" ∈ AssocQueue.keys (AssocQueue.run q.entries ops).1) ∧
        ((q.run ops).1.isEmpty = true ↔ (AssocQueue.run q.entries ops).1 = []) ∧
        (q.run ops).1.oldest? = (AssocQueue.run q.entries ops).1.head?.map (·.since)) := by
  intro q ops
  have distinct : q.keys.Nodup := List.nodup_nil
  exact ⟨distinct, refines_assoc q distinct ops "a"⟩

end KeyedQueue

end Stowage
