import Mathlib
import Stowage.Queue
/-!
A keyed queue read through its order.

The entries of a queue are the slots of the keys of its order, in order. The map holds a slot for
every key of the order, so the entries list the order's keys; where the order holds each key once,
which every push and removal keeps, the entries are the map's slots rearranged into queue order,
and taking everything answers their keys with their values. Each operation then acts on the
entries as on a list: a push fills the entry of its key or adds an entry at the back, a removal
drops the key's entry, and the size, membership and emptiness tests and the oldest time read the
entries.
-/
namespace Stowage

namespace KeyedQueue

variable {κ α : Type}

/-- The queued keys, in queue order. -/
def keys (q : KeyedQueue κ α) : List κ := q.order

theorem size_eq_length_keys (q : KeyedQueue κ α) : q.size = q.keys.length := by
  rw [size, keys, q.listed.length_eq, List.length_map]

theorem isEmpty_iff [BEq κ] {q : KeyedQueue κ α} : q.isEmpty = true ↔ q.keys = [] := by
  rw [isEmpty, List.isEmpty_iff, ← List.length_eq_zero_iff, ← size, size_eq_length_keys,
    List.length_eq_zero_iff]

/-- Every slot's value is tied to its key by `P`. -/
def Tied (P : κ → α → Prop) (q : KeyedQueue κ α) : Prop := ∀ s ∈ q.slots, P s.key s.value

theorem Tied.imp {P P' : κ → α → Prop} {q : KeyedQueue κ α} (h : q.Tied P)
    (hP : ∀ k v, P k v → P' k v) : q.Tied P' :=
  fun s hs => hP _ _ (h s hs)

/-- The queue of the slots `l`, in the order of `l`. -/
def ofSlots (l : List (Slot κ α)) : KeyedQueue κ α :=
  ⟨l.map (·.key), l.reverse, by rw [List.map_reverse]; exact (List.reverse_perm _).symm⟩

@[simp] theorem keys_ofSlots (l : List (Slot κ α)) : (ofSlots l).keys = l.map (·.key) := rfl

theorem tied_ofSlots {P : κ → α → Prop} {l : List (Slot κ α)} (h : ∀ s ∈ l, P s.key s.value) :
    (ofSlots l).Tied P :=
  fun s hs => h s (List.mem_reverse.mp hs)

@[simp] theorem keys_empty : (empty : KeyedQueue κ α).keys = [] := rfl

theorem tied_empty (P : κ → α → Prop) : (empty : KeyedQueue κ α).Tied P := fun _ h => by cases h

theorem mem_keys {q : KeyedQueue κ α} {k : κ} : k ∈ q.keys ↔ ∃ s ∈ q.slots, s.key = k := by
  rw [keys, q.listed.mem_iff, List.mem_map]

/-- `r` keeps some of the keys of `q`, in order, and some of its slots. -/
def Subqueue (r q : KeyedQueue κ α) : Prop := r.keys.Sublist q.keys ∧ r.slots ⊆ q.slots

theorem Subqueue.refl (q : KeyedQueue κ α) : q.Subqueue q := ⟨.refl _, fun _ h => h⟩

theorem subqueue_empty (q : KeyedQueue κ α) : (empty : KeyedQueue κ α).Subqueue q :=
  ⟨List.nil_sublist _, fun _ h => by cases h⟩

theorem Tied.subqueue {P : κ → α → Prop} {q r : KeyedQueue κ α} (h : q.Tied P)
    (hr : r.Subqueue q) : r.Tied P :=
  fun s hs => h s (hr.2 hs)

section Found

variable [BEq κ]

theorem Tied.remove {P : κ → α → Prop} {q : KeyedQueue κ α} (h : q.Tied P) (k : κ) :
    (q.remove k).1.Tied P := by
  unfold KeyedQueue.remove
  split
  · exact h
  · exact fun s hs => h s (List.mem_filter.mp hs).1

/-- The entries of a queue: the slot of each key of the order, in order. -/
def entries (q : KeyedQueue κ α) : List (Slot κ α) := q.order.filterMap q.slot?

@[simp] theorem entries_empty : (empty : KeyedQueue κ α).entries = [] := rfl

theorem toList_of_keys_nil {q : KeyedQueue κ α} (hq : q.keys = []) : q.toList = [] := by
  rw [toList, show q.order = [] from hq, takeSlots]

variable [LawfulBEq κ] {q : KeyedQueue κ α}

theorem slot?_eq_some {k : κ} {s : Slot κ α} (h : q.slot? k = some s) : s ∈ q.slots ∧ s.key = k :=
  ⟨List.mem_of_find?_eq_some h, by simpa using List.find?_some h⟩

theorem contains_iff {k : κ} : q.contains k = true ↔ k ∈ q.keys := by
  simp [contains, mem_keys]

theorem slot?_eq_none {k : κ} : q.slot? k = none ↔ k ∉ q.keys := by
  simp [slot?, List.find?_eq_none, mem_keys]

theorem exists_slot? {k : κ} (hk : k ∈ q.keys) : ∃ s, q.slot? k = some s :=
  Option.ne_none_iff_exists'.mp fun h => slot?_eq_none.mp h hk

theorem mem_entries {s : Slot κ α} : s ∈ q.entries ↔ s.key ∈ q.keys ∧ q.slot? s.key = some s := by
  constructor
  · intro hs
    obtain ⟨k, hk, hks⟩ := List.mem_filterMap.mp hs
    obtain rfl := (slot?_eq_some hks).2
    exact ⟨hk, hks⟩
  · rintro ⟨hk, hks⟩
    exact List.mem_filterMap.mpr ⟨s.key, hk, hks⟩

theorem map_key_entries (q : KeyedQueue κ α) : q.entries.map (·.key) = q.keys := by
  rw [entries, List.map_filterMap]
  trans q.order.filterMap some
  · refine List.filterMap_congr fun k hk => ?_
    obtain ⟨s, hs⟩ := exists_slot? (q := q) hk
    rw [hs, Option.map_some, (slot?_eq_some hs).2]
  · exact List.filterMap_some

theorem length_entries (q : KeyedQueue κ α) : q.entries.length = q.keys.length := by
  rw [← map_key_entries, List.length_map]

theorem Tied.entries {P : κ → α → Prop} (h : q.Tied P) : ∀ s ∈ q.entries, P s.key s.value :=
  fun _ hs => h _ (slot?_eq_some (mem_entries.mp hs).2).1

theorem find?_entries (k : κ) : q.entries.find? (·.key == k) = q.slot? k := by
  cases hk : q.slot? k with
  | none =>
    refine List.find?_eq_none.mpr fun s hs hsk => ?_
    rw [beq_iff_eq] at hsk
    exact slot?_eq_none.mp hk (hsk ▸ (mem_entries.mp hs).1)
  | some s =>
    have hs : s ∈ q.entries := mem_entries.mpr (by
      rw [(slot?_eq_some hk).2]
      exact ⟨mem_keys.mpr ⟨s, (slot?_eq_some hk).1, (slot?_eq_some hk).2⟩, hk⟩)
    have hsome : (q.entries.find? (·.key == k)).isSome :=
      List.find?_isSome.mpr ⟨s, hs, by simp [(slot?_eq_some hk).2]⟩
    obtain ⟨t, ht⟩ := Option.isSome_iff_exists.mp hsome
    have htk : t.key = k := by simpa using List.find?_some ht
    rw [ht, ← hk, ← htk]
    exact ((mem_entries.mp (List.mem_of_find?_eq_some ht)).2).symm

theorem entries_perm (h : q.keys.Nodup) : q.entries.Perm q.slots := by
  have hn : q.entries.Nodup := ((map_key_entries q).symm ▸ h).of_map _
  refine (hn.subperm fun s hs => (slot?_eq_some (mem_entries.mp hs).2).1).perm_of_length_le ?_
  rw [← size, size_eq_length_keys, length_entries]

theorem oldest?_eq (q : KeyedQueue κ α) : q.oldest? = q.entries.head?.map (·.since) := by
  unfold oldest? entries
  rw [List.head?_filterMap]
  cases ho : q.order with
  | nil => rfl
  | cons k ks =>
    obtain ⟨s, hs⟩ := exists_slot? (q := q) (k := k) (by simp [keys, ho])
    simp [hs]

/-! ### Taking everything -/

theorem mem_takeSlots {ks : List κ} {slots : List (Slot κ α)} {x : κ × α}
    (hx : x ∈ takeSlots ks slots) : x.1 ∈ ks ∧ ∃ s ∈ slots, s.key = x.1 ∧ s.value = x.2 := by
  induction ks generalizing slots with
  | nil => cases hx
  | cons k ks ih =>
    unfold takeSlots at hx
    split at hx
    · rename_i s hs
      rcases List.mem_cons.mp hx with rfl | hx
      · exact ⟨List.mem_cons_self, s, List.mem_of_find?_eq_some hs,
          by simpa using List.find?_some hs, rfl⟩
      · obtain ⟨hk, s', hs', hks'⟩ := ih hx
        exact ⟨List.mem_cons_of_mem _ hk, s', (List.mem_filter.mp hs').1, hks'⟩
    · obtain ⟨hk, hs⟩ := ih hx
      exact ⟨List.mem_cons_of_mem _ hk, hs⟩

theorem takeSlots_eq {ks : List κ} (h : ks.Nodup) (slots : List (Slot κ α)) :
    takeSlots ks slots =
      ks.filterMap fun k => (slots.find? (·.key == k)).map fun s => (k, s.value) := by
  induction ks generalizing slots with
  | nil => rfl
  | cons k ks ih =>
    obtain ⟨hk, hks⟩ := List.nodup_cons.mp h
    unfold takeSlots
    split
    · rename_i s hs
      rw [ih hks, List.filterMap_cons, hs, Option.map_some]
      congr 1
      -- the later keys are not `k`, so dropping `k`'s slot leaves their lookups alone
      refine List.filterMap_congr fun k' hk' => ?_
      have hne : k' ≠ k := fun e => hk (e ▸ hk')
      rw [List.find?_filter]
      congr 1
      refine List.find?_congr fun t _ => ?_
      by_cases ht : t.key = k' <;> simp [ht, hne]
    · rename_i hs
      rw [ih hks, List.filterMap_cons, hs, Option.map_none]

theorem toList_eq (h : q.keys.Nodup) : q.toList = q.entries.map fun s => (s.key, s.value) := by
  have horder : q.order.Nodup := h
  rw [toList, takeSlots_eq horder, entries, List.map_filterMap]
  refine List.filterMap_congr fun k _ => ?_
  change (q.slot? k).map _ = (q.slot? k).map _
  cases hs : q.slot? k with
  | none => rfl
  | some s => simp [(slot?_eq_some hs).2]

theorem mem_toList {x : κ × α} (hx : x ∈ q.toList) :
    x.1 ∈ q.keys ∧ ∃ s ∈ q.slots, s.key = x.1 ∧ s.value = x.2 :=
  mem_takeSlots hx

theorem mem_keys_of_mem_toList {x : κ × α} (hx : x ∈ q.toList) : x.1 ∈ q.keys :=
  (mem_toList hx).1

theorem Tied.toList {P : κ → α → Prop} (h : q.Tied P) : ∀ x ∈ q.toList, P x.1 x.2 := by
  intro x hx
  obtain ⟨-, s, hs, hk, hv⟩ := mem_toList hx
  rw [← hk, ← hv]
  exact h s hs

theorem map_fst_toList (h : q.keys.Nodup) : q.toList.map Prod.fst = q.keys := by
  rw [toList_eq h, List.map_map, ← map_key_entries]
  rfl

theorem map_toList_of_tied {β : Type} (h : q.keys.Nodup) (p : κ × α → β) (g : β → κ)
    (hg : ∀ x ∈ q.toList, g (p x) = x.1) : (q.toList.map p).map g = q.keys := by
  rw [List.map_map, ← map_fst_toList h]
  exact List.map_congr_left hg

/-! ### Pushing and removing -/

theorem keys_push (q : KeyedQueue κ α) (k : κ) (v : α) (now : Nat) :
    (q.push k v now).1.keys = if k ∈ q.keys then q.keys else q.keys ++ [k] := by
  unfold push
  by_cases hk : k ∈ q.keys
  · rw [if_pos (contains_iff.mpr hk), if_pos hk]
    rfl
  · rw [if_neg (fun h => hk (contains_iff.mp h)), if_neg hk]
    rfl

theorem mem_keys_push {k k' : κ} {v : α} {now : Nat} (h : k' ∈ (q.push k v now).1.keys) :
    k' ∈ q.keys ∨ k' = k := by
  rw [keys_push] at h
  split at h
  · exact .inl h
  · rcases List.mem_append.mp h with h | h
    · exact .inl h
    · exact .inr (List.mem_singleton.mp h)

theorem nodup_keys_push (h : q.keys.Nodup) (k : κ) (v : α) (now : Nat) :
    (q.push k v now).1.keys.Nodup := by
  rw [keys_push]
  split
  · exact h
  · exact List.nodup_append.mpr ⟨h, List.nodup_singleton k,
      fun a ha b hb hab => ‹k ∉ q.keys› (List.mem_singleton.mp hb ▸ hab ▸ ha)⟩

theorem Tied.push {P : κ → α → Prop} (h : q.Tied P) {k : κ} {v : α} (hv : P k v) (now : Nat) :
    (q.push k v now).1.Tied P := by
  unfold KeyedQueue.push
  split
  · intro s hs
    obtain ⟨s₀, hs₀, rfl⟩ := List.mem_map.mp hs
    by_cases hk : s₀.key = k
    · simpa [hk] using hv
    · simpa [hk] using h s₀ hs₀
  · intro s hs
    rcases List.mem_cons.mp hs with rfl | hs
    · exact hv
    · exact h s hs

theorem entries_push (q : KeyedQueue κ α) (k : κ) (v : α) (now : Nat) :
    (q.push k v now).1.entries =
      if k ∈ q.keys then fill q.entries k v else q.entries ++ [⟨k, v, now⟩] := by
  unfold push
  by_cases hk : k ∈ q.keys
  · rw [if_pos (contains_iff.mpr hk), if_pos hk]
    -- filling keeps every key, so each lookup finds the filled slot
    simp only [entries, fill, List.map_filterMap]
    refine List.filterMap_congr fun k' _ => ?_
    simp only [slot?, List.find?_map]
    congr 2
    funext s
    by_cases hs : s.key = k <;> simp [hs]
  · rw [if_neg (fun h => hk (contains_iff.mp h)), if_neg hk]
    simp only [entries, List.filterMap_append]
    congr 1
    · refine List.filterMap_congr fun k' hk' => ?_
      have hne : k ≠ k' := fun e => hk (e ▸ hk')
      simp [slot?, hne]
    · simp [slot?]

theorem toList_push_of_not_mem (h : q.keys.Nodup) {k : κ} (hk : k ∉ q.keys) (v : α) (now : Nat) :
    (q.push k v now).1.toList = q.toList ++ [(k, v)] := by
  rw [toList_eq (nodup_keys_push h k v now), entries_push, if_neg hk, toList_eq h, List.map_append]
  rfl

theorem keys_remove (q : KeyedQueue κ α) (k : κ) :
    (q.remove k).1.keys = q.keys.filter fun x => !(x == k) := by
  unfold remove
  split
  · rename_i hk
    refine (List.filter_eq_self.mpr fun x hx => ?_).symm
    have hne : x ≠ k := fun e => slot?_eq_none.mp hk (e ▸ hx)
    simp [hne]
  · rfl

theorem mem_keys_remove {k k' : κ} (h : k' ∈ (q.remove k).1.keys) : k' ∈ q.keys ∧ k' ≠ k := by
  rw [keys_remove] at h
  obtain ⟨h, hne⟩ := List.mem_filter.mp h
  exact ⟨h, by simpa using hne⟩

theorem subqueue_remove (q : KeyedQueue κ α) (k : κ) : (q.remove k).1.Subqueue q := by
  refine ⟨keys_remove q k ▸ List.filter_sublist, ?_⟩
  unfold remove
  split
  · exact fun _ h => h
  · exact fun s hs => (List.mem_filter.mp hs).1

theorem mem_slots_remove {k : κ} {s : Slot κ α} (hs : s ∈ (q.remove k).1.slots) :
    s ∈ q.slots ∧ s.key ≠ k := by
  unfold remove at hs
  split at hs
  · rename_i hnone
    exact ⟨hs, fun hk => slot?_eq_none.mp hnone (mem_keys.mpr ⟨s, hs, hk⟩)⟩
  · obtain ⟨hs, hne⟩ := List.mem_filter.mp hs
    exact ⟨hs, by simpa using hne⟩

theorem nodup_keys_remove (h : q.keys.Nodup) (k : κ) : (q.remove k).1.keys.Nodup := by
  rw [keys_remove]
  exact h.filter _

theorem remove_value (q : KeyedQueue κ α) (k : κ) :
    (q.remove k).2 = (q.entries.find? (·.key == k)).map (·.value) := by
  rw [find?_entries]
  unfold remove
  split <;> rename_i hk <;> simp [hk]

theorem entries_remove (q : KeyedQueue κ α) (k : κ) :
    (q.remove k).1.entries = q.entries.filter fun s => !(s.key == k) := by
  unfold remove
  split
  · rename_i hk
    refine (List.filter_eq_self.mpr fun s hs => ?_).symm
    have hne : s.key ≠ k := fun e => slot?_eq_none.mp hk (e ▸ (mem_entries.mp hs).1)
    simp [hne]
  · simp only [entries, List.filterMap_filter, List.filter_filterMap]
    refine List.filterMap_congr fun k' hk' => ?_
    simp only [slot?]
    by_cases hne : k' = k
    · -- the slot of the removed key is its own, so the filter drops it
      subst hne
      obtain ⟨s, hs⟩ := exists_slot? (q := q) hk'
      have hsk := (slot?_eq_some hs).2
      simp only [slot?] at hs
      simp [hs, hsk, Option.filter_some]
    · -- other keys keep their slots
      have hlook : (q.slots.filter fun s => !(s.key == k)).find? (·.key == k') =
          q.slots.find? (·.key == k') := by
        rw [List.find?_filter]
        exact List.find?_congr fun t _ => by by_cases ht : t.key = k' <;> simp [ht, hne]
      rw [hlook]
      cases hs : q.slots.find? (·.key == k') with
      | none => simp [hne]
      | some s =>
        have hsk : s.key = k' := by simpa using List.find?_some hs
        simp [hne, hsk, Option.filter_some]

theorem find?_key_of_nodup {l : List (Slot κ α)} (h : (l.map (·.key)).Nodup) {s : Slot κ α}
    (hs : s ∈ l) : l.find? (·.key == s.key) = some s := by
  have hsome : (l.find? (·.key == s.key)).isSome := List.find?_isSome.mpr ⟨s, hs, by simp⟩
  obtain ⟨t, ht⟩ := Option.isSome_iff_exists.mp hsome
  have htk : t.key = s.key := by simpa using List.find?_some ht
  rw [ht, List.inj_on_of_nodup_map h (List.mem_of_find?_eq_some ht) hs htk]

theorem entries_ofSlots {l : List (Slot κ α)} (h : (l.map (·.key)).Nodup) :
    (ofSlots l).entries = l := by
  have hrev : (l.reverse.map (·.key)).Nodup := by
    rw [List.map_reverse]
    exact List.nodup_reverse.mpr h
  change (l.map (·.key)).filterMap (fun k => l.reverse.find? (·.key == k)) = l
  rw [List.filterMap_map]
  refine (List.filterMap_congr fun s hs => ?_).trans List.filterMap_some
  exact find?_key_of_nodup hrev (List.mem_reverse.mpr hs)

theorem push_ofSlots {l : List (Slot κ α)} {k : κ} (hk : k ∉ l.map (·.key)) (v : α) (now : Nat) :
    (ofSlots l).push k v now = (ofSlots (l ++ [⟨k, v, now⟩]), true) := by
  unfold push
  rw [if_neg fun h => hk (contains_iff.mp h)]
  simp [ofSlots]

end Found

end KeyedQueue

end Stowage
