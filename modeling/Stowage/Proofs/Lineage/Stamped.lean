import Stowage.Proofs.Lineage.Descent
import Stowage.Proofs.Lineage.Text
/-!
Lineages as the store keeps them, and what a save based on one does.

A stamped lineage has at least one tag, every tag reads back from its text, and magnitudes
increase from the oldest tag to the newest, except that once the top of the range is reached
they stay there. A write by a valid node keeps a lineage stamped, also at the top of the range.

Two lineages that compare as the same are both empty, or end in tags of one node and one
magnitude. So a write based on a stamped lineage below the top of the range compares higher
than every lineage the same as its base: the base's newest tag anchors it in the write's history.
-/
namespace Stowage.Version

namespace Tag

/-- A node a lineage can carry: non-empty and free of `;`. -/
structure NodeValid (node : String) : Prop where
  ne : node ≠ ""
  no_sep : ';' ∉ node.toList

theorem magnitude_next {t : Tag} (h : (t.magnitude : Int) ≤ i64Max) (node : String)
    (isDelete : Bool) :
    ((t.next node isDelete).magnitude : Int) = min ((t.magnitude : Int) + 1) i64Max := by
  simp only [next, magnitude] at h ⊢
  cases isDelete <;> simp only [Bool.false_eq_true, ↓reduceIte, Int.natAbs_neg] <;> omega

theorem valid_next {t : Tag} (h : (t.magnitude : Int) ≤ i64Max) {node : String}
    (hnode : NodeValid node) (isDelete : Bool) : (t.next node isDelete).Valid := by
  have mag := magnitude_next h node isDelete
  have top : (0 : Int) < i64Max := by decide
  exact ⟨hnode.ne, hnode.no_sep, by omega, by omega⟩

end Tag

namespace Lineage

/-- The relation of an older tag to a newer one in a stamped lineage. -/
def Below (a b : Tag) : Prop :=
  a.magnitude < b.magnitude ∨ (a.magnitude = b.magnitude ∧ (a.magnitude : Int) = i64Max)

/-- A lineage as the store and the caches keep it. -/
structure Stamped (l : Lineage) : Prop where
  nonempty : l.tags ≠ []
  valid : l.Valid
  ascending : l.tags.Pairwise Below

theorem le_top_of_ascending {l : Lineage} (hl : l.tags.Pairwise Below) {u : Tag}
    (hu : u ∈ l.tags) : u.magnitude ≤ l.top :=
  magnitude_le_top_of_pairwise (fun _ _ h => h.elim Nat.le_of_lt fun e => Nat.le_of_eq e.1) hl hu

theorem top_le_max {l : Lineage} (hl : l.Valid) : (l.top : Int) ≤ i64Max := by
  unfold top
  cases h : l.last? with
  | none => simp [Tag.unversioned, Tag.magnitude]; decide
  | some t => exact (hl t (List.mem_of_getLast? h)).le_max

theorem Stamped.append {l : Lineage} (hl : l.tags.Pairwise Below) (hv : l.Valid) {node : String}
    (hnode : Tag.NodeValid node) (isDelete : Bool) (maxRun : Nat) :
    (l.append node isDelete maxRun).Stamped := by
  have hmax := top_le_max hv
  have next : ((l.nextTag node isDelete).magnitude : Int) = min ((l.top : Int) + 1) i64Max :=
    Tag.magnitude_next hmax node isDelete
  have fresh : (l.nextTag node isDelete).Valid := Tag.valid_next hmax hnode isDelete
  -- the new tag is above every tag, or at the top of the range with the tags that reached it
  have above : ∀ u ∈ l.tags, Below u (l.nextTag node isDelete) := by
    intro u hu
    have hle := le_top_of_ascending hl hu
    have hu' := (hv u hu).le_max
    by_cases heq : (u.magnitude : Int) = i64Max
    · exact .inr ⟨by omega, heq⟩
    · exact .inl (by omega)
  refine ⟨?_, ?_, ?_⟩
  · rcases append_cases l node isDelete maxRun with e | ⟨_, _, _, e⟩ <;> simp [e]
  · intro u hu
    rcases mem_append hu with hu | rfl
    · exact hv u hu
    · exact fresh
  · rcases append_cases l node isDelete maxRun with e | ⟨_, _, _, e⟩ <;> rw [e, List.pairwise_append]
    · exact ⟨hl, List.pairwise_singleton _ _, fun u hu v hv => by
        rw [List.mem_singleton.mp hv]; exact above u hu⟩
    · exact ⟨hl.sublist (List.dropLast_sublist _), List.pairwise_singleton _ _, fun u hu v hv => by
        rw [List.mem_singleton.mp hv]; exact above u (List.dropLast_subset _ hu)⟩

theorem stamped_first {node : String} (hnode : Tag.NodeValid node) (isDelete : Bool)
    (maxRun : Nat) : (empty.append node isDelete maxRun).Stamped :=
  Stamped.append List.Pairwise.nil (fun _ h => absurd h List.not_mem_nil) hnode isDelete maxRun

theorem Stamped.increasing {l : Lineage} (h : l.Stamped) (room : (l.top : Int) < i64Max) :
    l.Increasing := by
  unfold Increasing
  refine h.ascending.imp_of_mem fun {a b} _ hb hab => ?_
  rcases hab with lt | ⟨eq, top⟩
  · exact lt
  · have := le_top_of_ascending h.ascending hb
    omega

theorem isEmpty_iff {l : Lineage} : l.isEmpty = true ↔ l.last? = none := by
  simp [isEmpty, last?]

theorem same_cases {a b : Lineage} (h : a.compare b = .same) :
    (a.last? = none ∧ b.last? = none) ∨
      ∃ s t, a.last? = some s ∧ b.last? = some t ∧ s.node = t.node ∧ s.magnitude = t.magnitude := by
  unfold compare at h
  cases ha : a.last? with
  | none =>
    cases hb : b.last? with
    | none => exact .inl ⟨rfl, rfl⟩
    | some t =>
      have : b.isEmpty = false := by simp [← Bool.not_eq_true, isEmpty_iff, hb]
      simp [ha, hb, isEmpty_iff.mpr ha, this] at h
  | some s =>
    cases hb : b.last? with
    | none =>
      have : a.isEmpty = false := by simp [← Bool.not_eq_true, isEmpty_iff, ha]
      simp [ha, hb, this] at h
    | some t =>
      refine .inr ⟨s, t, rfl, rfl, ?_⟩
      by_cases hst : s = t
      · exact ⟨congrArg Tag.node hst, congrArg Tag.magnitude hst⟩
      -- different tags are the same only at one magnitude, and then only for one node
      have hmag : s.magnitude = t.magnitude := by
        cases hc : Ord.compare s.magnitude t.magnitude with
        | eq => exact Nat.compare_eq_eq.mp hc
        | lt | gt => simp [ha, hb, hst, hc, Comparison.ofOrdering] at h; split_ifs at h
      have hc : Ord.compare s.magnitude t.magnitude = .eq := Nat.compare_eq_eq.mpr hmag
      simp [ha, hb, hst, hc] at h
      refine ⟨?_, hmag⟩
      split_ifs at h with short hnode hboth
      · exact hnode
      · exact hboth.1

theorem compare_self (l : Lineage) : l.compare l = .same := by
  unfold compare
  cases h : l.last? with
  | some t => simp
  | none =>
    have : l.isEmpty = true := by simpa [isEmpty, last?] using h
    simp [this]

/-- **A write compares higher than what its base is the same as.** A write based on a stamped
lineage below the top of the range compares higher than every lineage the same as its base. -/
theorem compare_append_of_same {b c : Lineage} (hb : b.Stamped) (room : (b.top : Int) < i64Max)
    (h : c.compare b = .same) (node : String) (isDelete : Bool) (maxRun : Nat) :
    (b.append node isDelete maxRun).compare c = .higher := by
  rcases same_cases h with ⟨hc, hbnone⟩ | ⟨s, t, hs, ht, hnode, hmag⟩
  · exact absurd hbnone (by simpa [last?] using hb.nonempty)
  · have anchored := (anchored_of_increasing (hb.increasing room) ht hnode.symm hmag.symm).append
      room node isDelete maxRun
    refine (compare_of_anchored (last?_append b node isDelete maxRun) hs ?_ anchored).1
    rw [magnitude_nextTag room, top_of_last? ht, hmag]
    exact Nat.lt_succ_self _

end Lineage

end Stowage.Version
