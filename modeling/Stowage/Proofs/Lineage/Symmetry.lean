import Stowage.Proofs.Lineage.Stamped
/-!
Comparing lineages is antisymmetric and reflexive.

`compare` takes different branches for the two orders of its arguments: the longer side is
walked for its descent from the other's newest tag, the single-tag rule mixes magnitude and
node, and the equal-magnitude rule looks at the tags below the newest. Each branch meets its
mirror image in the other order, so swapping the arguments reverses the answer for every two
lineages, well-formed or not, and every lineage is the same as itself.
-/
namespace Stowage.Version

namespace Comparison

@[simp] theorem reverse_reverse (c : Comparison) : c.reverse.reverse = c := by
  cases c <;> rfl

@[simp] theorem reverse_inj {c d : Comparison} : c.reverse = d.reverse ↔ c = d :=
  ⟨fun h => by simpa using congrArg reverse h, congrArg reverse⟩

end Comparison

namespace Lineage

theorem compare_swap (a b : Lineage) : b.compare a = (a.compare b).reverse := by
  unfold compare
  cases ha : a.last? with
  | none =>
    cases hb : b.last? with
    | none => simp [isEmpty_iff.mpr ha, isEmpty_iff.mpr hb, Comparison.reverse]
    | some t =>
      have : b.isEmpty = false := by simp [← Bool.not_eq_true, isEmpty_iff, hb]
      simp [isEmpty_iff.mpr ha, this, Comparison.reverse]
  | some s =>
    cases hb : b.last? with
    | none =>
      have : a.isEmpty = false := by simp [← Bool.not_eq_true, isEmpty_iff, ha]
      simp [isEmpty_iff.mpr hb, this, Comparison.reverse]
    | some t =>
      by_cases hst : s = t
      · subst hst
        simp [Comparison.reverse]
      have hts : t ≠ s := Ne.symm hst
      simp only [hst, hts, if_false]
      rw [← Nat.compare_swap s.magnitude t.magnitude]
      by_cases hshort : a.length = 1 ∨ b.length = 1
      · -- the single-tag rule: magnitudes decide, equal ones by their nodes
        have hshort' : b.length = 1 ∨ a.length = 1 := hshort.symm
        simp only [hshort, hshort', if_true]
        generalize Ord.compare s.magnitude t.magnitude = o
        cases o with
        | eq =>
          by_cases hn : s.node = t.node <;>
            simp [hn, eq_comm, Comparison.ofOrdering, Comparison.reverse]
        | lt | gt => simp [Comparison.ofOrdering, Comparison.reverse, Ordering.swap]
      · -- the higher side is walked for the lower side's newest tag, in either order
        have hshort' : ¬(b.length = 1 ∨ a.length = 1) := fun h => hshort h.symm
        simp only [hshort, hshort', if_false]
        generalize Ord.compare s.magnitude t.magnitude = o
        cases o with
        | lt | gt => simp only [Ordering.swap]; split <;> rfl
        | eq =>
          -- both orders ask for one node on top and one tag below it
          have hsym : (t.node = s.node ∧ b.tags.dropLast.getLast? = a.tags.dropLast.getLast?) ↔
              (s.node = t.node ∧ a.tags.dropLast.getLast? = b.tags.dropLast.getLast?) :=
            and_congr eq_comm eq_comm
          simp only [Ordering.swap, hsym]
          split <;> rfl

theorem compare_eq_iff_swap {a b : Lineage} {c : Comparison} :
    a.compare b = c ↔ b.compare a = c.reverse := by
  rw [compare_swap a b, Comparison.reverse_inj]

/-- **Comparison is antisymmetric and reflexive.** For every two lineages, well-formed or not,
swapping the arguments reverses the answer and a lineage is the same as itself; so one is
higher than the other exactly when the other is lower, and `same` and `conflict` hold both
ways or neither. -/
theorem compare_antisymmetric (a b : Lineage) :
    a.compare b = (b.compare a).reverse ∧ a.compare a = .same ∧
      (a.compare b = .higher ↔ b.compare a = .lower) ∧
      (a.compare b = .same ↔ b.compare a = .same) ∧
      (a.compare b = .conflict ↔ b.compare a = .conflict) :=
  ⟨compare_swap b a, compare_self a, compare_eq_iff_swap, compare_eq_iff_swap,
    compare_eq_iff_swap⟩

end Lineage

end Stowage.Version
