import Mathlib
import Stowage.Remote.Expiry
/-!
Freshness against exact arithmetic.

A signed window `e` in milliseconds is `|e|` wide, and a value stamped at `at` has outlived it
at `now` when `|e| ≤ now - at`. The policy computes both numbers in the signed 64-bit range:
the age stops at the bounds of the range, and the width is clamped to `2^63 - 1`. The stop
changes nothing, since an age outside the range is past every window or short of all of them.
The clamp changes one window, `e = -2^63`, whose width `2^63` has no signed 64-bit value: a
value exactly `2^63 - 1` milliseconds old has outlived the clamped window and not the exact
one, so the policy reloads it where exact arithmetic finds it fresh.
-/
namespace Stowage.Remote

/-- What a read does once the window `e` has elapsed: reload first under a negative window,
answer and refresh under any other. -/
def elapsedFreshness (e : Int) : Freshness := if e < 0 then .reload else .refresh

/-- The freshness of a stamp under the signed window `e`, computed over the integers with the
window `w` wide: a forced expiry reloads; a weak expiry has elapsed; a stamp at `at` has
elapsed when the window is not zero and `w ≤ now - at`; anything else is fresh. -/
def referenceFreshness (e w : Int) : Stamp → Int → Freshness
  | .forceExpired, _ => .reload
  | .weakExpired, _ => elapsedFreshness e
  | .since at_, now => if e ≠ 0 ∧ w ≤ now - at_ then elapsedFreshness e else .fresh

theorem i64Max_eq : i64Max = 9223372036854775807 := by decide

theorem i64Min_eq : i64Min = -9223372036854775808 := by decide

theorem le_saturate_iff {m : Int} (lo : 1 ≤ m) (hi : m ≤ i64Max) (x : Int) :
    m ≤ saturate x ↔ m ≤ x := by
  unfold saturate
  rw [i64Max_eq] at *
  rw [i64Min_eq]
  omega

theorem clamped_le_iff {e : Int} (lo : i64Min ≤ e) (hi : e ≤ i64Max) (d : Int) :
    min (e.natAbs : Int) i64Max ≤ d ↔ (e.natAbs : Int) ≤ d ∨ (e = i64Min ∧ d = i64Max) := by
  rw [i64Max_eq, i64Min_eq] at *
  by_cases hpos : 0 ≤ e
  · rw [Int.natAbs_of_nonneg hpos]
    omega
  · rw [Int.ofNat_natAbs_of_nonpos (by omega)]
    omega

theorem elapsed_iff {e : Int} (zero : e ≠ 0) (at_ now : Int) :
    decide (saturate (now - at_) ≥ min (e.natAbs : Int) i64Max) =
      decide (min (e.natAbs : Int) i64Max ≤ now - at_) := by
  have wide : 1 ≤ min (e.natAbs : Int) i64Max := by
    rw [i64Max_eq]
    omega
  exact decide_eq_decide.mpr (le_saturate_iff wide (min_le_right _ _) _)

theorem freshness_ofMillis (e : Int) (stamp : Stamp) (now : Int) :
    (ExpiryPolicy.ofMillis e).freshness stamp now =
      referenceFreshness e (min e.natAbs i64Max) stamp now := by
  by_cases zero : e = 0
  · subst zero
    cases stamp <;> rfl
  unfold ExpiryPolicy.ofMillis
  rw [if_neg zero]
  cases stamp with
  | forceExpired => split <;> rfl
  | weakExpired =>
    by_cases neg : e < 0 <;>
      simp only [neg, ↓reduceIte, ExpiryPolicy.freshness, referenceFreshness, elapsedFreshness]
  | since at_ =>
    by_cases neg : e < 0 <;> by_cases age : min (e.natAbs : Int) i64Max ≤ now - at_ <;>
      simp only [neg, ↓reduceIte, ExpiryPolicy.freshness, elapsed_iff zero, age, decide_true,
        decide_false, referenceFreshness, elapsedFreshness, zero, ne_eq, not_false_eq_true,
        and_true, and_false]

/-- **The policy agrees with exact arithmetic but at the clamped window.** For every signed
64-bit window `e`, every stamp and every `now`, the policy answers as the integers do with the
width of `e` clamped to `2^63 - 1`; and it answers as they do with the exact width `|e|`
everywhere except at the window `-2^63` and a stamp exactly `2^63 - 1` milliseconds old. -/
theorem freshness_exact_but_clamped (e : Int) (lo : i64Min ≤ e) (hi : e ≤ i64Max) (stamp : Stamp)
    (now : Int) :
    (ExpiryPolicy.ofMillis e).freshness stamp now =
        referenceFreshness e (min e.natAbs i64Max) stamp now ∧
      ((ExpiryPolicy.ofMillis e).freshness stamp now = referenceFreshness e e.natAbs stamp now ↔
        ¬ (e = i64Min ∧ ∃ at_, stamp = .since at_ ∧ now - at_ = i64Max)) := by
  refine ⟨freshness_ofMillis e stamp now, ?_⟩
  rw [freshness_ofMillis]
  cases stamp with
  | forceExpired => simp [referenceFreshness]
  | weakExpired => simp [referenceFreshness]
  | since at_ =>
    by_cases edge : e = i64Min ∧ now - at_ = i64Max
    · -- at the edge the window and the age are fixed, so both answers are computed
      obtain ⟨rfl, age⟩ := edge
      simp only [referenceFreshness, Stamp.since.injEq, exists_eq_left', age, true_and]
      decide
    · have same : min (e.natAbs : Int) i64Max ≤ now - at_ ↔ (e.natAbs : Int) ≤ now - at_ := by
        rw [clamped_le_iff lo hi]
        exact or_iff_left edge
      simp only [referenceFreshness, same, Stamp.since.injEq, exists_eq_left']
      simpa using edge

/-- The witness at the clamped window: a value `2^63 - 1` milliseconds old under the window
`-2^63`. -/
theorem freshness_exact_but_clamped_min_window :
    (i64Min ≤ i64Min ∧ i64Min ≤ i64Max) ∧
      ((ExpiryPolicy.ofMillis i64Min).freshness (.since 0) i64Max =
          referenceFreshness i64Min (min i64Min.natAbs i64Max) (.since 0) i64Max ∧
        ((ExpiryPolicy.ofMillis i64Min).freshness (.since 0) i64Max =
            referenceFreshness i64Min i64Min.natAbs (.since 0) i64Max ↔
          ¬ (i64Min = i64Min ∧ ∃ at_, Stamp.since 0 = .since at_ ∧ i64Max - at_ = i64Max))) :=
  ⟨⟨le_refl _, by decide⟩, freshness_exact_but_clamped i64Min (le_refl _) (by decide) (.since 0) i64Max⟩

/-- Exact arithmetic finds a value `2^63 - 1` milliseconds old fresh under the window `-2^63`,
whose width is `2^63`; the policy, with the width clamped to `2^63 - 1`, reloads it. -/
theorem freshness_clamped_window :
    (ExpiryPolicy.ofMillis i64Min).freshness (.since 0) i64Max = .reload ∧
      referenceFreshness i64Min i64Min.natAbs (.since 0) i64Max = .fresh := by
  decide

end Stowage.Remote
