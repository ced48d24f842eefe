import Stowage.Version.Lineage
/-!
Series of writes on a lineage.

A write puts the next tag on top of a lineage: one more than the newest magnitude, written by
the writing node. Away from the top of the signed 64-bit range a series of `k` writes raises the
newest magnitude by exactly `k`, each tag of the result was either there before or written by
one of the writers, and a lineage whose magnitudes strictly increase keeps doing so, capped
runs included.
-/
namespace Stowage.Version

namespace Tag

theorem magnitude_next_of_lt {t : Tag} (h : (t.magnitude : Int) < i64Max) (node : String)
    (isDelete : Bool) : (t.next node isDelete).magnitude = t.magnitude + 1 := by
  simp only [next, magnitude] at h ⊢
  cases isDelete <;> simp only [Bool.false_eq_true, ↓reduceIte, Int.natAbs_neg] <;> omega

@[simp] theorem node_next (t : Tag) (node : String) (isDelete : Bool) :
    (t.next node isDelete).node = node := rfl

end Tag

/-- One write: the writing node, whether it deletes the record, and the longest run of its
tags kept at the end. -/
structure Write where
  node : String
  isDelete : Bool
  maxRun : Nat
  deriving DecidableEq, Repr

namespace Lineage

/-- The lineage after a series of writes, applied oldest first. -/
def appendAll (l : Lineage) (ws : List Write) : Lineage :=
  ws.foldl (fun l w => l.append w.node w.isDelete w.maxRun) l

/-- The newest magnitude: the one the next write counts on from, zero when never written. -/
def top (l : Lineage) : Nat := (l.last?.getD Tag.unversioned).magnitude

/-- Tag magnitudes strictly increase from the oldest tag to the newest. -/
def Increasing (l : Lineage) : Prop := l.tags.Pairwise fun a b => a.magnitude < b.magnitude

instance (l : Lineage) : Decidable l.Increasing :=
  inferInstanceAs (Decidable (List.Pairwise _ _))

@[simp] theorem appendAll_nil (l : Lineage) : l.appendAll [] = l := rfl

@[simp] theorem appendAll_cons (l : Lineage) (w : Write) (ws : List Write) :
    l.appendAll (w :: ws) = (l.append w.node w.isDelete w.maxRun).appendAll ws := rfl

theorem appendAll_concat (l : Lineage) (ws : List Write) (w : Write) :
    l.appendAll (ws ++ [w]) = (l.appendAll ws).append w.node w.isDelete w.maxRun := by
  simp [appendAll]

theorem top_of_last? {l : Lineage} {t : Tag} (h : l.last? = some t) : l.top = t.magnitude := by
  simp [top, h]

theorem append_cases (l : Lineage) (node : String) (isDelete : Bool) (maxRun : Nat) :
    (l.append node isDelete maxRun).tags = l.tags ++ [l.nextTag node isDelete] ∨
      ∃ last, l.last? = some last ∧ last.node = node ∧
        (l.append node isDelete maxRun).tags = l.tags.dropLast ++ [l.nextTag node isDelete] := by
  unfold append
  split
  · rename_i full
    right
    -- a full run is not empty, so the newest tag is the writer's
    obtain ⟨last, rest, hrev⟩ : ∃ last rest, l.tags.reverse = last :: rest := by
      cases h : l.tags.reverse with
      | nil => simp [trailingRun, h] at full
      | cons last rest => exact ⟨last, rest, rfl⟩
    have hnode : last.node = node := by
      have := full
      simp only [trailingRun, hrev, List.takeWhile_cons] at this
      split at this
      · rename_i hb; exact beq_iff_eq.mp hb
      · simp at this
    refine ⟨last, ?_, hnode, rfl⟩
    rw [last?, ← List.head?_reverse, hrev]
    rfl
  · exact .inl rfl

@[simp] theorem last?_append (l : Lineage) (node : String) (isDelete : Bool) (maxRun : Nat) :
    (l.append node isDelete maxRun).last? = some (l.nextTag node isDelete) := by
  rcases append_cases l node isDelete maxRun with h | ⟨_, _, _, h⟩ <;> simp [last?, h]

theorem mem_append {l : Lineage} {node : String} {isDelete : Bool} {maxRun : Nat} {u : Tag}
    (h : u ∈ (l.append node isDelete maxRun).tags) : u ∈ l.tags ∨ u = l.nextTag node isDelete := by
  rcases append_cases l node isDelete maxRun with e | ⟨_, _, _, e⟩ <;> rw [e] at h
  · simpa using h
  · rcases List.mem_append.mp h with h | h
    · exact .inl (List.dropLast_subset _ h)
    · exact .inr (List.mem_singleton.mp h)

@[simp] theorem node_nextTag (l : Lineage) (node : String) (isDelete : Bool) :
    (l.nextTag node isDelete).node = node := rfl

theorem magnitude_nextTag {l : Lineage} (h : (l.top : Int) < i64Max) (node : String)
    (isDelete : Bool) : (l.nextTag node isDelete).magnitude = l.top + 1 :=
  Tag.magnitude_next_of_lt h node isDelete

theorem top_append {l : Lineage} (h : (l.top : Int) < i64Max) (node : String) (isDelete : Bool)
    (maxRun : Nat) : (l.append node isDelete maxRun).top = l.top + 1 := by
  rw [top_of_last? (last?_append l node isDelete maxRun), magnitude_nextTag h]

theorem top_appendAll {l : Lineage} {ws : List Write} (room : (l.top + ws.length : Int) ≤ i64Max) :
    (l.appendAll ws).top = l.top + ws.length := by
  induction ws generalizing l with
  | nil => rfl
  | cons w ws ih =>
    have step := top_append (l := l) (by simp at room; omega) w.node w.isDelete w.maxRun
    rw [appendAll_cons, ih (by simp at room ⊢; omega), step]
    simp; omega

/-- The run lemma for writes: a property kept by every write made away from the top of the
range holds after a series of writes that stays within it. -/
theorem appendAll_induction {P : Lineage → Prop} {l : Lineage} {ws : List Write}
    (room : (l.top + ws.length : Int) ≤ i64Max)
    (step : ∀ l, ∀ w ∈ ws, (l.top : Int) < i64Max → P l → P (l.append w.node w.isDelete w.maxRun))
    (start : P l) : P (l.appendAll ws) := by
  induction ws generalizing l with
  | nil => exact start
  | cons w ws ih =>
    have hroom : (l.top : Int) < i64Max := by simp at room; omega
    rw [appendAll_cons]
    apply ih _ (fun l' w' hw' => step l' w' (List.mem_cons_of_mem w hw'))
    · exact step l w List.mem_cons_self hroom start
    · rw [top_append hroom]; simp at room ⊢; omega

theorem last?_appendAll (l : Lineage) (ws : List Write) (w : Write)
    (room : (l.top + (ws.length + 1) : Int) ≤ i64Max) :
    ∃ t, (l.appendAll (ws ++ [w])).last? = some t ∧ t.node = w.node ∧
      t.magnitude = l.top + (ws.length + 1) := by
  have before : (l.appendAll ws).top = l.top + ws.length := top_appendAll (by omega)
  refine ⟨_, by rw [appendAll_concat, last?_append], rfl, ?_⟩
  rw [magnitude_nextTag (by omega), before]
  omega

theorem magnitude_le_top_of_pairwise {R : Tag → Tag → Prop}
    (hR : ∀ a b, R a b → a.magnitude ≤ b.magnitude) {l : Lineage} (hl : l.tags.Pairwise R)
    {u : Tag} (hu : u ∈ l.tags) : u.magnitude ≤ l.top := by
  rcases List.eq_nil_or_concat l.tags with h | ⟨init, last, h⟩
  · simp [h] at hu
  · have hlast : l.last? = some last := by simp [last?, h]
    rw [top_of_last? hlast]
    rw [h, List.concat_eq_append, List.pairwise_append] at hl
    rw [h, List.concat_eq_append, List.mem_append, List.mem_singleton] at hu
    rcases hu with hu | rfl
    · exact hR u last (hl.2.2 u hu last (List.mem_singleton_self last))
    · exact Nat.le_refl _

theorem magnitude_le_top {l : Lineage} (hl : l.Increasing) {u : Tag} (hu : u ∈ l.tags) :
    u.magnitude ≤ l.top :=
  magnitude_le_top_of_pairwise (fun _ _ => Nat.le_of_lt) hl hu

theorem Increasing.append {l : Lineage} (hl : l.Increasing) (h : (l.top : Int) < i64Max)
    (node : String) (isDelete : Bool) (maxRun : Nat) :
    (l.append node isDelete maxRun).Increasing := by
  have above : ∀ u ∈ l.tags, u.magnitude < (l.nextTag node isDelete).magnitude := by
    intro u hu
    rw [magnitude_nextTag h]
    exact Nat.lt_succ_of_le (magnitude_le_top hl hu)
  unfold Increasing
  rcases append_cases l node isDelete maxRun with e | ⟨_, _, _, e⟩ <;> rw [e, List.pairwise_append]
  · exact ⟨hl, List.pairwise_singleton _ _, fun u hu v hv => by
      rw [List.mem_singleton.mp hv]; exact above u hu⟩
  · exact ⟨hl.sublist (List.dropLast_sublist _), List.pairwise_singleton _ _, fun u hu v hv => by
      rw [List.mem_singleton.mp hv]; exact above u (List.dropLast_subset _ hu)⟩

theorem Increasing.appendAll {l : Lineage} (hl : l.Increasing) {ws : List Write}
    (room : (l.top + ws.length : Int) ≤ i64Max) : (l.appendAll ws).Increasing :=
  appendAll_induction room (fun _ w _ hroom h' => h'.append hroom w.node w.isDelete w.maxRun) hl

end Lineage

end Stowage.Version
