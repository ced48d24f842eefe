import Mathlib
import Stowage.Proofs.Lineage.Writes
/-!
Descent between lineages.

`compare` decides descent by walking the longer history back from its newest tag to the other
side's newest magnitude. Two shapes of history decide that walk:

* `Anchored t`: below some tag of `t`'s node at `t`'s magnitude or above, only smaller
  magnitudes, and above it only greater ones. The walk then finds `t`'s node, either at `t`'s
  magnitude or as the oldest tag above it (the tag that replaced `t` in a capped run). Writes on
  a lineage keep its newest tag anchored, so a series of writes is always higher than where it
  started (`compare_appendAll`).
* `WrittenAbove S m`: every tag above magnitude `m` was written by a node of `S`. The walk from
  such a history towards a tag above `m` written outside `S` never finds its node, so two
  series of writes by disjoint sets of nodes on one lineage conflict once both sides have more
  than one tag (`compare_forks_conflict`).

Read without the walk, a strictly increasing history whose newest tag is above a target records
it when it holds a tag of the target's magnitude by the target's node, or holds none of that
magnitude and its least tag above it is by the target's node (`Recorded`); the walk decides
exactly that (`descendsFrom_iff`).
-/
namespace Stowage.Version

namespace Lineage

open descendsFrom (go)

theorem go_append_above {t : Tag} {xs : List Tag} (ys : List Tag) (newer : Option Tag)
    (above : ∀ u ∈ xs, t.magnitude < u.magnitude) :
    go t (xs ++ ys) newer = go t ys (xs.getLast?.or newer) := by
  induction xs generalizing newer with
  | nil => rfl
  | cons u xs ih =>
    have hu := above u List.mem_cons_self
    rw [List.cons_append, go, if_pos hu, ih _ fun v hv => above v (List.mem_cons_of_mem u hv),
      List.getLast?_cons]
    cases xs.getLast? <;> rfl

theorem go_below {t : Tag} {l : List Tag} (newer : Option Tag)
    (below : ∀ u ∈ l, u.magnitude < t.magnitude) :
    go t l newer = newer.any fun u => u.node == t.node := by
  cases l with
  | nil => rfl
  | cons u _ =>
    have hu := below u List.mem_cons_self
    rw [go, if_neg (by omega), if_neg (by omega)]

/-- Where a history keeps the tag `t`: below a tag of `t`'s node at `t`'s magnitude or above,
only smaller magnitudes; above it, only greater ones. -/
def Anchored (t : Tag) (tags : List Tag) : Prop :=
  ∃ pre a post, tags = pre ++ a :: post ∧ (∀ u ∈ pre, u.magnitude < t.magnitude) ∧
    a.node = t.node ∧ t.magnitude ≤ a.magnitude ∧ ∀ u ∈ post, t.magnitude < u.magnitude

theorem descendsFrom_of_anchored {t : Tag} {tags : List Tag} (h : Anchored t tags) :
    descendsFrom tags t = true := by
  obtain ⟨pre, a, post, rfl, hpre, hnode, hle, hpost⟩ := h
  have above : ∀ u ∈ post.reverse, t.magnitude < u.magnitude := fun u hu =>
    hpost u (List.mem_reverse.mp hu)
  have below : ∀ u ∈ pre.reverse, u.magnitude < t.magnitude := fun u hu =>
    hpre u (List.mem_reverse.mp hu)
  unfold descendsFrom
  rw [List.reverse_append, List.reverse_cons, List.append_assoc, go_append_above _ _ above]
  rcases Nat.lt_or_eq_of_le hle with hlt | heq
  · -- `t` was replaced by `a` in a capped run: the walk remembers `a` and stops below it
    rw [List.singleton_append, go, if_pos hlt, go_below _ below]
    simp [hnode]
  · rw [List.singleton_append, go, if_neg (by omega), if_pos heq.symm]
    simp [hnode]

theorem anchored_of_increasing {l : Lineage} (hl : l.Increasing) {a t : Tag}
    (ha : l.last? = some a) (hnode : a.node = t.node) (hmag : a.magnitude = t.magnitude) :
    Anchored t l.tags := by
  obtain ⟨init, split⟩ : ∃ init, l.tags = init ++ [a] := by
    rcases List.eq_nil_or_concat l.tags with h | ⟨init, z, h⟩
    · simp [last?, h] at ha
    · have hz : z = a := by simpa [last?, h] using ha
      exact ⟨init, by rw [h, hz, List.concat_eq_append]⟩
  refine ⟨init, a, [], by simp [split], fun u hu => ?_, hnode, Nat.le_of_eq hmag.symm,
    fun _ h => absurd h List.not_mem_nil⟩
  unfold Increasing at hl
  rw [split, List.pairwise_append] at hl
  rw [← hmag]
  exact hl.2.2 u hu a (List.mem_singleton_self a)

theorem le_top_of_anchored {t : Tag} {l : Lineage} (h : Anchored t l.tags) :
    t.magnitude ≤ l.top := by
  obtain ⟨pre, a, post, e, -, -, hle, hpost⟩ := h
  rcases List.eq_nil_or_concat post with rfl | ⟨init, z, rfl⟩
  · rw [top_of_last? (t := a) (by simp [last?, e])]
    exact hle
  · have e' : l.tags = (pre ++ a :: init) ++ [z] := by simp [e]
    rw [top_of_last? (t := z) (by rw [last?, e', List.getLast?_concat])]
    exact Nat.le_of_lt (hpost z (by simp))

theorem Anchored.append {t : Tag} {l : Lineage} (h : Anchored t l.tags)
    (room : (l.top : Int) < i64Max) (node : String) (isDelete : Bool) (maxRun : Nat) :
    Anchored t (l.append node isDelete maxRun).tags := by
  have fresh : t.magnitude < (l.nextTag node isDelete).magnitude := by
    rw [magnitude_nextTag room]
    exact Nat.lt_succ_of_le (le_top_of_anchored h)
  obtain ⟨pre, a, post, e, hpre, hnode, hle, hpost⟩ := h
  rcases append_cases l node isDelete maxRun with push | ⟨last, hlast, hwriter, replace⟩
  · refine ⟨pre, a, post ++ [l.nextTag node isDelete], by simp [push, e], hpre, hnode, hle, ?_⟩
    intro u hu
    rcases List.mem_append.mp hu with hu | hu
    · exact hpost u hu
    · rw [List.mem_singleton.mp hu]; exact fresh
  · rw [replace]
    rcases List.eq_nil_or_concat post with rfl | ⟨init, z, rfl⟩
    · -- the anchoring tag is the newest one and is replaced by the writer's next tag
      have ha : last = a := by simpa [last?, e] using hlast.symm
      refine ⟨pre, l.nextTag node isDelete, [], by simp [e], hpre, ?_, Nat.le_of_lt fresh,
        fun _ h => absurd h List.not_mem_nil⟩
      rw [node_nextTag, ← hwriter, ha, hnode]
    · refine ⟨pre, a, init ++ [l.nextTag node isDelete], ?_, hpre, hnode, hle, ?_⟩
      · have e' : l.tags = (pre ++ a :: init) ++ [z] := by simp [e]
        rw [e', List.dropLast_concat]
        simp
      · intro u hu
        rcases List.mem_append.mp hu with hu | hu
        · exact hpost u (by simp [hu])
        · rw [List.mem_singleton.mp hu]; exact fresh

theorem compare_of_anchored {x y : Lineage} {s t : Tag} (hx : x.last? = some s)
    (hy : y.last? = some t) (hlt : t.magnitude < s.magnitude) (h : Anchored t x.tags) :
    x.compare y = .higher ∧ y.compare x = .lower := by
  have hne : s ≠ t := fun e => by rw [e] at hlt; exact Nat.lt_irrefl _ hlt
  have gt : Ord.compare s.magnitude t.magnitude = .gt := Nat.compare_eq_gt.mpr hlt
  have lt : Ord.compare t.magnitude s.magnitude = .lt := Nat.compare_eq_lt.mpr hlt
  have walk := descendsFrom_of_anchored h
  constructor
  · simp only [compare, hx, hy, if_neg hne, gt]
    split <;> simp_all [Comparison.ofOrdering]
  · simp only [compare, hx, hy, if_neg (Ne.symm hne), lt]
    split <;> simp_all [Comparison.ofOrdering]

/-- **Writes only move a lineage up.** From a lineage whose magnitudes strictly increase, any
non-empty series of writes, by any nodes, deleting or not, with any run caps, gives a lineage
higher than the start, and the start is lower than it, as long as the magnitudes stay within
the signed 64-bit range. -/
theorem compare_appendAll (v : Lineage) (ws : List Write) (hv : v.Increasing) (hws : ws ≠ [])
    (room : (v.top + ws.length : Int) ≤ i64Max) :
    (v.appendAll ws).compare v = .higher ∧ v.compare (v.appendAll ws) = .lower := by
  obtain ⟨init, w, rfl⟩ : ∃ init w, ws = init ++ [w] := by
    rcases List.eq_nil_or_concat ws with h | ⟨init, w, h⟩
    · exact absurd h hws
    · exact ⟨init, w, by rw [h, List.concat_eq_append]⟩
  obtain ⟨s, hs, -, hmag⟩ := last?_appendAll v init w (by simpa using room)
  cases ht : v.last? with
  | none =>
    -- from the empty lineage the result is not empty, which is all that counts
    have hnil : v.tags = [] := by simpa [last?] using ht
    have hx : (v.appendAll (init ++ [w])).tags.isEmpty = false := by
      cases e : (v.appendAll (init ++ [w])).tags with
      | nil => simp [last?, e] at hs
      | cons => rfl
    simp [compare, ht, hs, isEmpty, hnil, hx]
  | some t =>
    have anchored : Anchored t (v.appendAll (init ++ [w])).tags :=
      appendAll_induction (P := fun l => Anchored t l.tags) room
        (fun l _ _ hroom h => h.append hroom _ _ _)
        (anchored_of_increasing hv ht rfl rfl)
    apply compare_of_anchored hs ht _ anchored
    rw [hmag, ← top_of_last? ht]
    omega

/-- The run of `a` in `x+1;a+2;a+3`, capped at two, is collapsed by a third write of `a` and then
left by `b`: the result `x+1;a+2;a+4;b+5` no longer holds `a+3` and is still higher. -/
theorem compare_appendAll_collapsed_gap :
    Lineage.Increasing ⟨[⟨"x", 1⟩, ⟨"a", 2⟩, ⟨"a", 3⟩]⟩ ∧
      [(⟨"a", false, 2⟩ : Write), ⟨"b", false, 2⟩] ≠ [] ∧
      ((Lineage.top ⟨[⟨"x", 1⟩, ⟨"a", 2⟩, ⟨"a", 3⟩]⟩ : Nat) +
        ([(⟨"a", false, 2⟩ : Write), ⟨"b", false, 2⟩].length : Nat) : Int) ≤ i64Max ∧
      (Lineage.appendAll ⟨[⟨"x", 1⟩, ⟨"a", 2⟩, ⟨"a", 3⟩]⟩
          [⟨"a", false, 2⟩, ⟨"b", false, 2⟩]).compare ⟨[⟨"x", 1⟩, ⟨"a", 2⟩, ⟨"a", 3⟩]⟩ =
        .higher ∧
      Lineage.compare ⟨[⟨"x", 1⟩, ⟨"a", 2⟩, ⟨"a", 3⟩]⟩
          (Lineage.appendAll ⟨[⟨"x", 1⟩, ⟨"a", 2⟩, ⟨"a", 3⟩]⟩
            [⟨"a", false, 2⟩, ⟨"b", false, 2⟩]) = .lower :=
  ⟨by decide, by decide, by decide,
    compare_appendAll _ _ (by decide) (by decide) (by decide)⟩

/-- Every tag above magnitude `m` was written by a node of `S`. -/
def WrittenAbove (S : Set String) (m : Nat) (tags : List Tag) : Prop :=
  ∀ u ∈ tags, m < u.magnitude → u.node ∈ S

theorem go_foreign {S : Set String} {m : Nat} {t : Tag} {l : List Tag} {newer : Option Tag}
    (hl : WrittenAbove S m l) (hnewer : ∀ u ∈ newer, u.node ∈ S) (hm : m < t.magnitude)
    (ht : t.node ∉ S) : go t l newer = false := by
  -- the oldest tag above the target, when there is one, is a tag of `S`
  have remembered : ∀ newer : Option Tag, (∀ u ∈ newer, u.node ∈ S) →
      (newer.any fun u => u.node == t.node) = false := by
    intro newer hnewer
    cases newer with
    | none => rfl
    | some u =>
      have hne : u.node ≠ t.node := fun e => ht (e ▸ hnewer u rfl)
      simpa using hne
  induction l generalizing newer with
  | nil => exact remembered newer hnewer
  | cons u rest ih =>
    have hrest : WrittenAbove S m rest := fun v hv => hl v (List.mem_cons_of_mem u hv)
    unfold go
    split
    · exact ih hrest fun v hv => by
        obtain rfl := Option.mem_some_iff.mp hv
        exact hl _ List.mem_cons_self (by omega)
    · split
      · have hne : u.node ≠ t.node := fun e => ht (e ▸ hl u List.mem_cons_self (by omega))
        simpa using hne
      · exact remembered newer hnewer

theorem descendsFrom_foreign {S : Set String} {m : Nat} {t : Tag} {tags : List Tag}
    (h : WrittenAbove S m tags) (hm : m < t.magnitude) (ht : t.node ∉ S) :
    descendsFrom tags t = false :=
  go_foreign (fun u hu => h u (List.mem_reverse.mp hu)) (fun _ h => absurd h (by simp)) hm ht

theorem writtenAbove_of_increasing {l : Lineage} (hl : l.Increasing) (S : Set String) :
    WrittenAbove S l.top l.tags := fun _ hu hgt =>
  absurd (magnitude_le_top hl hu) (Nat.not_le_of_gt hgt)

theorem WrittenAbove.append {S : Set String} {m : Nat} {l : Lineage} (h : WrittenAbove S m l.tags)
    {node : String} (hnode : node ∈ S) (isDelete : Bool) (maxRun : Nat) :
    WrittenAbove S m (l.append node isDelete maxRun).tags := by
  intro u hu hgt
  rcases mem_append hu with hu | rfl
  · exact h u hu hgt
  · simpa using hnode

theorem compare_conflict_of_foreign {S T : Set String} (hST : Disjoint S T) {m : Nat}
    {x y : Lineage} {s t : Tag} (hx : x.last? = some s) (hy : y.last? = some t)
    (hs : s.node ∈ S) (ht : t.node ∈ T) (hms : m < s.magnitude) (hmt : m < t.magnitude)
    (wx : WrittenAbove S m x.tags) (wy : WrittenAbove T m y.tags)
    (lx : 2 ≤ x.length) (ly : 2 ≤ y.length) : x.compare y = .conflict := by
  have hsT : s.node ∉ T := Set.disjoint_left.mp hST hs
  have htS : t.node ∉ S := Set.disjoint_right.mp hST ht
  have hne : s ≠ t := fun e => hsT (e ▸ ht)
  have hnode : s.node ≠ t.node := fun e => hsT (e ▸ ht)
  have single : ¬ (x.length = 1 ∨ y.length = 1) := by omega
  simp only [compare, hx, hy, if_neg hne, if_neg single]
  cases hcmp : Ord.compare s.magnitude t.magnitude with
  | gt => simp [descendsFrom_foreign wx hmt htS]
  | lt => simp [descendsFrom_foreign wy hms hsT]
  | eq => simp [hnode]

/-- **Forks by disjoint writers conflict.** Two non-empty series of writes on one lineage with
strictly increasing magnitudes, the first made only by nodes of `S` and the second only by
nodes of `T`, with `S` and `T` disjoint and no magnitude leaving the signed 64-bit range, give
lineages that conflict both ways once each has at least two tags: neither is taken for a
descendant of the other, nor for the same revision. -/
theorem compare_forks_conflict (b : Lineage) (xs ys : List Write) (S T : Set String)
    (hb : b.Increasing) (hST : Disjoint S T) (hxs : xs ≠ []) (hys : ys ≠ [])
    (hS : ∀ w ∈ xs, w.node ∈ S) (hT : ∀ w ∈ ys, w.node ∈ T)
    (roomx : (b.top + xs.length : Int) ≤ i64Max) (roomy : (b.top + ys.length : Int) ≤ i64Max)
    (lx : 2 ≤ (b.appendAll xs).length) (ly : 2 ≤ (b.appendAll ys).length) :
    (b.appendAll xs).compare (b.appendAll ys) = .conflict ∧
      (b.appendAll ys).compare (b.appendAll xs) = .conflict := by
  obtain ⟨xinit, xw, rfl⟩ : ∃ init w, xs = init ++ [w] := by
    rcases List.eq_nil_or_concat xs with h | ⟨init, w, h⟩
    · exact absurd h hxs
    · exact ⟨init, w, by rw [h, List.concat_eq_append]⟩
  obtain ⟨yinit, yw, rfl⟩ : ∃ init w, ys = init ++ [w] := by
    rcases List.eq_nil_or_concat ys with h | ⟨init, w, h⟩
    · exact absurd h hys
    · exact ⟨init, w, by rw [h, List.concat_eq_append]⟩
  obtain ⟨s, hxs, hsnode, hsmag⟩ := last?_appendAll b xinit xw
    (by simpa using roomx)
  obtain ⟨t, hyt, htnode, htmag⟩ := last?_appendAll b yinit yw
    (by simpa using roomy)
  have hs : s.node ∈ S := by rw [hsnode]; exact hS xw (by simp)
  have ht : t.node ∈ T := by rw [htnode]; exact hT yw (by simp)
  have wx : WrittenAbove S b.top (b.appendAll (xinit ++ [xw])).tags :=
    appendAll_induction (P := fun l => WrittenAbove S b.top l.tags) roomx
      (fun _ w hw _ h => h.append (hS w hw) _ _) (writtenAbove_of_increasing hb S)
  have wy : WrittenAbove T b.top (b.appendAll (yinit ++ [yw])).tags :=
    appendAll_induction (P := fun l => WrittenAbove T b.top l.tags) roomy
      (fun _ w hw _ h => h.append (hT w hw) _ _) (writtenAbove_of_increasing hb T)
  exact ⟨compare_conflict_of_foreign hST hxs hyt hs ht (by omega) (by omega) wx wy lx ly,
    compare_conflict_of_foreign hST.symm hyt hxs ht hs (by omega) (by omega) wy wx ly lx⟩

/-- On `x+1`, node `a` writes twice with runs capped at one, so its delete `a-3` replaces its
`a+2`; node `b` writes `b+2`. The walk back from `a-3` skips magnitude two and meets `a` as the
oldest tag above it, so the fork is still seen. -/
theorem compare_forks_conflict_collapsed :
    Lineage.Increasing ⟨[⟨"x", 1⟩]⟩ ∧ Disjoint ({"a"} : Set String) {"b"} ∧
      (Lineage.appendAll ⟨[⟨"x", 1⟩]⟩ [⟨"a", false, 1⟩, ⟨"a", true, 1⟩]).compare
          (Lineage.appendAll ⟨[⟨"x", 1⟩]⟩ [⟨"b", false, 5⟩]) = .conflict ∧
      (Lineage.appendAll ⟨[⟨"x", 1⟩]⟩ [⟨"b", false, 5⟩]).compare
          (Lineage.appendAll ⟨[⟨"x", 1⟩]⟩ [⟨"a", false, 1⟩, ⟨"a", true, 1⟩]) = .conflict := by
  have hST : Disjoint ({"a"} : Set String) {"b"} :=
    Set.disjoint_singleton_left.mpr (by simp)
  refine ⟨by decide, hST, compare_forks_conflict ⟨[⟨"x", 1⟩]⟩ _ _ {"a"} {"b"} (by decide) hST
    (by decide) (by decide) ?_ ?_ (by decide) (by decide) (by decide) (by decide)⟩
  · intro w hw
    simp only [List.mem_cons, List.not_mem_nil, or_false] at hw
    rcases hw with rfl | rfl <;> exact Set.mem_singleton _
  · intro w hw
    simp only [List.mem_cons, List.not_mem_nil, or_false] at hw
    rw [hw]
    exact Set.mem_singleton _

theorem exists_split_at {chain : List Tag} (m : Nat)
    (hinc : chain.Pairwise fun a b => a.magnitude < b.magnitude) :
    ∃ lo hi, chain = lo ++ hi ∧ (∀ u ∈ lo, u.magnitude ≤ m) ∧ ∀ u ∈ hi, m < u.magnitude := by
  induction chain with
  | nil => exact ⟨[], [], rfl, by simp, by simp⟩
  | cons a rest ih =>
    obtain ⟨ha, hrest⟩ := List.pairwise_cons.mp hinc
    by_cases hle : a.magnitude ≤ m
    · obtain ⟨lo, hi, rfl, hlo, hhi⟩ := ih hrest
      refine ⟨a :: lo, hi, rfl, fun u hu => ?_, hhi⟩
      rcases List.mem_cons.mp hu with rfl | hu
      · exact hle
      · exact hlo u hu
    · -- everything after a tag above `m` is above it too
      refine ⟨[], a :: rest, rfl, by simp, fun u hu => ?_⟩
      rcases List.mem_cons.mp hu with rfl | hu
      · omega
      · have := ha u hu
        omega

theorem descendsFrom_split {t : Tag} {lo hi : List Tag}
    (above : ∀ u ∈ hi, t.magnitude < u.magnitude) :
    descendsFrom (lo ++ hi) t = go t lo.reverse hi.head? := by
  have above' : ∀ u ∈ hi.reverse, t.magnitude < u.magnitude := fun u hu =>
    above u (List.mem_reverse.mp hu)
  unfold descendsFrom
  rw [List.reverse_append, go_append_above _ _ above', List.getLast?_reverse, Option.or_none]

theorem eq_of_magnitude_eq {chain : List Tag}
    (hinc : chain.Pairwise fun a b => a.magnitude < b.magnitude) {a b : Tag} (ha : a ∈ chain)
    (hb : b ∈ chain) (h : a.magnitude = b.magnitude) : a = b := by
  have distinct : (chain.map Tag.magnitude).Nodup :=
    List.pairwise_map.mpr (hinc.imp Nat.ne_of_lt)
  exact List.inj_on_of_nodup_map distinct ha hb h

/-- Where a history records the tag `t`, read without the walk: it holds a tag of `t`'s
magnitude written by `t`'s node, or it holds no tag of that magnitude and its least tag above
it was written by `t`'s node. -/
def Recorded (t : Tag) (tags : List Tag) : Prop :=
  (∃ u ∈ tags, u.magnitude = t.magnitude ∧ u.node = t.node) ∨
    ((∀ u ∈ tags, u.magnitude ≠ t.magnitude) ∧
      ∃ u ∈ tags, t.magnitude < u.magnitude ∧
        (∀ v ∈ tags, t.magnitude < v.magnitude → u.magnitude ≤ v.magnitude) ∧ u.node = t.node)

instance (t : Tag) (tags : List Tag) : Decidable (Recorded t tags) :=
  inferInstanceAs (Decidable (_ ∨ _))

section Recorded

variable {t : Tag} {tags : List Tag} (hinc : tags.Pairwise fun a b => a.magnitude < b.magnitude)
include hinc

theorem recorded_iff_at {z : Tag} (hz : z ∈ tags) (hmag : z.magnitude = t.magnitude) :
    Recorded t tags ↔ z.node = t.node := by
  constructor
  · rintro (⟨u, hu, humag, hunode⟩ | ⟨none_at, -⟩)
    · rw [← eq_of_magnitude_eq hinc hu hz (humag.trans hmag.symm)]
      exact hunode
    · exact absurd hmag (none_at z hz)
  · intro hnode
    exact .inl ⟨z, hz, hmag, hnode⟩

theorem recorded_iff_above {h : Tag} (none_at : ∀ u ∈ tags, u.magnitude ≠ t.magnitude)
    (hh : h ∈ tags) (hgt : t.magnitude < h.magnitude)
    (least : ∀ v ∈ tags, t.magnitude < v.magnitude → h.magnitude ≤ v.magnitude) :
    Recorded t tags ↔ h.node = t.node := by
  constructor
  · rintro (⟨u, hu, humag, -⟩ | ⟨-, u, hu, hugt, uleast, hunode⟩)
    · exact absurd humag (none_at u hu)
    · -- two least tags above the target share their magnitude, so they are one tag
      rw [← eq_of_magnitude_eq hinc hu hh (Nat.le_antisymm (uleast h hh hgt) (least u hu hugt))]
      exact hunode
  · intro hnode
    exact .inr ⟨none_at, h, hh, hgt, least, hnode⟩

end Recorded

theorem least_above {t h : Tag} {lo rest : List Tag}
    (hinc : (lo ++ h :: rest).Pairwise fun a b => a.magnitude < b.magnitude)
    (hlo : ∀ u ∈ lo, u.magnitude ≤ t.magnitude) :
    ∀ v ∈ lo ++ h :: rest, t.magnitude < v.magnitude → h.magnitude ≤ v.magnitude := by
  intro v hv hvgt
  rcases List.mem_append.mp hv with hv | hv
  · exact absurd (hlo v hv) (Nat.not_le_of_gt hvgt)
  · rcases List.mem_cons.mp hv with rfl | hv
    · exact Nat.le_refl _
    · exact Nat.le_of_lt (List.rel_of_pairwise_cons (List.pairwise_append.mp hinc).2.1 hv)

theorem go_below_iff {t h : Tag} {lo rest : List Tag}
    (hinc : (lo ++ h :: rest).Pairwise fun a b => a.magnitude < b.magnitude)
    (hlt : ∀ u ∈ lo, u.magnitude < t.magnitude)
    (hhi : ∀ u ∈ h :: rest, t.magnitude < u.magnitude) :
    go t lo.reverse (some h) = true ↔ Recorded t (lo ++ h :: rest) := by
  have none_at : ∀ u ∈ lo ++ h :: rest, u.magnitude ≠ t.magnitude := by
    intro u hu
    rcases List.mem_append.mp hu with hu | hu
    · exact Nat.ne_of_lt (hlt u hu)
    · exact Nat.ne_of_gt (hhi u hu)
  rw [go_below _ fun u hu => hlt u (List.mem_reverse.mp hu),
    recorded_iff_above hinc none_at (by simp) (hhi h List.mem_cons_self)
      (least_above hinc fun u hu => Nat.le_of_lt (hlt u hu))]
  simp

/-- **The walk decides what a history records.** For a history whose magnitudes strictly
increase and whose newest tag is above the target, the walk back from the newest tag finds the
target exactly when the history holds a tag of the target's magnitude by the target's node, or
holds none of that magnitude and its least tag above it is by the target's node. -/
theorem descendsFrom_iff (chain : List Tag) (target last : Tag)
    (hinc : chain.Pairwise fun a b => a.magnitude < b.magnitude)
    (hlast : chain.getLast? = some last) (habove : target.magnitude < last.magnitude) :
    descendsFrom chain target = true ↔ Recorded target chain := by
  obtain ⟨lo, hi, rfl, hlo, hhi⟩ := exists_split_at target.magnitude hinc
  -- the newest tag is above the target, so the part above it is not empty
  obtain ⟨h, rest, rfl⟩ : ∃ h rest, hi = h :: rest := by
    cases hi with
    | nil =>
      have hmem := List.mem_of_getLast? hlast
      rw [List.append_nil] at hmem
      exact absurd (hlo last hmem) (Nat.not_le_of_gt habove)
    | cons h rest => exact ⟨h, rest, rfl⟩
  rw [descendsFrom_split hhi, List.head?_cons]
  rcases List.eq_nil_or_concat lo with rfl | ⟨init, z, e⟩
  · exact go_below_iff hinc (by simp) hhi
  rw [List.concat_eq_append] at e
  subst e
  by_cases hz : z.magnitude = target.magnitude
  · -- the walk stops at the tag of the target's magnitude
    rw [List.reverse_append, List.reverse_singleton, List.singleton_append, go,
      if_neg (by omega), if_pos hz, recorded_iff_at hinc (by simp) hz]
    simp
  · -- the newest tag at or below the target is below it, and so is every older one
    apply go_below_iff hinc _ hhi
    have hzle := hlo z (by simp)
    intro u hu
    rcases List.mem_append.mp hu with hu | hu
    · have := (List.pairwise_append.mp hinc).1.rel_of_mem_append hu (List.mem_singleton_self z)
      omega
    · rw [List.mem_singleton.mp hu]
      omega

/-- In `x+1;a+2;a+4;b+5` the run of `a` lost `a+3`, and the least tag above it is `a+4`: the
history records `a+3` and the walk finds it. -/
theorem descendsFrom_iff_collapsed :
    [(⟨"x", 1⟩ : Tag), ⟨"a", 2⟩, ⟨"a", 4⟩, ⟨"b", 5⟩].Pairwise
        (fun a b => a.magnitude < b.magnitude) ∧
      [(⟨"x", 1⟩ : Tag), ⟨"a", 2⟩, ⟨"a", 4⟩, ⟨"b", 5⟩].getLast? = some ⟨"b", 5⟩ ∧
      Tag.magnitude ⟨"a", 3⟩ < Tag.magnitude ⟨"b", 5⟩ ∧
      (descendsFrom [⟨"x", 1⟩, ⟨"a", 2⟩, ⟨"a", 4⟩, ⟨"b", 5⟩] ⟨"a", 3⟩ = true ↔
        Recorded ⟨"a", 3⟩ [⟨"x", 1⟩, ⟨"a", 2⟩, ⟨"a", 4⟩, ⟨"b", 5⟩]) :=
  ⟨by decide, rfl, by decide, descendsFrom_iff _ _ _ (by decide) rfl (by decide)⟩

example : Recorded ⟨"a", 3⟩ [⟨"x", 1⟩, ⟨"a", 2⟩, ⟨"a", 4⟩, ⟨"b", 5⟩] := by decide

end Lineage

end Stowage.Version
