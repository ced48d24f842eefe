import Mathlib.Data.List.DropRight
import Stowage.Proofs.Lineage.Writes
import Stowage.Soak.Workload
/-!
Runs of one node's tags.

A write by a node whose tags already end the lineage `max 1 maxRun` times replaces the newest
tag instead of pushing one. `RunsWithin l m` says that every stretch of consecutive tags written
by one node has at most `m` tags; it is exactly what the soak's cap check accepts
(`exceedsCap_eq_false_iff`). A write under cap `c` keeps it for `max c 1`, leaves every tag but
the newest where it was, puts the writer's tag one magnitude up on top, and grows the lineage by
one tag exactly when the writer's trailing run was below the cap (`append_shape`).
-/
namespace Stowage.Version

namespace Lineage

/-- Every stretch of consecutive tags written by one node has at most `m` tags. -/
def RunsWithin (l : Lineage) (m : Nat) : Prop :=
  ∀ s, s <:+: l.tags → ∀ n, (∀ t ∈ s, t.node = n) → s.length ≤ m

theorem trailingRun_eq_length_rtakeWhile (l : Lineage) (n : String) :
    l.trailingRun n = (l.tags.rtakeWhile fun t => t.node == n).length := by
  simp [trailingRun, List.rtakeWhile]

theorem trailingRun_concat (tags : List Tag) (t : Tag) (n : String) :
    trailingRun ⟨tags ++ [t]⟩ n = if t.node = n then trailingRun ⟨tags⟩ n + 1 else 0 := by
  rw [trailingRun_eq_length_rtakeWhile, trailingRun_eq_length_rtakeWhile, List.rtakeWhile_concat]
  by_cases h : t.node = n <;> simp [h]

theorem trailingRun_eq_zero {tags : List Tag} {n : String} (h : ∀ t ∈ tags.getLast?, t.node ≠ n) :
    trailingRun ⟨tags⟩ n = 0 := by
  rcases List.eq_nil_or_concat tags with rfl | ⟨init, last, rfl⟩
  · rfl
  · rw [List.concat_eq_append, trailingRun_concat, if_neg (h last (by simp))]

theorem length_le_trailingRun {tags s : List Tag} {n : String} (hs : s <:+ tags)
    (hn : ∀ t ∈ s, t.node = n) : s.length ≤ trailingRun ⟨tags⟩ n := by
  induction tags using List.reverseRecOn generalizing s with
  | nil => simp [List.suffix_nil.mp hs]
  | append_singleton init last ih =>
    rcases List.suffix_concat_iff.mp hs with rfl | ⟨s', rfl, hs'⟩
    · simp
    · have hlast : last.node = n := hn last (by simp)
      have := ih hs' fun t ht => hn t (List.mem_append_left _ ht)
      rw [trailingRun_concat, if_pos hlast, List.length_append, List.length_singleton]
      omega

theorem RunsWithin.trailingRun_le {l : Lineage} {m : Nat} (h : l.RunsWithin m) (n : String) :
    l.trailingRun n ≤ m := by
  rw [trailingRun_eq_length_rtakeWhile]
  exact h _ (List.rtakeWhile_suffix _ _).isInfix n fun t ht => by
    simpa using List.mem_rtakeWhile_imp ht

theorem runsWithin_nil (m : Nat) : RunsWithin ⟨[]⟩ m := by
  intro s hs n _
  simp [List.infix_nil.mp hs]

theorem runsWithin_concat {tags : List Tag} {t : Tag} {m : Nat} :
    RunsWithin ⟨tags ++ [t]⟩ m ↔ RunsWithin ⟨tags⟩ m ∧ trailingRun ⟨tags⟩ t.node + 1 ≤ m := by
  constructor
  · intro h
    refine ⟨fun s hs n hn => h s (hs.trans (List.prefix_append tags [t]).isInfix) n hn, ?_⟩
    have := h.trailingRun_le t.node
    rwa [trailingRun_concat, if_pos rfl] at this
  · rintro ⟨h, hrun⟩ s hs n hn
    rcases List.infix_concat_iff.mp hs with hs | hs
    · -- a stretch that reaches the new tag is the new tag after a stretch at the old end
      rcases List.suffix_concat_iff.mp hs with rfl | ⟨s', rfl, hs'⟩
      · simp
      · have ht : t.node = n := hn t (by simp)
        subst ht
        have := length_le_trailingRun hs' fun u hu => hn u (List.mem_append_left _ hu)
        simp only [List.length_append, List.length_singleton]
        omega
    · exact h s hs n hn

theorem append_of_lt {tags : List Tag} {n : String} {d : Bool} {c : Nat}
    (h : trailingRun ⟨tags⟩ n < max c 1) :
    Lineage.append ⟨tags⟩ n d c = ⟨tags ++ [nextTag ⟨tags⟩ n d]⟩ := by
  simp [append, Nat.not_le.mpr h]

theorem append_of_le {tags : List Tag} {n : String} {d : Bool} {c : Nat}
    (h : max c 1 ≤ trailingRun ⟨tags⟩ n) :
    ∃ init last, tags = init ++ [last] ∧ last.node = n ∧
      Lineage.append ⟨tags⟩ n d c = ⟨init ++ [nextTag ⟨tags⟩ n d]⟩ := by
  rcases List.eq_nil_or_concat tags with rfl | ⟨init, last, rfl⟩
  · simp [trailingRun] at h
  · rw [List.concat_eq_append] at h ⊢
    have hlast : last.node = n := by
      by_contra hne
      rw [trailingRun_concat, if_neg hne] at h
      omega
    refine ⟨init, last, rfl, hlast, ?_⟩
    simp [append, h]

theorem trailingRun_append (l : Lineage) (n : String) (d : Bool) (c : Nat) :
    (l.append n d c).trailingRun n =
      if l.trailingRun n < max c 1 then l.trailingRun n + 1 else l.trailingRun n := by
  obtain ⟨tags⟩ := l
  split
  · rename_i h
    rw [append_of_lt h, trailingRun_concat, if_pos (node_nextTag _ _ _)]
  · rename_i h
    obtain ⟨init, last, rfl, hlast, e⟩ := append_of_le (d := d) (Nat.le_of_not_lt h)
    rw [e, trailingRun_concat, trailingRun_concat, if_pos (node_nextTag _ _ _), if_pos hlast]

theorem length_append (l : Lineage) (n : String) (d : Bool) (c : Nat) :
    (l.append n d c).length = if l.trailingRun n < max c 1 then l.length + 1 else l.length := by
  obtain ⟨tags⟩ := l
  split
  · rename_i h
    simp [append_of_lt h, length]
  · rename_i h
    obtain ⟨init, last, rfl, -, e⟩ := append_of_le (d := d) (Nat.le_of_not_lt h)
    simp [e, length]

theorem take_append (l : Lineage) (n : String) (d : Bool) (c : Nat) :
    (l.append n d c).tags.take (l.length - 1) = l.tags.take (l.length - 1) := by
  obtain ⟨tags⟩ := l
  by_cases h : trailingRun ⟨tags⟩ n < max c 1
  · rw [append_of_lt h]
    exact List.take_append_of_le_length (by simp [length])
  · obtain ⟨init, last, rfl, -, e⟩ := append_of_le (d := d) (Nat.le_of_not_lt h)
    simp [e, length]

theorem RunsWithin.append {l : Lineage} {c : Nat} (h : l.RunsWithin (max c 1)) (n : String)
    (d : Bool) : (l.append n d c).RunsWithin (max c 1) := by
  obtain ⟨tags⟩ := l
  by_cases hlt : trailingRun ⟨tags⟩ n < max c 1
  · rw [append_of_lt hlt]
    exact runsWithin_concat.mpr ⟨h, by rw [node_nextTag]; omega⟩
  · obtain ⟨init, last, rfl, hlast, e⟩ := append_of_le (d := d) (Nat.le_of_not_lt hlt)
    -- the new tag takes the place of a tag of the same node, so every run stays as it was
    obtain ⟨hinit, hrun⟩ := runsWithin_concat.mp h
    rw [e]
    exact runsWithin_concat.mpr ⟨hinit, by rwa [node_nextTag, ← hlast]⟩

theorem RunsWithin.appendAll {l : Lineage} {c : Nat} (h : l.RunsWithin (max c 1))
    {ws : List Write} (hws : ∀ w ∈ ws, w.maxRun = c) : (l.appendAll ws).RunsWithin (max c 1) := by
  induction ws generalizing l with
  | nil => exact h
  | cons w ws ih =>
    rw [appendAll_cons, hws w List.mem_cons_self]
    exact ih (h.append _ _) fun w' hw' => hws w' (List.mem_cons_of_mem w hw')

theorem trailingRun_appendAll {l : Lineage} {n : String} {c : Nat} {ws : List Write}
    (hws : ∀ w ∈ ws, w.node = n ∧ w.maxRun = c) (hr : l.trailingRun n ≤ max c 1) :
    (l.appendAll ws).trailingRun n = min (l.trailingRun n + ws.length) (max c 1) := by
  induction ws generalizing l with
  | nil => simp; omega
  | cons w ws ih =>
    obtain ⟨hn, hc⟩ := hws w List.mem_cons_self
    have step := trailingRun_append l n w.isDelete c
    have hr' : (l.append n w.isDelete c).trailingRun n ≤ max c 1 := by
      rw [step]; split <;> omega
    rw [appendAll_cons, hn, hc, ih (fun w' hw' => hws w' (List.mem_cons_of_mem w hw')) hr', step]
    simp only [List.length_cons]
    split <;> omega

end Lineage

end Stowage.Version

namespace Stowage.Soak

open Stowage.Version Lineage

theorem capStep_eq (m run : Nat) (previous : Option String) (flagged : Bool) (t : Tag) :
    capStep m (run, previous, flagged) t =
      ((if previous == some t.node then run + 1 else 1), some t.node,
        flagged || decide ((if previous == some t.node then run + 1 else 1) > m)) := rfl

theorem foldl_capStep (m : Nat) (tags : List Tag) :
    (tags.foldl (capStep m) (0, none, false)).2.1 = tags.getLast?.map (·.node) ∧
      (∀ t ∈ tags.getLast?, (tags.foldl (capStep m) (0, none, false)).1 = trailingRun ⟨tags⟩ t.node) ∧
      ((tags.foldl (capStep m) (0, none, false)).2.2 = false ↔ RunsWithin ⟨tags⟩ m) := by
  induction tags using List.reverseRecOn with
  | nil => simp [runsWithin_nil]
  | append_singleton init t ih =>
    rcases hst : init.foldl (capStep m) (0, none, false) with ⟨run, previous, flagged⟩
    rw [hst] at ih
    obtain ⟨hprev, hrun, hflag⟩ : previous = init.getLast?.map (·.node) ∧
        (∀ u ∈ init.getLast?, run = trailingRun ⟨init⟩ u.node) ∧
        (flagged = false ↔ RunsWithin ⟨init⟩ m) := ih
    -- the run counted at `t` is the trailing run of `t`'s node before it, and `t`
    have counted : (if previous == some t.node then run + 1 else 1) = trailingRun ⟨init⟩ t.node + 1 := by
      split
      · rename_i hsame
        obtain ⟨u, hu, hnode⟩ : ∃ u, init.getLast? = some u ∧ u.node = t.node := by
          simpa [hprev] using hsame
        rw [hrun u hu, hnode]
      · rename_i hother
        rw [trailingRun_eq_zero fun u hu => ?_]
        intro hnode
        simp [hprev, Option.mem_def.mp hu, hnode] at hother
    rw [List.foldl_append, List.foldl_cons, List.foldl_nil, hst, capStep_eq, counted]
    refine ⟨by simp, fun u hu => ?_, ?_⟩
    · obtain rfl : t = u := by simpa using hu
      rw [trailingRun_concat, if_pos rfl]
    · rw [runsWithin_concat, ← hflag]
      simp

theorem exceedsCap_eq_false_iff (l : Lineage) (m : Nat) : exceedsCap l m = false ↔ l.RunsWithin m :=
  (foldl_capStep m l.tags).2.2

instance (l : Lineage) (m : Nat) : Decidable (l.RunsWithin m) :=
  decidable_of_iff _ (exceedsCap_eq_false_iff l m)

end Stowage.Soak

namespace Stowage.Version

namespace Lineage

open Stowage.Soak

/-- **The shape of a lineage under writes.** Take a cap `c`. A write by `n` on a lineage below
the top of the range whose magnitudes increase and whose runs are within `max c 1` keeps every
tag but the newest, puts `n`'s tag one magnitude above the old newest on top, grows the lineage
by one tag exactly when `n`'s trailing run was below the cap, and keeps both shapes. Writes of one
node from a trailing run within the cap lengthen it up to the cap, and any series of `k` writes
under cap `c` from the empty lineage ends at magnitude `k` with no run the soak's cap check
flags. -/
theorem append_shape (c : Nat) :
    (∀ (v : Lineage) (n : String) (d : Bool), (v.top : Int) < i64Max → v.Increasing →
        v.RunsWithin (max c 1) →
        (v.append n d c).tags.take (v.length - 1) = v.tags.take (v.length - 1) ∧
        (∃ t, (v.append n d c).last? = some t ∧ t.node = n ∧ t.magnitude = v.top + 1) ∧
        (v.append n d c).length =
          (if v.trailingRun n < max c 1 then v.length + 1 else v.length) ∧
        (v.append n d c).Increasing ∧ (v.append n d c).RunsWithin (max c 1)) ∧
    (∀ (v : Lineage) (n : String) (ws : List Write), (∀ w ∈ ws, w.node = n ∧ w.maxRun = c) →
        v.trailingRun n ≤ max c 1 →
        (v.appendAll ws).trailingRun n = min (v.trailingRun n + ws.length) (max c 1)) ∧
    (∀ ws : List Write, (∀ w ∈ ws, w.maxRun = c) → (ws.length : Int) ≤ i64Max →
        (empty.appendAll ws).top = ws.length ∧
          exceedsCap (empty.appendAll ws) (max c 1) = false) := by
  refine ⟨fun v n d room hinc hruns => ?_, fun v n ws hws hr => trailingRun_appendAll hws hr,
    fun ws hws room => ?_⟩
  · refine ⟨take_append v n d c, ⟨_, last?_append v n d c, rfl, magnitude_nextTag room n d⟩,
      length_append v n d c, hinc.append room n d c, hruns.append n d⟩
  · have hempty : empty.top = 0 := rfl
    refine ⟨by rw [top_appendAll (by rw [hempty]; simpa using room), hempty, Nat.zero_add], ?_⟩
    exact (exceedsCap_eq_false_iff _ _).mpr ((runsWithin_nil _).appendAll hws)

/-- Under cap 2, `a` writing on `b+1;a+2;a+3` replaces its newest tag (`b+1;a+2;a+4`), two more
writes of `a` leave its run at the cap, and `a`, `a`, `a`, `b` from the empty lineage give
`a+1;a+2;a+4;b+5`, whose runs pass the cap check. -/
theorem append_shape_full_run :
    (((Lineage.top ⟨[⟨"b", 1⟩, ⟨"a", 2⟩, ⟨"a", 3⟩]⟩ : Nat) : Int) < i64Max ∧
      Lineage.Increasing ⟨[⟨"b", 1⟩, ⟨"a", 2⟩, ⟨"a", 3⟩]⟩ ∧
      Lineage.RunsWithin ⟨[⟨"b", 1⟩, ⟨"a", 2⟩, ⟨"a", 3⟩]⟩ (max 2 1) ∧
      ((Lineage.append ⟨[⟨"b", 1⟩, ⟨"a", 2⟩, ⟨"a", 3⟩]⟩ "a" false 2).tags.take
          (Lineage.length ⟨[⟨"b", 1⟩, ⟨"a", 2⟩, ⟨"a", 3⟩]⟩ - 1) =
        (Lineage.tags ⟨[⟨"b", 1⟩, ⟨"a", 2⟩, ⟨"a", 3⟩]⟩).take
          (Lineage.length ⟨[⟨"b", 1⟩, ⟨"a", 2⟩, ⟨"a", 3⟩]⟩ - 1) ∧
      (∃ t, (Lineage.append ⟨[⟨"b", 1⟩, ⟨"a", 2⟩, ⟨"a", 3⟩]⟩ "a" false 2).last? = some t ∧
        t.node = "a" ∧ t.magnitude = Lineage.top ⟨[⟨"b", 1⟩, ⟨"a", 2⟩, ⟨"a", 3⟩]⟩ + 1) ∧
      (Lineage.append ⟨[⟨"b", 1⟩, ⟨"a", 2⟩, ⟨"a", 3⟩]⟩ "a" false 2).length =
        (if Lineage.trailingRun ⟨[⟨"b", 1⟩, ⟨"a", 2⟩, ⟨"a", 3⟩]⟩ "a" < max 2 1 then
          Lineage.length ⟨[⟨"b", 1⟩, ⟨"a", 2⟩, ⟨"a", 3⟩]⟩ + 1
        else Lineage.length ⟨[⟨"b", 1⟩, ⟨"a", 2⟩, ⟨"a", 3⟩]⟩) ∧
      (Lineage.append ⟨[⟨"b", 1⟩, ⟨"a", 2⟩, ⟨"a", 3⟩]⟩ "a" false 2).Increasing ∧
      (Lineage.append ⟨[⟨"b", 1⟩, ⟨"a", 2⟩, ⟨"a", 3⟩]⟩ "a" false 2).RunsWithin (max 2 1))) ∧
    ((∀ w ∈ [(⟨"a", false, 2⟩ : Write), ⟨"a", true, 2⟩], w.node = "a" ∧ w.maxRun = 2) ∧
      Lineage.trailingRun ⟨[⟨"b", 1⟩, ⟨"a", 2⟩, ⟨"a", 3⟩]⟩ "a" ≤ max 2 1 ∧
      (Lineage.appendAll ⟨[⟨"b", 1⟩, ⟨"a", 2⟩, ⟨"a", 3⟩]⟩
          [⟨"a", false, 2⟩, ⟨"a", true, 2⟩]).trailingRun "a" =
        min (Lineage.trailingRun ⟨[⟨"b", 1⟩, ⟨"a", 2⟩, ⟨"a", 3⟩]⟩ "a" +
          [(⟨"a", false, 2⟩ : Write), ⟨"a", true, 2⟩].length) (max 2 1)) ∧
    ((∀ w ∈ [(⟨"a", false, 2⟩ : Write), ⟨"a", false, 2⟩, ⟨"a", false, 2⟩, ⟨"b", false, 2⟩],
        w.maxRun = 2) ∧
      (([(⟨"a", false, 2⟩ : Write), ⟨"a", false, 2⟩, ⟨"a", false, 2⟩, ⟨"b", false, 2⟩].length : Nat) :
        Int) ≤ i64Max ∧
      (empty.appendAll [⟨"a", false, 2⟩, ⟨"a", false, 2⟩, ⟨"a", false, 2⟩, ⟨"b", false, 2⟩]).top =
        [(⟨"a", false, 2⟩ : Write), ⟨"a", false, 2⟩, ⟨"a", false, 2⟩, ⟨"b", false, 2⟩].length ∧
      exceedsCap (empty.appendAll
        [⟨"a", false, 2⟩, ⟨"a", false, 2⟩, ⟨"a", false, 2⟩, ⟨"b", false, 2⟩]) (max 2 1) = false) := by
  have room : ((Lineage.top ⟨[⟨"b", 1⟩, ⟨"a", 2⟩, ⟨"a", 3⟩]⟩ : Nat) : Int) < i64Max := by decide
  have hinc : Lineage.Increasing ⟨[⟨"b", 1⟩, ⟨"a", 2⟩, ⟨"a", 3⟩]⟩ := by decide
  have hruns : Lineage.RunsWithin ⟨[⟨"b", 1⟩, ⟨"a", 2⟩, ⟨"a", 3⟩]⟩ (max 2 1) := by decide
  have hws : ∀ w ∈ [(⟨"a", false, 2⟩ : Write), ⟨"a", true, 2⟩], w.node = "a" ∧ w.maxRun = 2 := by
    decide
  have hr : Lineage.trailingRun ⟨[⟨"b", 1⟩, ⟨"a", 2⟩, ⟨"a", 3⟩]⟩ "a" ≤ max 2 1 := by decide
  have hcap : ∀ w ∈ [(⟨"a", false, 2⟩ : Write), ⟨"a", false, 2⟩, ⟨"a", false, 2⟩,
      ⟨"b", false, 2⟩], w.maxRun = 2 := by decide
  have hlen : (([(⟨"a", false, 2⟩ : Write), ⟨"a", false, 2⟩, ⟨"a", false, 2⟩,
      ⟨"b", false, 2⟩].length : Nat) : Int) ≤ i64Max := by decide
  exact ⟨⟨room, hinc, hruns, (append_shape 2).1 _ "a" false room hinc hruns⟩,
    ⟨hws, hr, (append_shape 2).2.1 _ "a" _ hws hr⟩,
    ⟨hcap, hlen, (append_shape 2).2.2 _ hcap hlen⟩⟩

end Lineage

end Stowage.Version
