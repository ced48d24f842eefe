import Stowage.Proofs.Flusher.Cancel
/-!
The worker starts the tasks of one key in the order they were marked.

Number every task by the marks the flusher has taken before it: a caller marks a task under its
own key and gives it the flusher's count of marks so far. The tasks of a key then travel through
the lanes oldest first. A mark replaces the queued task of its key and takes the key out of the
retry lane; a cycle, a drain pass or a retry round takes whole lanes; a failed run waits for
retry only when no newer task of its key is pending, and a newer mark drops it there. So of two
runs of one key that the worker starts, the later one's task was marked no earlier
(`worker_starts_in_mark_order`): through cycles, retry rounds, the drain, and the late runs after
the flusher is closed.

The order does not reach the runs on the callers' side. A closed flusher leaves a marked task to
its caller, who runs it at once; when a late task marks a task of its own key, that newer task
runs inside the late run, before the older late tasks of the key
(`closed_mark_overtakes_late_task`).

The invariant `Ranked` places each pending, retrying and held task against the count of marks and
the journal of runs; one lemma per flusher operation keeps it, and the worker's functions are
taken apart as in the other proofs of this directory.
-/
namespace Stowage

open Relation

namespace Flusher

variable {κ τ : Type} (keyOf : τ → κ) (rank : τ → Nat)

/-- What a caller can do when tasks know their keys and carry numbers: mark a task under its own
key, numbered with the count of marks the flusher has taken so far; cancel a key; ask for a
flush; or ask the flusher to close. -/
inductive NumberedCall [BEq κ] : Flusher κ τ → Flusher κ τ → Prop
  | mark (f : Flusher κ τ) (t : τ) (now : Nat) :
    rank t = f.stats.marked → NumberedCall f (f.enqueue (keyOf t) t now).1
  | cancel (f : Flusher κ τ) (k : κ) : NumberedCall f (f.cancel k).1
  | request (f : Flusher κ τ) : NumberedCall f f.request
  | shutdown (f : Flusher κ τ) : NumberedCall f { f with shutdown := true }

/-- A task numbered below `marked`, and no older than any run of its key in the journal `js`. -/
def Ahead (marked : Nat) (js : List (Entry κ τ)) (t : τ) : Prop :=
  rank t < marked ∧ ∀ e ∈ js, keyOf e.task = keyOf t → rank e.task ≤ rank t

/-- A flusher whose worker holds the tasks `held`, taken out of the lanes and not yet run, beside
the journal `js` of the runs so far, newest first. Every task in the lanes or held is ahead of
the journal, and a queued one sits under its own key. No key is twice in a lane, in both lanes,
or twice among the held tasks, and no held task's key waits for retry. A held task is older than
the pending task of its key. The journal's tasks are numbered below the marks taken, and of two
runs of one key the later one's task is no older. -/
structure Ranked (held : List τ) (f : Flusher κ τ) (js : List (Entry κ τ)) : Prop where
  pending : f.pending.Tied fun k t => keyOf t = k ∧ Ahead keyOf rank f.stats.marked js t
  retry : f.retry.Tied fun k r => keyOf r.task = k ∧ Ahead keyOf rank f.stats.marked js r.task
  ahead : ∀ x ∈ held, Ahead keyOf rank f.stats.marked js x
  pendingNodup : f.pending.keys.Nodup
  retryNodup : f.retry.keys.Nodup
  apart : ∀ k ∈ f.pending.keys, k ∉ f.retry.keys
  heldNodup : (held.map keyOf).Nodup
  heldApart : ∀ x ∈ held, keyOf x ∉ f.retry.keys
  heldFirst : ∀ x ∈ held, f.pending.Tied fun _ t => keyOf t = keyOf x → rank x < rank t
  journal : ∀ e ∈ js, rank e.task < f.stats.marked
  ordered : js.Pairwise fun e e' => keyOf e'.task = keyOf e.task → rank e'.task ≤ rank e.task

variable {keyOf rank} {f g : Flusher κ τ} {held : List τ} {js : List (Entry κ τ)}

theorem Ahead.mono {M M' : Nat} {t : τ} (h : Ahead keyOf rank M js t) (hM : M ≤ M') :
    Ahead keyOf rank M' js t :=
  ⟨Nat.lt_of_lt_of_le h.1 hM, h.2⟩

theorem ranked_create (o : FlusherOptions) (now : Nat) :
    (create o now : Flusher κ τ).Ranked keyOf rank [] [] :=
  ⟨KeyedQueue.tied_empty _, KeyedQueue.tied_empty _, fun _ hx => absurd hx List.not_mem_nil,
    List.nodup_nil, List.nodup_nil, fun _ hk => absurd hk List.not_mem_nil, List.nodup_nil,
    fun _ hx => absurd hx List.not_mem_nil, fun _ hx => absurd hx List.not_mem_nil,
    fun _ he => absurd he List.not_mem_nil, List.Pairwise.nil⟩

theorem Ranked.sublanes (h : f.Ranked keyOf rank held js)
    (hp : g.pending.Subqueue f.pending) (hr : g.retry.Subqueue f.retry)
    (hm : g.stats.marked = f.stats.marked) : g.Ranked keyOf rank held js := by
  have hpk := hp.1
  have hrk := hr.1
  refine ⟨?_, ?_, ?_, h.pendingNodup.sublist hpk, h.retryNodup.sublist hrk,
    fun k hk hk' => h.apart k (hpk.subset hk) (hrk.subset hk'), h.heldNodup,
    fun x hx hk => h.heldApart x hx (hrk.subset hk), fun x hx => (h.heldFirst x hx).subqueue hp,
    hm ▸ h.journal, h.ordered⟩ <;> rw [hm]
  · exact h.pending.subqueue hp
  · exact h.retry.subqueue hr
  · exact h.ahead

theorem Ranked.frame (h : f.Ranked keyOf rank held js) (hp : g.pending = f.pending)
    (hr : g.retry = f.retry) (hm : g.stats.marked = f.stats.marked) : g.Ranked keyOf rank held js :=
  h.sublanes (hp ▸ KeyedQueue.Subqueue.refl _) (hr ▸ KeyedQueue.Subqueue.refl _) hm

theorem Ranked.sublist (h : f.Ranked keyOf rank held js) {held' : List τ}
    (hs : held'.Sublist held) : f.Ranked keyOf rank held' js :=
  ⟨h.pending, h.retry, fun x hx => h.ahead x (hs.subset hx), h.pendingNodup, h.retryNodup,
    h.apart, h.heldNodup.sublist (hs.map _), fun x hx => h.heldApart x (hs.subset hx),
    fun x hx => h.heldFirst x (hs.subset hx), h.journal, h.ordered⟩

theorem Ranked.start {x : τ} (h : f.Ranked keyOf rank (x :: held) js) (e : Entry κ τ)
    (he : e.task = x) : f.Ranked keyOf rank (x :: held) (e :: js) := by
  subst he
  have hx := h.ahead e.task List.mem_cons_self
  have hext : ∀ u, Ahead keyOf rank f.stats.marked js u →
      (keyOf e.task = keyOf u → rank e.task ≤ rank u) →
        Ahead keyOf rank f.stats.marked (e :: js) u := by
    intro u hu hnew
    refine ⟨hu.1, fun e' he' hk => ?_⟩
    rcases List.mem_cons.mp he' with rfl | he'
    · exact hnew hk
    · exact hu.2 e' he' hk
  refine ⟨fun s hs => ⟨(h.pending s hs).1, hext _ (h.pending s hs).2 fun hk => ?_⟩,
    fun s hs => ⟨(h.retry s hs).1, hext _ (h.retry s hs).2 fun hk => ?_⟩, fun y hy => ?_,
    h.pendingNodup, h.retryNodup, h.apart, h.heldNodup, h.heldApart, h.heldFirst, ?_,
    List.pairwise_cons.mpr ⟨hx.2, h.ordered⟩⟩
  · exact Nat.le_of_lt (h.heldFirst e.task List.mem_cons_self s hs hk.symm)
  · -- a retrying task of the running key would put the key in the retry lane
    have hkey : keyOf e.task ∈ f.retry.keys := by
      rw [hk, (h.retry s hs).1]
      exact KeyedQueue.mem_keys.mpr ⟨s, hs, rfl⟩
    exact absurd hkey (h.heldApart e.task List.mem_cons_self)
  · rcases List.mem_cons.mp hy with rfl | hy
    · exact hext _ hx fun _ => Nat.le_refl _
    · -- the other held tasks have other keys
      refine hext y (h.ahead y (List.mem_cons_of_mem _ hy)) fun hk => absurd ?_
        (List.nodup_cons.mp h.heldNodup).1
      rw [hk]
      exact List.mem_map_of_mem hy
  · intro e' he'
    rcases List.mem_cons.mp he' with rfl | he'
    · exact hx.1
    · exact h.journal e' he'

variable [BEq κ] [LawfulBEq κ]

theorem Ranked.takePending (h : f.Ranked keyOf rank [] js) (hp : g.pending = KeyedQueue.empty)
    (hr : g.retry = f.retry) (hm : g.stats.marked = f.stats.marked) :
    g.Ranked keyOf rank (f.pending.toList.map (·.2)) js := by
  have hown := h.pending.toList
  refine ⟨?_, ?_, ?_, ?_, hr ▸ h.retryNodup, ?_, ?_, ?_, ?_, hm ▸ h.journal, h.ordered⟩
  · rw [hp]
    exact KeyedQueue.tied_empty _
  · rw [hr, hm]
    exact h.retry
  · intro x hx
    obtain ⟨y, hy, rfl⟩ := List.mem_map.mp hx
    rw [hm]
    exact (hown y hy).2
  · rw [hp]
    exact List.nodup_nil
  · intro k hk
    rw [hp] at hk
    exact absurd hk List.not_mem_nil
  · rw [KeyedQueue.map_toList_of_tied h.pendingNodup _ _ fun x hx => (hown x hx).1]
    exact h.pendingNodup
  · intro x hx
    obtain ⟨y, hy, rfl⟩ := List.mem_map.mp hx
    rw [hr, (hown y hy).1]
    exact h.apart y.1 (KeyedQueue.mem_keys_of_mem_toList hy)
  · intro x _
    rw [hp]
    exact KeyedQueue.tied_empty _

theorem Ranked.takeRetry (h : f.Ranked keyOf rank held js) (hp : g.pending = f.pending)
    (hr : g.retry = KeyedQueue.empty) (hm : g.stats.marked = f.stats.marked) :
    g.Ranked keyOf rank (held ++ f.retry.toList.map (·.2.task)) js := by
  have hown := h.retry.toList
  have hkeys : (f.retry.toList.map (·.2.task)).map keyOf = f.retry.keys :=
    KeyedQueue.map_toList_of_tied h.retryNodup _ _ fun x hx => (hown x hx).1
  have hlane : ∀ x ∈ f.retry.toList.map (·.2.task), keyOf x ∈ f.retry.keys := by
    intro x hx
    rw [← hkeys]
    exact List.mem_map_of_mem hx
  refine ⟨?_, ?_, ?_, hp ▸ h.pendingNodup, ?_, ?_, ?_, ?_, ?_, hm ▸ h.journal, h.ordered⟩
  · rw [hp, hm]
    exact h.pending
  · rw [hr]
    exact KeyedQueue.tied_empty _
  · intro x hx
    rw [hm]
    rcases List.mem_append.mp hx with hx | hx
    · exact h.ahead x hx
    · obtain ⟨y, hy, rfl⟩ := List.mem_map.mp hx
      exact (hown y hy).2
  · rw [hr]
    exact List.nodup_nil
  · intro k _ hk
    rw [hr] at hk
    exact absurd hk List.not_mem_nil
  · rw [List.map_append, hkeys]
    refine List.nodup_append.mpr ⟨h.heldNodup, h.retryNodup, fun a ha b hb hab => ?_⟩
    obtain ⟨x, hx, rfl⟩ := List.mem_map.mp ha
    exact h.heldApart x hx (hab ▸ hb)
  · intro x _ hk
    rw [hr] at hk
    exact absurd hk List.not_mem_nil
  · intro x hx
    rw [hp]
    rcases List.mem_append.mp hx with hx | hx
    · exact h.heldFirst x hx
    · -- a retried task's key is pending with no task
      intro s hs hk
      have hkey : s.key ∈ f.retry.keys := by
        rw [← (h.pending s hs).1, hk]
        exact hlane x hx
      exact absurd hkey (h.apart s.key (KeyedQueue.mem_keys.mpr ⟨s, hs, rfl⟩))

theorem Ranked.take (h : f.Ranked keyOf rank [] js) (hp : g.pending = KeyedQueue.empty)
    (hm : g.stats.marked = f.stats.marked) {retries : List (κ × Retry τ)}
    (hr : g.retry = f.retry ∧ retries = [] ∨ g.retry = KeyedQueue.empty ∧ retries = f.retry.toList) :
    g.Ranked keyOf rank (f.pending.toList.map (·.2) ++ retries.map (·.2.task)) js := by
  rcases hr with ⟨hr, rfl⟩ | ⟨hr, rfl⟩
  · rw [List.map_nil, List.append_nil]
    exact h.takePending hp hr hm
  · exact (h.takePending (g := { g with retry := f.retry }) hp rfl hm).takeRetry rfl hr rfl

theorem Ranked.startCycle (h : f.Ranked keyOf rank [] js) (now : Nat) :
    (f.startCycle now).1.Ranked keyOf rank
        ((f.startCycle now).2.1.map (·.2) ++ (f.startCycle now).2.2.map (·.2.task)) js ∧
      (∀ x ∈ (f.startCycle now).2.1, keyOf x.2 = x.1) ∧
      ∀ x ∈ (f.startCycle now).2.2, keyOf x.2.task = x.1 := by
  have hbatch : ∀ x ∈ f.pending.toList, keyOf x.2 = x.1 := fun x hx => (h.pending.toList x hx).1
  have hretries : ∀ x ∈ f.retry.toList, keyOf x.2.task = x.1 :=
    fun x hx => (h.retry.toList x hx).1
  unfold Flusher.startCycle
  dsimp only
  split
  · refine ⟨h.take ?_ ?_ ?_, hbatch, hretries⟩
    · rfl
    · rfl
    · exact .inr ⟨rfl, rfl⟩
  · refine ⟨h.take ?_ ?_ ?_, hbatch, fun _ hx => absurd hx List.not_mem_nil⟩
    · rfl
    · rfl
    · exact .inl ⟨rfl, rfl⟩

omit [LawfulBEq κ] in
theorem enqueue_cases (f : Flusher κ τ) (k : κ) (t : τ) (now : Nat) :
    ((f.enqueue k t now).1.pending = f.pending ∧ (f.enqueue k t now).1.retry = f.retry ∧
        (f.enqueue k t now).1.stats.marked = f.stats.marked) ∨
      ((f.enqueue k t now).1.pending = (f.pending.push k t now).1 ∧
        (f.enqueue k t now).1.retry = (f.retry.remove k).1 ∧
        (f.enqueue k t now).1.stats.marked = f.stats.marked + 1) := by
  unfold enqueue
  split
  · exact .inl ⟨rfl, rfl, rfl⟩
  split
  · exact .inl ⟨rfl, rfl, rfl⟩
  dsimp only
  split <;> exact .inr ⟨rfl, rfl, rfl⟩

omit [LawfulBEq κ] in
theorem settle_marked (f : Flusher κ τ) (k : κ) (t : τ) (attempts : Nat) (r : Outcome Unit) :
    (f.settle k t attempts r).stats.marked = f.stats.marked := by
  unfold settle
  cases r with
  | ok => rfl
  | error e =>
    dsimp only
    split
    · rfl
    · split <;> rfl

theorem Ranked.cancel (h : f.Ranked keyOf rank held js) (k : κ) :
    (f.cancel k).1.Ranked keyOf rank held js :=
  h.sublanes (KeyedQueue.subqueue_remove _ k) (KeyedQueue.subqueue_remove _ k) rfl

theorem Ranked.push_remove (h : f.Ranked keyOf rank held js) {t : τ} {now : Nat}
    (ht : rank t = f.stats.marked) (hp : g.pending = (f.pending.push (keyOf t) t now).1)
    (hr : g.retry = (f.retry.remove (keyOf t)).1) (hm : g.stats.marked = f.stats.marked + 1) :
    g.Ranked keyOf rank held js := by
  have hmono : ∀ u, Ahead keyOf rank f.stats.marked js u → Ahead keyOf rank g.stats.marked js u :=
    fun _ hu => hu.mono (by omega)
  have hnew : Ahead keyOf rank g.stats.marked js t :=
    ⟨by omega, fun e he _ => by have := h.journal e he; omega⟩
  have hout : ∀ k ∈ g.retry.keys, k ∈ f.retry.keys ∧ k ≠ keyOf t := by
    intro k hk
    rw [hr] at hk
    exact KeyedQueue.mem_keys_remove hk
  refine ⟨?_, ?_, fun x hx => hmono x (h.ahead x hx), ?_, ?_, fun k hk hk' => ?_, h.heldNodup,
    fun x hx hk => h.heldApart x hx (hout _ hk).1, fun x hx => ?_,
    fun e he => by have := h.journal e he; omega, h.ordered⟩
  · rw [hp]
    exact (h.pending.imp fun _ u hu => ⟨hu.1, hmono u hu.2⟩).push ⟨rfl, hnew⟩ now
  · rw [hr]
    exact (h.retry.imp fun _ r hr => ⟨hr.1, hmono r.task hr.2⟩).remove _
  · rw [hp]
    exact KeyedQueue.nodup_keys_push h.pendingNodup _ _ _
  · rw [hr]
    exact KeyedQueue.nodup_keys_remove h.retryNodup _
  · -- the marked key has left the retry lane
    obtain ⟨hk', hne⟩ := hout k hk'
    rw [hp] at hk
    rcases KeyedQueue.mem_keys_push hk with hk | rfl
    · exact h.apart k hk hk'
    · exact hne rfl
  · rw [hp]
    exact (h.heldFirst x hx).push (fun _ => by have := (h.ahead x hx).1; omega) now

theorem Ranked.enqueue (h : f.Ranked keyOf rank held js) {t : τ} (ht : rank t = f.stats.marked)
    (now : Nat) : (f.enqueue (keyOf t) t now).1.Ranked keyOf rank held js := by
  rcases enqueue_cases f (keyOf t) t now with ⟨hp, hr, hm⟩ | ⟨hp, hr, hm⟩
  · exact h.frame hp hr hm
  · exact h.push_remove ht hp hr hm

theorem Ranked.call (h : f.Ranked keyOf rank held js) (hc : NumberedCall keyOf rank f g) :
    g.Ranked keyOf rank held js := by
  cases hc with
  | mark t now ht => exact h.enqueue ht now
  | cancel k => exact h.cancel k
  | request => exact h.frame rfl rfl rfl
  | shutdown => exact h.frame rfl rfl rfl

theorem Ranked.calls (h : f.Ranked keyOf rank held js)
    (hc : ReflTransGen (NumberedCall keyOf rank) f g) : g.Ranked keyOf rank held js := by
  induction hc with
  | refl => exact h
  | tail _ step ih => exact ih.call step

theorem Ranked.requeue (h : f.Ranked keyOf rank held js) {k : κ} {y : τ} {attempts : Nat}
    (hk : keyOf y = k) (hy : Ahead keyOf rank f.stats.marked js y) (hkp : k ∉ f.pending.keys)
    (hkh : ∀ x ∈ held, keyOf x ≠ k) (hp : g.pending = f.pending)
    (hr : g.retry = (f.retry.push k ⟨y, attempts⟩ 0).1) (hm : g.stats.marked = f.stats.marked) :
    g.Ranked keyOf rank held js := by
  refine ⟨?_, ?_, hm ▸ h.ahead, hp ▸ h.pendingNodup, ?_, fun k' hk' hk'' => ?_, h.heldNodup,
    fun x hx hkx => ?_, hp ▸ h.heldFirst, hm ▸ h.journal, h.ordered⟩
  · rw [hp, hm]
    exact h.pending
  · rw [hr, hm]
    exact h.retry.push ⟨hk, hy⟩ 0
  · rw [hr]
    exact KeyedQueue.nodup_keys_push h.retryNodup _ _ _
  · rw [hr] at hk''
    rw [hp] at hk'
    rcases KeyedQueue.mem_keys_push hk'' with hk'' | rfl
    · exact h.apart k' hk' hk''
    · exact hkp hk'
  · rw [hr] at hkx
    rcases KeyedQueue.mem_keys_push hkx with hkx | hkx
    · exact h.heldApart x hx hkx
    · exact hkh x hx hkx

theorem Ranked.settle {x x' : τ} (h : f.Ranked keyOf rank (x :: held) js) {k : κ}
    (hk : keyOf x = k) (hx' : keyOf x' = keyOf x ∧ rank x' = rank x) (attempts : Nat)
    (r : Outcome Unit) : (f.settle k x' attempts r).Ranked keyOf rank held js := by
  have hm := settle_marked f k x' attempts r
  have hrest := h.sublist (List.sublist_cons_self x held)
  obtain ⟨hp, -, hr | ⟨hkp, -, hr⟩⟩ := settle_lanes f k x' attempts r
  · exact hrest.frame hp hr hm
  · have hkh : ∀ y ∈ held, keyOf y ≠ k := by
      intro y hy hky
      refine (List.nodup_cons.mp h.heldNodup).1 ?_
      rw [hk, ← hky]
      exact List.mem_map_of_mem hy
    have hx := h.ahead x List.mem_cons_self
    have hy : Ahead keyOf rank f.stats.marked js x' := by
      refine ⟨hx'.2 ▸ hx.1, fun e he hke => ?_⟩
      rw [hx'.2]
      exact hx.2 e he (hke.trans hx'.1)
    exact hrest.requeue (hx'.1.trans hk) hy hkp hkh hp hr hm

end Flusher

namespace FlushHost

variable {σ κ τ : Type} [BEq κ] (h : FlushHost σ κ τ) (keyOf : τ → κ) (rank : τ → Nat)

/-- A host whose tasks know their keys and carry numbers: a flusher put back is read back as it
was put, and a run gives its task back with its key and number, while the flusher changes only
by numbered calls. -/
structure Numbered : Prop where
  flusher_update : ∀ s f, h.flusher (h.update s f) = f
  run : ∀ s t, keyOf (h.run s t).2.1 = keyOf t ∧ rank (h.run s t).2.1 = rank t ∧
    ReflTransGen (Flusher.NumberedCall keyOf rank) (h.flusher s) (h.flusher (h.run s t).1)

/-- The journaled worlds a host reaches from `s₀`, with an empty journal, when callers number the
tasks they mark: by their calls; by the runs that a closed flusher leaves to its callers, which
happen on their side and which the journal does not record; and by the worker's turns, flush
requests, closes and sleeps, whose runs it records. -/
inductive NumberedReachable (s₀ : σ) : σ × List (Entry κ τ) → Prop
  | start : NumberedReachable s₀ (s₀, [])
  | call {p : σ × List (Entry κ τ)} {f : Flusher κ τ} :
    NumberedReachable s₀ p → Flusher.NumberedCall keyOf rank (h.flusher p.1) f →
      NumberedReachable s₀ (h.journaled.update p f)
  | runNow {p : σ × List (Entry κ τ)} {t : τ} :
    NumberedReachable s₀ p → (h.flusher p.1).closed = true →
      NumberedReachable s₀ ((h.run p.1 t).1, p.2)
  | work {p : σ × List (Entry κ τ)} (now fuel : Nat) :
    NumberedReachable s₀ p → NumberedReachable s₀ (h.journaled.work p now fuel)
  | flushNow {p : σ × List (Entry κ τ)} (now : Nat) :
    NumberedReachable s₀ p → NumberedReachable s₀ (h.journaled.flushNow p now)
  | close {p : σ × List (Entry κ τ)} (now : Nat) :
    NumberedReachable s₀ p → NumberedReachable s₀ (h.journaled.close p now)
  | sleep {p : σ × List (Entry κ τ)} (now ms : Nat) :
    NumberedReachable s₀ p → NumberedReachable s₀ (h.journaled.sleep p now ms)

/-- A journaled world whose flusher is ranked against its journal while the worker holds
`held`. -/
structure InOrder (held : List τ) (p : σ × List (Entry κ τ)) : Prop where
  ranked : (h.flusher p.1).Ranked keyOf rank held p.2

variable {h keyOf rank}

theorem Numbered.journaled (hh : h.Numbered keyOf rank) : h.journaled.Numbered keyOf rank where
  flusher_update p f := hh.flusher_update p.1 f
  run p t := hh.run p.1 t

variable [LawfulBEq κ]

section Steps

variable (hh : h.Numbered keyOf rank) {held : List τ}
include hh

omit [LawfulBEq κ] in
theorem inOrder_update {p : σ × List (Entry κ τ)} {f : Flusher κ τ}
    (hf : f.Ranked keyOf rank held p.2) : h.InOrder keyOf rank held (h.journaled.update p f) := by
  have hfu : h.flusher (h.journaled.update p f).1 = f := hh.flusher_update p.1 f
  refine ⟨?_⟩
  rw [hfu]
  exact hf

theorem InOrder.run {p : σ × List (Entry κ τ)} {t : τ} (ha : h.InOrder keyOf rank (t :: held) p) :
    h.InOrder keyOf rank (t :: held) (h.journaled.run p t).1 :=
  ⟨(ha.ranked.calls (hh.run p.1 t).2.2).start ⟨h.flusher p.1, t, h.flusher (h.run p.1 t).1⟩ rfl⟩

theorem InOrder.execute {p : σ × List (Entry κ τ)} {k : κ} {t : τ}
    (ha : h.InOrder keyOf rank (t :: held) p) (hk : keyOf t = k) (attempts : Nat) :
    h.InOrder keyOf rank held (h.journaled.execute p k t attempts).1 := by
  have hrun := ha.run hh
  obtain ⟨hkey, hrank, -⟩ := hh.journaled.run p t
  unfold FlushHost.execute
  rcases hr : h.journaled.run p t with ⟨p', t', r | _⟩ <;> rw [hr] at hrun hkey hrank <;>
    dsimp only at hkey hrank ⊢
  · exact inOrder_update hh (hrun.ranked.settle hk ⟨hkey, hrank⟩ attempts r)
  · exact inOrder_update hh ((hrun.ranked.sublist (List.sublist_cons_self t held)).frame rfl rfl rfl)

theorem InOrder.runBatch (batch : List (κ × τ)) (hb : ∀ x ∈ batch, keyOf x.2 = x.1)
    {p : σ × List (Entry κ τ)} (ha : h.InOrder keyOf rank (batch.map (·.2) ++ held) p) :
    h.InOrder keyOf rank held (h.journaled.runBatch p batch).1 := by
  induction batch generalizing p with
  | nil => exact ha
  | cons task rest ih =>
    obtain ⟨k, t⟩ := task
    have hexec := InOrder.execute hh ha (hb (k, t) List.mem_cons_self) 0
    unfold FlushHost.runBatch
    rcases he : h.journaled.execute p k t 0 with ⟨p', _ | _⟩ <;> rw [he] at hexec <;> dsimp only
    · -- a panic ends the batch, and the worker holds none of it any more
      exact ⟨hexec.ranked.sublist (List.sublist_append_right _ _)⟩
    · exact ih (fun x hx => hb x (List.mem_cons_of_mem _ hx)) hexec

theorem InOrder.runRetries (retries : List (κ × Retry τ))
    (hr : ∀ x ∈ retries, keyOf x.2.task = x.1) {p : σ × List (Entry κ τ)}
    (ha : h.InOrder keyOf rank (retries.map (·.2.task) ++ held) p) :
    h.InOrder keyOf rank held (h.journaled.runRetries p retries).1 := by
  induction retries generalizing p with
  | nil => exact ha
  | cons task rest ih =>
    obtain ⟨k, r⟩ := task
    -- the retry is counted before it runs
    have hcount : h.InOrder keyOf rank (r.task :: (rest.map (·.2.task) ++ held))
        (h.journaled.modify p fun f => f.count fun st => { st with retried := st.retried + 1 }) :=
      inOrder_update hh (ha.ranked.frame rfl rfl rfl)
    have hexec := hcount.execute hh (hr (k, r) List.mem_cons_self) r.attempts
    unfold FlushHost.runRetries
    dsimp only
    split <;> rename_i heq <;> rw [heq] at hexec <;> dsimp only at hexec
    · exact ih (fun x hx => hr x (List.mem_cons_of_mem _ hx)) hexec
    · exact ⟨hexec.ranked.sublist (List.sublist_append_right _ _)⟩

theorem InOrder.cycle {p : σ × List (Entry κ τ)} (ha : h.InOrder keyOf rank [] p) (now : Nat) :
    h.InOrder keyOf rank [] (h.journaled.cycle p now).1 := by
  obtain ⟨hf, hbatch, hretries⟩ := ha.ranked.startCycle now
  unfold FlushHost.cycle
  rcases hc : (h.journaled.flusher p).startCycle now with ⟨f, batch, retries⟩
  have hc' : (h.flusher p.1).startCycle now = (f, batch, retries) := hc
  rw [hc'] at hf hbatch hretries
  dsimp only at hf hbatch hretries ⊢
  have hrun := (inOrder_update hh (p := p) hf).runBatch hh batch hbatch
  rcases hb : h.journaled.runBatch (h.journaled.update p f) batch with ⟨p', _ | _⟩ <;>
    rw [hb] at hrun <;> dsimp only
  · exact ⟨hrun.ranked.sublist (List.nil_sublist _)⟩
  · have hretry : h.InOrder keyOf rank [] (h.journaled.runRetries p' retries).1 :=
      InOrder.runRetries hh retries hretries (by rwa [List.append_nil])
    rcases hr : h.journaled.runRetries p' retries with ⟨p'', _ | _⟩ <;> rw [hr] at hretry <;>
      dsimp only
    · exact hretry
    · exact inOrder_update hh (hretry.ranked.frame rfl rfl rfl)

theorem InOrder.drainPending (fuel : Nat) {p : σ × List (Entry κ τ)}
    (ha : h.InOrder keyOf rank [] p) : h.InOrder keyOf rank [] (h.journaled.drainPending p fuel).1 := by
  induction fuel generalizing p with
  | zero => exact ha
  | succ fuel ih =>
    unfold FlushHost.drainPending
    dsimp only
    split
    · exact ha
    · -- a pass takes the whole pending lane
      have htake : h.InOrder keyOf rank ((h.journaled.flusher p).pending.toList.map (·.2) ++ [])
          (h.journaled.update p { h.journaled.flusher p with pending := KeyedQueue.empty }) := by
        rw [List.append_nil]
        exact inOrder_update hh (ha.ranked.takePending rfl rfl rfl)
      have hpass := htake.runBatch hh (h.journaled.flusher p).pending.toList fun x hx =>
        (ha.ranked.pending.toList x hx).1
      rcases hb : h.journaled.runBatch (h.journaled.update p { h.journaled.flusher p with
        pending := KeyedQueue.empty }) (h.journaled.flusher p).pending.toList with ⟨p', _ | _⟩ <;>
        rw [hb] at hpass
      · exact hpass
      · exact ih hpass

theorem InOrder.drainRetries (rounds : Nat) {p : σ × List (Entry κ τ)}
    (ha : h.InOrder keyOf rank [] p) :
    h.InOrder keyOf rank [] (h.journaled.drainRetries p rounds).1 := by
  induction rounds generalizing p with
  | zero => exact ha
  | succ rounds ih =>
    unfold FlushHost.drainRetries
    dsimp only
    split
    · exact ha
    · -- a round takes the whole retry lane
      have htake : h.InOrder keyOf rank ((h.journaled.flusher p).retry.toList.map (·.2.task) ++ [])
          (h.journaled.update p { h.journaled.flusher p with retry := KeyedQueue.empty }) := by
        rw [List.append_nil]
        exact inOrder_update hh (ha.ranked.takeRetry rfl rfl rfl)
      have hround := htake.runRetries hh (h.journaled.flusher p).retry.toList fun x hx =>
        (ha.ranked.retry.toList x hx).1
      rcases hr : h.journaled.runRetries (h.journaled.update p { h.journaled.flusher p with
        retry := KeyedQueue.empty }) (h.journaled.flusher p).retry.toList with ⟨p', _ | _⟩ <;>
        rw [hr] at hround
      · exact hround
      · exact ih hround

theorem InOrder.runLate (late : List τ) {p : σ × List (Entry κ τ)}
    (ha : h.InOrder keyOf rank late p) : h.InOrder keyOf rank [] (h.journaled.runLate p late).1 := by
  induction late generalizing p with
  | nil => exact ha
  | cons t rest ih =>
    have hrun := ha.run hh
    unfold FlushHost.runLate
    rcases hr : h.journaled.run p t with ⟨p', t', _ | _⟩ <;> rw [hr] at hrun <;> dsimp only
    · exact ih ⟨hrun.ranked.sublist (List.sublist_cons_self t rest)⟩
    · exact inOrder_update hh ((hrun.ranked.sublist (List.nil_sublist _)).frame rfl rfl rfl)

theorem InOrder.drain {p : σ × List (Entry κ τ)} (ha : h.InOrder keyOf rank [] p) (fuel : Nat) :
    h.InOrder keyOf rank [] (h.journaled.drain p fuel) := by
  unfold FlushHost.drain
  have hpending := ha.drainPending hh fuel
  rcases hp : h.journaled.drainPending p fuel with ⟨p₁, _ | _⟩ <;> rw [hp] at hpending <;>
    dsimp only
  · exact hpending
  · dsimp only at hpending
    have hretries := hpending.drainRetries hh (h.journaled.flusher p₁).options.drainAttempts
    rcases hr : h.journaled.drainRetries p₁ (h.journaled.flusher p₁).options.drainAttempts with
      ⟨p₂, _ | _⟩ <;> rw [hr] at hretries <;> dsimp only
    · exact hretries
    · dsimp only at hretries
      -- the tasks marked during the drain are held for their last runs, with the flusher closed
      have hclosed : h.InOrder keyOf rank ((h.journaled.flusher p₂).pending.toList.map (·.2))
          (h.journaled.update p₂ { h.journaled.flusher p₂ with
            pending := KeyedQueue.empty, closed := true,
            completed := (h.journaled.flusher p₂).requested }) :=
        inOrder_update hh (hretries.ranked.takePending rfl rfl rfl)
      have hlate := hclosed.runLate hh _
      split <;> rename_i heq <;> rw [heq] at hlate
      · exact hlate
      · exact inOrder_update hh (hlate.ranked.frame rfl rfl rfl)

/-- The run lemma of the worker: a turn of work keeps a journaled world in order. -/
theorem InOrder.work (now fuel : Nat) {p : σ × List (Entry κ τ)}
    (ha : h.InOrder keyOf rank [] p) : h.InOrder keyOf rank [] (h.journaled.work p now fuel) := by
  induction fuel generalizing p with
  | zero => exact ha
  | succ fuel ih =>
    unfold FlushHost.work
    dsimp only
    split
    · exact ha
    · split
      · exact ha.drain hh (fuel + 1)
      · split
        · have hcycle := ha.cycle hh now
          rcases hc : h.journaled.cycle p now with ⟨p', _ | _⟩ <;> rw [hc] at hcycle <;>
            dsimp only
          · exact hcycle
          · exact ih hcycle
        · exact ha

theorem InOrder.flushNow {p : σ × List (Entry κ τ)} (ha : h.InOrder keyOf rank [] p) (now : Nat) :
    h.InOrder keyOf rank [] (h.journaled.flushNow p now) := by
  unfold FlushHost.flushNow
  split
  · exact ha
  · exact InOrder.work hh now _ (inOrder_update hh (ha.ranked.frame rfl rfl rfl))

theorem InOrder.close {p : σ × List (Entry κ τ)} (ha : h.InOrder keyOf rank [] p) (now : Nat) :
    h.InOrder keyOf rank [] (h.journaled.close p now) := by
  unfold FlushHost.close
  split
  · exact ha
  · exact InOrder.work hh now _ (inOrder_update hh (ha.ranked.frame rfl rfl rfl))

theorem InOrder.sleep {p : σ × List (Entry κ τ)} (ha : h.InOrder keyOf rank [] p) (now ms : Nat) :
    h.InOrder keyOf rank [] (h.journaled.sleep p now ms) := by
  unfold FlushHost.sleep
  -- the timer walk wakes the worker at each deadline up to the end of the sleep
  suffices ∀ fuel t p, h.InOrder keyOf rank [] p →
      h.InOrder keyOf rank [] (sleep.go h.journaled now ms p t fuel) from this _ _ _ ha
  intro fuel
  induction fuel with
  | zero => intro t p ha; exact ha
  | succ fuel ih =>
    intro t p ha
    unfold sleep.go
    dsimp only
    split
    · exact ha
    · split
      · exact ha
      · have hwork := InOrder.work hh (max (h.journaled.flusher p).deadline t) turnFuel ha
        split
        · exact ih _ _ hwork
        · exact ih _ _ hwork

/-- The run lemma: every journaled world reached from a new flusher is in order, with the worker
holding nothing between its turns. -/
theorem NumberedReachable.inOrder {s₀ : σ} {o : FlusherOptions} {now : Nat}
    (h₀ : h.flusher s₀ = Flusher.create o now) {p : σ × List (Entry κ τ)}
    (hp : h.NumberedReachable keyOf rank s₀ p) : h.InOrder keyOf rank [] p := by
  induction hp with
  | start =>
    refine ⟨?_⟩
    show (h.flusher s₀).Ranked keyOf rank [] []
    rw [h₀]
    exact Flusher.ranked_create o now
  | call _ hc ih => exact inOrder_update hh (ih.ranked.call hc)
  | runNow _ _ ih => exact ⟨ih.ranked.calls (hh.run _ _).2.2⟩
  | work now fuel _ ih => exact ih.work hh now fuel
  | flushNow now _ ih => exact ih.flushNow hh now
  | close now _ ih => exact ih.close hh now
  | sleep now ms _ ih => exact ih.sleep hh now ms

end Steps

/-- **The worker starts the tasks of one key in mark order.** Take a host whose callers mark each
task under its own key, numbered with the count of marks the flusher has taken, and whose tasks
keep their keys and numbers when they run. In every world reached from a new flusher, of two runs
of one key that the worker started, the later one's task was marked no earlier: once a task of a
key has started, no task of the key marked before it starts later. -/
theorem worker_starts_in_mark_order (hh : h.Numbered keyOf rank) {o : FlusherOptions} {now : Nat}
    {s₀ : σ} (h₀ : h.flusher s₀ = Flusher.create o now) {p : σ × List (Entry κ τ)}
    (hp : h.NumberedReachable keyOf rank s₀ p) :
    p.2.Pairwise fun e e' => keyOf e'.task = keyOf e.task → rank e'.task ≤ rank e.task :=
  (NumberedReachable.inOrder hh h₀ hp).ranked.ordered

theorem cancelsWhileRunning_numbered : cancelsWhileRunning.Numbered Prod.fst Prod.snd where
  flusher_update _ _ := rfl
  run f t := by
    unfold cancelsWhileRunning
    dsimp only
    split
    · exact ⟨rfl, rfl, .single (.cancel f 1)⟩
    · exact ⟨rfl, rfl, .refl⟩

/-- Tasks `(0, 0)` and `(1, 1)` are marked and flushed; `(0, 0)` fails and waits for retry, and a
newer task `(0, 2)` of its key takes its place, so the second flush runs only that one. -/
theorem worker_starts_in_mark_order_superseded :
    let f₀ : Flusher Nat (Nat × Nat) := Flusher.create {} 0
    let p₁ := cancelsWhileRunning.journaled.update (f₀, []) (f₀.enqueue 0 (0, 0) 0).1
    let p₂ := cancelsWhileRunning.journaled.flushNow
      (cancelsWhileRunning.journaled.update p₁ (p₁.1.enqueue 1 (1, 1) 0).1) 0
    let p := cancelsWhileRunning.journaled.flushNow
      (cancelsWhileRunning.journaled.update p₂ (p₂.1.enqueue 0 (0, 2) 0).1) 0
    p.2.map (·.task) = [(0, 2), (1, 1), (0, 0)] ∧
      p.2.Pairwise fun e e' => e'.task.1 = e.task.1 → e'.task.2 ≤ e.task.2 := by
  intro f₀ p₁ p₂ p
  have hp : cancelsWhileRunning.NumberedReachable Prod.fst Prod.snd f₀ p :=
    .flushNow 0 (.call (.flushNow 0 (.call (.call .start (.mark _ (0, 0) 0 rfl))
      (.mark _ (1, 1) 0 rfl))) (.mark _ (0, 2) 0 (by decide)))
  exact ⟨by decide +kernel, worker_starts_in_mark_order cancelsWhileRunning_numbered rfl hp⟩

end FlushHost

namespace Console

/-- **A task run at once overtakes an older late task of its key.** Closing runs the last retry
round, where `r` marks `A` of key `a` and then `B` of key `k`; both are left pending and run as
late tasks once the flusher is closed. `A` marks `C` of key `k`, which the closed flusher leaves
to `A` to run at once: `C`, marked after `B`, runs before it. -/
theorem closed_mark_overtakes_late_task :
    let a : TaskScript := .mk "a" "A" ["ok"] [(0, .mk "k" "C" ["ok"] [] false)] false
    let r : TaskScript :=
      .mk "r" "r" ["backend", "ok"] [(1, a), (1, .mk "k" "B" ["ok"] [] false)] false
    let f : Flusher String ScriptedTask :=
      ((Flusher.create { drainAttempts := 1 } 0).enqueue "r" ⟨r, 0⟩ 0).1
    (benchHost.close ⟨f, [], 0, false⟩ 0).log.reverse =
      ["r:backend", "r:mark a", "r:mark k", "r:ok", "C:ok", "A:mark k", "A:ok", "B:ok"] := by
  decide +kernel

end Console

end Stowage
