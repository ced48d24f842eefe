import Stowage.Proofs.Flusher.Shutdown
/-!
A flush request is answered by a cycle that starts after it.

A caller asking for a flush counts one more request and waits until the requests answered reach
its own. A cycle takes every request made before it starts and answers them when it ends, so the
cycle running at the request answers only earlier ones, and the caller goes on only once a cycle
started after its request has ended. The request makes the worker due whether it stands idle or
runs a task at the time, and the next cycle to start takes the whole pending lane and the whole
retry lane.

So when the caller goes on, every task that was pending or waiting for retry at the request has
run since, unless a call took it out of its lane: a cancellation of its key, or a newer mark of
its key, and then the newer task is answered for in its turn. The task running at the request
ran to its end first.

The proof follows the worker step by step. A task owed to the request waits in its lane until the
cycle that answers the request takes it, and then among the tasks that cycle still owes, and each
step of the worker keeps account of where it is.
-/
namespace Stowage

namespace Flusher

variable {κ τ : Type} [BEq κ]

/-- The tasks the flusher holds, the pending ones in queue order and then the retries. -/
def held (f : Flusher κ τ) : List (κ × τ) :=
  f.pending.toList ++ f.retry.toList.map fun x => (x.1, x.2.task)

/-- The tasks a cycle started at time `now` takes, in the order it runs them. -/
def cycleTasks (f : Flusher κ τ) (now : Nat) : List (κ × τ) :=
  (f.startCycle now).2.1 ++ (f.startCycle now).2.2.map fun x => (x.1, x.2.task)

/-- The request counters in order: the requests answered were taken by a cycle, and the requests
taken were made. -/
structure Counters (f : Flusher κ τ) : Prop where
  answered : f.completed ≤ f.started
  taken : f.started ≤ f.requested

/-- Each lane holds a key at most once, and no key is in both. -/
structure LanesApart (f : Flusher κ τ) : Prop where
  pendingNodup : f.pending.keys.Nodup
  retryNodup : f.retry.keys.Nodup
  disjoint : ∀ k ∈ f.pending.keys, k ∉ f.retry.keys

/-- What holds between two steps of the worker, with the tasks `owed` by the cycle it runs: the
counters and the lanes in order, and distinct keys owed, none of them waiting for retry. -/
structure Working (f : Flusher κ τ) (owed : List (κ × τ)) : Prop where
  counters : f.Counters
  apart : f.LanesApart
  owedNodup : (owed.map (·.1)).Nodup
  owedFree : ∀ y ∈ owed, y.1 ∉ f.retry.keys

/-- Where a task owed to the request `w` waits between two steps of the worker: in a lane until a
cycle takes the request, and then among the tasks `owed` by that cycle until it ends. -/
def Awaits (w : Nat) (f : Flusher κ τ) (owed : List (κ × τ)) (y : κ × τ) : Prop :=
  f.started < w ∧ y ∈ f.held ∨ f.completed < w ∧ w ≤ f.started ∧ y ∈ owed

variable {runs : τ → Nat} {f g : Flusher κ τ}

theorem mem_held_of_pending {x : κ × τ} (hx : x ∈ f.pending.toList) : x ∈ f.held :=
  List.mem_append_left _ hx

theorem startCycle_lanes (f : Flusher κ τ) (now : Nat) :
    (f.startCycle now).2.1 = f.pending.toList ∧
      ((f.startCycle now).1.retry = KeyedQueue.empty ∧ (f.startCycle now).2.2 = f.retry.toList ∨
        (f.startCycle now).1.retry = f.retry ∧ (f.startCycle now).2.2 = []) := by
  unfold startCycle
  dsimp only
  split
  · exact ⟨rfl, .inl ⟨rfl, rfl⟩⟩
  · exact ⟨rfl, .inr ⟨rfl, rfl⟩⟩

theorem startCycle_counters (f : Flusher κ τ) (now : Nat) :
    (f.startCycle now).1.started = f.requested ∧ (f.startCycle now).1.completed = f.completed ∧
      (f.startCycle now).1.requested = f.requested := by
  unfold startCycle
  dsimp only
  split <;> exact ⟨rfl, rfl, rfl⟩

theorem cycleTasks_of_request (hw : f.started < f.requested) (now : Nat) :
    f.cycleTasks now = f.held := by
  simp [cycleTasks, startCycle, held, hw]

theorem settle_counters (f : Flusher κ τ) (k : κ) (t : τ) (attempts : Nat) (r : Outcome Unit) :
    (f.settle k t attempts r).started = f.started ∧
      (f.settle k t attempts r).completed = f.completed ∧
      (f.settle k t attempts r).requested = f.requested := by
  unfold settle
  cases r with
  | ok => exact ⟨rfl, rfl, rfl⟩
  | error e =>
    dsimp only
    split
    · exact ⟨rfl, rfl, rfl⟩
    · split <;> exact ⟨rfl, rfl, rfl⟩

theorem Call.counters (hc : Call runs f g) :
    g.started = f.started ∧ g.completed = f.completed ∧ f.requested ≤ g.requested := by
  cases hc with
  | mark k t now _ =>
    unfold enqueue
    split
    · exact ⟨rfl, rfl, le_rfl⟩
    · split
      · exact ⟨rfl, rfl, le_rfl⟩
      · dsimp only
        split <;> exact ⟨rfl, rfl, le_rfl⟩
  | cancel k => exact ⟨rfl, rfl, le_rfl⟩
  | request => exact ⟨rfl, rfl, Nat.le_succ _⟩
  | shutdown => exact ⟨rfl, rfl, le_rfl⟩

theorem calls_counters (hc : Relation.ReflTransGen (Call runs) f g) :
    g.started = f.started ∧ g.completed = f.completed ∧ f.requested ≤ g.requested := by
  induction hc with
  | refl => exact ⟨rfl, rfl, le_rfl⟩
  | tail _ step ih =>
    obtain ⟨hs, hc, hr⟩ := step.counters
    exact ⟨hs.trans ih.1, hc.trans ih.2.1, ih.2.2.trans hr⟩

theorem Counters.calls (h : f.Counters) (hc : Relation.ReflTransGen (Call runs) f g) :
    g.Counters := by
  obtain ⟨hs, hco, hr⟩ := calls_counters hc
  have := h.answered
  have := h.taken
  exact ⟨by omega, by omega⟩

omit [BEq κ] in
theorem LanesApart.frame (h : f.LanesApart) (hp : g.pending = f.pending) (hr : g.retry = f.retry) :
    g.LanesApart :=
  ⟨by rw [hp]; exact h.pendingNodup, by rw [hr]; exact h.retryNodup, by rw [hp, hr]; exact h.disjoint⟩

omit [BEq κ] in
theorem LanesApart.sublanes (h : f.LanesApart) (hp : g.pending.keys.Sublist f.pending.keys)
    (hr : g.retry.keys.Sublist f.retry.keys) : g.LanesApart :=
  ⟨h.pendingNodup.sublist hp, h.retryNodup.sublist hr,
    fun k hk hk' => h.disjoint k (hp.subset hk) (hr.subset hk')⟩

theorem LanesApart.startCycle (h : f.LanesApart) (now : Nat) : (f.startCycle now).1.LanesApart := by
  unfold Flusher.startCycle
  dsimp only
  split
  · exact ⟨List.nodup_nil, List.nodup_nil, fun _ hk => absurd hk List.not_mem_nil⟩
  · exact ⟨List.nodup_nil, h.retryNodup, fun _ hk => absurd hk List.not_mem_nil⟩

omit [BEq κ] in
theorem Working.idle (hc : f.Counters) (ha : f.LanesApart) : f.Working [] :=
  ⟨hc, ha, List.nodup_nil, fun _ hy => absurd hy List.not_mem_nil⟩

section Apart

variable [LawfulBEq κ]

theorem calls_retry_sublist (hc : Relation.ReflTransGen (Call runs) f g) :
    g.retry.keys.Sublist f.retry.keys := by
  induction hc with
  | refl => exact List.Sublist.refl _
  | tail _ step ih => exact step.retry_sublist.trans ih

theorem LanesApart.enqueue (h : f.LanesApart) (k : κ) (t : τ) (now : Nat) :
    (f.enqueue k t now).1.LanesApart := by
  obtain ⟨-, ⟨hp, hr⟩ | ⟨hp, hr⟩⟩ := enqueue_lanes f k t now
  · exact h.frame hp hr
  · refine ⟨?_, ?_, ?_⟩
    · rw [hp]
      exact KeyedQueue.nodup_keys_push h.pendingNodup k t now
    · rw [hr]
      exact KeyedQueue.nodup_keys_remove h.retryNodup k
    · -- the marked key leaves the retry lane
      intro x hx hx'
      rw [hr] at hx'
      rw [hp] at hx
      obtain ⟨hx', hne⟩ := KeyedQueue.mem_keys_remove hx'
      rcases KeyedQueue.mem_keys_push hx with hx | rfl
      · exact h.disjoint x hx hx'
      · exact hne rfl

theorem LanesApart.call (h : f.LanesApart) (hc : Call runs f g) : g.LanesApart := by
  cases hc with
  | mark k t now _ => exact h.enqueue k t now
  | cancel k => exact h.sublanes (KeyedQueue.subqueue_remove _ _).1 (KeyedQueue.subqueue_remove _ _).1
  | request => exact h.frame rfl rfl
  | shutdown => exact h.frame rfl rfl

theorem LanesApart.calls (h : f.LanesApart) (hc : Relation.ReflTransGen (Call runs) f g) :
    g.LanesApart := by
  induction hc with
  | refl => exact h
  | tail _ step ih => exact ih.call step

theorem LanesApart.settle (h : f.LanesApart) (k : κ) (t : τ) (attempts : Nat) (r : Outcome Unit) :
    (f.settle k t attempts r).LanesApart := by
  obtain ⟨hp, -, hr | ⟨hk, -, hr⟩⟩ := settle_lanes f k t attempts r
  · exact h.frame hp hr
  · refine ⟨by rw [hp]; exact h.pendingNodup, by rw [hr]; exact KeyedQueue.nodup_keys_push h.retryNodup _ _ _,
      fun x hx hx' => ?_⟩
    rw [hp] at hx
    rw [hr] at hx'
    rcases KeyedQueue.mem_keys_push hx' with hx' | rfl
    · exact h.disjoint x hx hx'
    · exact hk hx

theorem held_settle (hn : f.retry.keys.Nodup) {k : κ} (hk : k ∉ f.retry.keys) {y : κ × τ}
    (hy : y ∈ f.held) (t : τ) (attempts : Nat) (r : Outcome Unit) :
    y ∈ (f.settle k t attempts r).held := by
  obtain ⟨hp, -, hr | ⟨-, -, hr⟩⟩ := settle_lanes f k t attempts r
  · unfold held at hy ⊢
    rwa [hp, hr]
  · unfold held at hy ⊢
    rw [hp, hr, KeyedQueue.toList_push_of_not_mem hn hk, List.map_append, ← List.append_assoc]
    exact List.mem_append_left _ hy

/-! ### The worker's steps -/

variable {owed : List (κ × τ)}

theorem Working.start (h : f.Working []) (now : Nat) : (f.startCycle now).1.Working (f.cycleTasks now) := by
  obtain ⟨hb, hlanes⟩ := startCycle_lanes f now
  obtain ⟨hs, hc, hr⟩ := startCycle_counters f now
  have hpk : f.pending.toList.map (·.1) = f.pending.keys :=
    KeyedQueue.map_fst_toList h.apart.pendingNodup
  refine ⟨⟨?_, ?_⟩, h.apart.startCycle now, ?_, fun y hy => ?_⟩
  · rw [hs, hc]
    exact h.counters.answered.trans h.counters.taken
  · rw [hs, hr]
  · rcases hlanes with ⟨-, hret⟩ | ⟨-, hret⟩ <;> rw [cycleTasks, hb, hret]
    · -- both lanes: distinct keys in each, and none in both
      have hrk : (f.retry.toList.map fun x => (x.1, x.2.task)).map (·.1) = f.retry.keys := by
        rw [List.map_map]
        exact KeyedQueue.map_fst_toList h.apart.retryNodup
      rw [List.map_append, hpk, hrk]
      exact List.nodup_append.mpr ⟨h.apart.pendingNodup, h.apart.retryNodup,
        fun a ha b hb hab => h.apart.disjoint a ha (hab ▸ hb)⟩
    · rw [List.map_nil, List.append_nil, hpk]
      exact h.apart.pendingNodup
  · rcases hlanes with ⟨hret, -⟩ | ⟨hret, hret'⟩ <;> rw [hret]
    · exact List.not_mem_nil
    · -- the retry lane stays: the tasks taken are the pending ones
      rw [cycleTasks, hb, hret', List.map_nil, List.append_nil] at hy
      exact h.apart.disjoint _ (KeyedQueue.mem_keys_of_mem_toList hy)

omit [BEq κ] [LawfulBEq κ] in
theorem Working.count (h : f.Working owed) (c : FlusherStats → FlusherStats) :
    (f.count c).Working owed :=
  ⟨⟨h.counters.answered, h.counters.taken⟩, h.apart.frame rfl rfl, h.owedNodup, h.owedFree⟩

theorem Working.runKey {k : κ} {t : τ} {fa : Flusher κ τ} (h : f.Working ((k, t) :: owed))
    (hc : Relation.ReflTransGen (Call runs) f fa) : k ∉ fa.retry.keys :=
  fun hk => h.owedFree (k, t) List.mem_cons_self ((calls_retry_sublist hc).subset hk)

theorem Working.run {k : κ} {t : τ} {fa : Flusher κ τ} (h : f.Working ((k, t) :: owed))
    (hc : Relation.ReflTransGen (Call runs) f fa) (t' : τ) (attempts : Nat) (r : Outcome Unit) :
    (fa.settle k t' attempts r).Working owed := by
  obtain ⟨hs, hco, hr⟩ := settle_counters fa k t' attempts r
  have hca := h.counters.calls hc
  have hnd := h.owedNodup
  rw [List.map_cons, List.nodup_cons] at hnd
  refine ⟨⟨?_, ?_⟩, (h.apart.calls hc).settle k t' attempts r, hnd.2, fun y hy hy' => ?_⟩
  · rw [hs, hco]
    exact hca.answered
  · rw [hs, hr]
    exact hca.taken
  · -- settling brings back only the key that ran, which is owed no more
    rcases retry_keys_settle fa k t' attempts r y.1 hy' with hy' | hyk
    · exact h.owedFree y (List.mem_cons_of_mem _ hy) ((calls_retry_sublist hc).subset hy')
    · exact hnd.1 (List.mem_map.mpr ⟨y, hy, hyk⟩)

omit [BEq κ] [LawfulBEq κ] in
theorem Working.finish (h : f.Working []) : ({ f with completed := f.started } : Flusher κ τ).Working [] :=
  ⟨⟨le_rfl, h.counters.taken⟩, h.apart.frame rfl rfl, h.owedNodup, h.owedFree⟩

end Apart

end Flusher

/-! ### Answering for the tasks owed to a request -/

namespace Entry

variable {κ τ : Type} [BEq κ]

/-- A task answered for by the entries `js`, newest first, up to the tasks `waiting` still to
run: it is waiting; or an entry runs it; or a call within an entry takes it out of its lane, and
every task of its key that the entry leaves pending is answered for by the entries after it. -/
inductive Settled (waiting : κ × τ → Prop) : List (Entry κ τ) → κ × τ → Prop
  | waits {js : List (Entry κ τ)} {x : κ × τ} : waiting x → Settled waiting js x
  | ran (pre : List (Entry κ τ)) {e : Entry κ τ} (post : List (Entry κ τ)) {x : κ × τ} :
    e.task = x.2 → Settled waiting (pre ++ e :: post) x
  | taken (pre : List (Entry κ τ)) {e : Entry κ τ} (post : List (Entry κ τ)) {x : κ × τ} :
    x ∈ e.before.held → x ∉ e.after.held →
    (∀ y ∈ e.after.pending.toList, y.1 = x.1 → Settled waiting pre y) →
    Settled waiting (pre ++ e :: post) x

/-- A task answered for by the entries `js` with nothing left to run: it ran, or a call took it
out of its lane and whatever of its key took its place was answered for in turn. -/
def Answered (js : List (Entry κ τ)) (x : κ × τ) : Prop := Settled (fun _ => False) js x

variable {P Q : κ × τ → Prop} {js : List (Entry κ τ)} {x : κ × τ}

theorem Settled.mono (h : Settled P js x) (hPQ : ∀ y, P y → Q y) : Settled Q js x := by
  induction h with
  | waits hx => exact .waits (hPQ _ hx)
  | ran pre post ht => exact .ran pre post ht
  | taken pre post hx hx' _ ih => exact .taken pre post hx hx' ih

theorem Settled.append (h : Settled P js x) (older : List (Entry κ τ)) :
    Settled P (js ++ older) x := by
  induction h with
  | waits hx => exact .waits hx
  | ran pre post ht =>
    rw [List.append_assoc, List.cons_append]
    exact .ran pre _ ht
  | taken pre post hx hx' hrest =>
    rw [List.append_assoc, List.cons_append]
    exact .taken pre _ hx hx' hrest

theorem Settled.cons (h : Settled P js x) {e : Entry κ τ} (hP : ∀ y, P y → Settled Q [e] y) :
    Settled Q (e :: js) x := by
  induction h with
  | waits hx => exact (hP _ hx).append _
  | ran pre post ht => exact .ran (e :: pre) post ht
  | taken pre post hx hx' _ ih => exact .taken (e :: pre) post hx hx' ih

theorem settled_entry (e : Entry κ τ) {y : κ × τ} (hy : y ∈ e.before.held) :
    Settled (· ∈ e.after.held) [e] y := by
  by_cases hy' : y ∈ e.after.held
  · exact .waits hy'
  · exact .taken [] [] hy hy' fun z hz _ => .waits (Flusher.mem_held_of_pending hz)

end Entry

variable {κ τ : Type} [BEq κ]

/-- The tasks `tasks` owed to the request `w` between two steps of the worker: the request was
made, and each task is answered for by the entries `js` since it, up to what still awaits its run
in the flusher `f` or among the tasks `owed` by its cycle. -/
structure Tracks (w : Nat) (tasks : List (κ × τ)) (f : Flusher κ τ) (js : List (Entry κ τ))
    (owed : List (κ × τ)) : Prop where
  made : w ≤ f.requested
  settled : ∀ x ∈ tasks, Entry.Settled (f.Awaits w owed) js x

namespace Tracks

variable {w : Nat} {tasks : List (κ × τ)} {f : Flusher κ τ} {js : List (Entry κ τ)}
  {owed : List (κ × τ)}

theorem request (f : Flusher κ τ) (hc : f.Counters) (owed : List (κ × τ)) :
    Tracks (f.requested + 1) f.held f.request [] owed :=
  ⟨le_rfl, fun _ hx => .waits (.inl ⟨Nat.lt_succ_of_le hc.taken, hx⟩)⟩

theorem count (h : Tracks w tasks f js owed) (c : FlusherStats → FlusherStats) :
    Tracks w tasks (f.count c) js owed :=
  ⟨h.made, h.settled⟩

theorem start (h : Tracks w tasks f js []) (hc : f.Counters) (now : Nat) :
    Tracks w tasks (f.startCycle now).1 js (f.cycleTasks now) := by
  obtain ⟨hs, hco, hr⟩ := Flusher.startCycle_counters f now
  refine ⟨by rw [hr]; exact h.made, fun x hx => (h.settled x hx).mono fun y hy => ?_⟩
  rcases hy with ⟨hw, hy⟩ | ⟨-, -, hy⟩
  · have hwait : f.started < f.requested := Nat.lt_of_lt_of_le hw h.made
    refine .inr ⟨?_, ?_, ?_⟩
    · rw [hco]
      exact Nat.lt_of_le_of_lt hc.answered hw
    · rw [hs]
      exact h.made
    · rwa [Flusher.cycleTasks_of_request hwait]
  · exact absurd hy List.not_mem_nil

theorem finish (h : Tracks w tasks f js []) :
    Tracks w tasks ({ f with completed := f.started } : Flusher κ τ) js [] := by
  refine ⟨h.made, fun x hx => (h.settled x hx).mono fun y hy => ?_⟩
  rcases hy with hy | ⟨-, -, hy⟩
  · exact .inl hy
  · exact absurd hy List.not_mem_nil

theorem answered (h : Tracks w tasks f js owed) (hc : f.Counters) (hw : w ≤ f.completed) :
    ∀ x ∈ tasks, Entry.Answered js x := by
  intro x hx
  refine (h.settled x hx).mono fun y hy => ?_
  have := hc.answered
  rcases hy with ⟨hlt, -⟩ | ⟨hlt, -, -⟩ <;> omega

variable [LawfulBEq κ] {runs : τ → Nat}

theorem run {k : κ} {t : τ} {fa : Flusher κ τ} (h : Tracks w tasks f js ((k, t) :: owed))
    (hc : Relation.ReflTransGen (Flusher.Call runs) f fa) (hn : fa.retry.keys.Nodup)
    (hk : k ∉ fa.retry.keys) (t' : τ) (attempts : Nat) (r : Outcome Unit) :
    Tracks w tasks (fa.settle k t' attempts r) (⟨f, t, fa⟩ :: js) owed := by
  obtain ⟨hs, hco, hr⟩ := Flusher.settle_counters fa k t' attempts r
  obtain ⟨hs', hco', hr'⟩ := Flusher.calls_counters hc
  refine ⟨by rw [hr]; exact h.made.trans hr', fun x hx => (h.settled x hx).cons fun y hy => ?_⟩
  rcases hy with ⟨hw, hy⟩ | ⟨hw, hw', hy⟩
  · refine (Entry.settled_entry ⟨f, t, fa⟩ hy).mono fun z hz => .inl ⟨?_, ?_⟩
    · rw [hs, hs']
      exact hw
    · exact Flusher.held_settle hn hk hz t' attempts r
  · rcases List.mem_cons.mp hy with rfl | hy
    · exact .ran [] [] rfl
    · refine .waits (.inr ⟨?_, ?_, hy⟩)
      · rw [hco, hco']
        exact hw
      · rw [hs, hs']
        exact hw'

end Tracks

namespace FlushHost

variable {σ : Type}

/-! ### A turn of the worker, step by step -/

/-- A property of the flusher, the journal and the tasks owed by the cycle the worker runs, kept
by each step of a cycle that goes to its end: taking the lanes, counting a retry, a run and its
settling, and the end of the cycle. -/
structure CycleKeeps (runs : τ → Nat)
    (I : Flusher κ τ → List (Entry κ τ) → List (κ × τ) → Prop) : Prop where
  start : ∀ f js now, I f js [] → I (f.startCycle now).1 js (f.cycleTasks now)
  count : ∀ f js owed c, I f js owed → I (f.count c) js owed
  run : ∀ f fa js k t owed, I f js ((k, t) :: owed) →
    Relation.ReflTransGen (Flusher.Call runs) f fa →
    ∀ t' attempts r, I (fa.settle k t' attempts r) (⟨f, t, fa⟩ :: js) owed
  finish : ∀ f js, I f js [] → I { f with completed := f.started } js []

section Turn

variable {g : FlushHost σ κ τ} {s : σ}

theorem work_succ (now fuel : Nat) :
    g.work s now (fuel + 1) = s ∨ g.work s now (fuel + 1) = g.drain s (fuel + 1) ∨
      (∃ s', g.cycle s now = (s', true) ∧ g.work s now (fuel + 1) = g.work s' now fuel) ∨
      ∃ s', g.cycle s now = (s', false) ∧ g.work s now (fuel + 1) = s' := by
  rw [work]
  split
  · exact .inl rfl
  · split
    · exact .inr (.inl rfl)
    · split
      · rcases hc : g.cycle s now with ⟨s', _ | _⟩
        · exact .inr (.inr (.inr ⟨s', rfl, rfl⟩))
        · exact .inr (.inr (.inl ⟨s', rfl, rfl⟩))
      · exact .inl rfl

/-- A cycle that goes to its end ran its batch and its retries to their end, and then marked the
requests it took answered. -/
theorem cycle_done {s' : σ} {now : Nat} {f : Flusher κ τ} {batch : List (κ × τ)}
    {retries : List (κ × Retry τ)} (hs : (g.flusher s).startCycle now = (f, batch, retries))
    (hc : g.cycle s now = (s', true)) :
    ∃ s₁ s₂, g.runBatch (g.update s f) batch = (s₁, true) ∧ g.runRetries s₁ retries = (s₂, true) ∧
      s' = g.modify s₂ fun c => { c with completed := c.started } := by
  unfold FlushHost.cycle at hc
  rw [hs] at hc
  dsimp only at hc
  rcases hb : g.runBatch (g.update s f) batch with ⟨s₁, _ | _⟩ <;> rw [hb] at hc <;> dsimp only at hc
  · cases hc
  · rcases hr : g.runRetries s₁ retries with ⟨s₂, _ | _⟩ <;> rw [hr] at hc <;> dsimp only at hc
    · cases hc
    · exact ⟨s₁, s₂, rfl, hr, (Prod.mk.inj hc).1.symm⟩

theorem drain_not_running (hfu : ∀ s f, g.flusher (g.update s f) = f) (s : σ) (fuel : Nat) :
    (g.flusher (g.drain s fuel)).worker ≠ .running := by
  by_cases hd : (g.flusher (g.drain s fuel)).worker = .dead
  · rw [hd]
    decide
  · obtain ⟨q, r, l, -, -, -, hdr⟩ := drain_complete hfu hd
    rw [hdr, modify, hfu]
    exact (by decide : WorkerState.stopped ≠ .running)

end Turn

variable {h : FlushHost σ κ τ} {runs : τ → Nat}
  {I : Flusher κ τ → List (Entry κ τ) → List (κ × τ) → Prop}

theorem CycleKeeps.execute (hI : CycleKeeps runs I) (hh : h.Counting runs)
    {p p' : σ × List (Entry κ τ)} {k : κ} {t : τ} {attempts : Nat} {owed : List (κ × τ)}
    (hp : I (h.flusher p.1) p.2 ((k, t) :: owed))
    (he : h.journaled.execute p k t attempts = (p', true)) : I (h.flusher p'.1) p'.2 owed := by
  obtain ⟨t', r, hf⟩ := flusher_execute p hh.flusher_update he
  have hj := journal_execute (h := h) p k t attempts
  rw [he] at hj
  rw [hf, hj]
  exact hI.run _ _ _ _ _ _ hp (hh.calls_run p.1 t) t' attempts r

theorem CycleKeeps.runBatch (hI : CycleKeeps runs I) (hh : h.Counting runs) (batch : List (κ × τ))
    {p p' : σ × List (Entry κ τ)} {owed : List (κ × τ)} (hp : I (h.flusher p.1) p.2 (batch ++ owed))
    (hb : h.journaled.runBatch p batch = (p', true)) : I (h.flusher p'.1) p'.2 owed := by
  induction batch generalizing p with
  | nil =>
    cases hb
    exact hp
  | cons task rest ih =>
    obtain ⟨k, t⟩ := task
    unfold FlushHost.runBatch at hb
    rcases he : h.journaled.execute p k t 0 with ⟨p₁, _ | _⟩ <;> rw [he] at hb <;>
      dsimp only at hb
    · cases hb
    · exact ih (hI.execute hh hp he) hb

theorem CycleKeeps.runRetries (hI : CycleKeeps runs I) (hh : h.Counting runs)
    (retries : List (κ × Retry τ)) {p p' : σ × List (Entry κ τ)} {owed : List (κ × τ)}
    (hp : I (h.flusher p.1) p.2 (retries.map (fun x => (x.1, x.2.task)) ++ owed))
    (hr : h.journaled.runRetries p retries = (p', true)) : I (h.flusher p'.1) p'.2 owed := by
  induction retries generalizing p with
  | nil =>
    cases hr
    exact hp
  | cons task rest ih =>
    obtain ⟨k, r⟩ := task
    unfold FlushHost.runRetries at hr
    dsimp only at hr
    split at hr <;> rename_i he
    · -- the retry is counted before it runs
      have hcount : I (h.flusher (h.journaled.modify p fun f =>
          f.count fun st => { st with retried := st.retried + 1 }).1) p.2
          ((k, r.task) :: (rest.map (fun x => (x.1, x.2.task)) ++ owed)) := by
        rw [flusher_journaled_modify hh]
        exact hI.count _ _ _ _ hp
      exact ih (hI.execute hh hcount he) hr
    · cases hr

theorem CycleKeeps.cycle (hI : CycleKeeps runs I) (hh : h.Counting runs)
    {p p' : σ × List (Entry κ τ)} {now : Nat} (hp : I (h.flusher p.1) p.2 [])
    (hc : h.journaled.cycle p now = (p', true)) : I (h.flusher p'.1) p'.2 [] := by
  have hstart := hI.start _ _ now hp
  rcases hs : (h.flusher p.1).startCycle now with ⟨f, batch, retries⟩
  obtain ⟨p₁, p₂, hb, hr, rfl⟩ := cycle_done (g := h.journaled) hs hc
  rw [Flusher.cycleTasks, hs] at hstart
  dsimp only at hstart
  have h₁ := hI.runBatch hh batch (p := h.journaled.update p f)
    (by rw [flusher_journaled_update hh]; exact hstart) hb
  have h₂ : I (h.flusher p₂.1) p₂.2 [] :=
    hI.runRetries hh retries (by rw [List.append_nil]; exact h₁) hr
  rw [flusher_journaled_modify hh]
  exact hI.finish _ _ h₂

/-- The run lemma of a turn: every cycle of it keeps what each step keeps, up to where the worker
still runs. -/
theorem CycleKeeps.work (hI : CycleKeeps runs I) (hh : h.Counting runs) {now : Nat} (fuel : Nat)
    {p : σ × List (Entry κ τ)} (hp : I (h.flusher p.1) p.2 [])
    (hrun : (h.flusher (h.journaled.work p now fuel).1).worker = .running) :
    I (h.flusher (h.journaled.work p now fuel).1) (h.journaled.work p now fuel).2 [] := by
  have hfu := journaled_flusher_update hh.flusher_update
  induction fuel generalizing p with
  | zero => exact hp
  | succ fuel ih =>
    rcases work_succ now fuel (g := h.journaled) (s := p) with hw | hw | ⟨p₁, hc, hw⟩ | ⟨p₁, hc, hw⟩ <;>
      rw [hw] at hrun ⊢
    · exact hp
    · exact absurd hrun (drain_not_running hfu _ _)
    · exact ih (hI.cycle hh hp hc) hrun
    · have hd : (h.flusher p₁.1).worker = .dead := cycle_dead hfu hc
      rw [hd] at hrun
      cases hrun

/-! ### Requests answered -/

variable [LawfulBEq κ]

/-- After a request made before the turn: the worker in order, and the tasks `tasks` owed to the
request `w` answered for by the entries since the journal `base`. -/
def AnsweringFrom (w : Nat) (tasks : List (κ × τ)) (base : List (Entry κ τ)) (f : Flusher κ τ)
    (js : List (Entry κ τ)) (owed : List (κ × τ)) : Prop :=
  f.Working owed ∧ ∃ post, js = post ++ base ∧ Tracks w tasks f post owed

/-- Requests made by calls within the runs of a turn: the worker in order, and for every run
since the journal `base` and every flusher at which a call of it asked for a flush, the tasks
held there answered for by the rest of that run and the entries after it. -/
def AnsweringCalls (runs : τ → Nat) (base : List (Entry κ τ)) (f : Flusher κ τ)
    (js : List (Entry κ τ)) (owed : List (κ × τ)) : Prop :=
  f.Working owed ∧ ∀ post e mid g, js = post ++ e :: mid ++ base →
    Relation.ReflTransGen (Flusher.Call runs) e.before g →
    Relation.ReflTransGen (Flusher.Call runs) g.request e.after →
    Tracks (g.requested + 1) g.held f (post ++ [⟨g.request, e.task, e.after⟩]) owed

theorem cycleKeeps_answeringFrom (w : Nat) (tasks : List (κ × τ)) (base : List (Entry κ τ)) :
    CycleKeeps runs (AnsweringFrom w tasks base) where
  start _ _ now := fun ⟨hw, post, hjs, ht⟩ => ⟨hw.start now, post, hjs, ht.start hw.counters now⟩
  count _ _ _ c := fun ⟨hw, post, hjs, ht⟩ => ⟨hw.count c, post, hjs, ht.count c⟩
  run f fa _ _ t _ := fun ⟨hw, post, hjs, ht⟩ hc t' attempts r =>
    ⟨hw.run hc t' attempts r, ⟨f, t, fa⟩ :: post, by rw [hjs]; rfl,
      ht.run hc (hw.apart.calls hc).retryNodup (hw.runKey hc) t' attempts r⟩
  finish _ _ := fun ⟨hw, post, hjs, ht⟩ => ⟨hw.finish, post, hjs, ht.finish⟩

theorem cycleKeeps_answeringCalls (base : List (Entry κ τ)) :
    CycleKeeps runs (AnsweringCalls runs base) where
  start _ _ now := fun ⟨hw, ht⟩ =>
    ⟨hw.start now, fun post e mid g hjs h₁ h₂ => (ht post e mid g hjs h₁ h₂).start hw.counters now⟩
  count _ _ _ c := fun ⟨hw, ht⟩ =>
    ⟨hw.count c, fun post e mid g hjs h₁ h₂ => (ht post e mid g hjs h₁ h₂).count c⟩
  run f fa js k t owed := fun ⟨hw, ht⟩ hc t' attempts r => by
    refine ⟨hw.run hc t' attempts r, fun post e mid g hjs h₁ h₂ => ?_⟩
    have hn := (hw.apart.calls hc).retryNodup
    cases post with
    | nil =>
      -- the request was made within this run: what it held waits from the call on
      simp only [List.nil_append, List.cons_append, List.cons.injEq] at hjs
      obtain ⟨rfl, -⟩ := hjs
      exact (Tracks.request g (hw.counters.calls h₁) _).run h₂ hn (hw.runKey hc) t' attempts r
    | cons e' post =>
      simp only [List.cons_append, List.cons.injEq] at hjs
      obtain ⟨rfl, hjs⟩ := hjs
      exact (ht post e mid g hjs h₁ h₂).run hc hn (hw.runKey hc) t' attempts r
  finish _ _ := fun ⟨hw, ht⟩ =>
    ⟨hw.finish, fun post e mid g hjs h₁ h₂ => (ht post e mid g hjs h₁ h₂).finish⟩

section Answered

variable (hh : h.Counting runs)
include hh

omit [LawfulBEq κ] in
/-- A cycle that goes to its end answers exactly the requests made before it started: calls
during the cycle never touch what it took. -/
theorem cycle_completed {q q' : σ × List (Entry κ τ)} {now : Nat}
    (hc : h.journaled.cycle q now = (q', true)) :
    (h.flusher q'.1).completed = (h.flusher q.1).requested := by
  have hsteady : Flusher.Steady runs fun f : Flusher κ τ => f.started = (h.flusher q.1).requested :=
    ⟨fun _ _ hc hf => (hc.counters.1).trans hf,
      fun f k t attempts r hf => (Flusher.settle_counters f k t attempts r).1.trans hf,
      fun _ _ hf => hf, fun _ hf => hf, fun _ hf => hf⟩
  rcases hs : (h.flusher q.1).startCycle now with ⟨f, batch, retries⟩
  have hf : f.started = (h.flusher q.1).requested := by
    rw [← (Flusher.startCycle_counters (h.flusher q.1) now).1, hs]
  obtain ⟨q₁, q₂, hb, hr, rfl⟩ := cycle_done (g := h.journaled) hs hc
  have h₁ := Steady.runBatch hh hsteady batch (by rw [flusher_journaled_update hh]; exact hf) hb
  rw [flusher_journaled_modify hh]
  exact Steady.runRetries hh hsteady retries h₁ hr

/-- A request of the caller's own, made while the worker stands idle, is answered once the
requests answered reach it: every task held at the request is answered for by the turn. -/
theorem flushNow_answered {p : σ × List (Entry κ τ)} {now : Nat} (hc : (h.flusher p.1).Counters)
    (ha : (h.flusher p.1).LanesApart)
    (hrun : (h.flusher (h.journaled.flushNow p now).1).worker = .running)
    (hw : (h.flusher p.1).requested < (h.flusher (h.journaled.flushNow p now).1).completed) :
    ∃ post, (h.journaled.flushNow p now).2 = post ++ p.2 ∧
      ∀ x ∈ (h.flusher p.1).held, Entry.Answered post x := by
  unfold flushNow at hrun hw ⊢
  split at hw
  · -- a closed flusher takes no request, and answered none beyond those made
    have := hc.answered
    have := hc.taken
    change (h.flusher p.1).requested < (h.flusher p.1).completed at hw
    omega
  · rename_i hopen
    rw [if_neg hopen] at hrun ⊢
    have hq : h.flusher (h.journaled.modify p Flusher.request).1 = (h.flusher p.1).request :=
      flusher_journaled_modify hh p _
    have hstart : AnsweringFrom ((h.flusher p.1).requested + 1) (h.flusher p.1).held p.2
        (h.flusher (h.journaled.modify p Flusher.request).1) (h.journaled.modify p Flusher.request).2 [] := by
      rw [hq]
      exact ⟨Flusher.Working.idle ⟨hc.answered, Nat.le_succ_of_le hc.taken⟩ (ha.frame rfl rfl),
        [], rfl, Tracks.request _ hc []⟩
    obtain ⟨hwk, post, hjs, ht⟩ := (cycleKeeps_answeringFrom _ _ _).work hh turnFuel hstart hrun
    exact ⟨post, hjs, ht.answered hwk.counters hw⟩

/-- A request made by a call while a task runs, at the flusher `g`, is answered once the requests
answered reach it: every task held at the call, and the task running then, is answered for by
the rest of that run and the entries after it. -/
theorem call_request_answered {p : σ × List (Entry κ τ)} {now fuel : Nat}
    (hc : (h.flusher p.1).Counters) (ha : (h.flusher p.1).LanesApart)
    (hrun : (h.flusher (h.journaled.work p now fuel).1).worker = .running)
    {post : List (Entry κ τ)} {e : Entry κ τ} {mid : List (Entry κ τ)} {g : Flusher κ τ}
    (hjs : (h.journaled.work p now fuel).2 = post ++ e :: mid ++ p.2)
    (h₁ : Relation.ReflTransGen (Flusher.Call runs) e.before g)
    (h₂ : Relation.ReflTransGen (Flusher.Call runs) g.request e.after)
    (hw : g.requested < (h.flusher (h.journaled.work p now fuel).1).completed) :
    ∀ x, x ∈ g.held ∨ x.2 = e.task → Entry.Answered (post ++ [⟨g.request, e.task, e.after⟩]) x := by
  have hstart : AnsweringCalls runs p.2 (h.flusher p.1) p.2 [] := by
    refine ⟨Flusher.Working.idle hc ha, fun post e mid g hjs _ _ => ?_⟩
    -- the turn has not begun: no run of it is in the journal
    have hlen := congrArg List.length hjs
    simp only [List.length_append, List.length_cons] at hlen
    omega
  obtain ⟨hwk, ht⟩ := (cycleKeeps_answeringCalls p.2).work hh fuel hstart hrun
  rintro x (hx | hx)
  · exact (ht post e mid g hjs h₁ h₂).answered hwk.counters hw x hx
  · -- the run going on at the call ends within the journal
    exact .ran post [] hx.symm

omit hh in
/-- **A flush request is answered by a cycle that starts after it.** On a counting host, a cycle
that goes to its end answers exactly the requests made before it started, so a caller waiting for
the requests answered to reach its own goes on only after a cycle started since its request has
ended. Take a turn of the worker from a flusher whose counters and lanes are in order, up to a
point where the worker still runs (no task panicked and it has not drained) and the requests
answered reach the request. Then
- for a request of the caller's own, made before the turn while the worker stood idle, every
  task held at the request, pending or waiting for retry, is answered for by the turn;
- for a request made by a call while a task of the turn runs, every task held at the call, and
  the task running then, is answered for by the rest of that run and the entries after it.
A task is answered for when an entry runs it, or when a call within an entry takes it out of its
lane (a cancellation or a newer mark of its key) and every task of its key that the entry leaves
pending is answered for in turn. -/
theorem flush_requests_answered (hh : h.Counting runs) :
    (∀ (q q' : σ × List (Entry κ τ)) (now : Nat), h.journaled.cycle q now = (q', true) →
      (h.flusher q'.1).completed = (h.flusher q.1).requested) ∧
    (∀ (p : σ × List (Entry κ τ)) (now : Nat), (h.flusher p.1).Counters →
      (h.flusher p.1).LanesApart → (h.flusher (h.journaled.flushNow p now).1).worker = .running →
      (h.flusher p.1).requested < (h.flusher (h.journaled.flushNow p now).1).completed →
      ∃ post, (h.journaled.flushNow p now).2 = post ++ p.2 ∧
        ∀ x ∈ (h.flusher p.1).held, Entry.Answered post x) ∧
    ∀ (p : σ × List (Entry κ τ)) (now fuel : Nat), (h.flusher p.1).Counters →
      (h.flusher p.1).LanesApart → (h.flusher (h.journaled.work p now fuel).1).worker = .running →
      ∀ post e mid g, (h.journaled.work p now fuel).2 = post ++ e :: mid ++ p.2 →
        Relation.ReflTransGen (Flusher.Call runs) e.before g →
        Relation.ReflTransGen (Flusher.Call runs) g.request e.after →
        g.requested < (h.flusher (h.journaled.work p now fuel).1).completed →
        ∀ x, x ∈ g.held ∨ x.2 = e.task →
          Entry.Answered (post ++ [⟨g.request, e.task, e.after⟩]) x :=
  ⟨fun _ _ _ hc => cycle_completed hh hc,
    fun _ _ hc ha hrun hw => flushNow_answered hh hc ha hrun hw,
    fun _ _ _ hc ha hrun _ _ _ _ hjs h₁ h₂ hw => call_request_answered hh hc ha hrun hjs h₁ h₂ hw⟩

end Answered

/-- A world that is the flusher alone, with tasks that count their runs; a task whose flag is set
asks for a flush while it runs, as another caller would. -/
def pingHost : FlushHost (Flusher Nat (Bool × Nat)) Nat (Bool × Nat) where
  flusher f := f
  update _ f := f
  run f t := (if t.1 then f.request else f, (t.1, t.2 + 1), .finished (.ok ()))

theorem pingHost_counting : pingHost.Counting (·.2) where
  flusher_update _ _ := rfl
  runs_run _ _ := rfl
  calls_run f t := by
    by_cases ht : t.1 = true
    · simp only [pingHost, ht, if_true]
      exact .single (.request f)
    · simp only [pingHost, ht]
      exact .refl

theorem pingHost_entries : pingHost.journaled.Keeps fun p =>
    ∀ e ∈ p.2, e.after = if e.task.1 then e.before.request else e.before where
  update _ _ hp := hp
  run _ _ hp e he := by
    rcases List.mem_cons.mp he with rfl | he
    · rfl
    · exact hp e he

/-- A flusher with one task pending, which asks for a flush while it runs, and one task waiting
for its second attempt; a single pending task fills the lane. -/
def pingStart : Flusher Nat (Bool × Nat) :=
  { (Flusher.create { maxPending := 1 } 0 : Flusher Nat (Bool × Nat)) with
    pending := (KeyedQueue.empty.push 1 (true, 0) 0).1
    retry := (KeyedQueue.empty.push 2 ⟨(false, 1), 1⟩ 0).1 }

/-- A flush of the caller's own takes both lanes. A request made by the pending task while its
cycle runs finds the retry waiting, which that cycle did not take: the next cycle runs it, and
the cycle running at the request answers only the requests before it. -/
theorem flush_requests_answered_ping :
    pingStart.held = [(1, (true, 0)), (2, (false, 1))] ∧
    ((pingHost.flusher (pingHost.journaled.flushNow (pingStart, []) 0).1).worker = .running ∧
      pingStart.requested < (pingHost.flusher (pingHost.journaled.flushNow (pingStart, []) 0).1).completed ∧
      ∃ post, (pingHost.journaled.flushNow (pingStart, []) 0).2 = post ++ [] ∧
        ∀ x ∈ pingStart.held, Entry.Answered post x) ∧
    ∃ e₁ e₀, (pingHost.journaled.work (pingStart, []) 0 2).2 = [e₁] ++ e₀ :: [] ++ [] ∧
      (pingHost.flusher (pingHost.journaled.work (pingStart, []) 0 2).1).worker = .running ∧
      e₀.after = e₀.before.request ∧
      e₀.before.requested < (pingHost.flusher (pingHost.journaled.work (pingStart, []) 0 2).1).completed ∧
      e₀.before.held = [(2, (false, 1))] ∧
      ∀ x, x ∈ e₀.before.held ∨ x.2 = e₀.task →
        Entry.Answered ([e₁] ++ [⟨e₀.before.request, e₀.task, e₀.after⟩]) x := by
  have hc : pingStart.Counters := ⟨by decide, by decide⟩
  have ha : pingStart.LanesApart := ⟨by decide, by decide, by decide⟩
  have hanswer := flush_requests_answered pingHost_counting
  -- the caller's own request
  have hrun₁ : (pingHost.flusher (pingHost.journaled.flushNow (pingStart, []) 0).1).worker =
      .running := by decide +kernel
  have hw₁ : pingStart.requested <
      (pingHost.flusher (pingHost.journaled.flushNow (pingStart, []) 0).1).completed := by
    decide +kernel
  -- the request of the running task, in the first of two cycles
  have hrun₂ : (pingHost.flusher (pingHost.journaled.work (pingStart, []) 0 2).1).worker =
      .running := by decide +kernel
  have hlen : (pingHost.journaled.work (pingStart, []) 0 2).2.length = 2 := by decide +kernel
  obtain ⟨e₁, e₀, hj⟩ := List.length_eq_two.mp hlen
  have htask : (pingHost.journaled.work (pingStart, []) 0 2).2.map (·.task) =
      [(false, 1), (true, 0)] := by decide +kernel
  have hreq : (pingHost.journaled.work (pingStart, []) 0 2).2.map (·.before.requested) = [1, 0] := by
    decide +kernel
  have hheld : (pingHost.journaled.work (pingStart, []) 0 2).2.map (·.before.held) =
      [[], [(2, (false, 1))]] := by decide +kernel
  have hdone : (pingHost.flusher (pingHost.journaled.work (pingStart, []) 0 2).1).completed = 1 := by
    decide +kernel
  rw [hj] at htask hreq hheld
  simp only [List.map_cons, List.map_nil, List.cons.injEq] at htask hreq hheld
  have hafter : e₀.after = e₀.before.request := by
    have he := pingHost_entries.work 0 2 (s := (pingStart, [])) (fun _ he => absurd he List.not_mem_nil)
      e₀ (by rw [hj]; simp)
    rw [he, htask.2.1]
    rfl
  have hw₂ : e₀.before.requested <
      (pingHost.flusher (pingHost.journaled.work (pingStart, []) 0 2).1).completed := by
    rw [hreq.2.1, hdone]
    decide
  refine ⟨by decide, ⟨hrun₁, hw₁, hanswer.2.1 (pingStart, []) 0 hc ha hrun₁ hw₁⟩, e₁, e₀, hj, hrun₂, hafter, hw₂,
    hheld.2.1, ?_⟩
  exact hanswer.2.2 (pingStart, []) 0 2 hc ha hrun₂ [e₁] e₀ [] e₀.before hj .refl (hafter ▸ .refl) hw₂

end FlushHost

end Stowage
