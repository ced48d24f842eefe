import Mathlib
import Stowage.Flusher.Worker
import Stowage.Proofs.Queue.Slots
/-!
The lanes of a write-behind flusher, and the one cycle a flush request runs.

A flusher keeps two lanes, the pending tasks and the retries, each holding a key at most once.
A mark queues its key at the back of the pending lane unless it is queued already, in which case
the newer task takes the queued one's place, and it takes the key out of the retry lane. So a
key marked again and again between two cycles is still queued once.

A worker that stands by (it runs, is not closing, no periodic cycle is due, a full pending lane
is at least one task, and marks of running keys are never dropped) answers a flush request with
exactly one cycle: the whole pending lane in order, then the whole retry lane, after which it has
no reason to wake. A failed run goes back to the retry lane, at the back, one attempt further,
unless it used up its attempts.
-/
namespace Stowage

/-- The tasks of a retry lane as jobs, in the order a cycle runs them: each key with the
attempts it has failed. -/
def KeyedQueue.attempts {κ τ : Type} [BEq κ] (q : KeyedQueue κ (Retry τ)) : List (κ × Nat) :=
  q.toList.map fun p => (p.1, p.2.attempts)

namespace Flusher

variable {κ τ : Type} [BEq κ]

/-- The worker stands by at time `now`: it runs and is not closing, no periodic cycle is due, a
full pending lane is at least one task, and marks of running keys are never dropped, so nothing
runs while it stands by. -/
structure Standby (f : Flusher κ τ) (now : Nat) : Prop where
  running : f.worker = .running
  staying : f.shutdown = false
  unclosed : f.closed = false
  beforePeriod : now < f.nextPeriod
  wakes : 0 < f.options.maxPending
  keepsMarks : f.options.dedupInFlight = false
  idle : f.inFlight = []
  taken : f.started ≤ f.requested

/-- The two lanes hold distinct keys, none in both, and each task is its own key. -/
structure Lanes (f : Flusher κ κ) : Prop where
  pendingTied : f.pending.Tied fun k t => t = k
  retryTied : f.retry.Tied fun k r => r.task = k
  pendingNodup : f.pending.keys.Nodup
  retryNodup : f.retry.keys.Nodup
  disjoint : ∀ k ∈ f.pending.keys, k ∉ f.retry.keys

/-- The jobs of a cycle, in the order it runs them: each pending key at its first attempt, then
each retry with the attempts it has failed. -/
def jobs (f : Flusher κ τ) : List (κ × Nat) :=
  f.pending.toList.map (fun p => (p.1, 0)) ++ f.retry.attempts

theorem jobs_eq_toList (f : Flusher κ τ) : jobs f =
    f.pending.toList.map (fun p => (p.1, 0)) ++ f.retry.toList.map fun p => (p.1, p.2.attempts) :=
  rfl

theorem keys_jobs [LawfulBEq κ] {f : Flusher κ τ} (hp : f.pending.keys.Nodup)
    (hr : f.retry.keys.Nodup) : (jobs f).map Prod.fst = f.pending.keys ++ f.retry.keys := by
  rw [jobs_eq_toList, List.map_append, List.map_map, List.map_map,
    ← KeyedQueue.map_fst_toList hp, ← KeyedQueue.map_fst_toList hr]
  rfl

theorem jobs_keys [LawfulBEq κ] {f : Flusher κ κ} (h : f.Lanes) :
    ((jobs f).map Prod.fst).Nodup := by
  rw [keys_jobs h.pendingNodup h.retryNodup]
  exact List.nodup_append.mpr ⟨h.pendingNodup, h.retryNodup,
    fun a ha b hb hab => h.disjoint a ha (hab ▸ hb)⟩

section Standby

variable {f : Flusher κ τ} {now : Nat}

theorem enqueue_of_standby (h : f.Standby now) (k : κ) (t : τ) (at_ : Nat) :
    (f.enqueue k t at_).2 = .queued ∧
      (f.enqueue k t at_).1 = { f with
        stats := (f.enqueue k t at_).1.stats
        pending := (f.pending.push k t at_).1
        retry := (f.retry.remove k).1 } := by
  unfold enqueue
  simp only [h.unclosed, h.keepsMarks, Bool.false_and, Bool.false_eq_true, ↓reduceIte, count]
  split <;> exact ⟨trivial, rfl⟩

theorem Standby.enqueue (h : f.Standby now) (k : κ) (t : τ) (at_ : Nat) :
    (f.enqueue k t at_).1.Standby now := by
  rw [(enqueue_of_standby h k t at_).2]
  exact ⟨h.running, h.staying, h.unclosed, h.beforePeriod, h.wakes, h.keepsMarks, h.idle, h.taken⟩

theorem pending_keys_enqueue [LawfulBEq κ] (h : f.Standby now) (k : κ) (t : τ) (at_ : Nat) :
    (f.enqueue k t at_).1.pending.keys =
      if k ∈ f.pending.keys then f.pending.keys else f.pending.keys ++ [k] := by
  rw [(enqueue_of_standby h k t at_).2]
  exact KeyedQueue.keys_push _ _ _ _

theorem mem_jobs_enqueue [LawfulBEq κ] (h : f.Standby now) (hp : f.pending.keys.Nodup)
    (hr : f.retry.keys.Nodup) {k x : κ} {t : τ} {at_ : Nat}
    (hx : x ∈ (jobs (f.enqueue k t at_).1).map Prod.fst) : x = k ∨ x ∈ (jobs f).map Prod.fst := by
  have hp' := KeyedQueue.nodup_keys_push hp k t at_
  have hr' := KeyedQueue.nodup_keys_remove hr k
  rw [(enqueue_of_standby h k t at_).2, keys_jobs hp' hr', ← (enqueue_of_standby h k t at_).2,
    pending_keys_enqueue h, (enqueue_of_standby h k t at_).2] at hx
  rw [keys_jobs hp hr, List.mem_append]
  split at hx
  · simp only [KeyedQueue.keys_remove, List.mem_append, List.mem_filter] at hx
    rcases hx with hx | hx
    · exact .inr (.inl hx)
    · exact .inr (.inr hx.1)
  · simp only [KeyedQueue.keys_remove, List.mem_append, List.mem_filter,
      List.mem_singleton] at hx
    rcases hx with (hx | hx) | hx
    · exact .inr (.inl hx)
    · exact .inl hx
    · exact .inr (.inr hx.1)

theorem Lanes.enqueue [LawfulBEq κ] {f : Flusher κ κ} (h : f.Lanes) (hs : f.Standby now) (k : κ)
    (at_ : Nat) : (f.enqueue k k at_).1.Lanes := by
  have hpk := pending_keys_enqueue hs k k at_
  rw [(enqueue_of_standby hs k k at_).2] at hpk ⊢
  have hrk := KeyedQueue.keys_remove f.retry k
  refine ⟨h.pendingTied.push rfl at_, h.retryTied.remove k, ?_, ?_, ?_⟩
  · show (f.pending.push k k at_).1.keys.Nodup
    rw [hpk]
    split
    · exact h.pendingNodup
    · exact List.nodup_append.mpr ⟨h.pendingNodup, List.nodup_singleton k,
        fun a ha b hb hab => ‹k ∉ f.pending.keys› (List.mem_singleton.mp hb ▸ hab ▸ ha)⟩
  · show (f.retry.remove k).1.keys.Nodup
    rw [hrk]
    exact h.retryNodup.filter _
  · intro x hx hx'
    change x ∈ (f.pending.push k k at_).1.keys at hx
    change x ∈ (f.retry.remove k).1.keys at hx'
    rw [hrk, List.mem_filter] at hx'
    rw [hpk] at hx
    split at hx
    · exact h.disjoint x hx hx'.1
    · rcases List.mem_append.mp hx with hx | hx
      · exact h.disjoint x hx hx'.1
      · obtain rfl := List.mem_singleton.mp hx
        simp at hx'

theorem startCycle_request (h : f.Standby now) :
    f.request.startCycle now =
      ({ f with
          requested := f.requested + 1
          started := f.requested + 1
          pending := KeyedQueue.empty
          retry := KeyedQueue.empty }, f.pending.toList, f.retry.toList) := by
  have hp : ¬ f.nextPeriod ≤ now := Nat.not_le.mpr h.beforePeriod
  have hreq : f.started < f.requested + 1 := Nat.lt_succ_of_le h.taken
  simp [startCycle, request, hp, hreq, h.keepsMarks, h.idle]

/-- Whether a task that failed after `attempts` earlier failures gets another attempt under
`limit`: the limit is off, or not yet reached. -/
def retriesLeft (limit attempts : Nat) : Bool := limit == 0 || decide (attempts + 1 < limit)

theorem retriesLeft_iff (limit attempts : Nat) :
    retriesLeft limit attempts = true ↔ ¬(limit > 0 ∧ attempts + 1 ≥ limit) := by
  unfold retriesLeft
  by_cases h : limit = 0
  · simp [h]
  · simp [h]
    omega

theorem settle_of_idle (hidle : f.inFlight = []) (k : κ) (t : τ) (attempts : Nat)
    (result : Outcome Unit) :
    f.settle k t attempts result = { f with
      stats := (f.settle k t attempts result).stats
      retry := match result with
        | .ok () => f.retry
        | .error e =>
          if !e.isRetryable || (f.options.retryLimit > 0 && attempts + 1 ≥ f.options.retryLimit) ||
            f.pending.contains k then f.retry
          else (f.retry.push k ⟨t, attempts + 1⟩ 0).1 } := by
  unfold settle
  rcases result with e | ⟨⟩
  · simp only [hidle, List.erase_nil, count]
    split
    · rename_i hdrop
      simp [hdrop]
    · rename_i hdrop
      simp only [Bool.not_eq_true] at hdrop
      split
      · rename_i hpend
        simp [hdrop, hpend]
      · rename_i hpend
        simp [hdrop, hpend]
  · simp [hidle, count]

theorem retry_settle (hidle : f.inFlight = []) (hpending : f.pending = KeyedQueue.empty)
    (k : κ) (t : τ) (attempts : Nat) (result : Outcome Unit)
    (hresult : ∀ e, result = .error e → e.isRetryable = true) :
    (f.settle k t attempts result).retry = match result with
      | .ok () => f.retry
      | .error _ => if retriesLeft f.options.retryLimit attempts then
          (f.retry.push k ⟨t, attempts + 1⟩ 0).1 else f.retry := by
  rw [settle_of_idle hidle]
  rcases result with e | ⟨⟩
  · have hnot : f.pending.contains k = false := by
      simp [hpending, KeyedQueue.contains, KeyedQueue.empty]
    dsimp only
    by_cases hleft : retriesLeft f.options.retryLimit attempts = true
    · have hkeep := (retriesLeft_iff _ _).mp hleft
      simp only [hresult e rfl, hnot, Bool.not_true, Bool.false_or, Bool.or_false, hleft,
        ↓reduceIte]
      rw [if_neg (by simpa using hkeep)]
    · have hdrop : f.options.retryLimit > 0 ∧ attempts + 1 ≥ f.options.retryLimit := by
        by_contra hc
        exact hleft ((retriesLeft_iff _ _).mpr hc)
      simp only [hresult e rfl, hnot, Bool.not_true, Bool.false_or, Bool.or_false, hleft,
        Bool.false_eq_true, ↓reduceIte]
      rw [if_pos (by simpa using hdrop)]
  · simp

theorem settle_eq (hidle : f.inFlight = []) (k : κ) (t : τ) (attempts : Nat)
    (result : Outcome Unit) :
    f.settle k t attempts result = { f with
      stats := (f.settle k t attempts result).stats
      retry := (f.settle k t attempts result).retry } := by
  rw [settle_of_idle hidle]

theorem due_of_standby (h : f.Standby now) (hreq : f.requested ≤ f.started)
    (hpending : f.pending = KeyedQueue.empty) : f.due now = false := by
  have hsize : ¬ f.options.maxPending ≤ 0 := by have := h.wakes; omega
  have hp : ¬ f.nextPeriod ≤ now := Nat.not_le.mpr h.beforePeriod
  have hreq' : ¬ f.started < f.requested := Nat.not_lt.mpr hreq
  simp [due, hreq', hpending, KeyedQueue.size, KeyedQueue.oldest?, KeyedQueue.empty, hsize, hp]

end Standby

section Requeued

omit [BEq κ]

/-- The retry lane a cycle leaves from its failed jobs, each a key with the attempts it failed
before: the jobs with attempts left, one attempt further, in the order they failed. -/
def requeued (limit : Nat) (failed : List (κ × Nat)) : List (Slot κ (Retry κ)) :=
  failed.filterMap fun p => if retriesLeft limit p.2 then some ⟨p.1, ⟨p.1, p.2 + 1⟩, 0⟩ else none

theorem requeued_append (limit : Nat) (failed failed' : List (κ × Nat)) :
    requeued limit (failed ++ failed') = requeued limit failed ++ requeued limit failed' :=
  List.filterMap_append

theorem requeued_single (limit : Nat) (k : κ) (attempts : Nat) :
    requeued limit [(k, attempts)] =
      if retriesLeft limit attempts then [⟨k, ⟨k, attempts + 1⟩, 0⟩] else [] := by
  unfold requeued
  split <;> simp [*]

theorem keys_requeued_sublist (limit : Nat) (failed : List (κ × Nat)) :
    ((requeued limit failed).map (·.key)).Sublist (failed.map Prod.fst) := by
  induction failed with
  | nil => simp [requeued]
  | cons p rest ih =>
    rw [show p :: rest = [p] ++ rest from rfl, requeued_append, requeued_single]
    by_cases hp : retriesLeft limit p.2 = true
    · simpa [hp] using ih
    · simpa [hp] using ih.cons p.1

theorem requeued_tied (limit : Nat) (failed : List (κ × Nat)) :
    (KeyedQueue.ofSlots (requeued limit failed)).Tied fun k r => r.task = k := by
  refine KeyedQueue.tied_ofSlots fun s hs => ?_
  simp only [requeued, List.mem_filterMap] at hs
  obtain ⟨p, -, hp⟩ := hs
  split at hp
  · cases hp
    rfl
  · cases hp

theorem mem_attempts_requeued [BEq κ] [LawfulBEq κ] {limit : Nat} {failed : List (κ × Nat)}
    (hn : (failed.map Prod.fst).Nodup) {p : κ × Nat} (hp : p ∈ failed)
    (hleft : retriesLeft limit p.2 = true) :
    (p.1, p.2 + 1) ∈ (KeyedQueue.ofSlots (requeued limit failed)).attempts := by
  have hkeys : ((requeued limit failed).map (·.key)).Nodup :=
    hn.sublist (keys_requeued_sublist limit failed)
  have hq : (KeyedQueue.ofSlots (requeued limit failed)).keys.Nodup := hkeys
  simp only [KeyedQueue.attempts, KeyedQueue.toList_eq hq, KeyedQueue.entries_ofSlots hkeys,
    List.map_map, List.mem_map]
  refine ⟨⟨p.1, ⟨p.1, p.2 + 1⟩, 0⟩, ?_, rfl⟩
  simp only [requeued, List.mem_filterMap]
  exact ⟨p, hp, by simp [hleft]⟩

end Requeued

/-- The flusher `f` in the cycle a flush request started, once the jobs `done` have run, the
first `failures` of them failing: the request made and taken, `answered` requests answered,
nothing pending, and the failed jobs with attempts left in the retry lane. -/
def cycling (f : Flusher κ κ) (failures : Nat) (done : List (κ × Nat)) (stats : FlusherStats)
    (answered : Nat) : Flusher κ κ :=
  { f with
    requested := f.requested + 1
    started := f.requested + 1
    completed := answered
    pending := KeyedQueue.empty
    retry := KeyedQueue.ofSlots (requeued f.options.retryLimit (done.take failures))
    stats }

section Cycling

variable {f : Flusher κ κ} {failures : Nat} {done : List (κ × Nat)}

omit [BEq κ] in
theorem Standby.cycling {now : Nat} (h : f.Standby now) (stats : FlusherStats) (answered : Nat) :
    (f.cycling failures done stats answered).Standby now :=
  ⟨h.running, h.staying, h.unclosed, h.beforePeriod, h.wakes, h.keepsMarks, h.idle,
    Nat.le_refl _⟩

omit [BEq κ] in
@[simp] theorem cycling_count (stats : FlusherStats) (answered : Nat)
    (g : FlusherStats → FlusherStats) :
    (f.cycling failures done stats answered).count g = f.cycling failures done (g stats) answered :=
  rfl

theorem settle_cycling_ok (hidle : f.inFlight = []) (hdone : failures ≤ done.length) (k : κ)
    (attempts : Nat) (stats : FlusherStats) (answered : Nat) :
    ∃ stats', (f.cycling failures done stats answered).settle k k attempts (.ok ()) =
      f.cycling failures (done ++ [(k, attempts)]) stats' answered := by
  refine ⟨((f.cycling failures done stats answered).settle k k attempts (.ok ())).stats, ?_⟩
  rw [settle_of_idle (f := f.cycling failures done stats answered) hidle]
  simp [cycling, List.take_append_of_le_length hdone]

theorem settle_cycling_error [LawfulBEq κ] (hidle : f.inFlight = [])
    (hdone : done.length < failures) {k : κ} (hk : k ∉ done.map Prod.fst) {e : Fault}
    (he : e.isRetryable = true) (attempts : Nat) (stats : FlusherStats) (answered : Nat) :
    ∃ stats', (f.cycling failures done stats answered).settle k k attempts (.error e) =
      f.cycling failures (done ++ [(k, attempts)]) stats' answered := by
  -- the failed key is not waiting yet: only earlier jobs were requeued
  have hfresh : k ∉ (requeued f.options.retryLimit done).map (·.key) :=
    fun hk' => hk ((keys_requeued_sublist _ _).subset hk')
  have hretry := retry_settle (f := f.cycling failures done stats answered) hidle rfl k k attempts
    (.error e) fun _ h => by cases h; exact he
  refine ⟨((f.cycling failures done stats answered).settle k k attempts (.error e)).stats, ?_⟩
  rw [settle_eq (f := f.cycling failures done stats answered) hidle, hretry]
  have htake : (done ++ [(k, attempts)]).take failures = done ++ [(k, attempts)] :=
    List.take_of_length_le (by simp; omega)
  simp only [cycling, htake, List.take_of_length_le hdone.le, requeued_append, requeued_single]
  split
  · rw [KeyedQueue.push_ofSlots hfresh]
  · rw [List.append_nil]

end Cycling

end Flusher

namespace FlushHost

variable {σ κ τ : Type} [BEq κ] (h : FlushHost σ κ τ)

/-- **A flush request runs one cycle.** When the request is read back as it was made, a worker
that stands by answers it with one cycle, provided that cycle leaves it with no reason to
wake. -/
theorem flushNow_eq_cycle {s : σ} {now : Nat}
    (hmod : h.flusher (h.modify s Flusher.request) = (h.flusher s).request)
    (hstand : (h.flusher s).Standby now)
    (hafter : ∀ s', h.cycle (h.modify s Flusher.request) now = (s', true) →
      (h.flusher s').Standby now ∧ (h.flusher s').due now = false) :
    h.flushNow s now = (h.cycle (h.modify s Flusher.request) now).1 := by
  unfold flushNow turnFuel
  rw [hstand.unclosed, if_neg Bool.false_ne_true]
  -- the request makes the worker due; it runs one cycle and finds nothing more to do
  have hreq : (h.flusher s).started < (h.flusher s).requested + 1 :=
    Nat.lt_succ_of_le hstand.taken
  rw [work]
  simp only [hmod, Flusher.request, hstand.running, hstand.staying, bne_self_eq_false,
    Bool.false_eq_true, ↓reduceIte, Flusher.due, hreq, decide_true, Bool.true_or]
  rcases hc : h.cycle (h.modify s Flusher.request) now with ⟨s', _ | _⟩
  · rfl
  · obtain ⟨hs', hdue'⟩ := hafter s' hc
    dsimp only
    rw [work]
    simp [hs'.running, hs'.staying, hdue']

/-- The run lemma of a batch: what holds of the jobs run so far holds after the whole batch,
when each run finishes and carries it one job further. -/
theorem runBatch_inv (I : List (κ × τ) → σ → Prop) (batch : List (κ × τ))
    (step : ∀ pre k t post s, batch = pre ++ (k, t) :: post → I pre s →
      ∃ s', h.execute s k t 0 = (s', true) ∧ I (pre ++ [(k, t)]) s')
    {s : σ} (hs : I [] s) : ∃ s', h.runBatch s batch = (s', true) ∧ I batch s' := by
  -- induction on the jobs still to run, with the ones run so far in front of them
  suffices key : ∀ rest pre s, batch = pre ++ rest → I pre s →
      ∃ s', h.runBatch s rest = (s', true) ∧ I batch s' from key batch [] s rfl hs
  intro rest
  induction rest with
  | nil => exact fun pre s hpre hs => ⟨s, rfl, by simpa [hpre] using hs⟩
  | cons job rest ih =>
    intro pre s hpre hs
    obtain ⟨k, t⟩ := job
    obtain ⟨s₁, hexec, hs₁⟩ := step pre k t rest s hpre hs
    obtain ⟨s', hrun, hs'⟩ := ih (pre ++ [(k, t)]) s₁ (by simp [hpre]) hs₁
    exact ⟨s', by rw [runBatch, hexec]; exact hrun, hs'⟩

/-- The run lemma of the retries, each counted before it runs. -/
theorem runRetries_inv (I : List (κ × Retry τ) → σ → Prop) (retries : List (κ × Retry τ))
    (step : ∀ pre k r post s, retries = pre ++ (k, r) :: post → I pre s →
      ∃ s', h.execute (h.modify s fun f => f.count fun st => { st with retried := st.retried + 1 })
        k r.task r.attempts = (s', true) ∧ I (pre ++ [(k, r)]) s')
    {s : σ} (hs : I [] s) : ∃ s', h.runRetries s retries = (s', true) ∧ I retries s' := by
  suffices key : ∀ rest pre s, retries = pre ++ rest → I pre s →
      ∃ s', h.runRetries s rest = (s', true) ∧ I retries s' from key retries [] s rfl hs
  intro rest
  induction rest with
  | nil => exact fun pre s hpre hs => ⟨s, rfl, by simpa [hpre] using hs⟩
  | cons job rest ih =>
    intro pre s hpre hs
    obtain ⟨k, r⟩ := job
    obtain ⟨s₁, hexec, hs₁⟩ := step pre k r rest s hpre hs
    obtain ⟨s', hrun, hs'⟩ := ih (pre ++ [(k, r)]) s₁ (by simp [hpre]) hs₁
    exact ⟨s', by rw [runRetries, hexec]; exact hrun, hs'⟩

end FlushHost

end Stowage
