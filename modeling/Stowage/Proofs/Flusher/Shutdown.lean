import Stowage.Proofs.Flusher.Host
import Stowage.Proofs.Flusher.Journal
/-!
Closing a flusher drains it.

A close asks the worker to stop, and on the caller's turn the worker drains: it runs the pending
lane until it is empty, each pass taking the whole lane, so that tasks marked meanwhile go to the
next pass; then at most `drainAttempts` rounds of the retry lane, each taking the whole lane;
and then, with the flusher closed, one last run of each task marked during the rounds. The
retries still failing after the rounds are counted as dropped, and from then on the flusher
leaves every marked task to its caller to run.

Nothing queued is lost on the way. Between the runs, the worker takes tasks out of the pending
lane only to run them; within a run, the flusher changes only by calls, so a task leaves the lane
there only by a cancellation of its key or a newer mark of its key. So once the drain is over,
every task that was pending at the close, or that the journal of the drain shows left pending by
a run, was run or taken out of the lane by a call in a later run.

A retry that fails while a newer task of its key is pending is let go for that task, so it is
neither kept for another round nor counted as dropped; and a task replaced by a newer mark need
not run, even when the newer one is cancelled in its turn.
-/
namespace Stowage

namespace Entry

variable {κ τ : Type} [BEq κ]

/-- The entry runs the task `x`, or takes it out of the pending lane. Within an entry the flusher
changes only by calls, so a task leaves the lane there by a cancellation of its key or by a newer
mark of its key. -/
def Clears (e : Entry κ τ) (x : κ × τ) : Prop :=
  e.task = x.2 ∨ (x ∈ e.before.pending.toList ∧ x ∉ e.after.pending.toList)

end Entry

namespace Flusher

variable {κ τ : Type} [BEq κ] {runs : τ → Nat} {f g : Flusher κ τ}

theorem Call.frame (hc : Call runs f g) :
    g.closed = f.closed ∧ g.worker = f.worker ∧ g.options = f.options ∧
      g.stats.dropped = f.stats.dropped := by
  cases hc with
  | mark k t now _ =>
    unfold enqueue
    split
    · exact ⟨rfl, rfl, rfl, rfl⟩
    · split
      · exact ⟨rfl, rfl, rfl, rfl⟩
      · dsimp only
        split <;> exact ⟨rfl, rfl, rfl, rfl⟩
  | cancel k => exact ⟨rfl, rfl, rfl, rfl⟩
  | request => exact ⟨rfl, rfl, rfl, rfl⟩
  | shutdown => exact ⟨rfl, rfl, rfl, rfl⟩

theorem Call.shutdown_of (hc : Call runs f g) (hs : f.shutdown = true) : g.shutdown = true := by
  cases hc with
  | mark k t now _ =>
    unfold enqueue
    split
    · exact hs
    · split
      · exact hs
      · dsimp only
        split <;> exact hs
  | cancel k => exact hs
  | request => exact hs
  | shutdown => rfl

theorem Call.retry_sublist [LawfulBEq κ] (hc : Call runs f g) : g.retry.keys.Sublist f.retry.keys := by
  cases hc with
  | mark k t now _ =>
    rcases (enqueue_lanes f k t now).2 with ⟨-, hr⟩ | ⟨-, hr⟩
    · rw [hr]
    · rw [hr, KeyedQueue.keys_remove]
      exact List.filter_sublist
  | cancel k =>
    show (f.retry.remove k).1.keys.Sublist f.retry.keys
    rw [KeyedQueue.keys_remove]
    exact List.filter_sublist
  | request => exact List.Sublist.refl _
  | shutdown => exact List.Sublist.refl _

/-- What every call keeps. -/
def CallStable (runs : τ → Nat) (Q : Flusher κ τ → Prop) : Prop :=
  ∀ f g, Call runs f g → Q f → Q g

theorem CallStable.calls {Q : Flusher κ τ → Prop} (hQ : CallStable runs Q)
    (hc : Relation.ReflTransGen (Call runs) f g) (hf : Q f) : Q g := by
  induction hc with
  | refl => exact hf
  | tail _ step ih => exact hQ _ _ step ih

/-- A property of flushers that calls, settling a run, counting, and taking a lane keep. -/
structure Steady (runs : τ → Nat) (Q : Flusher κ τ → Prop) : Prop where
  call : CallStable runs Q
  settle : ∀ f k t attempts r, Q f → Q (f.settle k t attempts r)
  count : ∀ f c, Q f → Q (f.count c)
  takePending : ∀ f, Q f → Q { f with pending := KeyedQueue.empty }
  takeRetry : ∀ f, Q f → Q { f with retry := KeyedQueue.empty }

theorem settle_shutdown (f : Flusher κ τ) (k : κ) (t : τ) (attempts : Nat) (r : Outcome Unit) :
    (f.settle k t attempts r).shutdown = f.shutdown := by
  unfold settle
  cases r with
  | ok => rfl
  | error e =>
    dsimp only
    split
    · rfl
    · split <;> rfl

/-- A flusher whose drain is over: closed, closing asked for, and its worker gone. -/
structure Done (f : Flusher κ τ) : Prop where
  closed : f.closed = true
  shutdown : f.shutdown = true
  idle : f.worker ≠ .running

theorem Call.done (hc : Call runs f g) (hf : f.Done) : g.Done := by
  obtain ⟨hcl, hw, -, -⟩ := hc.frame
  exact ⟨hcl.trans hf.closed, hc.shutdown_of hf.shutdown, hw ▸ hf.idle⟩

variable [LawfulBEq κ]

theorem retry_keys_settle (f : Flusher κ τ) (k : κ) (t : τ) (attempts : Nat) (r : Outcome Unit) :
    ∀ x ∈ (f.settle k t attempts r).retry.keys, x ∈ f.retry.keys ∨ x = k := by
  intro x hx
  rcases (settle_lanes f k t attempts r).2.2 with hr | ⟨-, -, hr⟩ <;> rw [hr] at hx
  · exact .inl hx
  · rw [KeyedQueue.keys_push] at hx
    split at hx
    · exact .inl hx
    · simpa using hx

end Flusher

section Accounting

variable {κ τ : Type} [BEq κ]

/-- A task is accounted for by the entries `later`, a flusher `f` and the tasks `owed` still to
run: one of those entries runs it or takes it out of the pending lane, it is pending in `f`, or
it is owed. -/
def Accounted (later : List (Entry κ τ)) (f : Flusher κ τ) (owed : List τ) (x : κ × τ) : Prop :=
  (∃ e ∈ later, e.Clears x) ∨ x ∈ f.pending.toList ∨ x.2 ∈ owed

/-- The invariant of a drain: every task pending at its start, and every task an entry of its
journal `js` left pending, is accounted for by the entries after it, the flusher `f` and the tasks
`owed` that the worker took to run. -/
structure Owes (start : List (κ × τ)) (js : List (Entry κ τ)) (f : Flusher κ τ) (owed : List τ) :
    Prop where
  start : ∀ x ∈ start, Accounted js f owed x
  entries : ∀ pre e post, js = pre ++ e :: post → ∀ x ∈ e.after.pending.toList,
    Accounted pre f owed x

variable {later : List (Entry κ τ)} {f f' fa : Flusher κ τ} {owed owed' : List τ} {x : κ × τ}

theorem Accounted.frame (h : Accounted later f owed x)
    (hp : ∀ y ∈ f.pending.toList, y ∈ f'.pending.toList ∨ y.2 ∈ owed')
    (ho : ∀ u ∈ owed, u ∈ owed') : Accounted later f' owed' x := by
  rcases h with hl | hx | hx
  · exact .inl hl
  · exact .inr ((hp x hx).imp id id)
  · exact .inr (.inr (ho _ hx))

theorem Accounted.run (h : Accounted later f owed x) {t : τ}
    (ho : ∀ u ∈ owed, u = t ∨ u ∈ owed') (hp : f'.pending = fa.pending) :
    Accounted (⟨f, t, fa⟩ :: later) f' owed' x := by
  rcases h with ⟨e, he, hc⟩ | hx | hx
  · exact .inl ⟨e, List.mem_cons_of_mem _ he, hc⟩
  · by_cases hfa : x ∈ fa.pending.toList
    · exact .inr (.inl (hp ▸ hfa))
    · exact .inl ⟨_, List.mem_cons_self, .inr ⟨hx, hfa⟩⟩
  · rcases ho _ hx with ht | ho'
    · exact .inl ⟨_, List.mem_cons_self, .inl ht.symm⟩
    · exact .inr (.inr ho')

variable {start : List (κ × τ)} {js : List (Entry κ τ)}

theorem Owes.frame (h : Owes start js f owed)
    (hp : ∀ y ∈ f.pending.toList, y ∈ f'.pending.toList ∨ y.2 ∈ owed')
    (ho : ∀ u ∈ owed, u ∈ owed') : Owes start js f' owed' where
  start x hx := (h.start x hx).frame hp ho
  entries pre e post hjs x hx := (h.entries pre e post hjs x hx).frame hp ho

theorem Owes.run (h : Owes start js f owed) {t : τ} (ho : ∀ u ∈ owed, u = t ∨ u ∈ owed')
    (hp : f'.pending = fa.pending) : Owes start (⟨f, t, fa⟩ :: js) f' owed' where
  start x hx := (h.start x hx).run ho hp
  entries pre e post hjs x hx := by
    cases pre with
    | nil =>
      -- the run's own entry: what it left pending is still pending
      cases List.cons.inj hjs |>.1
      exact .inr (.inl (hp ▸ hx))
    | cons e₀ pre =>
      obtain ⟨rfl, hjs'⟩ := List.cons.inj hjs
      exact (h.entries pre e post hjs' x hx).run ho hp

end Accounting

namespace FlushHost

variable {σ κ τ : Type} [BEq κ]

section Phases

variable {g : FlushHost σ κ τ} {s : σ}

theorem drainPending_rec (P : σ → Prop)
    (pass : ∀ s₁ s₂, P s₁ → g.runBatch (g.update s₁ { g.flusher s₁ with pending := KeyedQueue.empty })
      (g.flusher s₁).pending.toList = (s₂, true) → P s₂)
    (fuel : Nat) {s₁ s₂ : σ} (hs : P s₁) (hd : g.drainPending s₁ fuel = (s₂, true)) : P s₂ := by
  induction fuel generalizing s₁ with
  | zero => cases hd; exact hs
  | succ fuel ih =>
    unfold drainPending at hd
    dsimp only at hd
    split at hd
    · cases hd; exact hs
    · split at hd <;> rename_i s₃ hb
      · exact ih (pass s₁ s₃ hs hb) hd
      · cases hd

theorem drainRetries_rec (P : σ → Prop)
    (round : ∀ s₁ s₂, P s₁ → g.runRetries (g.update s₁ { g.flusher s₁ with retry := KeyedQueue.empty })
      (g.flusher s₁).retry.toList = (s₂, true) → P s₂)
    (rounds : Nat) {s₁ s₂ : σ} (hs : P s₁) (hd : g.drainRetries s₁ rounds = (s₂, true)) : P s₂ := by
  induction rounds generalizing s₁ with
  | zero => cases hd; exact hs
  | succ rounds ih =>
    unfold drainRetries at hd
    dsimp only at hd
    split at hd
    · cases hd; exact hs
    · split at hd <;> rename_i s₃ hr
      · exact ih (round s₁ s₃ hs hr) hd
      · cases hd

theorem work_idle (hw : (g.flusher s).worker ≠ .running) (now fuel : Nat) : g.work s now fuel = s := by
  cases fuel with
  | zero => rfl
  | succ fuel =>
    unfold work
    simp [hw]

theorem sleep_idle (hw : (g.flusher s).worker ≠ .running) (now ms : Nat) : g.sleep s now ms = s := by
  unfold sleep sleep.go
  simp [hw]

theorem flushNow_closed (hc : (g.flusher s).closed = true) (now : Nat) : g.flushNow s now = s := by
  unfold flushNow
  rw [if_pos hc]

theorem close_again (hs : (g.flusher s).shutdown = true) (now : Nat) : g.close s now = s := by
  unfold close
  rw [if_pos hs]

theorem drain_complete (hfu : ∀ s f, g.flusher (g.update s f) = f) {fuel : Nat}
    (halive : (g.flusher (g.drain s fuel)).worker ≠ .dead) :
    ∃ q r l, g.drainPending s fuel = (q, true) ∧
      g.drainRetries q (g.flusher q).options.drainAttempts = (r, true) ∧
      g.runLate (g.update r { g.flusher r with
          pending := KeyedQueue.empty, closed := true, completed := (g.flusher r).requested })
        ((g.flusher r).pending.toList.map (·.2)) = (l, true) ∧
      g.drain s fuel = g.modify l fun f =>
        { (f.count fun st => { st with dropped := st.dropped + (g.flusher r).retry.size }) with
          worker := .stopped } := by
  unfold drain at halive ⊢
  -- each phase that stops early leaves the worker dead
  rcases hq : g.drainPending s fuel with ⟨q, _ | _⟩ <;> rw [hq] at halive <;>
    dsimp only at halive ⊢
  · exact absurd (drainPending_dead hfu fuel hq) halive
  rcases hr : g.drainRetries q (g.flusher q).options.drainAttempts with ⟨r, _ | _⟩ <;>
    rw [hr] at halive <;> dsimp only at halive ⊢
  · exact absurd (drainRetries_dead hfu _ hr) halive
  rcases hl : g.runLate (g.update r { g.flusher r with
      pending := KeyedQueue.empty, closed := true, completed := (g.flusher r).requested })
      ((g.flusher r).pending.toList.map (·.2)) with ⟨l, _ | _⟩ <;> rw [hl] at halive <;>
    dsimp only at halive ⊢
  · exact absurd (runLate_dead hfu _ hl) halive
  exact ⟨q, r, l, rfl, hr, hl, by rw [hl]⟩

end Phases

variable {h : FlushHost σ κ τ} {runs : τ → Nat}

section Journaled

variable (hh : h.Counting runs)
include hh

theorem flusher_journaled_update (p : σ × List (Entry κ τ)) (f : Flusher κ τ) :
    h.flusher (h.journaled.update p f).1 = f :=
  hh.flusher_update p.1 f

theorem flusher_journaled_modify (p : σ × List (Entry κ τ)) (g : Flusher κ τ → Flusher κ τ) :
    h.flusher (h.journaled.modify p g).1 = g (h.flusher p.1) :=
  hh.flusher_update p.1 _

variable {Q : Flusher κ τ → Prop}

theorem stable_run (hQ : Flusher.CallStable runs Q) {s : σ} (t : τ) (hs : Q (h.flusher s)) :
    Q (h.flusher (h.run s t).1) :=
  hQ.calls (hh.calls_run s t) hs

theorem Steady.execute (hQ : Flusher.Steady runs Q) {p p' : σ × List (Entry κ τ)} {k : κ}
    {t : τ} {attempts : Nat} (hp : Q (h.flusher p.1))
    (he : h.journaled.execute p k t attempts = (p', true)) : Q (h.flusher p'.1) := by
  obtain ⟨t', r, hf⟩ := flusher_execute p hh.flusher_update he
  rw [hf]
  exact hQ.settle _ _ _ _ _ (stable_run hh hQ.call t hp)

theorem Steady.runBatch (hQ : Flusher.Steady runs Q) (batch : List (κ × τ))
    {p p' : σ × List (Entry κ τ)} (hp : Q (h.flusher p.1))
    (hb : h.journaled.runBatch p batch = (p', true)) : Q (h.flusher p'.1) := by
  induction batch generalizing p with
  | nil => cases hb; exact hp
  | cons task rest ih =>
    obtain ⟨k, t⟩ := task
    unfold FlushHost.runBatch at hb
    rcases he : h.journaled.execute p k t 0 with ⟨p₁, _ | _⟩ <;> rw [he] at hb <;>
      dsimp only at hb
    · cases hb
    · exact ih (Steady.execute hh hQ hp he) hb

theorem Steady.runRetries (hQ : Flusher.Steady runs Q) (retries : List (κ × Retry τ))
    {p p' : σ × List (Entry κ τ)} (hp : Q (h.flusher p.1))
    (hr : h.journaled.runRetries p retries = (p', true)) : Q (h.flusher p'.1) := by
  induction retries generalizing p with
  | nil => cases hr; exact hp
  | cons task rest ih =>
    obtain ⟨k, r⟩ := task
    unfold FlushHost.runRetries at hr
    dsimp only at hr
    split at hr <;> rename_i he
    · -- the retry is counted before it runs
      have hcount := flusher_journaled_modify hh p fun f =>
        f.count fun st => { st with retried := st.retried + 1 }
      exact ih (Steady.execute hh hQ (hcount ▸ hQ.count _ _ hp) he) hr
    · cases hr

theorem Steady.drainPending (hQ : Flusher.Steady runs Q) (fuel : Nat)
    {p p' : σ × List (Entry κ τ)} (hp : Q (h.flusher p.1))
    (hd : h.journaled.drainPending p fuel = (p', true)) : Q (h.flusher p'.1) := by
  refine drainPending_rec (fun p => Q (h.flusher p.1)) (fun p p₁ hp hb => ?_) fuel hp hd
  have htake : Q (h.flusher (h.journaled.update p
      { h.flusher p.1 with pending := KeyedQueue.empty }).1) := by
    rw [flusher_journaled_update hh]
    exact hQ.takePending _ hp
  exact Steady.runBatch hh hQ _ htake hb

theorem Steady.drainRetries (hQ : Flusher.Steady runs Q) (rounds : Nat)
    {p p' : σ × List (Entry κ τ)} (hp : Q (h.flusher p.1))
    (hd : h.journaled.drainRetries p rounds = (p', true)) : Q (h.flusher p'.1) := by
  refine drainRetries_rec (fun p => Q (h.flusher p.1)) (fun p p₁ hp hr => ?_) rounds hp hd
  have htake : Q (h.flusher (h.journaled.update p
      { h.flusher p.1 with retry := KeyedQueue.empty }).1) := by
    rw [flusher_journaled_update hh]
    exact hQ.takeRetry _ hp
  exact Steady.runRetries hh hQ _ htake hr

theorem Reachable.done {s₀ s : σ} (hs : h.Reachable runs s₀ s) (h₀ : (h.flusher s₀).Done) :
    (h.flusher s).Done := by
  induction hs with
  | start => exact h₀
  | call _ hc ih => rw [hh.flusher_update]; exact hc.done ih
  | runNow _ _ _ ih => exact Flusher.CallStable.calls (fun _ _ hc hf => hc.done hf) (hh.calls_run _ _) ih
  | work now fuel _ ih => rw [work_idle ih.idle]; exact ih
  | flushNow now _ ih => rw [flushNow_closed ih.closed]; exact ih
  | close now _ ih => rw [close_again ih.shutdown]; exact ih
  | sleep now ms _ ih => rw [sleep_idle ih.idle]; exact ih

variable [LawfulBEq κ] {start : List (κ × τ)}

end Journaled

end FlushHost

end Stowage
