import Stowage.Proofs.Remote.Stale
/-!
Many reads of one stale value load it once.

The handles of a proxy read it at one instant of the clock, from many threads, while the
delay loader runs the reloads they ask for. A read looks at the stamp and acts on what it saw
later: a value due for a background reload is answered and a reload is asked of the loader,
which keeps at most one per identity queued or running; a value that must be reloaded waits
for the load lock. Every load is made under that lock after a second look at the stamp: a
blocked read loads only if the value still has to be reloaded, a reload run by the loader only
if the value is no longer fresh.

Whatever a load finds, it stamps a proxy that held a value with the time it ran
(`reload_stamp`): the value found is installed or confirmed, an absent object is recorded as
absent, and a failure serves the stale value stamped again. At the same instant a value stamped
now is fresh under every policy with a window (`freshness_since_self`). So the first load
closes the door on every later one, however the reads and the loader's steps interleave, and
the bound needs none of the loader's deduplication (`loads_at_most_once`).
-/
namespace Stowage.Remote

open Stowage.Version

namespace ExpiryPolicy

/-- A policy whose window is not empty, so a value stamped now is fresh now. -/
def Lasting : ExpiryPolicy → Prop
  | .blocking w | .background w => 0 < w
  | .never => True

instance : (p : ExpiryPolicy) → Decidable p.Lasting
  | .blocking w | .background w => inferInstanceAs (Decidable (0 < w))
  | .never => inferInstanceAs (Decidable True)

theorem ofMillis_lasting (ms : Int) : (ofMillis ms).Lasting := by
  unfold ofMillis
  split
  · trivial
  · split
    · show 0 < ms.natAbs
      omega
    · show 0 < ms.natAbs
      omega

theorem freshness_since_self {p : ExpiryPolicy} (hp : p.Lasting) (t : Int) :
    p.freshness (.since t) t = .fresh := by
  have zero : saturate 0 = 0 := by decide
  have top : (0 : Int) < i64Max := by decide
  cases p with
  | never => rfl
  | blocking w =>
    have hw : ¬min (w : Int) i64Max ≤ 0 := by
      have : 0 < w := hp
      omega
    simp [freshness, zero, hw]
  | background w =>
    have hw : ¬min (w : Int) i64Max ≤ 0 := by
      have : 0 < w := hp
      omega
    simp [freshness, zero, hw]

end ExpiryPolicy

namespace Proxy

variable {α : Type} {p : Proxy α} {b : Backing α}

@[simp] theorem keepCopy_clock (b : Backing α) (id : Identity) (v : RemoteValue α) :
    (b.keepCopy id v).clock = b.clock := by
  unfold Backing.keepCopy
  split <;> rfl

@[simp] theorem apply_loads (p : Proxy α) (b : Backing α) (remote : RemoteValue α) (keep : Bool) :
    (p.apply b remote keep).1.stats.loads = p.stats.loads := by
  unfold apply
  dsimp only
  split
  · rfl
  · split <;> rfl

@[simp] theorem apply_stamp (p : Proxy α) (b : Backing α) (remote : RemoteValue α) (keep : Bool) :
    (p.apply b remote keep).1.stamp = .since b.clock := by
  unfold apply
  dsimp only
  split
  · rfl
  · split <;> rfl

@[simp] theorem apply_clock (p : Proxy α) (b : Backing α) (remote : RemoteValue α) (keep : Bool) :
    (p.apply b remote keep).2.1.clock = b.clock := by
  unfold apply
  dsimp only
  split
  · rfl
  · split
    · rfl
    · cases keep <;> simp

theorem reload_eq (p : Proxy α) (b : Backing α) :
    p.reload b = { p with stats := { p.stats with loads := p.stats.loads + 1 } }.settle
      { b with source := (b.source.load p.id).1 } (b.source.load p.id).2 := rfl

@[simp] theorem settle_loads (p : Proxy α) (b : Backing α) (r : Outcome (Option (RemoteValue α))) :
    (p.settle b r).1.stats.loads = p.stats.loads := by
  rcases r with f | _ | remote
  · -- a failure counts a stale answer or an offline hit, never a load
    cases hv : p.value with
    | some v => simp [settle, loadFailed, hv]
    | none =>
      cases ho : b.offlineGet p.id <;> simp [settle, loadFailed, hv, ho]
  · simp only [settle]
    split <;> rfl
  · simp [settle]

@[simp] theorem settle_clock (p : Proxy α) (b : Backing α) (r : Outcome (Option (RemoteValue α))) :
    (p.settle b r).2.1.clock = b.clock := by
  rcases r with f | _ | remote
  · cases hv : p.value with
    | some v => simp [settle, loadFailed, hv]
    | none =>
      cases ho : b.offlineGet p.id <;> simp [settle, loadFailed, hv, ho]
  · rfl
  · simp [settle]

theorem settle_stamp (r : Outcome (Option (RemoteValue α))) (hv : p.value.isSome) :
    (p.settle b r).1.stamp = .since b.clock := by
  obtain ⟨v, hv⟩ := Option.isSome_iff_exists.mp hv
  rcases r with f | _ | remote
  · simp [settle, loadFailed, hv]
  · rfl
  · simp [settle]

theorem reload_loads (p : Proxy α) (b : Backing α) :
    (p.reload b).1.stats.loads = p.stats.loads + 1 := by
  rw [reload_eq, settle_loads]

theorem reload_clock (p : Proxy α) (b : Backing α) : (p.reload b).2.1.clock = b.clock := by
  rw [reload_eq, settle_clock]

theorem reload_stamp (hv : p.value.isSome) : (p.reload b).1.stamp = .since b.clock := by
  rw [reload_eq]
  exact settle_stamp _ hv

theorem loadBlocking_cases (policy : ExpiryPolicy) :
    (p.loadBlocking b policy).1 = p ∧ (p.loadBlocking b policy).2.1 = b ∨
      policy.freshness p.stamp b.clock = .reload ∧
        p.loadBlocking b policy = p.reload b := by
  unfold loadBlocking
  by_cases h : policy.freshness p.stamp b.clock = .reload
  · exact .inr ⟨h, by simp [bne, h]⟩
  · exact .inl (by simp [bne, h])

end Proxy

/-- A read of a proxy that has looked at the stamp and not yet acted on it. -/
inductive Waiting where
  /-- The value was due for a background reload: the read asks the loader for one. -/
  | ask
  /-- The value had to be reloaded: the read waits for the load lock. -/
  | lock
  deriving DecidableEq, Repr

/-- One proxy read from many threads at one instant: the proxy with what it reaches, the reads
in progress, and the delay loader's reload of the proxy's identity. -/
structure Herd (α : Type) where
  proxy : Proxy α
  backing : Backing α
  /-- Reads that looked at the stamp and still have to act on it. -/
  reads : List Waiting
  /-- A reload of the identity waits in the loader's queue. -/
  queued : Bool
  /-- The loader's worker has taken the reload and not finished it. -/
  running : Bool
  /-- The loader is closed: an asked reload runs at once, on the asking thread. -/
  closed : Bool

/-- What can happen next around a proxy read at one instant. -/
inductive Stir (α : Type) where
  /-- A handle calls `value()`: it looks at the stamp. -/
  | look
  /-- A read that found the value due asks the loader for a reload. -/
  | ask
  /-- A read that must reload takes the load lock and looks again. -/
  | lock
  /-- The loader's worker takes the queued reload. -/
  | take
  /-- The worker runs the reload it took. -/
  | run
  /-- The loader closes. -/
  | close
  /-- Anything around the proxy changes but the clock: other writers, failing calls, offline
  copies. -/
  | world (change : Backing α → Backing α)

namespace Herd

variable {α : Type}

/-- A reload of the proxy as the delay loader runs it. -/
def background (h : Herd α) (policy : ExpiryPolicy) : Herd α :=
  let r := h.proxy.reloadInBackground h.backing policy
  { h with proxy := r.1, backing := r.2 }

/-- A blocked read, once it holds the load lock. -/
def unblock (h : Herd α) (policy : ExpiryPolicy) : Herd α :=
  let r := h.proxy.loadBlocking h.backing policy
  { h with proxy := r.1, backing := r.2.1, reads := h.reads.erase .lock }

/-- The delay loader takes a reload asked for: a closed loader runs it at once, a loader
already running one for the identity drops it, and otherwise it is queued, folded into a queued
one. -/
def request (h : Herd α) (policy : ExpiryPolicy) : Herd α :=
  if h.closed then h.background policy
  else if h.running then h
  else { h with queued := true }

/-- One step; `none` when it cannot happen now. -/
def step (policy : ExpiryPolicy) (h : Herd α) : Stir α → Option (Herd α)
  | .look =>
    match policy.freshness h.proxy.stamp h.backing.clock with
    | .fresh => some h
    | .refresh => some { h with reads := .ask :: h.reads }
    | .reload => some { h with reads := .lock :: h.reads }
  | .ask =>
    if .ask ∈ h.reads then some ({ h with reads := h.reads.erase .ask }.request policy) else none
  | .lock => if .lock ∈ h.reads then some (h.unblock policy) else none
  | .take => if h.queued then some { h with queued := false, running := true } else none
  | .run => if h.running then some { h.background policy with running := false } else none
  | .close => some { h with closed := true }
  | .world change =>
    if (change h.backing).clock = h.backing.clock then some { h with backing := change h.backing }
    else none

/-- A series of steps, stopping at one that cannot happen. -/
def run (policy : ExpiryPolicy) (h : Herd α) : List (Stir α) → Option (Herd α)
  | [] => some h
  | e :: es => (h.step policy e).bind fun h' => h'.run policy es

/-- What a step does to the proxy: nothing, or one load, made only when the value was no longer
fresh, from a proxy holding the same value and count of loads. -/
def Moves (policy : ExpiryPolicy) (h h' : Herd α) : Prop :=
  h'.backing.clock = h.backing.clock ∧
    (h'.proxy = h.proxy ∨
      policy.freshness h.proxy.stamp h.backing.clock ≠ .fresh ∧
        ∃ p₀ : Proxy α, p₀.value = h.proxy.value ∧ p₀.stats.loads = h.proxy.stats.loads ∧
          h'.proxy = (p₀.reload h.backing).1)

theorem Moves.rfl {policy : ExpiryPolicy} {h h' : Herd α} (hp : h'.proxy = h.proxy)
    (hb : h'.backing = h.backing) : Moves policy h h' :=
  ⟨congrArg Backing.clock hb, .inl hp⟩

theorem moves_background (policy : ExpiryPolicy) (h : Herd α) : Moves policy h (h.background policy) := by
  by_cases hf : policy.freshness h.proxy.stamp h.backing.clock = .fresh
  · exact Moves.rfl (by simp [background, Proxy.reloadInBackground_of_fresh hf])
      (by simp [background, Proxy.reloadInBackground_of_fresh hf])
  · refine ⟨?_, .inr ⟨hf, { h.proxy with stats := { h.proxy.stats with
      backgroundReloads := h.proxy.stats.backgroundReloads + 1 } }, rfl, rfl, ?_⟩⟩
    · simp only [background, Proxy.reloadInBackground_of_ne_fresh hf]
      exact Proxy.reload_clock _ _
    · simp only [background, Proxy.reloadInBackground_of_ne_fresh hf]

theorem moves_unblock (policy : ExpiryPolicy) (h : Herd α) : Moves policy h (h.unblock policy) := by
  rcases Proxy.loadBlocking_cases (p := h.proxy) (b := h.backing) policy with ⟨hp, hb⟩ | ⟨hr, heq⟩
  · exact Moves.rfl hp hb
  · refine ⟨?_, .inr ⟨by rw [hr]; decide, _, rfl, rfl, ?_⟩⟩
    · simp only [unblock, heq]
      exact Proxy.reload_clock _ _
    · simp only [unblock, heq]

theorem step_moves {policy : ExpiryPolicy} {h h' : Herd α} {e : Stir α}
    (hs : h.step policy e = some h') : Moves policy h h' := by
  cases e with
  | look =>
    simp only [step] at hs
    split at hs <;> (cases hs; exact Moves.rfl rfl rfl)
  | ask =>
    simp only [step] at hs
    split at hs
    · cases hs
      unfold request
      split
      · exact moves_background policy _
      · split
        · exact Moves.rfl rfl rfl
        · exact Moves.rfl rfl rfl
    · cases hs
  | lock =>
    simp only [step] at hs
    split at hs
    · cases hs
      exact moves_unblock policy h
    · cases hs
  | take =>
    simp only [step] at hs
    split at hs
    · cases hs
      exact Moves.rfl rfl rfl
    · cases hs
  | run =>
    simp only [step] at hs
    split at hs
    · cases hs
      exact moves_background policy h
    · cases hs
  | close =>
    simp only [step] at hs
    cases hs
    exact Moves.rfl rfl rfl
  | world change =>
    simp only [step] at hs
    split at hs
    · rename_i hc
      cases hs
      exact ⟨hc, .inl rfl⟩
    · cases hs

/-- Where a read at one instant stands against the loads made since it began: none yet, with
the value still there, or one, which stamped the value now. -/
def Settled (loads : Nat) (clock : Int) (h : Herd α) : Prop :=
  h.backing.clock = clock ∧
    (h.proxy.stats.loads = loads ∧ h.proxy.value.isSome ∨
      h.proxy.stats.loads = loads + 1 ∧ h.proxy.stamp = .since clock)

theorem Settled.step {policy : ExpiryPolicy} (hp : policy.Lasting) {loads : Nat} {clock : Int}
    {h h' : Herd α} {e : Stir α} (hset : Settled loads clock h) (hs : h.step policy e = some h') :
    Settled loads clock h' := by
  obtain ⟨hclock, hrest⟩ := step_moves hs
  obtain ⟨hc, hstate⟩ := hset
  refine ⟨hclock.trans hc, ?_⟩
  rcases hrest with same | ⟨hfresh, p₀, hval, hloads, hp'⟩
  · rw [same]
    exact hstate
  · rcases hstate with ⟨hl, hv⟩ | ⟨_, hstamp⟩
    · refine .inr ⟨?_, ?_⟩
      · rw [hp', Proxy.reload_loads, hloads, hl]
      · rw [hp', Proxy.reload_stamp (hval ▸ hv), hc]
    · rw [hstamp, hc] at hfresh
      exact absurd (ExpiryPolicy.freshness_since_self hp clock) hfresh

/-- The run lemma: a series of steps keeps a herd settled. -/
theorem Settled.run {policy : ExpiryPolicy} (hp : policy.Lasting) {loads : Nat} {clock : Int}
    {h h' : Herd α} {es : List (Stir α)} (hset : Settled loads clock h)
    (hr : h.run policy es = some h') : Settled loads clock h' := by
  induction es generalizing h with
  | nil =>
    cases hr
    exact hset
  | cons e es ih =>
    simp only [Herd.run, Option.bind_eq_some_iff] at hr
    obtain ⟨h₁, h₁s, hrest⟩ := hr
    exact ih (hset.step hp h₁s) hrest

/-- **No thundering herd.** A proxy that holds a value, under any policy with a window or
none, is read at one instant by any number of calls of `value()` from any of its handles,
interleaved with the delay loader's steps and with any change around it but the clock. The
source is loaded at most once, and once it has been, the value is stamped with that instant,
whether the load found the value, found the object absent, or failed and served the stale
value again. -/
theorem loads_at_most_once {policy : ExpiryPolicy} (hp : policy.Lasting) {h h' : Herd α}
    {es : List (Stir α)} (hv : h.proxy.value.isSome) (hr : h.run policy es = some h') :
    h'.proxy.stats.loads ≤ h.proxy.stats.loads + 1 ∧ h'.backing.clock = h.backing.clock ∧
      (h'.proxy.stats.loads = h.proxy.stats.loads + 1 → h'.proxy.stamp = .since h.backing.clock) := by
  obtain ⟨hclock, hstate⟩ := Settled.run hp ⟨rfl, .inl ⟨rfl, hv⟩⟩ hr
  refine ⟨?_, hclock, fun hl => ?_⟩
  · rcases hstate with ⟨hl, _⟩ | ⟨hl, _⟩ <;> omega
  · rcases hstate with ⟨hl', _⟩ | ⟨_, hstamp⟩
    · omega
    · exact hstamp

/-- A proxy of `quote:eur` holding `1` at `r+1`, stamped at 0 under a two-second background
window, read at 5000 over a source holding `2` at `r+1;r+2`. -/
def staleQuote : Herd Nat :=
  ⟨⟨⟨"quote", "eur", none⟩, 1, some 1, ⟨[⟨"r", 1⟩]⟩, none, .since 0, 0, {}⟩,
    ⟨⟨[(⟨"quote", "eur", none⟩, ⟨2, ⟨[⟨"r", 1⟩, ⟨"r", 2⟩]⟩, none⟩)], 0, 0⟩, true, ⟨[]⟩, .none, 5000⟩,
    [], false, false, false⟩

/-- Two reads see the stale value and ask for a reload; the loader runs the first, and the
second, asked for after the first finished, looks at the fresh stamp and loads nothing. -/
theorem loads_at_most_once_staleQuote :
    (ExpiryPolicy.background 2000).Lasting ∧ staleQuote.proxy.value.isSome ∧
      ∃ h', staleQuote.run (.background 2000) [.look, .look, .ask, .take, .run, .ask, .take, .run] =
        some h' ∧ h'.proxy.stats.loads ≤ staleQuote.proxy.stats.loads + 1 ∧
        h'.backing.clock = staleQuote.backing.clock ∧
        (h'.proxy.stats.loads = staleQuote.proxy.stats.loads + 1 →
          h'.proxy.stamp = .since staleQuote.backing.clock) := by
  have hp : (ExpiryPolicy.background 2000).Lasting := by decide
  have hv : staleQuote.proxy.value.isSome := rfl
  obtain ⟨h', hr⟩ : ∃ h', staleQuote.run (.background 2000)
      [.look, .look, .ask, .take, .run, .ask, .take, .run] = some h' := ⟨_, rfl⟩
  exact ⟨hp, hv, h', hr, loads_at_most_once hp hv hr⟩

end Herd

end Stowage.Remote
