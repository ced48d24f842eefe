import Stowage.Remote.Proxy
/-!
A cached remote value survives failed loads.

One proxy is driven by calls from any of its handles: reads through the expiry policy, reloads
run by the delay loader, expiry, values pushed by the source, and local writes split into their
start, the source storing the value and their end. Around it the world moves on: other writers
change the source, its loads and stores fail, the clock runs, offline copies come and go.

Every load goes through `Proxy.reload`. A failed load keeps a cached value and its lineage,
stamps it now and serves it (`reload_failed_stale`); with nothing cached it falls back on the
offline copy, and fails only when there is none, leaving value, lineage and stamp alone
(`reload_failed_empty`). A cached value is dropped only by a load that finds the object gone
while no local write is pending (`reload_value_lost`, `run_value_lost`).
-/
namespace Stowage.Remote

open Stowage.Version

namespace Proxy

variable {α : Type} {p : Proxy α} {b : Backing α}

@[simp] theorem freshness_beq (a b : Freshness) : (a == b) = decide (a = b) := by
  cases a <;> cases b <;> rfl

@[simp] theorem offlineGet_source (b : Backing α) (source : Source α) (id : Identity) :
    ({ b with source } : Backing α).offlineGet id = b.offlineGet id := rfl

theorem apply_value_isSome (p : Proxy α) (b : Backing α) (remote : RemoteValue α) (keep : Bool) :
    (p.apply b remote keep).1.value.isSome := by
  by_cases hv : p.value.isSome
  · -- a value already cached stays when the offer is ignored
    by_cases hw : 0 < p.pendingWrites
    · simp [apply, isWritePending, hv, hw]
    · by_cases hs : p.version == remote.version <;> simp [apply, isWritePending, hv, hw, hs]
  · simp [apply, hv]

@[simp] theorem expire_value (p : Proxy α) : p.expire.1.value = p.value := by
  unfold expire; split <;> rfl

@[simp] theorem weakExpire_value (p : Proxy α) : p.weakExpire.1.value = p.value := by
  unfold weakExpire; split
  · rfl
  · split <;> rfl

@[simp] theorem beginWrite_value (p : Proxy α) (node : String) (maxRun : Nat) :
    (p.beginWrite node maxRun).1.value = p.value := rfl

theorem finishWrite_value_isSome (p : Proxy α) (b : Backing α) (t : WriteTicket) (value : α)
    (result : Outcome Lineage) (hv : p.value.isSome) :
    (p.finishWrite b t value result).1.value.isSome := by
  unfold finishWrite
  split
  · split <;> exact hv
  · rfl

theorem read_of_reload {policy : ExpiryPolicy} (h : policy.freshness p.stamp b.clock = .reload) :
    p.read b policy = ((p.reload b).1, (p.reload b).2.1, (p.reload b).2.2, false) := by
  simp [read, h]

theorem read_of_ne_reload {policy : ExpiryPolicy} (h : policy.freshness p.stamp b.clock ≠ .reload) :
    (p.read b policy).1 = p ∧ (p.read b policy).2.1 = b ∧ (p.read b policy).2.2.1 = .ok p.value := by
  unfold read
  split
  · exact ⟨rfl, rfl, rfl⟩
  · exact ⟨rfl, rfl, rfl⟩
  · contradiction

theorem reloadInBackground_of_ne_fresh {policy : ExpiryPolicy}
    (h : policy.freshness p.stamp b.clock ≠ .fresh) :
    p.reloadInBackground b policy =
      (({ p with stats := { p.stats with backgroundReloads := p.stats.backgroundReloads + 1 } }.reload b).1,
        ({ p with stats := { p.stats with backgroundReloads := p.stats.backgroundReloads + 1 } }.reload b).2.1) := by
  simp [reloadInBackground, h]

theorem reloadInBackground_of_fresh {policy : ExpiryPolicy}
    (h : policy.freshness p.stamp b.clock = .fresh) : p.reloadInBackground b policy = (p, b) := by
  simp [reloadInBackground, h]

theorem reload_failed_stale {f : Fault} {v : α} (h : (b.source.load p.id).2 = .error f)
    (hv : p.value = some v) :
    (p.reload b).1.value = some v ∧ (p.reload b).1.version = p.version ∧
      (p.reload b).1.stamp = .since b.clock ∧ (p.reload b).2.2 = .ok (some v) := by
  simp [reload, settle, h, loadFailed, hv]

theorem reload_failed_empty {f : Fault} (h : (p.reload b).2.2 = .error f) :
    (b.source.load p.id).2 = .error f ∧ p.value = none ∧ b.offlineGet p.id = none ∧
      (p.reload b).1.value = p.value ∧ (p.reload b).1.version = p.version ∧
      (p.reload b).1.stamp = p.stamp := by
  cases hl : (b.source.load p.id).2 with
  | ok found =>
    -- a load that reached the source answers what it found
    cases found <;> simp [reload, settle, hl] at h
  | error f' =>
    cases hv : p.value with
    | some v => simp [reload, settle, hl, loadFailed, hv] at h
    | none =>
      cases ho : b.offlineGet p.id with
      | some copy => simp [reload, settle, hl, loadFailed, hv, ho] at h
      | none =>
        have hf : f' = f := by simpa [reload, settle, hl, loadFailed, hv, ho] using h
        subst hf
        simp [reload, settle, hl, loadFailed, hv, ho]

theorem reload_value_lost (hv : p.value.isSome) (hn : (p.reload b).1.value = none) :
    (b.source.load p.id).2 = .ok none ∧ p.pendingWrites = 0 := by
  obtain ⟨v, hv⟩ := Option.isSome_iff_exists.mp hv
  cases hl : (b.source.load p.id).2 with
  | ok found =>
    cases found with
    | some remote =>
      have := apply_value_isSome { p with stats := { p.stats with loads := p.stats.loads + 1 } }
        { b with source := (b.source.load p.id).1 } remote true
      simp [reload, settle, hl] at hn
      simp [hn] at this
    | none =>
      refine ⟨rfl, ?_⟩
      cases hw : p.pendingWrites with
      | zero => rfl
      | succ n => simp [reload, settle, hl, isWritePending, hw, hv] at hn
  | error f => simp [(reload_failed_stale hl hv).1] at hn

end Proxy

/-- One proxy with the world around it: the backing it reaches, and the local write in
progress with the value written and, once the source has stored it, the source's answer. -/
structure Scene (α : Type) where
  proxy : Proxy α
  backing : Backing α
  writing : Option (WriteTicket × α × Option (Outcome Lineage))

/-- What can happen next around one proxy. -/
inductive Event (α : Type) where
  /-- A read through the expiry policy, from any handle. -/
  | read
  /-- The delay loader runs a background reload. -/
  | reload
  | expire
  | weakExpire
  /-- The source pushes a value. -/
  | push (value : α) (version : Lineage)
  /-- A local write starts. -/
  | startWrite (value : α)
  /-- The source stores the write in progress. -/
  | store
  /-- The write in progress ends with the source's answer. -/
  | endWrite
  /-- The world moves on: other writers, failing calls, the clock, offline copies. -/
  | world (change : Backing α → Backing α)

namespace Scene

variable {α : Type}

/-- One event; `none` when it cannot happen: a write starting while another is out (the write
lock of a proxy), or a store or an end with no write at that stage. -/
def step (o : ProxyOptions) (s : Scene α) : Event α → Option (Scene α)
  | .read =>
    let (p, b, _, _) := s.proxy.read s.backing o.policy
    some { s with proxy := p, backing := b }
  | .reload =>
    let (p, b) := s.proxy.reloadInBackground s.backing o.policy
    some { s with proxy := p, backing := b }
  | .expire => some { s with proxy := s.proxy.expire.1 }
  | .weakExpire => some { s with proxy := s.proxy.weakExpire.1 }
  | .push value version =>
    let (p, b, _) := s.proxy.updateValue s.backing value version
    some { s with proxy := p, backing := b }
  | .startWrite value =>
    match s.writing with
    | some _ => none
    | none =>
      let (p, t) := s.proxy.beginWrite o.node o.maxRun
      some { s with proxy := p, writing := some (t, value, none) }
  | .store =>
    match s.writing with
    | some (t, value, none) =>
      if s.backing.writable then
        let (source, result) := s.backing.source.store s.proxy.id value t.previous t.next
        some { s with backing := { s.backing with source }, writing := some (t, value, some result) }
      else some { s with writing := some (t, value, some (.error (.notSupported "remote writes"))) }
    | _ => none
  | .endWrite =>
    match s.writing with
    | some (t, value, some result) =>
      let (p, b, _) := s.proxy.finishWrite s.backing t value result
      some ⟨p, b, none⟩
    | _ => none
  | .world change => some { s with backing := change s.backing }

/-- A series of events, stopping at one that cannot happen. -/
def run (o : ProxyOptions) (s : Scene α) : List (Event α) → Option (Scene α)
  | [] => some s
  | e :: es => (s.step o e).bind fun s' => s'.run o es

/-- What a read answers. -/
def readAnswer (o : ProxyOptions) (s : Scene α) : Outcome (Option α) :=
  (s.proxy.read s.backing o.policy).2.2.1

/-- Whether an event loads the proxy from the source: a read that must reload first, or a
background reload of a value that is no longer fresh. -/
def loads (o : ProxyOptions) (s : Scene α) : Event α → Bool
  | .read => o.policy.freshness s.proxy.stamp s.backing.clock == .reload
  | .reload => o.policy.freshness s.proxy.stamp s.backing.clock != .fresh
  | _ => false

theorem run_cons (o : ProxyOptions) (s : Scene α) (e : Event α) (es : List (Event α)) :
    s.run o (e :: es) = (s.step o e).bind fun s' => s'.run o es := rfl

theorem step_of_loads {o : ProxyOptions} {s : Scene α} {e : Event α} (h : s.loads o e = true) :
    ∃ p₀ : Proxy α, p₀.id = s.proxy.id ∧ p₀.value = s.proxy.value ∧ p₀.version = s.proxy.version ∧
      p₀.stamp = s.proxy.stamp ∧ p₀.pendingWrites = s.proxy.pendingWrites ∧
      s.step o e = some { s with proxy := (p₀.reload s.backing).1, backing := (p₀.reload s.backing).2.1 } ∧
      (e = .read → s.readAnswer o = (p₀.reload s.backing).2.2) := by
  cases e with
  | read =>
    have hr : o.policy.freshness s.proxy.stamp s.backing.clock = .reload := by
      simpa [loads] using h
    exact ⟨s.proxy, rfl, rfl, rfl, rfl, rfl, by simp [step, Proxy.read_of_reload hr],
      fun _ => by simp [readAnswer, Proxy.read_of_reload hr]⟩
  | reload =>
    have hr : o.policy.freshness s.proxy.stamp s.backing.clock ≠ .fresh := by
      simpa [loads, bne] using h
    exact ⟨{ s.proxy with stats := { s.proxy.stats with
        backgroundReloads := s.proxy.stats.backgroundReloads + 1 } }, rfl, rfl, rfl, rfl, rfl,
      by simp [step, Proxy.reloadInBackground_of_ne_fresh hr], nofun⟩
  | _ => simp [loads] at h

theorem step_value_isSome {o : ProxyOptions} {s s' : Scene α} {e : Event α}
    (hl : s.loads o e = false) (h : s.step o e = some s') (hv : s.proxy.value.isSome) :
    s'.proxy.value.isSome := by
  cases e with
  | read =>
    have hr : o.policy.freshness s.proxy.stamp s.backing.clock ≠ .reload := by
      simpa [loads] using hl
    obtain ⟨hp, -, -⟩ := Proxy.read_of_ne_reload (b := s.backing) hr
    simp only [step, Option.some_inj] at h
    rw [← h, hp]
    exact hv
  | reload =>
    have hr : o.policy.freshness s.proxy.stamp s.backing.clock = .fresh := by
      simpa [loads, bne] using hl
    simp only [step, Proxy.reloadInBackground_of_fresh hr, Option.some_inj] at h
    rw [← h]
    exact hv
  | expire | weakExpire =>
    simp only [step, Option.some_inj] at h
    simpa [← h] using hv
  | push value version =>
    simp only [step, Option.some_inj] at h
    rw [← h]
    exact Proxy.apply_value_isSome _ _ _ _
  | startWrite value =>
    simp only [step] at h
    split at h
    · cases h
    · simp only [Option.some_inj] at h
      simpa [← h] using hv
  | store =>
    simp only [step] at h
    split at h
    · split at h <;> (simp only [Option.some_inj] at h; rw [← h]; exact hv)
    · cases h
  | endWrite =>
    simp only [step] at h
    split at h
    · simp only [Option.some_inj] at h
      rw [← h]
      exact Proxy.finishWrite_value_isSome _ _ _ _ _ hv
    · cases h
  | world change =>
    simp only [step, Option.some_inj] at h
    rw [← h]
    exact hv

theorem step_value_lost {o : ProxyOptions} {s s' : Scene α} {e : Event α}
    (h : s.step o e = some s') (hv : s.proxy.value.isSome) (hn : s'.proxy.value = none) :
    s.loads o e ∧ (s.backing.source.load s.proxy.id).2 = .ok none ∧ s.proxy.pendingWrites = 0 := by
  cases hl : s.loads o e with
  | false => simpa [hn] using step_value_isSome hl h hv
  | true =>
    obtain ⟨p₀, hid, hval, -, -, hpend, hstep, -⟩ := step_of_loads hl
    rw [hstep, Option.some_inj] at h
    subst h
    obtain ⟨found, pending⟩ := Proxy.reload_value_lost (hval ▸ hv) hn
    exact ⟨rfl, hid ▸ found, hpend ▸ pending⟩

/-- The run lemma for the cached value: along a series of events, a cached value is lost only
at a load that found the object gone with no local write pending. -/
theorem run_value_lost {o : ProxyOptions} {s s' : Scene α} {es : List (Event α)}
    (h : s.run o es = some s') (hv : s.proxy.value.isSome) (hn : s'.proxy.value = none) :
    ∃ pre e post s₁, es = pre ++ e :: post ∧ s.run o pre = some s₁ ∧ s₁.loads o e ∧
      (s₁.backing.source.load s₁.proxy.id).2 = .ok none ∧ s₁.proxy.pendingWrites = 0 := by
  induction es generalizing s with
  | nil =>
    cases h
    simp [hn] at hv
  | cons e es ih =>
    rw [run_cons, Option.bind_eq_some_iff] at h
    obtain ⟨s₁, h₁, h₂⟩ := h
    cases hv₁ : s₁.proxy.value with
    | none => exact ⟨[], e, es, s, rfl, rfl, step_value_lost h₁ hv hv₁⟩
    | some _ =>
      -- the value is still there after this event, so it is lost later
      obtain ⟨pre, e', post, s₂, rfl, hpre, hloss⟩ := ih h₂ (by simp [hv₁])
      exact ⟨e :: pre, e', post, s₂, rfl, by rw [run_cons, h₁]; exact hpre, hloss⟩

/-- **A cached value is served through failures.** A load that fails on a proxy holding a
value, a read's or the delay loader's, can always happen; it keeps the value and its lineage,
stamps it now, and a read answers the value. Along any series of events the cached value is
dropped only by a load that found the object gone while no local write was pending. A read fails
only when its load failed with no value cached and no offline copy to fall back on, and it then
leaves value, lineage and stamp as they were. -/
theorem cached_value_survives_failures (o : ProxyOptions) :
    (∀ (s : Scene α) (e : Event α) (v : α) (f : Fault), s.loads o e →
        (s.backing.source.load s.proxy.id).2 = .error f → s.proxy.value = some v →
        ∃ s', s.step o e = some s' ∧ s'.proxy.value = some v ∧
          s'.proxy.version = s.proxy.version ∧ s'.proxy.stamp = .since s.backing.clock ∧
          (e = .read → s.readAnswer o = .ok (some v))) ∧
    (∀ (s s' : Scene α) (es : List (Event α)), s.run o es = some s' → s.proxy.value.isSome →
        s'.proxy.value = none →
        ∃ pre e post s₁, es = pre ++ e :: post ∧ s.run o pre = some s₁ ∧ s₁.loads o e ∧
          (s₁.backing.source.load s₁.proxy.id).2 = .ok none ∧ s₁.proxy.pendingWrites = 0) ∧
    (∀ (s : Scene α) (f : Fault), s.readAnswer o = .error f →
        s.loads o .read ∧ (s.backing.source.load s.proxy.id).2 = .error f ∧
          s.proxy.value = none ∧ s.backing.offlineGet s.proxy.id = none ∧
          ∃ s', s.step o .read = some s' ∧ s'.proxy.value = s.proxy.value ∧
            s'.proxy.version = s.proxy.version ∧ s'.proxy.stamp = s.proxy.stamp) := by
  refine ⟨fun s e v f hl hf hv => ?_, fun s s' es h hv hn => run_value_lost h hv hn,
    fun s f herr => ?_⟩
  · obtain ⟨p₀, hid, hval, hver, -, -, hstep, hread⟩ := step_of_loads hl
    have stale := Proxy.reload_failed_stale (b := s.backing) (hid ▸ hf) (hval ▸ hv)
    exact ⟨_, hstep, stale.1, stale.2.1.trans hver, stale.2.2.1,
      fun he => (hread he).trans stale.2.2.2⟩
  · -- a read that does not reload answers the cached value
    have hl : s.loads o .read = true := by
      cases hr : o.policy.freshness s.proxy.stamp s.backing.clock <;>
        simp_all [readAnswer, Proxy.read, loads]
    obtain ⟨p₀, hid, hval, hver, hstamp, -, hstep, hread⟩ := step_of_loads hl
    have empty := Proxy.reload_failed_empty ((hread rfl).symm.trans herr)
    obtain ⟨hf, hv, ho, hv', hver', hst'⟩ := empty
    exact ⟨hl, hid ▸ hf, hval ▸ hv, hid ▸ ho, _, hstep, hv'.trans hval, hver'.trans hver,
      hst'.trans hstamp⟩

/-- Proxy options of node `n1` whose reads reload once a second has passed. -/
def quoteOptions : ProxyOptions := ⟨"n1", 5, .blocking 1000, false⟩

/-- A proxy of `quote:eur`, force-expired, holding `value` at `n1+1`, over a source that has no
objects and whose next `failures` calls fail. -/
def quoteScene (value : Option Nat) (failures : Nat) : Scene Nat :=
  ⟨⟨⟨"quote", "eur", none⟩, 1, value, ⟨[⟨"n1", 1⟩]⟩, none, .forceExpired, 0, {}⟩,
    ⟨⟨[], failures, 0⟩, true, ⟨[]⟩, .none, 0⟩, none⟩

/-- The proxy of `quoteScene (some 7) 0` after a read: the source had lost the object. -/
def quoteLost : Scene Nat :=
  ⟨⟨⟨"quote", "eur", none⟩, 1, none, ⟨[]⟩, none, .since 0, 0, { loads := 1 }⟩,
    ⟨⟨[], 0, 1⟩, true, ⟨[]⟩, .none, 0⟩, none⟩

/-- A force-expired proxy holding `7` over a source whose next call fails: the read fails, is
served `7` and stamps it again. Over a source that has lost the object, a read drops the value.
With nothing cached and no offline copies, the failing read is an error. -/
theorem cached_value_survives_failures_unreachable :
    ((quoteScene (some 7) 1).loads quoteOptions .read ∧
      ((quoteScene (some 7) 1).backing.source.load (quoteScene (some 7) 1).proxy.id).2 =
        .error (.backend "remote unreachable") ∧
      (quoteScene (some 7) 1).proxy.value = some 7 ∧
      ∃ s', (quoteScene (some 7) 1).step quoteOptions .read = some s' ∧
        s'.proxy.value = some 7 ∧ s'.proxy.version = (quoteScene (some 7) 1).proxy.version ∧
        s'.proxy.stamp = .since (quoteScene (some 7) 1).backing.clock ∧
        ((.read : Event Nat) = .read →
          (quoteScene (some 7) 1).readAnswer quoteOptions = .ok (some 7))) ∧
    ((quoteScene (some 7) 0).run quoteOptions [.read] = some quoteLost ∧
      (quoteScene (some 7) 0).proxy.value.isSome ∧ quoteLost.proxy.value = none ∧
      ∃ pre e post s₁, [(.read : Event Nat)] = pre ++ e :: post ∧
        (quoteScene (some 7) 0).run quoteOptions pre = some s₁ ∧ s₁.loads quoteOptions e ∧
        (s₁.backing.source.load s₁.proxy.id).2 = .ok none ∧ s₁.proxy.pendingWrites = 0) ∧
    ((quoteScene none 1).readAnswer quoteOptions = .error (.backend "remote unreachable") ∧
      (quoteScene none 1).loads quoteOptions .read ∧
      ((quoteScene none 1).backing.source.load (quoteScene none 1).proxy.id).2 =
        .error (.backend "remote unreachable") ∧
      (quoteScene none 1).proxy.value = none ∧
      (quoteScene none 1).backing.offlineGet (quoteScene none 1).proxy.id = none ∧
      ∃ s', (quoteScene none 1).step quoteOptions .read = some s' ∧
        s'.proxy.value = (quoteScene none 1).proxy.value ∧
        s'.proxy.version = (quoteScene none 1).proxy.version ∧
        s'.proxy.stamp = (quoteScene none 1).proxy.stamp) := by
  have stale : (quoteScene (some 7) 1).loads quoteOptions .read := by decide
  have lost : (quoteScene (some 7) 0).run quoteOptions [.read] = some quoteLost := rfl
  have failed : (quoteScene none 1).readAnswer quoteOptions =
      .error (.backend "remote unreachable") := rfl
  exact ⟨⟨stale, rfl, rfl, (cached_value_survives_failures quoteOptions).1 _ _ 7 _ stale rfl rfl⟩,
    ⟨lost, rfl, rfl, (cached_value_survives_failures quoteOptions).2.1 _ _ _ lost rfl rfl⟩,
    ⟨failed, (cached_value_survives_failures quoteOptions).2.2 _ _ failed⟩⟩

end Scene

end Stowage.Remote
