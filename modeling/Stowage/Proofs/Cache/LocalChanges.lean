import Stowage.Proofs.Cache.Calls
/-!
No local change is lost by the identity cache.

A session is a cache with the writes in flight on it. A write is split into its start and its
end, and any call may run in between, as a writer may call back into the cache; the write lock
of an entry keeps a second write of the same entry from starting while the first is out.

In every state a session reaches, an expired entry is clean (`Session.Sound`), which is what
makes a reload in place harmless: a read misses only an absent or expired entry, so it never
replaces an entry with local changes. `Fate` lists what one call can do to an entry with local
changes: renew its use stamps, mark it again, start or end its write, or take it out when the
call removes or discards its identity. Over a whole write the entry ends clean with the writer's
lineage exactly when the writer succeeded and nothing marked it meanwhile.
-/
namespace Stowage

open Stowage.Version

namespace Cache

/-- What the loader of a read that missed gave. -/
inductive Loaded where
  | failed (f : Fault)
  | absent
  | found (inst : Nat) (version : Lineage)

/-- One call on the cache. A write is split into its start and the end that hands over the
writer's result, found by the serial of the entry it started on. -/
inductive Call where
  | get (id : Identity) (now : Nat) (held : Nat → Bool) (loaded : Loaded)
  | mark (id : Identity) (inst now : Nat) (held : Nat → Bool) (provision : Outcome Lineage)
  | startFlush (id : Identity)
  | endFlush (serial : Nat) (result : Outcome Lineage)
  | remove (id : Identity)
  | discard (id : Identity)
  | expire (id : Identity)
  | refresh (id : Identity) (version : Lineage) (accept : Bool) (peer : Nat)
  | sweep (now : Nat) (held : Nat → Bool)

/-- Whether a call marks the instance `inst` of `id`. -/
def Call.marks (id : Identity) (inst : Nat) : Call → Bool
  | .mark id' inst' .. => id' == id && inst' == inst
  | _ => false

/-- Whether a call takes the entry of `id` out or hands over the result of the write of the
entry numbered `serial`: the calls a writer of that entry does not make. -/
def Call.closes (id : Identity) (serial : Nat) : Call → Bool
  | .remove id' | .discard id' => id' == id
  | .endFlush serial' _ => serial' == serial
  | _ => false

/-- What one call can do to the entry `e` of `id` when it has local changes, given what the
cache holds for `id` after the call. -/
inductive Fate (id : Identity) (e : CacheEntry) : Call → Option CacheEntry → Prop where
  /-- Nothing but its use stamps changes, when the call does not mark it. -/
  | kept {call : Call} {a t : Nat} : call.marks id e.inst = false →
    Fate id e call (some { e with lastAccess := a, lastTick := t })
  /-- Marked again through its own instance: dirty and unexpired. -/
  | marked {now : Nat} {held : Nat → Bool} {provision : Outcome Lineage} {a t : Nat} :
    Fate id e (.mark id e.inst now held provision)
      (some { e with write := .dirty, expired := false, lastAccess := a, lastTick := t })
  /-- Its write starts. -/
  | writing : e.write = .dirty → Fate id e (.startFlush id) (some { e with write := .updating })
  /-- Its write stored `v`: clean unless it was marked since the write started. -/
  | stored {v : Lineage} : Fate id e (.endFlush e.serial (.ok v))
    (some { e with version := v, write := if e.write = .updating then .clean else .dirty })
  /-- Its write failed: dirty again, with its lineage. -/
  | failed {f : Fault} : Fate id e (.endFlush e.serial (.error f)) (some { e with write := .dirty })
  | removed : Fate id e (.remove id) none
  | discarded : Fate id e (.discard id) none

theorem Fate.of_entry {id : Identity} {e : CacheEntry} {call : Call} {o : Option CacheEntry}
    (h : o = some e) (quiet : call.marks id e.inst = false) : Fate id e call o := by
  subst h
  exact .kept quiet

theorem marks_mark_eq_false {id id₁ : Identity} {inst inst₁ now : Nat} {held : Nat → Bool}
    {provision : Outcome Lineage} (h : id₁ = id → inst₁ ≠ inst) :
    (Call.mark id inst now held provision).marks id₁ inst₁ = false := by
  simp only [Call.marks, Bool.and_eq_false_iff, beq_eq_false_iff_ne, ne_eq]
  by_cases hid : id = id₁
  · exact .inr fun hi => h hid.symm hi.symm
  · exact .inl hid

/-- Every entry of `c` with local changes meets its fate in `c'`. -/
def Keeps (c : Cache) (call : Call) (c' : Cache) : Prop :=
  ∀ id e, c.entryOf id = some e → e.write ≠ .clean → Fate id e call (c'.entryOf id)

section Keeping

variable {c c' : Cache}

variable {call : Call}

theorem keeps_of_entries (h : c'.entries = c.entries)
    (quiet : ∀ id e, c.entryOf id = some e → call.marks id e.inst = false) : Keeps c call c' :=
  fun id _ he _ => Fate.of_entry ((entryOf_congr h id).trans he) (quiet _ _ he)

theorem keeps_self (quiet : ∀ id e, c.entryOf id = some e → call.marks id e.inst = false) :
    Keeps c call c :=
  keeps_of_entries rfl quiet

theorem keeps_of_survive (hk : c.Keyed) (keyed : c'.Keyed)
    (survive : ∀ p ∈ c.entries, p.2.write ≠ .clean → p ∈ c'.entries)
    (quiet : ∀ id e, c.entryOf id = some e → call.marks id e.inst = false) : Keeps c call c' := by
  intro id e he hw
  have hm := survive (id, e) ((entryOf_eq_some_iff hk).mp he) hw
  exact Fate.of_entry ((entryOf_eq_some_iff keyed).mpr hm) (quiet _ _ he)

theorem keeps_of_rewrite {id : Identity} {e₀ e' : CacheEntry} (hk : c.Keyed)
    (he : c.entryOf id = some e₀) (hent : c'.entries = (c.setEntry id e').entries)
    (own : e₀.write ≠ .clean → Fate id e₀ call (some e'))
    (quiet : ∀ id₁ inst, id₁ ≠ id → call.marks id₁ inst = false) : Keeps c call c' := by
  intro id₁ e he₁ hw
  rw [entryOf_congr hent]
  by_cases hid : id₁ = id
  · subst hid
    rw [he] at he₁
    cases he₁
    rw [entryOf_setEntry_self hk he]
    exact own hw
  · rw [entryOf_setEntry_ne hk _ hid]
    exact Fate.of_entry he₁ (quiet _ _ hid)

theorem keeps_detach {id : Identity} (gone : ∀ e, Fate id e call none)
    (quiet : ∀ id (e : CacheEntry), call.marks id e.inst = false) :
    Keeps c call (c.detachEntry id).1 := by
  intro id₁ e he _
  rw [entryOf_detachEntry]
  split
  · rename_i hid
    subst hid
    exact gone e
  · exact Fate.of_entry he (quiet _ _)

end Keeping

/-- A cache with the writes in flight on it, each with the identity it was started on. -/
structure Session where
  cache : Cache
  writing : List (Identity × FlushTicket)

namespace Session

/-- A fresh cache with no write in flight. -/
def start (capacity : Nat) (idleTimeout : Option Nat) : Session :=
  ⟨empty capacity idleTimeout, []⟩

/-- Whether the write of the entry numbered `serial` is in flight. -/
def pending (s : Session) (serial : Nat) : Bool := s.writing.any (·.2.serial == serial)

/-- One call; `none` when it cannot be made: a write of an entry whose write is in flight, or
the end of a write that is not. -/
def step (s : Session) : Call → Option Session
  | .get id now held loaded =>
    match s.cache.hit? id now with
    | some (c, _) => some { s with cache := c }
    | none =>
      let c := s.cache.startLoad
      match loaded with
      | .failed _ => some { s with cache := c }
      | .absent => some { s with cache := (c.discardExpired id held).1 }
      | .found inst version => some { s with cache := (c.install id inst version now held).1 }
  | .mark id inst now held provision =>
    match s.cache.markExisting id inst now with
    | some (.ok (c, _)) => some { s with cache := c }
    | some (.error _) => some s
    | none =>
      if s.cache.wasEvicted id inst then some s
      else match provision with
        | .ok v => some { s with cache := (s.cache.insert id inst v .clean now held).1 }
        | .error _ => some s
  | .startFlush id =>
    -- the write lock is taken before the write state is read
    if (s.cache.entryOf id).any fun e => s.pending e.serial then none
    else match s.cache.beginFlush id with
      | some (c, t) => some ⟨c, (id, t) :: s.writing⟩
      | none => some s
  | .endFlush serial result =>
    match s.writing.find? (·.2.serial == serial) with
    | some (id, t) =>
      some ⟨(s.cache.finishFlush id t result).1, s.writing.filter (·.2.serial != serial)⟩
    | none => none
  | .remove id | .discard id => some { s with cache := (s.cache.detachEntry id).1 }
  | .expire id => some { s with cache := (s.cache.expire id).1 }
  | .refresh id version accept peer =>
    match s.cache.offer id with
    | .ok _ => some { s with cache := s.cache.refresh id version (if accept then none else some peer) }
    | .error _ => some s
  | .sweep now held => some { s with cache := (s.cache.sweep now held).1 }

/-- A series of calls, stopping at one that cannot be made. -/
def run (s : Session) : List Call → Option Session
  | [] => some s
  | call :: calls => (s.step call).bind fun s' => s'.run calls

/-- The sessions reachable from a fresh cache. -/
inductive Reachable : Session → Prop where
  | start (capacity : Nat) (idleTimeout : Option Nat) : Reachable (start capacity idleTimeout)
  | step {s s' : Session} {call : Call} : Reachable s → s.step call = some s' → Reachable s'

theorem Reachable.run {s s' : Session} {calls : List Call} (hs : s.Reachable)
    (h : s.run calls = some s') : s'.Reachable := by
  induction calls generalizing s with
  | nil => cases h; exact hs
  | cons call calls ih =>
    simp only [Session.run, Option.bind_eq_some_iff] at h
    obtain ⟨s₁, h₁, h₂⟩ := h
    exact ih (hs.step h₁) h₂

/-- The invariant of reachable sessions. Serials number entries in the order they were made,
one entry each; an entry whose write is in flight has local changes and the identity the write
was started on; and an expired entry is clean. -/
structure Sound (s : Session) : Prop where
  keyed : s.cache.Keyed
  fresh : ∀ p ∈ s.cache.entries, p.2.serial < s.cache.serials
  owner : ∀ p ∈ s.cache.entries, ∀ q ∈ s.cache.entries, p.2.serial = q.2.serial → p.1 = q.1
  expiredClean : ∀ p ∈ s.cache.entries, p.2.expired → p.2.write = .clean
  ticketFresh : ∀ w ∈ s.writing, w.2.serial < s.cache.serials
  ticketEntry : ∀ w ∈ s.writing, ∀ p ∈ s.cache.entries, p.2.serial = w.2.serial →
    p.1 = w.1 ∧ p.2.write ≠ .clean

theorem sound_start (capacity : Nat) (idleTimeout : Option Nat) :
    (start capacity idleTimeout).Sound where
  keyed := List.nodup_nil
  fresh := by simp [start, empty]
  owner := by simp [start, empty]
  expiredClean := by simp [start, empty]
  ticketFresh := by simp [start]
  ticketEntry := by simp [start]

section Preservation

variable {s s' : Session}

theorem Sound.of_origin (h : s.Sound) (keyed : s'.cache.Keyed)
    (origin : ∀ p ∈ s'.cache.entries, ∃ p₀ ∈ s.cache.entries, p₀.1 = p.1 ∧ p₀.2.serial = p.2.serial)
    (expiredClean : ∀ p ∈ s'.cache.entries, p.2.expired → p.2.write = .clean)
    (busy : ∀ w ∈ s'.writing, ∀ p ∈ s'.cache.entries, p.2.serial = w.2.serial → p.2.write ≠ .clean)
    (serials : s'.cache.serials = s.cache.serials) (writing : s'.writing ⊆ s.writing) :
    s'.Sound where
  keyed := keyed
  fresh p hp := by
    obtain ⟨p₀, hp₀, -, hs⟩ := origin p hp
    exact serials ▸ hs ▸ h.fresh p₀ hp₀
  owner p hp q hq hpq := by
    obtain ⟨p₀, hp₀, hk, hs⟩ := origin p hp
    obtain ⟨q₀, hq₀, hk', hs'⟩ := origin q hq
    rw [← hk, ← hk']
    exact h.owner p₀ hp₀ q₀ hq₀ (by rw [hs, hs', hpq])
  expiredClean := expiredClean
  ticketFresh w hw := serials ▸ h.ticketFresh w (writing hw)
  ticketEntry w hw p hp hpw := by
    obtain ⟨p₀, hp₀, hk, hs⟩ := origin p hp
    exact ⟨hk ▸ (h.ticketEntry w (writing hw) p₀ hp₀ (hs.trans hpw)).1, busy w hw p hp hpw⟩

theorem Sound.shrink (h : s.Sound) (sub : s'.cache.entries.Sublist s.cache.entries)
    (serials : s'.cache.serials = s.cache.serials) (writing : s'.writing ⊆ s.writing) :
    s'.Sound :=
  h.of_origin (h.keyed.sublist sub) (fun p hp => ⟨p, sub.subset hp, rfl, rfl⟩)
    (fun p hp => h.expiredClean p (sub.subset hp))
    (fun w hw p hp hpw => (h.ticketEntry w (writing hw) p (sub.subset hp) hpw).2) serials writing

theorem Sound.rewrite {id : Identity} {e e' : CacheEntry} (h : s.Sound)
    (he : s.cache.entryOf id = some e) (hent : s'.cache.entries = (s.cache.setEntry id e').entries)
    (serial : e'.serial = e.serial) (clean : e'.expired → e'.write = .clean)
    (busy : e'.write = .clean → e.write = .clean ∨ ∀ w ∈ s'.writing, w.2.serial ≠ e.serial)
    (serials : s'.cache.serials = s.cache.serials) (writing : s'.writing ⊆ s.writing) :
    s'.Sound := by
  have mem : ∀ p ∈ s'.cache.entries, (p ∈ s.cache.entries ∧ p.1 ≠ id) ∨ p = (id, e') := by
    intro p hp
    rw [hent, mem_setEntry] at hp
    exact hp.imp_right fun h => h.1
  have keyed : s'.cache.Keyed := by
    unfold Keyed; rw [hent, keys_setEntry]; exact h.keyed
  have old := (entryOf_eq_some_iff h.keyed).mp he
  refine h.of_origin keyed (fun p hp => ?_) (fun p hp => ?_) (fun w hw p hp hpw => ?_) serials
    writing
  · rcases mem p hp with ⟨hp, -⟩ | rfl
    · exact ⟨p, hp, rfl, rfl⟩
    · exact ⟨(id, e), old, rfl, serial.symm⟩
  · rcases mem p hp with ⟨hp, -⟩ | rfl
    · exact h.expiredClean p hp
    · exact clean
  · rcases mem p hp with ⟨hp, -⟩ | rfl
    · exact (h.ticketEntry w (writing hw) p hp hpw).2
    · -- the old entry had the serial of a write in flight, so it had local changes
      have dirty := (h.ticketEntry w (writing hw) (id, e) old (serial ▸ hpw)).2
      intro hclean
      rcases busy hclean with hc | gone
      · exact dirty hc
      · exact gone w hw (serial ▸ hpw).symm

theorem Sound.insert {id : Identity} {e : CacheEntry} (h : s.Sound) (keyed : s'.cache.Keyed)
    (sub : s'.cache.entries.Sublist (s.cache.entries ++ [(id, e)]))
    (serial : e.serial = s.cache.serials) (unexpired : e.expired = false)
    (serials : s'.cache.serials = s.cache.serials + 1) (writing : s'.writing = s.writing) :
    s'.Sound := by
  have mem : ∀ p ∈ s'.cache.entries, p ∈ s.cache.entries ∨ p = (id, e) := by
    intro p hp
    simpa using sub.subset hp
  constructor
  · exact keyed
  · intro p hp
    rcases mem p hp with hp | rfl
    · have := h.fresh p hp; omega
    · simp [serial, serials]
  · intro p hp q hq hpq
    rcases mem p hp with hp' | rfl <;> rcases mem q hq with hq' | rfl
    · exact h.owner p hp' q hq' hpq
    · have := h.fresh p hp'; simp only [serial] at hpq; omega
    · have := h.fresh q hq'; simp only [serial] at hpq; omega
    · rfl
  · intro p hp
    rcases mem p hp with hp | rfl
    · exact h.expiredClean p hp
    · simp [unexpired]
  · intro w hw
    have := h.ticketFresh w (writing ▸ hw); omega
  · intro w hw p hp hpw
    rcases mem p hp with hp | rfl
    · exact h.ticketEntry w (writing ▸ hw) p hp hpw
    · have := h.ticketFresh w (writing ▸ hw); simp only [serial] at hpw; omega

theorem Sound.push {id : Identity} {e : CacheEntry} {t : FlushTicket} (h : s.Sound)
    (he : s.cache.entryOf id = some e) (hw : e.write ≠ .clean) (ht : t.serial = e.serial) :
    (⟨s.cache, (id, t) :: s.writing⟩ : Session).Sound := by
  have old := (entryOf_eq_some_iff h.keyed).mp he
  refine { h with ticketFresh := ?_, ticketEntry := ?_ }
  · intro w hw
    rcases List.mem_cons.mp hw with rfl | hw
    · exact ht ▸ h.fresh _ old
    · exact h.ticketFresh w hw
  · intro w hw' p hp hpw
    rcases List.mem_cons.mp hw' with rfl | hw'
    · -- one entry per serial and per identity: this is the entry being written
      obtain ⟨k, v⟩ := p
      have hid : k = id := h.owner (k, v) hp (id, e) old (hpw.trans ht)
      subst hid
      have hv : v = e := Option.some_inj.mp (((entryOf_eq_some_iff h.keyed).mpr hp).symm.trans he)
      exact ⟨rfl, hv ▸ hw⟩
    · exact h.ticketEntry w hw' p hp hpw

end Preservation


section Steps

variable {s s' : Session}

theorem Sound.unexpired (h : s.Sound) {id : Identity} {e : CacheEntry}
    (he : s.cache.entryOf id = some e) (hw : e.write ≠ .clean) : e.expired = false := by
  cases hx : e.expired
  · rfl
  · exact absurd (h.expiredClean (id, e) ((entryOf_eq_some_iff h.keyed).mp he) hx) hw

theorem step_get {id : Identity} {now : Nat} {held : Nat → Bool} {loaded : Loaded} (h : s.Sound)
    (hs : s.step (.get id now held loaded) = some s') :
    s'.Sound ∧ Keeps s.cache (.get id now held loaded) s'.cache := by
  simp only [step] at hs
  split at hs
  · rename_i c _ hhit
    cases hs
    obtain ⟨e₀, he₀, hexp, hent, hser⟩ := hit?_spec hhit
    exact ⟨h.rewrite he₀ hent rfl (by simp [hexp]) (fun hc => .inl hc) hser (List.Subset.refl _),
      keeps_of_rewrite h.keyed he₀ hent (fun _ => .kept rfl) fun _ _ _ => rfl⟩
  · rename_i hmiss
    cases loaded with
    | failed f =>
      cases hs
      exact ⟨h.shrink (List.Sublist.refl _) rfl (List.Subset.refl _),
        keeps_of_entries rfl fun _ _ _ => rfl⟩
    | absent =>
      cases hs
      obtain ⟨hent | ⟨e₀, he₀, hclean, hent⟩, hser⟩ :=
        discardExpired_spec s.cache.startLoad id held
      · exact ⟨h.shrink (by rw [hent]; exact List.Sublist.refl _) hser (List.Subset.refl _),
          keeps_of_entries hent fun _ _ _ => rfl⟩
      · -- only a clean expired entry is dropped
        have sub : (s.cache.startLoad.dropEntry id).entries.Sublist s.cache.entries :=
          List.filter_sublist
        refine ⟨h.shrink (by rw [hent]; exact sub) hser (List.Subset.refl _), ?_⟩
        intro id₁ e he₁ _
        rw [entryOf_congr hent, entryOf_dropEntry]
        split
        · rename_i hid
          subst hid
          rw [entryOf_congr (entries_startLoad s.cache), he₁] at he₀
          cases he₀
          contradiction
        · exact Fate.of_entry ((entryOf_congr (entries_startLoad s.cache) id₁).trans he₁) rfl
    | found inst version =>
      cases hs
      cases hfound : s.cache.entryOf id with
      | some e₀ =>
        -- a read missed it, so it is expired, so it is clean
        have hclean : e₀.write = .clean :=
          h.expiredClean (id, e₀) ((entryOf_eq_some_iff h.keyed).mp hfound)
            (hit?_eq_none hmiss hfound)
        obtain ⟨hent, hser⟩ := install_some (c := s.cache.startLoad) hfound inst version now held
        exact ⟨h.rewrite hfound hent rfl (by simp) (fun _ => .inl hclean) hser
            (List.Subset.refl _),
          keeps_of_rewrite h.keyed hfound hent (fun hw => absurd hclean hw) fun _ _ _ => rfl⟩
      | none =>
        rw [install_none (c := s.cache.startLoad) hfound]
        obtain ⟨sub, survive, hser, keyed⟩ :=
          insert_spec (c := s.cache.startLoad) h.keyed hfound inst version .clean now held
        exact ⟨h.insert keyed sub rfl rfl hser rfl,
          keeps_of_survive h.keyed keyed survive fun _ _ _ => rfl⟩

theorem step_mark {id : Identity} {inst now : Nat} {held : Nat → Bool}
    {provision : Outcome Lineage} (h : s.Sound) (hs : s.step (.mark id inst now held provision) = some s') :
    s'.Sound ∧ Keeps s.cache (.mark id inst now held provision) s'.cache := by
  simp only [step] at hs
  split at hs
  · rename_i c _ hmark
    cases hs
    obtain ⟨e₀, he₀, hinst, hent, hser⟩ := markExisting_spec hmark
    refine ⟨h.rewrite he₀ hent rfl (by simp) (by simp) hser (List.Subset.refl _),
      keeps_of_rewrite h.keyed he₀ hent (fun _ => ?_)
        fun _ _ hne => marks_mark_eq_false fun hid => absurd hid hne⟩
    rw [← hinst]
    exact .marked
  · -- a different instance is refused
    rename_i hmark
    cases hs
    obtain ⟨e₀, he₀, hinst⟩ := markExisting_error hmark
    refine ⟨h, keeps_self fun id₁ e he₁ => marks_mark_eq_false fun hid => ?_⟩
    subst hid
    rw [he₀] at he₁
    cases he₁
    exact hinst
  · -- nothing is cached under the identity, so the call marks no entry
    rename_i hnone
    have absent := markExisting_eq_none hnone
    have quiet : ∀ id₁ e, s.cache.entryOf id₁ = some e →
        (Call.mark id inst now held provision).marks id₁ e.inst = false := by
      intro id₁ e he₁
      refine marks_mark_eq_false fun hid => ?_
      subst hid
      rw [absent] at he₁
      cases he₁
    split at hs
    · cases hs
      exact ⟨h, keeps_self quiet⟩
    · cases provision with
      | ok v =>
        cases hs
        obtain ⟨sub, survive, hser, keyed⟩ :=
          insert_spec h.keyed absent inst v .clean now held
        exact ⟨h.insert keyed sub rfl rfl hser rfl, keeps_of_survive h.keyed keyed survive quiet⟩
      | error f =>
        cases hs
        exact ⟨h, keeps_self quiet⟩

theorem step_startFlush {id : Identity} (h : s.Sound) (hs : s.step (.startFlush id) = some s') :
    s'.Sound ∧ Keeps s.cache (.startFlush id) s'.cache := by
  simp only [step] at hs
  split at hs
  · cases hs
  · split at hs
    · rename_i c t hbegin
      cases hs
      obtain ⟨e₀, he₀, hd, rfl, rfl⟩ := beginFlush_spec hbegin
      have hw : e₀.write ≠ .clean := by simp [hd]
      have unexpired := h.unexpired he₀ hw
      have mid : (⟨s.cache.setEntry id { e₀ with write := .updating }, s.writing⟩ : Session).Sound :=
        h.rewrite he₀ rfl rfl (by simp [unexpired]) (by simp) rfl (List.Subset.refl _)
      exact ⟨mid.push (entryOf_setEntry_self h.keyed he₀) (by simp) rfl,
        keeps_of_rewrite h.keyed he₀ rfl (fun _ => .writing hd) fun _ _ _ => rfl⟩
    · cases hs
      exact ⟨h, keeps_self fun _ _ _ => rfl⟩

theorem written_write {w : WriteState} (hw : w ≠ .clean) :
    (if w = .updating then WriteState.clean else w) = if w = .updating then .clean else .dirty := by
  cases w <;> simp_all

theorem step_endFlush {serial : Nat} {result : Outcome Lineage} (h : s.Sound)
    (hs : s.step (.endFlush serial result) = some s') :
    s'.Sound ∧ Keeps s.cache (.endFlush serial result) s'.cache := by
  simp only [step] at hs
  split at hs
  · rename_i id t hfind
    cases hs
    have hmem := List.mem_of_find?_eq_some hfind
    have hserial : t.serial = serial := by simpa using List.find?_some hfind
    have writing : s.writing.filter (·.2.serial != serial) ⊆ s.writing :=
      fun _ hw => (List.mem_filter.mp hw).1
    by_cases hown : ∃ e₀, s.cache.entryOf id = some e₀ ∧ e₀.serial = t.serial
    · obtain ⟨e₀, he₀, hs₀⟩ := hown
      obtain ⟨hent, hser⟩ := finishFlush_entries he₀ hs₀ result
      -- the entry being written has local changes, so it is not expired
      have hw := (h.ticketEntry (id, t) hmem (id, e₀)
        ((entryOf_eq_some_iff h.keyed).mp he₀) hs₀).2
      have unexpired := h.unexpired he₀ hw
      refine ⟨h.rewrite he₀ hent (by cases result <;> rfl) (by cases result <;> simp [unexpired])
        (fun _ => .inr fun w hw' => ?_) hser writing,
        keeps_of_rewrite h.keyed he₀ hent (fun _ => ?_) fun _ _ _ => rfl⟩
      · have := (List.mem_filter.mp hw').2
        simp only [bne_iff_ne, ne_eq] at this
        omega
      · rw [← hserial, ← hs₀]
        cases result with
        | ok v => rw [written_write hw]; exact .stored
        | error f => exact .failed
    · have other : ∀ e, s.cache.entryOf id = some e → e.serial ≠ t.serial :=
        fun e he hs => hown ⟨e, he, hs⟩
      have same := finishFlush_other other result
      refine ⟨h.shrink (by simp only [same]; exact List.Sublist.refl _) (by rw [same]) writing, ?_⟩
      exact keeps_of_entries (by rw [same]) fun _ _ _ => rfl
  · cases hs

theorem step_detach {id : Identity} {call : Call} (h : s.Sound)
    (hs : s' = { s with cache := (s.cache.detachEntry id).1 }) (gone : ∀ e, Fate id e call none)
    (quiet : ∀ id (e : CacheEntry), call.marks id e.inst = false) :
    s'.Sound ∧ Keeps s.cache call s'.cache := by
  subst hs
  obtain ⟨sub, hser⟩ := detachEntry_sublist s.cache id
  exact ⟨h.shrink sub hser (List.Subset.refl _), keeps_detach gone quiet⟩

theorem step_expire {id : Identity} (h : s.Sound) (hs : s.step (.expire id) = some s') :
    s'.Sound ∧ Keeps s.cache (.expire id) s'.cache := by
  simp only [step] at hs
  cases hs
  rcases expire_spec s.cache id with same | ⟨e₀, he₀, hclean, hent⟩
  · exact ⟨h.shrink (by simp only [same]; exact List.Sublist.refl _) (by rw [same])
      (List.Subset.refl _), keeps_of_entries (by rw [same]) fun _ _ _ => rfl⟩
  · -- only a clean entry is expired
    have hent' := congrArg Cache.entries hent
    exact ⟨h.rewrite he₀ hent' rfl (fun _ => hclean) (fun _ => .inl hclean) (by rw [hent]; rfl)
        (List.Subset.refl _),
      keeps_of_rewrite h.keyed he₀ hent' (fun hw => absurd hclean hw) fun _ _ _ => rfl⟩

theorem step_refresh {id : Identity} {version : Lineage} {accept : Bool} {peer : Nat}
    (h : s.Sound) (hs : s.step (.refresh id version accept peer) = some s') :
    s'.Sound ∧ Keeps s.cache (.refresh id version accept peer) s'.cache := by
  simp only [step] at hs
  split at hs
  · rename_i inst hoffer
    cases hs
    -- a reload is offered only to a clean entry
    obtain ⟨e₀, he₀, hclean⟩ := offer_ok hoffer
    have hent := congrArg Cache.entries
      (refresh_spec he₀ version (if accept then none else some peer))
    exact ⟨h.rewrite he₀ hent rfl (by simp) (fun _ => .inl hclean)
        (by rw [refresh_spec he₀]; rfl) (List.Subset.refl _),
      keeps_of_rewrite h.keyed he₀ hent (fun hw => absurd hclean hw) fun _ _ _ => rfl⟩
  · cases hs
    exact ⟨h, keeps_self fun _ _ _ => rfl⟩

theorem step_sweep {now : Nat} {held : Nat → Bool} (h : s.Sound)
    (hs : s.step (.sweep now held) = some s') :
    s'.Sound ∧ Keeps s.cache (.sweep now held) s'.cache := by
  simp only [step] at hs
  cases hs
  obtain ⟨sub, survive, hser⟩ := sweep_spec h.keyed now held
  exact ⟨h.shrink sub hser (List.Subset.refl _),
    keeps_of_survive h.keyed (h.keyed.sublist sub) survive fun _ _ _ => rfl⟩

theorem Sound.step {call : Call} (h : s.Sound) (hs : s.step call = some s') :
    s'.Sound ∧ Keeps s.cache call s'.cache := by
  cases call with
  | get => exact step_get h hs
  | mark => exact step_mark h hs
  | startFlush => exact step_startFlush h hs
  | endFlush => exact step_endFlush h hs
  | remove id => exact step_detach h (Option.some_inj.mp hs.symm) (fun _ => .removed) fun _ _ => rfl
  | discard id =>
    exact step_detach h (Option.some_inj.mp hs.symm) (fun _ => .discarded) fun _ _ => rfl
  | expire => exact step_expire h hs
  | refresh => exact step_refresh h hs
  | sweep => exact step_sweep h hs

/-- The run lemma: every reachable session keeps the invariant. -/
theorem Reachable.sound {s : Session} (hs : s.Reachable) : s.Sound := by
  induction hs with
  | start capacity idleTimeout => exact sound_start capacity idleTimeout
  | step _ hstep ih => exact (ih.step hstep).1

end Steps

section Writes

variable {s s' : Session} {id : Identity} {e : CacheEntry}

theorem mem_writing_step {call : Call} {w : Identity × FlushTicket} (hs : s.step call = some s')
    (hw : w ∈ s.writing) (hc : call.closes id w.2.serial = false) : w ∈ s'.writing := by
  cases call with
  | startFlush =>
    simp only [step] at hs
    split at hs
    · cases hs
    · split at hs <;> cases hs
      · exact List.mem_cons_of_mem _ hw
      · exact hw
  | endFlush serial =>
    simp only [step] at hs
    split at hs
    · cases hs
      simp only [Call.closes, beq_eq_false_iff_ne] at hc
      exact List.mem_filter.mpr ⟨hw, by simpa using Ne.symm hc⟩
    · cases hs
  | _ =>
    simp only [step] at hs
    repeat' split at hs
    all_goals (cases hs; exact hw)

theorem step_startFlush_pending (he : s.cache.entryOf id = some e) (hp : s.pending e.serial) :
    s.step (.startFlush id) = none := by
  simp [step, he, hp]

/-- The entry `e` of `id` while its write is in flight, with write state `w`: it keeps its
instance, lineage and serial, and is not expired. -/
def Writing (s : Session) (id : Identity) (e : CacheEntry) (w : WriteState) : Prop :=
  (∃ t, (id, t) ∈ s.writing ∧ t.serial = e.serial) ∧
    ∃ a t, s.cache.entryOf id =
      some { e with write := w, expired := false, lastAccess := a, lastTick := t }

theorem Writing.step {w : WriteState} {call : Call} (h : s.Sound) (hw : s.Writing id e w)
    (hwc : w ≠ .clean) (hs : s.step call = some s') (hc : call.closes id e.serial = false) :
    s'.Writing id e (if call.marks id e.inst then .dirty else w) := by
  obtain ⟨⟨t, ht, hts⟩, a, tk, he⟩ := hw
  refine ⟨⟨t, mem_writing_step hs ht (hts ▸ hc), hts⟩, ?_⟩
  have fate := (h.step hs).2 id _ he hwc
  generalize s'.cache.entryOf id = out at fate ⊢
  cases fate with
  | kept quiet =>
    rw [show call.marks id e.inst = false from quiet]
    exact ⟨_, _, rfl⟩
  | marked =>
    simp only [Call.marks, beq_self_eq_true, Bool.and_self, ↓reduceIte]
    exact ⟨_, _, rfl⟩
  | writing =>
    have pending : s.pending e.serial := List.any_eq_true.mpr ⟨(id, t), ht, by simp [hts]⟩
    rw [step_startFlush_pending he pending] at hs
    cases hs
  | stored | failed | removed | discarded => simp [Call.closes] at hc

/-- The run lemma of a write: the calls a writer may make keep the entry in its write, dirty
once any of them marked it. -/
theorem Writing.run {w : WriteState} {calls : List Call} (h : s.Sound) (hw : s.Writing id e w)
    (hwc : w ≠ .clean) (hs : s.run calls = some s')
    (hc : ∀ call ∈ calls, call.closes id e.serial = false) :
    s'.Writing id e (if calls.any (·.marks id e.inst) then .dirty else w) := by
  induction calls generalizing s w with
  | nil =>
    cases hs
    simpa using hw
  | cons call calls ih =>
    simp only [Session.run, Option.bind_eq_some_iff] at hs
    obtain ⟨s₁, h₁, h₂⟩ := hs
    have hw₁ := hw.step h hwc h₁ (hc call List.mem_cons_self)
    have hwc₁ : (if call.marks id e.inst then WriteState.dirty else w) ≠ .clean := by
      split <;> simp [hwc]
    have := ih (h.step h₁).1 hw₁ hwc₁ h₂ fun c hc' => hc c (List.mem_cons_of_mem _ hc')
    rw [List.any_cons]
    cases hm : call.marks id e.inst <;> simpa [hm] using this

/-- The write state and lineage a write leaves its entry with, given whether the entry was
marked while the write was out: on success the writer's lineage, clean unless marked; on
failure dirty, with the lineage the write started from. -/
def written (e : CacheEntry) (marked : Bool) : Outcome Lineage → WriteState × Lineage
  | .ok v => (if marked then .dirty else .clean, v)
  | .error _ => (.dirty, e.version)

theorem writing_start {s₁ : Session} (h : s.Sound) (he : s.cache.entryOf id = some e)
    (hd : e.write = .dirty) (hs : s.step (.startFlush id) = some s₁) : s₁.Writing id e .updating := by
  have hb : s.cache.beginFlush id =
      some (s.cache.setEntry id { e with write := .updating }, ⟨e.serial, e.inst, e.version⟩) := by
    unfold beginFlush
    simp [he, hd]
  simp only [Session.step, hb] at hs
  split at hs
  · cases hs
  · cases hs
    have unexpired := h.unexpired he (by simp [hd])
    refine ⟨⟨_, List.mem_cons_self, rfl⟩, e.lastAccess, e.lastTick, ?_⟩
    rw [entryOf_setEntry_self h.keyed he]
    cases e
    simp_all

theorem Writing.finish {marked : Bool} {result : Outcome Lineage} (h : s.Sound)
    (hw : s.Writing id e (if marked then .dirty else .updating))
    (hs : s.step (.endFlush e.serial result) = some s') :
    ∃ e', s'.cache.entryOf id = some e' ∧ e'.inst = e.inst ∧ e'.serial = e.serial ∧
      (e'.write, e'.version) = written e marked result := by
  obtain ⟨-, a, tk, he⟩ := hw
  simp only [Session.step] at hs
  split at hs
  · rename_i id' t hfind
    cases hs
    have hmem := List.mem_of_find?_eq_some hfind
    have hserial : t.serial = e.serial := by simpa using List.find?_some hfind
    -- the write that ends is the one of this entry: a serial names one entry
    have hid := (h.ticketEntry (id', t) hmem (id, _) ((entryOf_eq_some_iff h.keyed).mp he)
      hserial.symm).1
    subst hid
    obtain ⟨hent, -⟩ := finishFlush_entries he hserial.symm result
    rw [entryOf_congr hent, entryOf_setEntry_self h.keyed he]
    cases result <;> cases marked <;> exact ⟨_, rfl, rfl, rfl, by simp [written]⟩
  · cases hs

end Writes

/-- **No local change is lost.** In every session reachable from a fresh cache, an expired
entry is clean. Each call leaves an entry with local changes as `Fate` allows: only a removal
or a discard of its identity takes it out, no call replaces its instance, and only the end of
its own write changes its lineage. A write whose writer's calls neither take the entry out nor
end the write leaves the entry with the writer's lineage, clean exactly when the write succeeded
and no call marked the entry meanwhile; a failed write leaves it dirty with the lineage the
write started from. -/
theorem local_changes_kept {s : Session} (hs : s.Reachable) :
    (∀ p ∈ s.cache.entries, p.2.expired → p.2.write = .clean) ∧
    (∀ call s', s.step call = some s' → Keeps s.cache call s'.cache) ∧
    (∀ id e calls result s₁ s₂ s₃, s.cache.entryOf id = some e → e.write = .dirty →
      s.step (.startFlush id) = some s₁ → s₁.run calls = some s₂ →
      (∀ call ∈ calls, call.closes id e.serial = false) →
      s₂.step (.endFlush e.serial result) = some s₃ →
      ∃ e', s₃.cache.entryOf id = some e' ∧ e'.inst = e.inst ∧ e'.serial = e.serial ∧
        (e'.write, e'.version) = written e (calls.any (·.marks id e.inst)) result) := by
  have h := hs.sound
  refine ⟨h.expiredClean, fun _ _ hstep => (h.step hstep).2, ?_⟩
  intro id e calls result s₁ s₂ s₃ he hd h₁ h₂ hc h₃
  have started := writing_start h he hd h₁
  have during := started.run (hs.step h₁).sound (by simp) h₂ hc
  exact during.finish ((hs.step h₁).run h₂).sound h₃

/-- A write a mark overtakes: the entry of `doc:1` is provisioned and marked, its write starts,
the writer reads and marks it again while the write is out, and the write ends with success.
The entry keeps the writer's lineage and stays dirty. -/
theorem local_changes_kept_marked_during_write :
    let doc : Identity := ⟨"doc", "1", none⟩
    let before : List Call :=
      [.mark doc 7 0 (fun _ => false) (.ok ⟨[]⟩), .mark doc 7 1 (fun _ => false) (.ok ⟨[]⟩)]
    let during : List Call :=
      [.get doc 2 (fun _ => false) .absent, .mark doc 7 3 (fun _ => false) (.ok ⟨[]⟩)]
    let result : Outcome Lineage := .ok ⟨[⟨"a", 1⟩]⟩
    ∃ s e s₁ s₂ s₃, (start 2 none).run before = some s ∧ s.Reachable ∧
      s.cache.entryOf doc = some e ∧ e.write = .dirty ∧
      s.step (.startFlush doc) = some s₁ ∧ s₁.run during = some s₂ ∧
      (∀ call ∈ during, call.closes doc e.serial = false) ∧
      s₂.step (.endFlush e.serial result) = some s₃ ∧
      ∃ e', s₃.cache.entryOf doc = some e' ∧ e'.inst = e.inst ∧ e'.serial = e.serial ∧
        (e'.write, e'.version) = written e (during.any (·.marks doc e.inst)) result := by
  intro doc before during result
  have reach : ((start 2 none).run before).get rfl |>.Reachable :=
    (Reachable.start 2 none).run (Option.some_get rfl).symm
  refine ⟨_, _, _, _, _, (Option.some_get rfl).symm, reach, rfl, rfl, rfl, rfl, by decide, rfl, ?_⟩
  exact (local_changes_kept reach).2.2 doc _ during result _ _ _ rfl rfl rfl rfl (by decide) rfl

end Session

end Cache

end Stowage
