import Stowage.Proofs.Cache.Calls
import Stowage.Proofs.Lineage.Stamped
/-!
Caches whose entries sit on stamped lineages and name existing objects.

A cache changes an entry's lineage only where it is handed one: a load installs the loaded
lineage, an insertion the one it is given, a finished write the stored one, a refresh the
reloaded one. Every other operation keeps the lineages of the entries it keeps, or drops
entries. So a cache whose lineages are stamped stays so as long as what it is handed is.

The same holds of the objects the entries name: only a load, an insertion and a refresh with a
replacement put a new object into an entry, so a cache whose entries name objects among the
first `k` stays so as long as the objects it is handed are among them.
-/
namespace Stowage

open Stowage.Version

namespace Cache

/-- One entry per identity, each on a stamped lineage. -/
structure Stamped (c : Cache) : Prop where
  keyed : c.Keyed
  versions : ∀ p ∈ c.entries, p.2.version.Stamped

variable {c c' : Cache}

theorem Stamped.of_entries (h : c.Stamped) (he : c'.entries = c.entries) : c'.Stamped :=
  ⟨by unfold Keyed; rw [he]; exact h.keyed, he ▸ h.versions⟩

theorem Stamped.sublist (h : c.Stamped) (hs : c'.entries.Sublist c.entries) : c'.Stamped :=
  ⟨h.keyed.sublist hs, fun p hp => h.versions p (hs.subset hp)⟩

theorem Stamped.setEntry (h : c.Stamped) (id : Identity) {e : CacheEntry}
    (he : e.version.Stamped) : (c.setEntry id e).Stamped := by
  refine ⟨h.keyed.setEntry id e, fun p hp => ?_⟩
  rcases mem_setEntry.mp hp with ⟨hp, -⟩ | ⟨rfl, -⟩
  · exact h.versions p hp
  · exact he

theorem Stamped.version (h : c.Stamped) {id : Identity} {e : CacheEntry}
    (he : c.entryOf id = some e) : e.version.Stamped :=
  h.versions (id, e) ((entryOf_eq_some_iff h.keyed).mp he)

theorem Stamped.dropEntry (h : c.Stamped) (id : Identity) : (c.dropEntry id).Stamped :=
  h.sublist List.filter_sublist

theorem Stamped.startLoad (h : c.Stamped) : c.startLoad.Stamped := h.of_entries rfl

theorem Stamped.hit? (h : c.Stamped) {id : Identity} {now inst : Nat}
    (hh : c.hit? id now = some (c', inst)) : c'.Stamped := by
  obtain ⟨e, he, -, hent, -⟩ := hit?_spec hh
  refine (h.setEntry id ?_).of_entries hent
  exact (h.version he : e.version.Stamped)

theorem Stamped.discardExpired (h : c.Stamped) (id : Identity) (held : Nat → Bool) :
    (c.discardExpired id held).1.Stamped := by
  rcases (discardExpired_spec c id held).1 with hent | ⟨_, _, _, hent⟩
  · exact h.of_entries hent
  · exact (h.dropEntry id).of_entries hent

theorem Stamped.insert (h : c.Stamped) {id : Identity} (hnone : c.entryOf id = none) (inst : Nat)
    {version : Lineage} (hv : version.Stamped) (write : WriteState) (now : Nat)
    (held : Nat → Bool) : (c.insert id inst version write now held).1.Stamped := by
  obtain ⟨hsub, -, -, hk⟩ := insert_spec h.keyed hnone inst version write now held
  refine ⟨hk, fun p hp => ?_⟩
  rcases List.mem_append.mp (hsub.subset hp) with hp | hp
  · exact h.versions p hp
  · rw [List.mem_singleton.mp hp]; exact hv

theorem Stamped.install (h : c.Stamped) (id : Identity) (inst : Nat) {version : Lineage}
    (hv : version.Stamped) (now : Nat) (held : Nat → Bool) :
    (c.install id inst version now held).1.Stamped := by
  cases he : c.entryOf id with
  | none => rw [install_none he]; exact h.insert he inst hv .clean now held
  | some e =>
    obtain ⟨hent, -⟩ := install_some he inst version now held
    refine (h.setEntry id ?_).of_entries hent
    exact hv

theorem Stamped.markExisting (h : c.Stamped) {id : Identity} {inst now : Nat} {previous : Lineage}
    (hm : c.markExisting id inst now = some (.ok (c', previous))) : c'.Stamped := by
  obtain ⟨e, he, -, hent, -⟩ := markExisting_spec hm
  refine (h.setEntry id ?_).of_entries hent
  exact (h.version he : e.version.Stamped)

theorem Stamped.beginFlush (h : c.Stamped) {id : Identity} {t : FlushTicket}
    (hb : c.beginFlush id = some (c', t)) : c'.Stamped ∧ t.previous.Stamped := by
  obtain ⟨e, he, -, rfl, rfl⟩ := beginFlush_spec hb
  refine ⟨h.setEntry id ?_, h.version he⟩
  exact (h.version he : e.version.Stamped)

theorem Stamped.finishFlush (h : c.Stamped) (id : Identity) (t : FlushTicket)
    {result : Outcome Lineage} (hr : ∀ v, result = .ok v → v.Stamped) :
    (c.finishFlush id t result).1.Stamped := by
  by_cases hs : ∃ e, c.entryOf id = some e ∧ e.serial = t.serial
  · obtain ⟨e, he, hs⟩ := hs
    refine (h.setEntry id ?_).of_entries (finishFlush_entries he hs result).1
    cases result with
    | ok v => exact hr v rfl
    | error f => exact (h.version he : e.version.Stamped)
  · rw [finishFlush_other (fun e he hse => hs ⟨e, he, hse⟩) result]
    exact h

theorem Stamped.detachEntry (h : c.Stamped) (id : Identity) : (c.detachEntry id).1.Stamped :=
  h.sublist (detachEntry_sublist c id).1

theorem Stamped.expire (h : c.Stamped) (id : Identity) : (c.expire id).1.Stamped := by
  rcases expire_spec c id with hx | ⟨e, he, -, hx⟩ <;> rw [hx]
  · exact h
  · refine h.setEntry id ?_
    exact (h.version he : e.version.Stamped)

theorem Stamped.refresh (h : c.Stamped) (id : Identity) {version : Lineage}
    (hv : version.Stamped) (replacement : Option Nat) : (c.refresh id version replacement).Stamped := by
  cases he : c.entryOf id with
  | none => unfold Cache.refresh; rw [he]; exact h
  | some e =>
    rw [refresh_spec he]
    exact h.setEntry id hv

theorem Stamped.sweep (h : c.Stamped) (now : Nat) (held : Nat → Bool) :
    (c.sweep now held).1.Stamped :=
  h.sublist (sweep_spec h.keyed now held).1

theorem stamped_empty (capacity : Nat) (idleTimeout : Option Nat) :
    (Cache.empty capacity idleTimeout).Stamped :=
  ⟨List.nodup_nil, fun _ h => absurd h List.not_mem_nil⟩

/-- Every entry names one of the first `k` objects, which are numbered from one. -/
def Within (k : Nat) (c : Cache) : Prop := ∀ p ∈ c.entries, 0 < p.2.inst ∧ p.2.inst ≤ k

section Within

variable {k : Nat}

theorem Within.mono (h : c.Within k) {k' : Nat} (hk : k ≤ k') : c.Within k' :=
  fun p hp => ⟨(h p hp).1, (h p hp).2.trans hk⟩

theorem Within.of_entries (h : c.Within k) (he : c'.entries = c.entries) : c'.Within k :=
  fun p hp => h p (he ▸ hp)

theorem Within.sublist (h : c.Within k) (hs : c'.entries.Sublist c.entries) : c'.Within k :=
  fun p hp => h p (hs.subset hp)

theorem Within.setEntry (h : c.Within k) (id : Identity) {e : CacheEntry}
    (he : 0 < e.inst ∧ e.inst ≤ k) :
    (c.setEntry id e).Within k := by
  intro p hp
  rcases mem_setEntry.mp hp with ⟨hp, -⟩ | ⟨rfl, -⟩
  · exact h p hp
  · exact he

theorem Within.inst (h : c.Within k) (hk : c.Keyed) {id : Identity} {e : CacheEntry}
    (he : c.entryOf id = some e) : 0 < e.inst ∧ e.inst ≤ k :=
  h (id, e) ((entryOf_eq_some_iff hk).mp he)

theorem Within.rewrite (h : c.Within k) (hk : c.Keyed) {id : Identity} {e e' : CacheEntry}
    (he : c.entryOf id = some e) (hinst : e'.inst = e.inst) : (c.setEntry id e').Within k :=
  h.setEntry id (hinst ▸ h.inst hk he)

theorem Within.hit? (h : c.Within k) (hk : c.Keyed) {id : Identity} {now inst : Nat}
    (hh : c.hit? id now = some (c', inst)) : c'.Within k := by
  obtain ⟨e, he, -, hent, -⟩ := hit?_spec hh
  refine (h.rewrite hk he ?_).of_entries hent
  rfl

theorem Within.discardExpired (h : c.Within k) (id : Identity) (held : Nat → Bool) :
    (c.discardExpired id held).1.Within k := by
  rcases (discardExpired_spec c id held).1 with hent | ⟨_, _, _, hent⟩
  · exact h.of_entries hent
  · exact h.sublist (hent ▸ List.filter_sublist)

theorem Within.insert (h : c.Within k) (hk : c.Keyed) {id : Identity} (hnone : c.entryOf id = none)
    {inst : Nat} (hinst : 0 < inst ∧ inst ≤ k) (version : Lineage) (write : WriteState) (now : Nat)
    (held : Nat → Bool) : (c.insert id inst version write now held).1.Within k := by
  obtain ⟨hsub, -, -, -⟩ := insert_spec hk hnone inst version write now held
  intro p hp
  rcases List.mem_append.mp (hsub.subset hp) with hp | hp
  · exact h p hp
  · rw [List.mem_singleton.mp hp]; exact hinst

theorem Within.told_insert (h : c.Within k) (id : Identity) (inst : Nat) (version : Lineage)
    (write : WriteState) (now : Nat) (held : Nat → Bool) :
    ∀ x ∈ (c.insert id inst version write now held).2, 0 < x ∧ x ≤ k := fun x hx => by
  obtain ⟨p, hp, rfl⟩ := insert_told c id inst version write now held x hx
  exact h p hp

theorem Within.install (h : c.Within k) (hk : c.Keyed) (id : Identity) {inst : Nat}
    (hinst : 0 < inst ∧ inst ≤ k) (version : Lineage) (now : Nat) (held : Nat → Bool) :
    (c.install id inst version now held).1.Within k := by
  cases he : c.entryOf id with
  | none => rw [install_none he]; exact h.insert hk he hinst version .clean now held
  | some e => exact (h.setEntry id hinst).of_entries (install_some he inst version now held).1

theorem Within.markExisting (h : c.Within k) (hk : c.Keyed) {id : Identity} {inst now : Nat}
    {previous : Lineage} (hm : c.markExisting id inst now = some (.ok (c', previous))) :
    c'.Within k := by
  obtain ⟨e, he, -, hent, -⟩ := markExisting_spec hm
  refine (h.rewrite hk he ?_).of_entries hent
  rfl

theorem Within.beginFlush (h : c.Within k) (hk : c.Keyed) {id : Identity} {t : FlushTicket}
    (hb : c.beginFlush id = some (c', t)) : c'.Within k := by
  obtain ⟨e, he, -, rfl, -⟩ := beginFlush_spec hb
  exact h.rewrite hk he rfl

theorem Within.finishFlush (h : c.Within k) (hk : c.Keyed) (id : Identity) (t : FlushTicket)
    (result : Outcome Lineage) : (c.finishFlush id t result).1.Within k := by
  by_cases hs : ∃ e, c.entryOf id = some e ∧ e.serial = t.serial
  · obtain ⟨e, he, hs⟩ := hs
    refine (h.rewrite hk he ?_).of_entries (finishFlush_entries he hs result).1
    cases result <;> rfl
  · rw [finishFlush_other (fun e he hse => hs ⟨e, he, hse⟩) result]
    exact h

theorem Within.detachEntry (h : c.Within k) (id : Identity) : (c.detachEntry id).1.Within k :=
  h.sublist (detachEntry_sublist c id).1

theorem Within.expire (h : c.Within k) (hk : c.Keyed) (id : Identity) : (c.expire id).1.Within k := by
  rcases expire_spec c id with hx | ⟨e, he, -, hx⟩ <;> rw [hx]
  · exact h
  · exact h.rewrite hk he rfl

theorem Within.refresh (h : c.Within k) (hk : c.Keyed) (id : Identity) (version : Lineage)
    {replacement : Option Nat} (hr : ∀ r ∈ replacement, 0 < r ∧ r ≤ k) :
    (c.refresh id version replacement).Within k := by
  cases he : c.entryOf id with
  | none => unfold Cache.refresh; rw [he]; exact h
  | some e =>
    rw [refresh_spec he]
    refine h.setEntry id ?_
    cases replacement with
    | none => exact (h.inst hk he : 0 < e.inst ∧ e.inst ≤ k)
    | some r => exact hr r rfl

theorem Within.sweep (h : c.Within k) (hk : c.Keyed) (now : Nat) (held : Nat → Bool) :
    (c.sweep now held).1.Within k :=
  h.sublist (sweep_spec hk now held).1

theorem within_empty (capacity : Nat) (idleTimeout : Option Nat) :
    (Cache.empty capacity idleTimeout).Within k :=
  fun _ h => absurd h List.not_mem_nil

end Within

end Cache

end Stowage
