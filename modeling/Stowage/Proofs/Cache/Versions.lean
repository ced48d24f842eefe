import Stowage.Proofs.Cache.Calls
/-!
What the operations of a cache keep, entry by entry.

A cache changes an entry's lineage only where it is handed one: a load installs the loaded
lineage, an insertion the one it is given, a finished write the stored one, a refresh the
reloaded one; every other operation keeps the lineages of the entries it keeps, or drops
entries. So any property of an identity and its cached lineage that holds of every entry stays
true as long as what the cache is handed has it. Read with "the store holds this lineage for the
identity" it says that a cache agrees with its store; read with "the identity is of this kind",
that a cache holds only its own kind.

The operations of one identity, on their side, leave the entries of every other identity as
they are, and bring no entry of their own identity where there was none.
-/
namespace Stowage

open Stowage.Version

namespace Cache

/-- Every entry's lineage satisfies `P` for the entry's identity. -/
def OnVersions (P : Identity → Lineage → Prop) (c : Cache) : Prop :=
  ∀ p ∈ c.entries, P p.1 p.2.version

section OnVersions

variable {P Q : Identity → Lineage → Prop} {c c' : Cache} {id : Identity}

theorem OnVersions.of_entries (h : c.OnVersions P) (he : c'.entries = c.entries) :
    c'.OnVersions P :=
  fun p hp => h p (he ▸ hp)

theorem OnVersions.sublist (h : c.OnVersions P) (hs : c'.entries.Sublist c.entries) :
    c'.OnVersions P :=
  fun p hp => h p (hs.subset hp)

theorem OnVersions.nil (he : c.entries = []) : c.OnVersions P :=
  fun _ hp => absurd (he ▸ hp) List.not_mem_nil

theorem OnVersions.imp (h : c.OnVersions P)
    (hPQ : ∀ p ∈ c.entries, P p.1 p.2.version → Q p.1 p.2.version) : c.OnVersions Q :=
  fun p hp => hPQ p hp (h p hp)

theorem OnVersions.version (h : c.OnVersions P) (hk : c.Keyed) {e : CacheEntry}
    (he : c.entryOf id = some e) : P id e.version :=
  h (id, e) ((entryOf_eq_some_iff hk).mp he)

theorem OnVersions.setEntry (h : c.OnVersions P) (id : Identity) {e : CacheEntry}
    (he : P id e.version) : (c.setEntry id e).OnVersions P := by
  intro p hp
  rcases mem_setEntry.mp hp with ⟨hp, -⟩ | ⟨rfl, -⟩
  · exact h p hp
  · exact he

theorem OnVersions.rewrite (h : c.OnVersions P) (hk : c.Keyed) {e e' : CacheEntry}
    (he : c.entryOf id = some e) (hv : e'.version = e.version) : (c.setEntry id e').OnVersions P :=
  h.setEntry id (hv ▸ h.version hk he)

theorem OnVersions.startLoad (h : c.OnVersions P) : c.startLoad.OnVersions P := h.of_entries rfl

theorem OnVersions.hit? (h : c.OnVersions P) (hk : c.Keyed) {now inst : Nat}
    (hh : c.hit? id now = some (c', inst)) : c'.OnVersions P := by
  obtain ⟨e, he, -, hent, -⟩ := hit?_spec hh
  refine OnVersions.of_entries ?_ hent
  exact h.rewrite hk he rfl

theorem OnVersions.discardExpired (h : c.OnVersions P) (id : Identity) (held : Nat → Bool) :
    (c.discardExpired id held).1.OnVersions P := by
  rcases (discardExpired_spec c id held).1 with hent | ⟨_, _, _, hent⟩
  · exact h.of_entries hent
  · exact h.sublist (hent ▸ List.filter_sublist)

theorem OnVersions.insert (h : c.OnVersions P) (hk : c.Keyed) (hnone : c.entryOf id = none)
    (inst : Nat) {version : Lineage} (hv : P id version) (write : WriteState) (now : Nat)
    (held : Nat → Bool) : (c.insert id inst version write now held).1.OnVersions P := by
  obtain ⟨hsub, -, -, -⟩ := insert_spec hk hnone inst version write now held
  intro p hp
  rcases List.mem_append.mp (hsub.subset hp) with hp | hp
  · exact h p hp
  · rw [List.mem_singleton.mp hp]; exact hv

theorem OnVersions.install (h : c.OnVersions P) (hk : c.Keyed) (id : Identity) (inst : Nat)
    {version : Lineage} (hv : P id version) (now : Nat) (held : Nat → Bool) :
    (c.install id inst version now held).1.OnVersions P := by
  cases he : c.entryOf id with
  | none => rw [install_none he]; exact h.insert hk he inst hv .clean now held
  | some e => exact (h.setEntry id hv).of_entries (install_some he inst version now held).1

theorem OnVersions.markExisting (h : c.OnVersions P) (hk : c.Keyed) {inst now : Nat}
    {previous : Lineage} (hm : c.markExisting id inst now = some (.ok (c', previous))) :
    c'.OnVersions P := by
  obtain ⟨e, he, -, hent, -⟩ := markExisting_spec hm
  refine OnVersions.of_entries ?_ hent
  exact h.rewrite hk he rfl

theorem OnVersions.beginFlush (h : c.OnVersions P) (hk : c.Keyed) {t : FlushTicket}
    (hb : c.beginFlush id = some (c', t)) : c'.OnVersions P := by
  obtain ⟨e, he, -, rfl, -⟩ := beginFlush_spec hb
  exact h.rewrite hk he rfl

theorem OnVersions.finishFlush (h : c.OnVersions P) (hk : c.Keyed) (id : Identity)
    (t : FlushTicket) {result : Outcome Lineage} (hr : ∀ v, result = .ok v → P id v) :
    (c.finishFlush id t result).1.OnVersions P := by
  by_cases hs : ∃ e, c.entryOf id = some e ∧ e.serial = t.serial
  · obtain ⟨e, he, hs⟩ := hs
    refine OnVersions.of_entries ?_ (finishFlush_entries he hs result).1
    cases result with
    | ok v => exact h.setEntry id (hr v rfl)
    | error f => exact h.rewrite hk he rfl
  · rw [finishFlush_other (fun e he hse => hs ⟨e, he, hse⟩) result]
    exact h

theorem OnVersions.detachEntry (h : c.OnVersions P) (id : Identity) :
    (c.detachEntry id).1.OnVersions P :=
  h.sublist (detachEntry_sublist c id).1

theorem OnVersions.expire (h : c.OnVersions P) (hk : c.Keyed) (id : Identity) :
    (c.expire id).1.OnVersions P := by
  rcases expire_spec c id with hx | ⟨e, he, -, hx⟩ <;> rw [hx]
  · exact h
  · exact h.rewrite hk he rfl

theorem OnVersions.refresh (h : c.OnVersions P) (id : Identity) {version : Lineage}
    (hv : ∀ e, c.entryOf id = some e → P id version) (replacement : Option Nat) :
    (c.refresh id version replacement).OnVersions P := by
  cases he : c.entryOf id with
  | none => unfold Cache.refresh; rw [he]; exact h
  | some e =>
    rw [refresh_spec he]
    exact h.setEntry id (hv e he)

theorem OnVersions.sweep (h : c.OnVersions P) (hk : c.Keyed) (now : Nat) (held : Nat → Bool) :
    (c.sweep now held).1.OnVersions P :=
  h.sublist (sweep_spec hk now held).1

end OnVersions

/-- Cache `c'` differs from `c` at most in the entry of `id`, which it has only where `c` has
one, and it keeps one entry per identity. -/
structure OnlyAt (id : Identity) (c c' : Cache) : Prop where
  keyed : c'.Keyed
  others : ∀ x, x ≠ id → c'.entryOf x = c.entryOf x
  present : c'.entryOf id ≠ none → c.entryOf id ≠ none

section OnlyAt

variable {id : Identity} {c c' c'' : Cache}

theorem OnlyAt.refl (hk : c.Keyed) : OnlyAt id c c :=
  ⟨hk, fun _ _ => rfl, fun h => h⟩

theorem OnlyAt.trans (h : OnlyAt id c c') (h' : OnlyAt id c' c'') : OnlyAt id c c'' :=
  ⟨h'.keyed, fun x hx => (h'.others x hx).trans (h.others x hx), fun hs => h.present (h'.present hs)⟩

theorem OnlyAt.of_entries (hk : c.Keyed) (he : c'.entries = c.entries) : OnlyAt id c c' :=
  ⟨by unfold Keyed; rw [he]; exact hk, fun x _ => entryOf_congr he x, fun hs => by
    rwa [entryOf_congr he] at hs⟩

theorem onlyAt_setEntry (hk : c.Keyed) (id : Identity) (e : CacheEntry) :
    OnlyAt id c (c.setEntry id e) where
  keyed := hk.setEntry id e
  others _ hx := entryOf_setEntry_ne hk e hx
  present hs hnone := hs <| entryOf_eq_none_iff.mpr fun e' he' => by
    rcases mem_setEntry.mp he' with ⟨-, hne⟩ | ⟨-, e₀, he₀⟩
    · exact hne rfl
    · exact entryOf_eq_none_iff.mp hnone e₀ he₀

theorem onlyAt_detachEntry (hk : c.Keyed) (id : Identity) : OnlyAt id c (c.detachEntry id).1 where
  keyed := hk.sublist (detachEntry_sublist c id).1
  others x hx := by rw [entryOf_detachEntry, if_neg hx]
  present hs := by rw [entryOf_detachEntry, if_pos rfl] at hs; exact absurd rfl hs

theorem onlyAt_expire (hk : c.Keyed) (id : Identity) : OnlyAt id c (c.expire id).1 := by
  rcases expire_spec c id with hx | ⟨e, -, -, hx⟩ <;> rw [hx]
  · exact .refl hk
  · exact onlyAt_setEntry hk id _

theorem onlyAt_refresh (hk : c.Keyed) (id : Identity) (version : Lineage)
    (replacement : Option Nat) : OnlyAt id c (c.refresh id version replacement) := by
  cases he : c.entryOf id with
  | none => unfold Cache.refresh; rw [he]; exact .refl hk
  | some e => rw [refresh_spec he]; exact onlyAt_setEntry hk id _

theorem onlyAt_beginFlush (hk : c.Keyed) {t : FlushTicket} (hb : c.beginFlush id = some (c', t)) :
    OnlyAt id c c' := by
  obtain ⟨e, -, -, rfl, -⟩ := beginFlush_spec hb
  exact onlyAt_setEntry hk id _

theorem onlyAt_finishFlush (hk : c.Keyed) (id : Identity) (t : FlushTicket)
    (result : Outcome Lineage) : OnlyAt id c (c.finishFlush id t result).1 := by
  by_cases hs : ∃ e, c.entryOf id = some e ∧ e.serial = t.serial
  · obtain ⟨e, he, hs⟩ := hs
    exact (onlyAt_setEntry hk id _).trans (.of_entries (hk.setEntry id _)
      (finishFlush_entries he hs result).1)
  · rw [finishFlush_other (fun e he hse => hs ⟨e, he, hse⟩) result]
    exact .refl hk

theorem OnVersions.onlyAt {Q : Identity → Prop} (h : c.OnVersions fun x _ => Q x) (hk : c.Keyed)
    (ho : OnlyAt id c c') : c'.OnVersions fun x _ => Q x := by
  intro p hp
  have he := (entryOf_eq_some_iff ho.keyed).mpr hp
  by_cases hx : p.1 = id
  · rw [hx] at he ⊢
    obtain ⟨e₀, he₀⟩ := Option.ne_none_iff_exists'.mp (ho.present (by rw [he]; exact Option.some_ne_none _))
    exact h.version hk he₀
  · rw [ho.others p.1 hx] at he
    exact h.version hk he

end OnlyAt

end Cache

end Stowage
