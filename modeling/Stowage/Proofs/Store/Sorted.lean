import Mathlib
import Stowage.Proofs.Store.Backend
/-!
The store keeps its records in strict identity order.

Identities are compared by kind, then key, then owner, with no owner first. Each of the three is
a strict total order, so together they are one, and equal identities are the same
(`Identity.cmp_eq_iff`). `place` walks the records in that order and stops at the first identity
not below the new one: it keeps the order, and on an identity the store already holds it
replaces the record where it stands and leaves the identities as they were. No identity is then
stored twice, so the records are as many as the identities stored.
-/
namespace Stowage

open Stowage.Version

namespace Identity

instance : Std.TransCmp cmp.compareOwner where
  eq_swap {a b} := by
    cases a <;> cases b
    case some.some x y => exact (Std.OrientedCmp.eq_swap : compare x y = (compare y x).swap)
    all_goals rfl
  isLE_trans {a b c} hab hbc := by
    cases a <;> cases b <;> cases c
    case some.some.some x y z =>
      have h := Std.TransCmp.isLE_trans (show (compare x y).isLE = true from hab)
        (show (compare y z).isLE = true from hbc)
      exact h
    all_goals simp_all [cmp.compareOwner]

instance : Std.TransCmp fun a b : Identity => cmp.compareOwner a.owner b.owner where
  eq_swap {a b} := (Std.OrientedCmp.eq_swap : cmp.compareOwner a.owner b.owner = _)
  isLE_trans {a b _} hab hbc :=
    Std.TransCmp.isLE_trans (show (cmp.compareOwner a.owner b.owner).isLE = true from hab) hbc

/-- The order of identities is lexicographic in kind, key and owner. -/
instance : Std.TransCmp cmp :=
  inferInstanceAs <| Std.TransCmp <| compareLex (compareOn kind) <|
    compareLex (compareOn key) fun a b => cmp.compareOwner a.owner b.owner

theorem cmp_self (a : Identity) : cmp a a = .eq := cmp_eq_iff.mpr rfl

theorem cmp_lt_trans {a b c : Identity} (hab : cmp a b = .lt) (hbc : cmp b c = .lt) :
    cmp a c = .lt :=
  Std.TransCmp.lt_trans hab hbc

end Identity

namespace Backend

/-- The records are in strict identity order. -/
def Sorted (b : Backend) : Prop := b.records.Pairwise fun p q => Identity.cmp p.1 q.1 = .lt

section Place

variable (id : Identity) (r : Record)

theorem pairwise_place {rs : List (Identity × Record)}
    (h : rs.Pairwise fun p q => Identity.cmp p.1 q.1 = .lt) :
    (place id r rs).Pairwise fun p q => Identity.cmp p.1 q.1 = .lt := by
  induction rs with
  | nil => simp [place]
  | cons q rest ih =>
    obtain ⟨k, s⟩ := q
    obtain ⟨hk, hrest⟩ := List.pairwise_cons.mp h
    unfold place
    split
    · -- the new record goes first: below `k`, so below everything after it
      rename_i hlt
      refine List.Pairwise.cons (fun p hp => ?_) h
      rcases List.mem_cons.mp hp with rfl | hp
      · exact hlt
      · exact Identity.cmp_lt_trans hlt (hk p hp)
    · rename_i heq
      obtain rfl := Identity.cmp_eq_iff.mp heq
      exact List.Pairwise.cons hk hrest
    · -- `k` stays first: it is below the new identity and everything after it
      rename_i hgt
      refine List.Pairwise.cons (fun p hp => ?_) (ih hrest)
      rcases mem_place hp with rfl | hp
      · exact Std.OrientedCmp.gt_iff_lt.mp hgt
      · exact hk p hp

theorem keys_place_of_mem {rs : List (Identity × Record)}
    (h : rs.Pairwise fun p q => Identity.cmp p.1 q.1 = .lt) (hid : id ∈ rs.map (·.1)) :
    (place id r rs).map (·.1) = rs.map (·.1) := by
  induction rs with
  | nil => simp at hid
  | cons q rest ih =>
    obtain ⟨k, s⟩ := q
    obtain ⟨hk, hrest⟩ := List.pairwise_cons.mp h
    unfold place
    split
    · -- below `k` is below every stored identity, and the new one is stored
      rename_i hlt
      exfalso
      rcases List.mem_cons.mp hid with rfl | hid
      · simp [Identity.cmp_self] at hlt
      · obtain ⟨p, hp, rfl⟩ := List.mem_map.mp hid
        have := Identity.cmp_lt_trans hlt (hk p hp)
        simp [Identity.cmp_self] at this
    · rename_i heq
      obtain rfl := Identity.cmp_eq_iff.mp heq
      rfl
    · rename_i hgt
      have hne : id ≠ k := fun e => by simp [e, Identity.cmp_self] at hgt
      have hid' : id ∈ rest.map (·.1) := by
        rcases List.mem_cons.mp hid with e | hid
        · exact absurd e hne
        · exact hid
      simp [ih hrest hid']

end Place

theorem Sorted.nodup {b : Backend} (h : b.Sorted) : (b.records.map (·.1)).Nodup :=
  List.pairwise_map.mpr (h.imp fun {p q} hpq e => by simp [e, Identity.cmp_self] at hpq)

theorem Sorted.length_eq {b : Backend} (h : b.Sorted) {ids : List Identity} (hids : ids.Nodup)
    (hiff : ∀ x, x ∈ b.records.map (·.1) ↔ x ∈ ids) : b.records.length = ids.length := by
  rw [← List.length_map (f := (·.1))]
  exact ((List.perm_ext_iff_of_nodup h.nodup hids).mpr hiff).length_eq

section Calls

variable {b : Backend} (id : Identity) (r : Record)

theorem Sorted.save (h : b.Sorted) (previous : Lineage) : (b.save id r previous).1.Sorted := by
  unfold Sorted
  rcases records_save b id r previous with e | e <;> rw [e]
  exacts [h, pairwise_place id r h]

theorem Sorted.createNew (h : b.Sorted) : (b.createNew id r).1.Sorted := by
  unfold Sorted
  rcases records_createNew b id r with e | e <;> rw [e]
  exacts [h, pairwise_place id r h]

theorem Sorted.delete (h : b.Sorted) : (b.delete id).1.Sorted := by
  unfold Sorted
  rcases records_delete b id with e | e <;> rw [e]
  exacts [h, h.filter _]

theorem isSome_get?_save {x : Identity} (hx : (b.get? x).isSome) (previous : Lineage) :
    ((b.save id r previous).1.get? x).isSome := by
  unfold get? at hx ⊢
  rcases records_save b id r previous with e | e <;> rw [e]
  · exact hx
  · rw [lookup_place]
    split <;> simp [hx]

theorem isSome_get?_createNew {x : Identity} (hx : (b.get? x).isSome) :
    ((b.createNew id r).1.get? x).isSome := by
  unfold get? at hx ⊢
  rcases records_createNew b id r with e | e <;> rw [e]
  · exact hx
  · rw [lookup_place]
    split <;> simp [hx]

theorem keys_save (h : b.Sorted) (previous : Lineage) (hx : (b.get? id).isSome) :
    (b.save id r previous).1.records.map (·.1) = b.records.map (·.1) := by
  rcases records_save b id r previous with e | e <;> rw [e]
  obtain ⟨s, hs⟩ := Option.isSome_iff_exists.mp hx
  exact keys_place_of_mem id r h (List.mem_map.mpr ⟨_, get?_mem hs, rfl⟩)

end Calls

end Backend

end Stowage
