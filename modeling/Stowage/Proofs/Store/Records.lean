import Mathlib
import Stowage.Proofs.Instant.Text
import Stowage.Proofs.Identity.Text
import Stowage.Proofs.Store.Backend
/-!
Records as JSON objects, and the attributes a stamp writes.

A record keeps its fields in name order, as a JSON object does: the fields of an object with no
reserved name, set one after another, each go at the end, so the record holds the object's own
fields and writes them back. A stamp writes reserved names only, which the user fields leave
out, so any number of stamps leaves the record's JSON as it was. Reading an object stops at its
first reserved name, with the error that names it, and anything but an object is refused. A
stamp changes no field but its four attributes, so a stamp with a valid identity and lineage and
an instant of a year in 0 to 9999 reads back the identity, the lineage, the instant cut to whole
milliseconds and the owner, an earlier owner being removed where the stamp has none.
-/
namespace Stowage

open Stowage.Json
open Stowage.Version

namespace Record

/-- The fields of a JSON object that a record takes as they are: in strict name order, as
objects keep them, and none of them reserved. -/
structure UserObject (fields : List (String × Value)) : Prop where
  sorted : fields.Pairwise fun a b => a.1 < b.1
  unreserved : ∀ kv ∈ fields, isReserved kv.1 = false

/-- What one stamp writes: an identity, a lineage, a modification time and an owner. -/
structure Stamp where
  id : Identity
  version : Lineage
  modified : Instant
  owner : Option String

/-- Stamp a record with each stamp in turn. -/
def stampAll (r : Record) (stamps : List Stamp) : Record :=
  stamps.foldl (fun r s => r.stamp s.id s.version s.modified s.owner) r

/-! ### Setting fields -/

theorem set_error_iff (r : Record) (name : String) (v : Value) :
    (∃ f, r.set name v = .error f) ↔ isReserved name = true := by
  unfold set
  cases h : isReserved name <;> simp

theorem set_of_unreserved {name : String} (h : isReserved name = false) (r : Record) (v : Value) :
    r.set name v = .ok (r.put name v) := by
  simp [set, h]

theorem get?_of_set_ok {r r' : Record} {name : String} {v : Value} (h : r.set name v = .ok r')
    (n : String) : r'.get? n = if n = name then some v else r.get? n := by
  unfold set at h
  split_ifs at h
  cases h
  exact get?_put r name v n

theorem foldlM_set {fields : List (String × Value)} (h : ∀ kv ∈ fields, isReserved kv.1 = false)
    (r : Record) :
    fields.foldlM (fun r kv => r.set kv.1 kv.2) r =
      .ok (fields.foldl (fun r kv => r.put kv.1 kv.2) r) := by
  induction fields generalizing r with
  | nil => rfl
  | cons kv rest ih =>
    rw [List.foldlM_cons, set_of_unreserved (h kv List.mem_cons_self), List.foldl_cons]
    exact ih (fun kv' hkv' => h kv' (List.mem_cons_of_mem _ hkv')) _

theorem insertField_of_lt {k : String} (v : Value) {fs : List (String × Value)}
    (h : ∀ kv ∈ fs, kv.1 < k) : Value.insertField k v fs = fs ++ [(k, v)] := by
  induction fs with
  | nil => rfl
  | cons kv rest ih =>
    obtain ⟨k', v'⟩ := kv
    have hlt : k' < k := h _ List.mem_cons_self
    unfold Value.insertField
    rw [if_neg (ne_of_gt hlt), if_neg (lt_asymm hlt),
      ih fun kv hkv => h kv (List.mem_cons_of_mem _ hkv)]
    rfl

theorem foldl_put_sorted {fs acc : List (String × Value)} (hs : fs.Pairwise fun a b => a.1 < b.1)
    (hacc : ∀ a ∈ acc, ∀ b ∈ fs, a.1 < b.1) :
    fs.foldl (fun (r : Record) kv => r.put kv.1 kv.2) ⟨acc⟩ = ⟨acc ++ fs⟩ := by
  induction fs generalizing acc with
  | nil => simp
  | cons kv rest ih =>
    obtain ⟨hkv, hrest⟩ := List.pairwise_cons.mp hs
    have hput : (⟨acc⟩ : Record).put kv.1 kv.2 = ⟨acc ++ [kv]⟩ := by
      rw [put, insertField_of_lt _ fun a ha => hacc a ha kv List.mem_cons_self]
    -- the field put last is before every field still to come
    have hnext : ∀ a ∈ acc ++ [kv], ∀ b ∈ rest, a.1 < b.1 := by
      intro a ha b hb
      rcases List.mem_append.mp ha with ha | ha
      · exact hacc a ha b (List.mem_cons_of_mem _ hb)
      · rw [List.mem_singleton.mp ha]
        exact hkv b hb
    rw [List.foldl_cons, hput, ih hrest hnext]
    simp

/-! ### Reading and writing JSON -/

theorem ofJson_userObject {fields : List (String × Value)} (h : UserObject fields) :
    ofJson (.obj fields) = .ok ⟨fields⟩ := by
  rw [ofJson, foldlM_set h.unreserved, empty, foldl_put_sorted h.sorted (by simp)]
  rfl

theorem ofJson_reserved {pre post : List (String × Value)} {k : String} (x : Value)
    (hpre : ∀ kv ∈ pre, isReserved kv.1 = false) (hk : isReserved k = true) :
    ofJson (.obj (pre ++ (k, x) :: post)) = .error (.invalidArgument
      ("field name " ++ Text.quoteString k ++ " uses the reserved prefix")) := by
  rw [ofJson, List.foldlM_append, foldlM_set hpre]
  simp only [bind, Except.bind, List.foldlM_cons, set, hk, if_true]

theorem foldlM_set_ne_serialization (fields : List (String × Value)) (r : Record) (s : String) :
    fields.foldlM (fun r kv => r.set kv.1 kv.2) r ≠ .error (.serialization s) := by
  induction fields generalizing r with
  | nil => nofun
  | cons kv rest ih =>
    rw [List.foldlM_cons]
    unfold set
    split_ifs
    · nofun
    · exact ih _

theorem ofJson_eq_serialization_iff (v : Value) :
    ofJson v = .error (.serialization "record must be a JSON object") ↔
      ∀ fields, v ≠ .obj fields := by
  by_cases hv : ∃ fields, v = .obj fields
  · obtain ⟨fields, rfl⟩ := hv
    exact ⟨fun h => absurd h (foldlM_set_ne_serialization fields empty _),
      fun h => absurd rfl (h fields)⟩
  · unfold ofJson
    split
    · exact absurd ⟨_, rfl⟩ hv
    · exact ⟨fun _ fields e => hv ⟨fields, e⟩, fun _ => rfl⟩

/-! ### The user fields -/

theorem userFields_mk {fields : List (String × Value)}
    (h : ∀ kv ∈ fields, isReserved kv.1 = false) : (⟨fields⟩ : Record).userFields = fields :=
  List.filter_eq_self.mpr fun kv hkv => by simp [h kv hkv]

theorem filter_insertField {k : String} (v : Value) (fs : List (String × Value))
    (hk : isReserved k = true) :
    (Value.insertField k v fs).filter (fun kv => !isReserved kv.1) =
      fs.filter fun kv => !isReserved kv.1 := by
  induction fs with
  | nil => simp [Value.insertField, hk]
  | cons kv rest ih =>
    obtain ⟨k', v'⟩ := kv
    unfold Value.insertField
    split_ifs with same
    · -- the field replaced had the reserved name too
      subst same
      simp [hk]
    · simp [hk]
    · simp [List.filter_cons, ih]

theorem userFields_put {name : String} (h : isReserved name = true) (r : Record) (v : Value) :
    (r.put name v).userFields = r.userFields :=
  filter_insertField v r.fields h

theorem userFields_remove {name : String} (h : isReserved name = true) (r : Record) :
    (r.remove name).1.userFields = r.userFields := by
  simp only [userFields, remove, List.filter_filter]
  congr 1
  funext kv
  by_cases hk : kv.1 = name
  · simp [hk, h]
  · simp [hk]

theorem userFields_stamp (r : Record) (id : Identity) (v : Lineage) (t : Instant)
    (owner : Option String) : (r.stamp id v t owner).userFields = r.userFields := by
  unfold stamp
  have hid : isReserved "__id" = true := by simp [isReserved]
  have hversion : isReserved "__version" = true := by simp [isReserved]
  have hmodified : isReserved "__modified" = true := by simp [isReserved]
  have howner : isReserved "__owner" = true := by simp [isReserved]
  cases owner <;> simp [userFields_put, userFields_remove, hid, hversion, hmodified, howner]

theorem userFields_stampAll (r : Record) (stamps : List Stamp) :
    (r.stampAll stamps).userFields = r.userFields := by
  induction stamps generalizing r with
  | nil => rfl
  | cons s rest ih =>
    rw [stampAll, List.foldl_cons, ← stampAll, ih, userFields_stamp]

/-! ### Reading a stamp back -/

theorem id?_stamp (r : Record) {id : Identity} (hid : id.Valid) (v : Lineage) (t : Instant)
    (owner : Option String) : (r.stamp id v t owner).id? = some id := by
  simp [id?, reservedText?, get?_stamp, Value.asString?, Identity.parse_render hid,
    Except.toOption]

theorem modified?_stamp (r : Record) (id : Identity) (v : Lineage) {t : Instant}
    (hleap : t.LeapValid) (hyear : 0 ≤ t.year ∧ t.year ≤ 9999) (owner : Option String) :
    (r.stamp id v t owner).modified? = some t.truncMillis := by
  simp [modified?, reservedText?, get?_stamp, Value.asString?, Instant.parse_render hleap hyear]

theorem owner?_stamp (r : Record) (id : Identity) (v : Lineage) (t : Instant)
    (owner : Option String) : (r.stamp id v t owner).owner? = owner := by
  cases owner <;> simp [owner?, reservedText?, get?_stamp, Value.asString?]

/-- **Records read back.** An object with no reserved name is read as a record of its own
fields, which writes the object back after any stamps; reading an object fails at its first
reserved name with the error that names it, and anything but an object is refused; setting a
field fails exactly on a reserved name and otherwise changes that field only; and a stamp with a
valid identity and lineage and an instant of a year in 0 to 9999 reads back the identity, the
lineage, the instant cut to whole milliseconds and the owner, and leaves the user fields as they
were. -/
theorem stamped_records_read_back (fields : List (String × Value)) (object : UserObject fields)
    (stamps : List Stamp) (r : Record) {id : Identity} (hid : id.Valid) {version : Lineage}
    (hversion : version.Valid) {t : Instant} (hleap : t.LeapValid)
    (hyear : 0 ≤ t.year ∧ t.year ≤ 9999) (owner : Option String) :
    (ofJson (.obj fields) = .ok ⟨fields⟩ ∧ (stampAll ⟨fields⟩ stamps).toJson = .obj fields) ∧
      (∀ pre k x post, (∀ kv ∈ pre, isReserved kv.1 = false) → isReserved k = true →
        ofJson (.obj (pre ++ (k, x) :: post)) = .error (.invalidArgument
          ("field name " ++ Text.quoteString k ++ " uses the reserved prefix"))) ∧
      (∀ v, ofJson v = .error (.serialization "record must be a JSON object") ↔
        ∀ fs, v ≠ .obj fs) ∧
      (∀ name x, ((∃ f, r.set name x = .error f) ↔ isReserved name = true) ∧
        ∀ r', r.set name x = .ok r' → ∀ n, r'.get? n = if n = name then some x else r.get? n) ∧
      ((r.stamp id version t owner).id? = some id ∧
        (r.stamp id version t owner).version = version ∧
        (r.stamp id version t owner).modified? = some t.truncMillis ∧
        (r.stamp id version t owner).owner? = owner ∧
        (r.stamp id version t owner).userFields = r.userFields) := by
  have written : (stampAll ⟨fields⟩ stamps).toJson = .obj fields := by
    rw [toJson, userFields_stampAll, userFields_mk object.unreserved]
  exact ⟨⟨ofJson_userObject object, written⟩, fun _ _ x _ hpre hk => ofJson_reserved x hpre hk,
    ofJson_eq_serialization_iff,
    fun name x => ⟨set_error_iff r name x, fun _ h => get?_of_set_ok h⟩,
    id?_stamp r hid version t owner, version_stamp r id hversion t owner,
    modified?_stamp r id version hleap hyear owner, owner?_stamp r id version t owner,
    userFields_stamp r id version t owner⟩

/-- A stamp at an instant with a fraction below a millisecond reads the instant back cut to the
millisecond. -/
theorem stamp_reads_back_truncated :
    UserObject [("a", .ofNat 1), ("b", .str "x")] ∧ Identity.Valid ⟨"doc", "1", none⟩ ∧
      Lineage.Valid Lineage.empty ∧ Instant.LeapValid ⟨1700000000, 123456789⟩ ∧
      (0 ≤ Instant.year ⟨1700000000, 123456789⟩ ∧ Instant.year ⟨1700000000, 123456789⟩ ≤ 9999) ∧
      (empty.stamp ⟨"doc", "1", none⟩ Lineage.empty ⟨1700000000, 123456789⟩ none).modified? =
        some ⟨1700000000, 123000000⟩ := by
  have object : UserObject [("a", .ofNat 1), ("b", .str "x")] :=
    ⟨by decide, by simp [isReserved]⟩
  have hid : Identity.Valid ⟨"doc", "1", none⟩ :=
    ⟨by decide, by decide, by decide, by decide, nofun, nofun⟩
  have hversion : Lineage.Valid Lineage.empty := nofun
  have hleap : Instant.LeapValid ⟨1700000000, 123456789⟩ := fun h => absurd h (by decide)
  have hyear : 0 ≤ Instant.year ⟨1700000000, 123456789⟩ ∧
      Instant.year ⟨1700000000, 123456789⟩ ≤ 9999 := by decide
  exact ⟨object, hid, hversion, hleap, hyear,
    (stamped_records_read_back _ object [] empty hid hversion hleap hyear none).2.2.2.2.2.2.1⟩

end Record

end Stowage
