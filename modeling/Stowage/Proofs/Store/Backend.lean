import Mathlib.Data.String.Basic
import Stowage.Backend
import Stowage.Proofs.Lineage.Stamped
import Stowage.Proofs.Cache.Entries
/-!
What the shared store's calls do to its records.

Stamping writes the reserved attributes with `put`, which replaces a field of the same name, so
a record stamped with a valid lineage reads that lineage back, whatever fields it had. The store
keeps records stamped: a save or a create stores the record it is given, and the other calls
store nothing new. A save stores only when the stored lineage is the same as the writer's base,
and answers the lineage of the record it stored; every call that fails, by an injected failure
or a conflict, leaves the records, the write count and the subscribers as they were.
-/
namespace Stowage

open Stowage.Json
open Stowage.Version

deriving instance ReflBEq, LawfulBEq for Comparison

theorem lookup_cons_ite {α β : Type} [BEq α] [LawfulBEq α] [DecidableEq α] (a k : α) (b : β) (as : List (α × β)) :
    ((k, b) :: as).lookup a = if a = k then some b else as.lookup a := by
  rw [List.lookup_cons]
  cases hb : a == k
  · have : a ≠ k := fun e => by simp [e] at hb
    simp [this]
  · simp [beq_iff_eq.mp hb]

theorem lookup_insertField (k : String) (v : Value) (fs : List (String × Value)) (k' : String) :
    (Value.insertField k v fs).lookup k' = if k' = k then some v else fs.lookup k' := by
  induction fs with
  | nil => simp [Value.insertField, lookup_cons_ite]
  | cons p rest ih =>
    obtain ⟨k₁, v₁⟩ := p
    unfold Value.insertField
    by_cases same : k = k₁
    · subst same
      by_cases hk : k' = k <;> simp [lookup_cons_ite, hk]
    · by_cases lt : k < k₁
      · simp only [same, lt, ↓reduceIte]
        by_cases hk : k' = k <;> simp [lookup_cons_ite, hk]
      · simp only [same, lt, ↓reduceIte, lookup_cons_ite, ih]
        -- the key passed over is not the one inserted
        by_cases h₁ : k' = k₁
        · subst h₁; simp [Ne.symm same]
        · simp [h₁]

namespace Record

theorem get?_put (r : Record) (name : String) (v : Value) (name' : String) :
    (r.put name v).get? name' = if name' = name then some v else r.get? name' :=
  lookup_insertField name v r.fields name'

theorem get?_remove (r : Record) (name name' : String) (h : name' ≠ name) :
    (r.remove name).1.get? name' = r.get? name' := by
  simp only [remove, get?]
  induction r.fields with
  | nil => rfl
  | cons p rest ih =>
    obtain ⟨k, v⟩ := p
    by_cases hp : k = name
    · subst hp
      simp [lookup_cons_ite, ih, h]
    · simp [lookup_cons_ite, hp, ih]

theorem get?_remove_self (r : Record) (name : String) : (r.remove name).1.get? name = none := by
  simp only [remove, get?]
  induction r.fields with
  | nil => rfl
  | cons p rest ih =>
    obtain ⟨k, v⟩ := p
    by_cases hk : k = name
    · simp [hk, ih]
    · simp [hk, lookup_cons_ite, ih, Ne.symm hk]

theorem get?_stamp (r : Record) (id : Identity) (v : Lineage) (t : Instant)
    (owner : Option String) (name : String) :
    (r.stamp id v t owner).get? name =
      if name = "__owner" then owner.map .str
      else if name = "__modified" then some (.str t.render)
      else if name = "__version" then some (.str v.render)
      else if name = "__id" then some (.str id.render)
      else r.get? name := by
  unfold stamp
  by_cases howner : name = "__owner"
  · subst howner
    cases owner <;> simp [get?_put, get?_remove_self]
  · cases owner <;> simp [get?_put, get?_remove _ _ _ howner, howner]

/-- **A stamped record reads back the lineage it was stamped with.** -/
theorem version_stamp (r : Record) (id : Identity) {v : Lineage} (h : v.Valid) (modified : Instant)
    (owner : Option String) : (r.stamp id v modified owner).version = v := by
  simp [version, reservedText?, get?_stamp, Value.asString?, Lineage.parse_render h]

end Record

namespace Identity

theorem cmp_eq_iff {a b : Identity} : Identity.cmp a b = .eq ↔ a = b := by
  obtain ⟨k, key, o⟩ := a
  obtain ⟨k', key', o'⟩ := b
  have owners : cmp.compareOwner o o' = .eq ↔ o = o' := by
    cases o <;> cases o' <;> simp [cmp.compareOwner]
  simp [cmp, Ordering.then_eq_eq, owners]

end Identity

namespace Backend

/-- Every stored record carries a stamped lineage. -/
def Stamped (b : Backend) : Prop := ∀ p ∈ b.records, p.2.version.Stamped

theorem mem_place {id : Identity} {r : Record} {rs : List (Identity × Record)}
    {p : Identity × Record} (h : p ∈ place id r rs) : p = (id, r) ∨ p ∈ rs := by
  induction rs with
  | nil => simpa [place] using h
  | cons q rest ih =>
    unfold place at h
    split at h <;> simp only [List.mem_cons] at h
    · exact h.imp_right (List.mem_cons.mpr ·)
    · exact h.imp_right (List.mem_cons_of_mem _)
    · rcases h with rfl | h
      · exact Or.inr List.mem_cons_self
      · exact (ih h).imp_right (List.mem_cons_of_mem _)

theorem lookup_place (id : Identity) (r : Record) (rs : List (Identity × Record)) (id' : Identity) :
    (place id r rs).lookup id' = if id' = id then some r else rs.lookup id' := by
  induction rs with
  | nil => simp [place, lookup_cons_ite]
  | cons q rest ih =>
    obtain ⟨k, s⟩ := q
    unfold place
    split
    · by_cases hk : id' = id <;> simp [lookup_cons_ite, hk]
    · rename_i heq
      obtain rfl := Identity.cmp_eq_iff.mp heq
      by_cases hk : id' = id <;> simp [lookup_cons_ite, hk]
    · rename_i hgt
      have hne : k ≠ id := fun e => by subst e; simp [Identity.cmp_eq_iff.mpr rfl] at hgt
      by_cases hk : id' = k
      · subst hk; simp [hne]
      · simp [lookup_cons_ite, hk, ih]

theorem get?_mem {b : Backend} {id : Identity} {r : Record} (h : b.get? id = some r) :
    (id, r) ∈ b.records := by
  obtain ⟨l₁, l₂, split, -⟩ := List.lookup_eq_some_iff.mp h
  rw [split]
  exact List.mem_append_right _ List.mem_cons_self

theorem Stamped.place {b : Backend} (hb : b.Stamped) {id : Identity} {r : Record}
    (hr : r.version.Stamped) : ∀ p ∈ Backend.place id r b.records, p.2.version.Stamped := by
  intro p hp
  rcases mem_place hp with rfl | hp
  · exact hr
  · exact hb p hp

theorem Stamped.get? {b : Backend} (hb : b.Stamped) {id : Identity} {r : Record}
    (h : b.get? id = some r) : r.version.Stamped :=
  hb _ (get?_mem h)

theorem check_of_ready {b : Backend} (h : b.failures = 0) : b.check = (b, .ok ()) := by
  unfold check; rw [h]

theorem check_of_failing {b : Backend} (h : b.failures ≠ 0) :
    b.check = ({ b with failures := b.failures - 1 }, .error (.backend "injected failure")) := by
  obtain ⟨n, hn⟩ := Nat.exists_eq_succ_of_ne_zero h
  unfold check; rw [hn]; rfl

section Calls

variable (b : Backend) (id : Identity)

@[simp] theorem records_load : (b.load id).1.records = b.records := by
  by_cases hf : b.failures = 0 <;> simp [load, check_of_ready, check_of_failing, hf]

@[simp] theorem writes_load : (b.load id).1.writes = b.writes := by
  by_cases hf : b.failures = 0 <;> simp [load, check_of_ready, check_of_failing, hf]

@[simp] theorem watchers_load : (b.load id).1.watchers = b.watchers := by
  by_cases hf : b.failures = 0 <;> simp [load, check_of_ready, check_of_failing, hf]

@[simp] theorem records_exists? : (b.exists? id).1.records = b.records := by
  by_cases hf : b.failures = 0 <;> simp [exists?, check_of_ready, check_of_failing, hf]

@[simp] theorem writes_exists? : (b.exists? id).1.writes = b.writes := by
  by_cases hf : b.failures = 0 <;> simp [exists?, check_of_ready, check_of_failing, hf]

@[simp] theorem records_findIds (q : Query) : (b.findIds q).1.records = b.records := by
  by_cases hf : b.failures = 0
  · simp only [findIds, check_of_ready hf]; split <;> rfl
  · simp [findIds, check_of_failing hf]

@[simp] theorem writes_findIds (q : Query) : (b.findIds q).1.writes = b.writes := by
  by_cases hf : b.failures = 0
  · simp only [findIds, check_of_ready hf]; split <;> rfl
  · simp [findIds, check_of_failing hf]

@[simp] theorem records_changed : (b.changed id).1.records = b.records := rfl

@[simp] theorem writes_changed : (b.changed id).1.writes = b.writes + 1 := rfl

@[simp] theorem records_watch (kind : String) (j : Nat) : (b.watch kind j).records = b.records := rfl

@[simp] theorem writes_watch (kind : String) (j : Nat) : (b.watch kind j).writes = b.writes := rfl

@[simp] theorem records_failNext (n : Nat) : (b.failNext n).records = b.records := rfl

@[simp] theorem writes_failNext (n : Nat) : (b.failNext n).writes = b.writes := rfl

theorem load_some {l : Loaded} (h : (b.load id).2 = .ok (some l)) :
    ∃ r, b.get? id = some r ∧ l = Loaded.ofStamped r := by
  by_cases hf : b.failures = 0
  · simp only [load, check_of_ready hf, Except.ok.injEq, Option.map_eq_some_iff] at h
    obtain ⟨r, hr, rfl⟩ := h
    exact ⟨r, hr, rfl⟩
  · simp [load, check_of_failing hf] at h

theorem load_of_ready (h : b.failures = 0) :
    b.load id = (b, .ok ((b.get? id).map Loaded.ofStamped)) := by
  simp [load, check_of_ready h]

variable (r : Record) (previous : Lineage)

/-- The lineage a save compares the writer's base with: the stored one, empty when nothing is
stored. -/
def current : Lineage := ((b.get? id).map Record.version).getD Lineage.empty

/-- **A save stores only on the writer's base.** It succeeds only with no failure injected and
a stored lineage the same as the base; it then puts the record in its place and answers its
lineage. -/
theorem save_ok {v : Lineage} (h : (b.save id r previous).2 = .ok v) :
    b.failures = 0 ∧ (current b id).compare previous = .same ∧
      b.save id r previous = ({ b with records := place id r b.records }, .ok r.version) := by
  by_cases hf : b.failures = 0
  · by_cases hs : (current b id).compare previous = .same
    · simp only [current] at hs
      simp [save, check_of_ready hf, hs, current, hf]
    · simp only [current] at hs
      simp [save, check_of_ready hf, hs] at h
  · simp [save, check_of_failing hf] at h

theorem stored_of_same (hs : (current b id).compare previous = .same) (hprev : previous.Stamped) :
    ∃ r, b.get? id = some r ∧ r.version.compare previous = .same := by
  unfold current at hs
  cases hg : b.get? id with
  | none =>
    rw [hg] at hs
    rcases Lineage.same_cases hs with ⟨-, hnone⟩ | ⟨s, t, hs', -, -⟩
    · exact absurd hnone (by simpa [Lineage.last?] using hprev.nonempty)
    · simp [Lineage.empty, Lineage.last?] at hs'
  | some r => exact ⟨r, rfl, by simpa [hg] using hs⟩

/-- **A failed save changes nothing but the failures left to inject.** -/
theorem save_error {f : Fault} (h : (b.save id r previous).2 = .error f) :
    (b.save id r previous).1.records = b.records ∧ (b.save id r previous).1.writes = b.writes ∧
      (b.save id r previous).1.watchers = b.watchers := by
  by_cases hf : b.failures = 0
  · by_cases hs : (current b id).compare previous = .same
    · simp only [current] at hs
      simp [save, check_of_ready hf, hs] at h
    · simp only [current] at hs
      simp [save, check_of_ready hf, hs]
  · simp [save, check_of_failing hf]

theorem save_refused {f : Fault} (h : (b.save id r previous).2 = .error f) :
    b.failures ≠ 0 ∨ (current b id).compare previous ≠ .same := by
  by_cases hf : b.failures = 0
  · refine .inr fun hs => ?_
    simp only [current] at hs
    simp [save, check_of_ready hf, hs] at h
  · exact .inl hf

theorem save_error_of_same {f : Fault} (hs : (current b id).compare previous = .same)
    (h : (b.save id r previous).2 = .error f) : f = .backend "injected failure" := by
  by_cases hf : b.failures = 0
  · simp only [current] at hs
    simp [save, check_of_ready hf, hs] at h
  · simp only [save, check_of_failing hf] at h
    cases h
    rfl

theorem save_error_of_absent (hnone : b.get? id = none) (hprev : previous.tags ≠ []) :
    ∃ f, (b.save id r previous).2 = .error f := by
  have lower : Lineage.empty.compare previous = .lower := by
    have : previous.tags.isEmpty = false := List.isEmpty_eq_false_iff.mpr hprev
    simp [Lineage.compare, Lineage.empty, Lineage.last?, Lineage.isEmpty, this]
  by_cases hf : b.failures = 0
  · simp [save, check_of_ready hf, hnone, lower]
  · simp [save, check_of_failing hf]

theorem records_save_of_error {f : Fault} (h : (b.save id r previous).2 = .error f) :
    (b.save id r previous).1.records = b.records := (save_error b id r previous h).1

theorem records_save :
    (b.save id r previous).1.records = b.records ∨
      (b.save id r previous).1.records = place id r b.records := by
  cases h : (b.save id r previous).2 with
  | ok v => exact .inr (by rw [(save_ok b id r previous h).2.2])
  | error f => exact .inl (records_save_of_error b id r previous h)

@[simp] theorem writes_save : (b.save id r previous).1.writes = b.writes := by
  cases h : (b.save id r previous).2 with
  | ok v => rw [(save_ok b id r previous h).2.2]
  | error f => exact (save_error b id r previous h).2.1

theorem createNew_ok {v : Lineage} (h : (b.createNew id r).2 = .ok v) :
    b.failures = 0 ∧ b.get? id = none ∧
      b.createNew id r = ({ b with records := place id r b.records }, .ok r.version) := by
  by_cases hf : b.failures = 0
  · cases hg : b.get? id with
    | some _ => simp [createNew, check_of_ready hf, hg] at h
    | none => simp [createNew, check_of_ready hf, hg, hf]
  · simp [createNew, check_of_failing hf] at h

theorem records_createNew :
    (b.createNew id r).1.records = b.records ∨
      (b.createNew id r).1.records = place id r b.records := by
  by_cases hf : b.failures = 0
  · cases hg : b.get? id <;> simp [createNew, check_of_ready hf, hg]
  · simp [createNew, check_of_failing hf]

@[simp] theorem writes_createNew : (b.createNew id r).1.writes = b.writes := by
  by_cases hf : b.failures = 0
  · cases hg : b.get? id <;> simp [createNew, check_of_ready hf, hg]
  · simp [createNew, check_of_failing hf]

theorem records_delete :
    (b.delete id).1.records = b.records ∨
      (b.delete id).1.records = b.records.filter fun p => !(p.1 == id) := by
  by_cases hf : b.failures = 0
  · cases hg : b.get? id <;> simp [delete, check_of_ready hf, hg]
  · simp [delete, check_of_failing hf]

@[simp] theorem writes_delete : (b.delete id).1.writes = b.writes := by
  by_cases hf : b.failures = 0
  · cases hg : b.get? id <;> simp [delete, check_of_ready hf, hg]
  · simp [delete, check_of_failing hf]

end Calls

theorem Stamped.save {b : Backend} (hb : b.Stamped) (id : Identity) {r : Record}
    (hr : r.version.Stamped) (previous : Lineage) : (b.save id r previous).1.Stamped := by
  unfold Stamped
  rcases records_save b id r previous with h | h <;> rw [h]
  · exact hb
  · exact hb.place hr

theorem Stamped.createNew {b : Backend} (hb : b.Stamped) (id : Identity) {r : Record}
    (hr : r.version.Stamped) : (b.createNew id r).1.Stamped := by
  unfold Stamped
  rcases records_createNew b id r with h | h <;> rw [h]
  · exact hb
  · exact hb.place hr

theorem Stamped.delete {b : Backend} (hb : b.Stamped) (id : Identity) : (b.delete id).1.Stamped := by
  unfold Stamped
  rcases records_delete b id with h | h <;> rw [h]
  · exact hb
  · exact fun p hp => hb p (List.mem_filter.mp hp).1

theorem Stamped.load_version {b : Backend} (hb : b.Stamped) {id : Identity} {l : Loaded}
    (h : (b.load id).2 = .ok (some l)) : l.version.Stamped := by
  obtain ⟨r, hr, rfl⟩ := load_some b id h
  exact hb.get? hr

end Backend

end Stowage
