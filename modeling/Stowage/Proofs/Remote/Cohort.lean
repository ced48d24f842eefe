import Stowage.Proofs.Remote.Herd
import Stowage.Proofs.Store.Backend
/-!
Writes of several proxies of one identity against one source.

Each proxy runs its loads and its writes in steps, and the steps of all of them interleave. A
load takes the proxy's load lock, reads the source, and takes in what it read later. A write
takes the cached lineage as its base, has the source store the value, and ends with the source's
answer. The source answers every call, takes writes, and changes only through these proxies.

A store succeeds exactly when the stored lineage is the same as the write's base. The source
then holds the written value with the base extended by the writer, and below the top of the
signed 64-bit range that lineage is higher than the one it replaced. A failed write changes
neither the source nor the writer's value and lineage, and a conflict expires the writer
(`write_round`).

Below the top of the range, no two values are ever held at one lineage (`Ordered.agree`), so the
equal-lineage skip of `Proxy.apply` never keeps a value the source does not hold. After a
conflict the proxy reloads on its next read; the load, taken in while no write of the proxy is
in progress, leaves it holding exactly what it read, and a write started after that succeeds
when nothing was stored since the load read the source (`conflict_recovery`). At the top of the
range, and for a load taken in while a write is pending, neither holds (`write_protocol_gaps`).
-/
namespace Stowage.Version

deriving instance ReflBEq, LawfulBEq for Tag, Lineage

namespace Lineage

theorem top_eq_of_same {a b : Lineage} (h : a.compare b = .same) : a.top = b.top := by
  rcases same_cases h with ⟨ha, hb⟩ | ⟨s, t, hs, ht, -, hmag⟩
  · simp [top, ha, hb]
  · rw [top_of_last? hs, top_of_last? ht, hmag]

theorem top_lt_of_append {l : Lineage} {node : String} {isDelete : Bool} {maxRun : Nat}
    (h : ((l.append node isDelete maxRun).top : Int) < i64Max) : (l.top : Int) < i64Max := by
  rw [top_of_last? (last?_append l node isDelete maxRun)] at h
  simp only [nextTag, Tag.next, Tag.magnitude, top] at h ⊢
  cases isDelete <;> simp only [Bool.false_eq_true, ↓reduceIte, Int.natAbs_neg] at h <;> omega

theorem compare_append_of_same_increasing {b c : Lineage} (hb : b.Increasing)
    (room : (b.top : Int) < i64Max) (h : c.compare b = .same) (node : String) (isDelete : Bool)
    (maxRun : Nat) : (b.append node isDelete maxRun).compare c = .higher := by
  rcases same_cases h with ⟨hc, -⟩ | ⟨s, t, hs, ht, hnode, hmag⟩
  · -- nothing is stored yet: any write is above the empty lineage
    have hne : (b.append node isDelete maxRun).isEmpty = false := by
      simp [← Bool.not_eq_true, isEmpty_iff, last?_append]
    simp [compare, last?_append, hc, hne, isEmpty_iff.mpr hc]
  · have anchored := (anchored_of_increasing hb ht hnode.symm hmag.symm).append
      room node isDelete maxRun
    refine (compare_of_anchored (last?_append b node isDelete maxRun) hs ?_ anchored).1
    rw [magnitude_nextTag room, top_of_last? ht, hmag]
    exact Nat.lt_succ_self _

end Lineage

end Stowage.Version

namespace Stowage.Remote

open Stowage.Version

namespace Source

variable {α : Type} {s : Source α}

theorem load_of_answers (h : s.failures = 0) (id : Identity) :
    s.load id = ({ s with loads := s.loads + 1 }, .ok (s.current id)) := by
  simp [load, check, h, current]

/-- The lineage a source holds for an identity; empty when it holds nothing. -/
def lineage (s : Source α) (id : Identity) : Lineage :=
  ((s.current id).map (·.version)).getD .empty

theorem store_of_same (h : s.failures = 0) {id : Identity} {value : α} {previous next : Lineage}
    (hs : (s.lineage id).compare previous = .same) :
    s.store id value previous next =
      (s.put id ⟨value, next, (s.current id).bind (·.owner)⟩, .ok next) := by
  simp [store, check, h, lineage] at hs ⊢
  simp [hs]

theorem store_of_ne_same (h : s.failures = 0) {id : Identity} {value : α} {previous next : Lineage}
    (hs : (s.lineage id).compare previous ≠ .same) :
    s.store id value previous next =
      (s, .error (.versionConflict id.render previous.render (s.lineage id).render)) := by
  simp [store, check, h, lineage] at hs ⊢
  simp [hs]

@[simp] theorem current_put (s : Source α) (id : Identity) (v : RemoteValue α) :
    (s.put id v).current id = some v := by
  simp [put, current]

end Source

namespace Backing

variable {α : Type}

@[simp] theorem keepCopy_source (b : Backing α) (id : Identity) (v : RemoteValue α) :
    (b.keepCopy id v).source = b.source := by
  unfold keepCopy
  split <;> rfl

@[simp] theorem keepCopy_writable (b : Backing α) (id : Identity) (v : RemoteValue α) :
    (b.keepCopy id v).writable = b.writable := by
  unfold keepCopy
  split <;> rfl

end Backing

/-- One of several proxies of an identity: the options of its node, the proxy, the write in
progress with the value written and, once the source has stored it, the answer, and the load in
progress with what it read. -/
structure Member (α : Type) where
  options : ProxyOptions
  proxy : Proxy α
  writing : Option (WriteTicket × α × Option (Outcome Lineage))
  loading : Option (Outcome (Option (RemoteValue α)))

/-- The steps of one proxy. -/
inductive Act (α : Type) where
  /-- A read: when the value has to be reloaded, it takes the load lock and reads the source. -/
  | read
  /-- The delay loader takes the load lock and reads the source unless the value is fresh. -/
  | reload
  /-- The load in progress takes in what it read and lets go of the lock. -/
  | install
  | startWrite (value : α)
  | store
  | endWrite

namespace Member

variable {α : Type}

instance : Inhabited (Member α) := ⟨⟨⟨"", 0, .never, false⟩, Proxy.create default 0, none, none⟩⟩

/-- Read the source for a load; the load lock is held until the load is taken in. -/
def fetch (m : Member α) (b : Backing α) : Member α × Backing α :=
  let r := b.source.load m.proxy.id
  let p := { m.proxy with stats := { m.proxy.stats with loads := m.proxy.stats.loads + 1 } }
  ({ m with proxy := p, loading := some r.2 }, { b with source := r.1 })

/-- One step; `none` when it cannot happen: a load while the lock is held, taking in with no
load out, a write starting while another is out, a store or an end with no write at that stage. -/
def step (b : Backing α) (m : Member α) : Act α → Option (Member α × Backing α)
  | .read =>
    if m.options.policy.freshness m.proxy.stamp b.clock != .reload then some (m, b)
    else if m.loading.isSome then none
    else some (m.fetch b)
  | .reload =>
    if m.loading.isSome then none
    else if m.options.policy.freshness m.proxy.stamp b.clock == .fresh then some (m, b)
    else some ({ m with proxy := { m.proxy with stats := { m.proxy.stats with
      backgroundReloads := m.proxy.stats.backgroundReloads + 1 } } }.fetch b)
  | .install =>
    match m.loading with
    | some r =>
      let s := m.proxy.settle b r
      some ({ m with proxy := s.1, loading := none }, s.2.1)
    | none => none
  | .startWrite value =>
    match m.writing with
    | some _ => none
    | none =>
      let w := m.proxy.beginWrite m.options.node m.options.maxRun
      some ({ m with proxy := w.1, writing := some (w.2, value, none) }, b)
  | .store =>
    match m.writing with
    | some (t, value, none) =>
      let r := if b.writable then b.source.store m.proxy.id value t.previous t.next
        else (b.source, .error (.notSupported "remote writes"))
      some ({ m with writing := some (t, value, some r.2) }, { b with source := r.1 })
    | _ => none
  | .endWrite =>
    match m.writing with
    | some (t, value, some result) =>
      let w := m.proxy.finishWrite b t value result
      some ({ m with proxy := w.1, writing := none }, w.2.1)
    | _ => none

/-- The source's answer to the member's write, once it has stored it. -/
def answer? (m : Member α) : Option (Outcome Lineage) := m.writing.bind (·.2.2)

end Member

/-- Proxies of one identity, on their nodes, over one backing. -/
structure Cohort (α : Type) where
  backing : Backing α
  members : List (Member α)

/-- What happens next: a step of one proxy, or the clock moving on. -/
inductive Turn (α : Type) where
  | act (i : Nat) (a : Act α)
  | tick (clock : Int)

/-- Whether a turn has the source store a write. -/
def Turn.stores {α : Type} : Turn α → Bool
  | .act _ .store => true
  | _ => false

namespace Cohort

variable {α : Type}

def step (c : Cohort α) : Turn α → Option (Cohort α)
  | .act i a =>
    match c.members[i]? with
    | some m => (m.step c.backing a).map fun r => ⟨r.2, c.members.set i r.1⟩
    | none => none
  | .tick clock => some { c with backing := { c.backing with clock } }

def run (c : Cohort α) : List (Turn α) → Option (Cohort α)
  | [] => some c
  | e :: es => (c.step e).bind fun c' => c'.run es

/-- The member at a position; a member with nothing cached past the end. -/
def member (c : Cohort α) (i : Nat) : Member α := c.members.getD i default

/-- What the source holds for an identity. -/
def held (c : Cohort α) (id : Identity) : Option (RemoteValue α) := c.backing.source.current id

/-- The lineage stored for an identity; empty when nothing is stored. -/
def stored (c : Cohort α) (id : Identity) : Lineage := c.backing.source.lineage id

/-- A start: proxies just made for `id`, none of them loading or writing, over a writable
source that answers every call and whose stored lineage has increasing magnitudes. -/
structure Start (id : Identity) (c : Cohort α) : Prop where
  fresh : ∀ m ∈ c.members,
    m.proxy = Proxy.create id m.proxy.serial ∧ m.writing = none ∧ m.loading = none
  writable : c.backing.writable = true
  answers : c.backing.source.failures = 0
  increasing : (c.stored id).Increasing

inductive Reachable (id : Identity) : Cohort α → Prop where
  | start {c : Cohort α} : Start id c → Reachable id c
  | next {c c' : Cohort α} {e : Turn α} : Reachable id c → c.step e = some c' → Reachable id c'

end Cohort

namespace Proxy

variable {α : Type} {p : Proxy α} {b : Backing α}

theorem apply_keeps (p : Proxy α) (b : Backing α) (remote : RemoteValue α) (keep : Bool) :
    (p.apply b remote keep).1.id = p.id ∧
      (p.apply b remote keep).1.pendingWrites = p.pendingWrites ∧
      (p.apply b remote keep).2.1.source = b.source ∧
      (p.apply b remote keep).2.1.writable = b.writable := by
  unfold apply
  dsimp only
  split
  · exact ⟨rfl, rfl, rfl, rfl⟩
  · split
    · exact ⟨rfl, rfl, rfl, rfl⟩
    · cases keep <;> simp

theorem settle_keeps (p : Proxy α) (b : Backing α) (r : Outcome (Option (RemoteValue α))) :
    (p.settle b r).1.id = p.id ∧ (p.settle b r).1.pendingWrites = p.pendingWrites ∧
      (p.settle b r).2.1.source = b.source ∧ (p.settle b r).2.1.writable = b.writable := by
  rcases r with f | _ | remote
  · cases hv : p.value with
    | some v => simp [settle, loadFailed, hv]
    | none =>
      cases ho : b.offlineGet p.id with
      | none => simp [settle, loadFailed, hv, ho]
      | some copy =>
        -- the offline copy is offered to a proxy that only counts the hit
        have := apply_keeps { p with stats := { p.stats with offlineHits := p.stats.offlineHits + 1 } }
          b copy false
        simpa [settle, loadFailed, hv, ho] using this
  · simp only [settle]
    split <;> simp
  · simpa [settle] using apply_keeps p b remote true

theorem settle_some_cases (p : Proxy α) (b : Backing α) (remote : RemoteValue α) :
    ((p.settle b (.ok (some remote))).1.value = p.value ∧
        (p.settle b (.ok (some remote))).1.version = p.version) ∨
      ((p.settle b (.ok (some remote))).1.value = some remote.value ∧
        (p.settle b (.ok (some remote))).1.version = remote.version) := by
  simp only [settle]
  unfold apply
  dsimp only
  split
  · exact .inl ⟨rfl, rfl⟩
  · split
    · exact .inl ⟨rfl, rfl⟩
    · exact .inr ⟨rfl, rfl⟩

theorem settle_none_cases (p : Proxy α) (b : Backing α) :
    ((p.settle b (.ok none)).1.value = p.value ∧ (p.settle b (.ok none)).1.version = p.version) ∨
      ((p.settle b (.ok none)).1.value = none ∧ (p.settle b (.ok none)).1.version = .empty) := by
  simp only [settle]
  split
  · exact .inl ⟨rfl, rfl⟩
  · exact .inr ⟨rfl, rfl⟩

theorem settle_some_of_idle {remote : RemoteValue α} (hp : p.pendingWrites = 0)
    (agree : ∀ x, p.value = some x → p.version = remote.version → x = remote.value) :
    (p.settle b (.ok (some remote))).1.value = some remote.value ∧
      (p.settle b (.ok (some remote))).1.version = remote.version := by
  simp only [settle]
  unfold apply
  dsimp only
  rw [if_neg (by simp [isWritePending, hp])]
  split
  · -- the lineage is cached already: the cached value is the one found
    rename_i same
    obtain ⟨x, hx⟩ := Option.isSome_iff_exists.mp (Bool.and_eq_true_iff.mp same).1
    have hv : p.version = remote.version := beq_iff_eq.mp (Bool.and_eq_true_iff.mp same).2
    exact ⟨by simp [hx, agree x hx hv], hv⟩
  · exact ⟨rfl, rfl⟩

theorem settle_none_of_idle (hp : p.pendingWrites = 0) :
    (p.settle b (.ok none)).1.value = none ∧ (p.settle b (.ok none)).1.version = .empty := by
  simp [settle, isWritePending, hp]

theorem finishWrite_keeps (p : Proxy α) (b : Backing α) (t : WriteTicket) (value : α)
    (result : Outcome Lineage) :
    (p.finishWrite b t value result).1.id = p.id ∧
      (p.finishWrite b t value result).1.pendingWrites = p.pendingWrites - 1 ∧
      (p.finishWrite b t value result).2.1.source = b.source ∧
      (p.finishWrite b t value result).2.1.writable = b.writable := by
  unfold finishWrite
  split
  · split <;> exact ⟨rfl, rfl, rfl, rfl⟩
  · simp

theorem finishWrite_error (p : Proxy α) (b : Backing α) (t : WriteTicket) (value : α) (f : Fault) :
    (p.finishWrite b t value (.error f)).1.value = p.value ∧
      (p.finishWrite b t value (.error f)).1.version = p.version ∧
      (f.isConflict = true → (p.finishWrite b t value (.error f)).1.stamp = .forceExpired) := by
  unfold finishWrite
  dsimp only
  split
  · exact ⟨rfl, rfl, fun _ => rfl⟩
  · exact ⟨rfl, rfl, fun h => by simp_all⟩

theorem finishWrite_ok (p : Proxy α) (b : Backing α) (t : WriteTicket) (value : α) (L : Lineage) :
    (p.finishWrite b t value (.ok L)).1.value = some value ∧
      (p.finishWrite b t value (.ok L)).1.version = L := ⟨rfl, rfl⟩

end Proxy

namespace Member

variable {α : Type} {m m' : Member α} {b b' : Backing α} {a : Act α} {id : Identity}

theorem fetch_eq (hf : b.source.failures = 0) (m : Member α) :
    m.fetch b = ({ m with
        proxy := { m.proxy with stats := { m.proxy.stats with loads := m.proxy.stats.loads + 1 } },
        loading := some (.ok (b.source.current m.proxy.id)) },
      { b with source := { b.source with loads := b.source.loads + 1 } }) := by
  simp [fetch, Source.load_of_answers hf]

theorem step_cases (hw : b.writable = true) (hf : b.source.failures = 0)
    (h : m.step b a = some (m', b')) :
    ((a = .read ∨ a = .reload) ∧ m' = m ∧ b' = b) ∨
    ((a = .read ∨ a = .reload) ∧ m.loading = none ∧
      (∃ stats, m' = { m with
        proxy := { m.proxy with stats }
        loading := some (.ok (b.source.current m.proxy.id)) }) ∧
      ∃ loads, b' = { b with source := { b.source with loads } }) ∨
    (a = .install ∧ ∃ r, m.loading = some r ∧
      m' = { m with proxy := (m.proxy.settle b r).1, loading := none } ∧
      b' = (m.proxy.settle b r).2.1) ∨
    (∃ v, a = .startWrite v ∧ m.writing = none ∧
      m' = { m with
        proxy := { m.proxy with pendingWrites := m.proxy.pendingWrites + 1 }
        writing := some (⟨m.proxy.version,
          m.proxy.version.append m.options.node false m.options.maxRun, m.proxy.owner⟩, v, none) } ∧
      b' = b) ∨
    (a = .store ∧ ∃ t v, m.writing = some (t, v, none) ∧
      (((b.source.lineage m.proxy.id).compare t.previous = .same ∧
          m' = { m with writing := some (t, v, some (.ok t.next)) } ∧
          b' = { b with
            source := b.source.put m.proxy.id ⟨v, t.next, (b.source.current m.proxy.id).bind (·.owner)⟩ }) ∨
        ((b.source.lineage m.proxy.id).compare t.previous ≠ .same ∧
          m' = { m with
            writing := some (t, v, some (.error (.versionConflict m.proxy.id.render
              t.previous.render (b.source.lineage m.proxy.id).render))) } ∧ b' = b))) ∨
    (a = .endWrite ∧ ∃ t v r, m.writing = some (t, v, some r) ∧
      m' = { m with proxy := (m.proxy.finishWrite b t v r).1, writing := none } ∧
      b' = (m.proxy.finishWrite b t v r).2.1) := by
  cases a with
  | read =>
    simp only [step] at h
    split at h
    · simp only [Option.some.injEq, Prod.mk.injEq] at h
      exact .inl ⟨.inl rfl, h.1.symm, h.2.symm⟩
    · split at h
      · cases h
      · rename_i hl
        simp only [fetch_eq hf, Option.some.injEq, Prod.mk.injEq] at h
        obtain ⟨rfl, rfl⟩ := h
        exact .inr (.inl ⟨.inl rfl, by simpa using hl, ⟨_, rfl⟩, _, rfl⟩)
  | reload =>
    simp only [step] at h
    split at h
    · cases h
    · rename_i hl
      split at h
      · simp only [Option.some.injEq, Prod.mk.injEq] at h
        exact .inl ⟨.inr rfl, h.1.symm, h.2.symm⟩
      · simp only [fetch_eq hf, Option.some.injEq, Prod.mk.injEq] at h
        obtain ⟨rfl, rfl⟩ := h
        exact .inr (.inl ⟨.inr rfl, by simpa using hl, ⟨_, rfl⟩, _, rfl⟩)
  | install =>
    simp only [step] at h
    split at h
    · next r hr =>
      simp only [Option.some.injEq, Prod.mk.injEq] at h
      obtain ⟨rfl, rfl⟩ := h
      exact .inr (.inr (.inl ⟨rfl, r, hr, rfl, rfl⟩))
    · cases h
  | startWrite v =>
    simp only [step] at h
    split at h
    · cases h
    · next hn =>
      simp only [Option.some.injEq, Prod.mk.injEq] at h
      obtain ⟨rfl, rfl⟩ := h
      exact .inr (.inr (.inr (.inl ⟨v, rfl, hn, rfl, rfl⟩)))
  | store =>
    simp only [step, if_pos hw] at h
    split at h
    · next t v hs =>
      simp only [Option.some.injEq, Prod.mk.injEq] at h
      obtain ⟨rfl, rfl⟩ := h
      refine .inr (.inr (.inr (.inr (.inl ⟨rfl, t, v, hs, ?_⟩))))
      by_cases same : (b.source.lineage m.proxy.id).compare t.previous = .same
      · exact .inl ⟨same, by simp [Source.store_of_same hf same]⟩
      · exact .inr ⟨same, by simp [Source.store_of_ne_same hf same]⟩
    · cases h
  | endWrite =>
    simp only [step] at h
    split at h
    · next t v r hs =>
      simp only [Option.some.injEq, Prod.mk.injEq] at h
      obtain ⟨rfl, rfl⟩ := h
      exact .inr (.inr (.inr (.inr (.inr ⟨rfl, t, v, r, hs, rfl, rfl⟩))))
    · cases h

/-- The lineages a member carries: its proxy's, the one its load read, its write's base and,
once stored, the stored one. -/
def Carries (m : Member α) (L : Lineage) : Prop :=
  m.proxy.version = L ∨ (∃ x o, m.loading = some (.ok (some ⟨x, L, o⟩))) ∨
    ∃ t x r, m.writing = some (t, x, r) ∧ (t.previous = L ∨ r = some (.ok L))

/-- The values a member holds at a lineage: its proxy's, the one its load read, and its stored
write's. -/
def Holds (m : Member α) (x : α) (L : Lineage) : Prop :=
  (m.proxy.value = some x ∧ m.proxy.version = L) ∨
    (∃ o, m.loading = some (.ok (some ⟨x, L, o⟩))) ∨ ∃ t, m.writing = some (t, x, some (.ok L))

theorem Holds.carries {x : α} {L : Lineage} : m.Holds x L → m.Carries L := by
  rintro (⟨-, h⟩ | ⟨o, h⟩ | ⟨t, h⟩)
  · exact .inl h
  · exact .inr (.inl ⟨x, o, h⟩)
  · exact .inr (.inr ⟨t, x, _, h, .inr rfl⟩)

/-- What holds of every member of a reachable cohort: it is a proxy of `id`, it counts its write
as pending, the write proposes its base extended by the member's node and is answered by the
lineage proposed or a conflict, and its loads have read the source. -/
structure Sound (id : Identity) (m : Member α) : Prop where
  id : m.proxy.id = id
  pending : m.proxy.pendingWrites = if m.writing.isSome then 1 else 0
  ticket : ∀ t x r, m.writing = some (t, x, r) →
    t.next = t.previous.append m.options.node false m.options.maxRun ∧
    ∀ o ∈ r, o = .ok t.next ∨ ∃ f, o = .error f ∧ f.isConflict = true
  loaded : ∀ o ∈ m.loading, ∃ found, o = .ok found

section Steps

variable (hm : m.Sound id) (hw : b.writable = true) (hf : b.source.failures = 0)
include hm hw hf

theorem Sound.step (h : m.step b a = some (m', b')) :
    m'.Sound id ∧ b'.writable = true ∧ b'.source.failures = 0 := by
  rcases step_cases hw hf h with ⟨-, rfl, rfl⟩ | ⟨-, -, ⟨stats, rfl⟩, loads, rfl⟩ |
    ⟨-, r, hr, rfl, rfl⟩ | ⟨v, -, hn, rfl, rfl⟩ | ⟨-, t, v, hs, ⟨-, rfl, rfl⟩ | ⟨-, rfl, rfl⟩⟩ |
    ⟨-, t, v, r, hs, rfl, rfl⟩
  · exact ⟨hm, hw, hf⟩
  · exact ⟨⟨hm.id, hm.pending, hm.ticket, by simp⟩, hw, hf⟩
  · obtain ⟨hid, hpend, hsrc, hwr⟩ := Proxy.settle_keeps m.proxy b r
    exact ⟨⟨hid.trans hm.id, hpend.trans hm.pending, hm.ticket, by simp⟩, hwr.trans hw,
      by rw [hsrc]; exact hf⟩
  · have idle : m.proxy.pendingWrites = 0 := by simpa [hn] using hm.pending
    refine ⟨⟨hm.id, by simp [idle], ?_, hm.loaded⟩, hw, hf⟩
    simp
  · obtain ⟨next, -⟩ := hm.ticket t v none hs
    refine ⟨⟨hm.id, by simpa [hs] using hm.pending, ?_, hm.loaded⟩, hw, by simpa [Source.put]⟩
    simp [next]
  · obtain ⟨next, -⟩ := hm.ticket t v none hs
    refine ⟨⟨hm.id, by simpa [hs] using hm.pending, ?_, hm.loaded⟩, hw, hf⟩
    simp [next, Fault.isConflict]
  · obtain ⟨hid, hpend, hsrc, hwr⟩ := Proxy.finishWrite_keeps m.proxy b t v r
    have one : m.proxy.pendingWrites = 1 := by simpa [hs] using hm.pending
    exact ⟨⟨hid.trans hm.id, by simp [hpend, one], by simp, hm.loaded⟩, hwr.trans hw,
      by rw [hsrc]; exact hf⟩

theorem Sound.step_source (h : m.step b a = some (m', b')) :
    b'.source.current id = b.source.current id ∨
      ∃ t v, a = .store ∧ m.writing = some (t, v, none) ∧
        (b.source.lineage id).compare t.previous = .same ∧
        m' = { m with writing := some (t, v, some (.ok t.next)) } ∧
        b'.source.current id = some ⟨v, t.next, (b.source.current id).bind (·.owner)⟩ := by
  obtain rfl := hm.id
  rcases step_cases hw hf h with ⟨-, rfl, rfl⟩ | ⟨-, -, -, loads, rfl⟩ |
    ⟨-, r, hr, rfl, rfl⟩ | ⟨v, -, hn, rfl, rfl⟩ | ⟨rfl, t, v, hs, ⟨same, rfl, rfl⟩ | ⟨-, rfl, rfl⟩⟩ |
    ⟨-, t, v, r, hs, rfl, rfl⟩
  · exact .inl rfl
  · exact .inl rfl
  · exact .inl (by rw [(Proxy.settle_keeps m.proxy b r).2.2.1])
  · exact .inl rfl
  · exact .inr ⟨t, v, rfl, hs, same, rfl, by simp⟩
  · exact .inl rfl
  · exact .inl (by rw [(Proxy.finishWrite_keeps m.proxy b t v r).2.2.1])

theorem Sound.step_carries (h : m.step b a = some (m', b')) {L : Lineage} (hL : m'.Carries L) :
    m.Carries L ∨ L = b.source.lineage id ∨ L = .empty ∨ L = b'.source.lineage id := by
  obtain rfl := hm.id
  rcases step_cases hw hf h with ⟨-, rfl, rfl⟩ | ⟨-, -, ⟨stats, rfl⟩, loads, rfl⟩ |
    ⟨-, r, hr, rfl, rfl⟩ | ⟨v, -, hn, rfl, rfl⟩ | ⟨-, t, v, hs, ⟨-, rfl, rfl⟩ | ⟨-, rfl, rfl⟩⟩ |
    ⟨-, t, v, r, hs, rfl, rfl⟩
  · exact .inl hL
  · -- the load read what the source holds
    rcases hL with hv | ⟨x, o, hl⟩ | hwr
    · exact .inl (.inl hv)
    · right; left
      simp only [Option.some.injEq, Except.ok.injEq] at hl
      simp [Source.lineage, hl]
    · exact .inl (.inr (.inr hwr))
  · obtain ⟨found, rfl⟩ := hm.loaded _ hr
    rcases hL with hv | ⟨x, o, hl⟩ | hwr
    · rcases found with _ | remote
      · rcases Proxy.settle_none_cases m.proxy b with ⟨-, e⟩ | ⟨-, e⟩
        · exact .inl (.inl (e.symm.trans hv))
        · exact .inr (.inr (.inl (hv.symm.trans e)))
      · rcases Proxy.settle_some_cases m.proxy b remote with ⟨-, e⟩ | ⟨-, e⟩
        · exact .inl (.inl (e.symm.trans hv))
        · exact .inl (.inr (.inl ⟨remote.value, remote.owner, by rw [hr, ← hv, e]⟩))
    · simp at hl
    · exact .inl (.inr (.inr hwr))
  · rcases hL with hv | ⟨x, o, hl⟩ | ⟨t, x, r, hwr, hp | hr⟩
    · exact .inl (.inl hv)
    · exact .inl (.inr (.inl ⟨x, o, hl⟩))
    · simp only [Option.some.injEq, Prod.mk.injEq] at hwr
      obtain ⟨rfl, -, -⟩ := hwr
      exact .inl (.inl hp)
    · simp only [Option.some.injEq, Prod.mk.injEq] at hwr
      obtain ⟨-, -, rfl⟩ := hwr
      simp at hr
  · rcases hL with hv | ⟨x, o, hl⟩ | ⟨t', x, r, hwr, hp | hr⟩
    · exact .inl (.inl hv)
    · exact .inl (.inr (.inl ⟨x, o, hl⟩))
    · simp only [Option.some.injEq, Prod.mk.injEq] at hwr
      obtain ⟨rfl, -, -⟩ := hwr
      exact .inl (.inr (.inr ⟨_, v, none, hs, .inl hp⟩))
    · -- the stored lineage is the one the source now holds
      simp only [Option.some.injEq, Prod.mk.injEq] at hwr
      obtain ⟨rfl, -, rfl⟩ := hwr
      simp only [Option.some.injEq, Except.ok.injEq] at hr
      right; right; right
      simp [Source.lineage, hr]
  · rcases hL with hv | ⟨x, o, hl⟩ | ⟨t', x, r, hwr, hp | hr⟩
    · exact .inl (.inl hv)
    · exact .inl (.inr (.inl ⟨x, o, hl⟩))
    · simp only [Option.some.injEq, Prod.mk.injEq] at hwr
      obtain ⟨rfl, -, -⟩ := hwr
      exact .inl (.inr (.inr ⟨_, v, none, hs, .inl hp⟩))
    · simp only [Option.some.injEq, Prod.mk.injEq] at hwr
      obtain ⟨-, -, rfl⟩ := hwr
      simp at hr
  · rcases hL with hv | ⟨x, o, hl⟩ | ⟨t', x, r', hwr, -⟩
    · rcases r with f | L'
      · exact .inl (.inl ((Proxy.finishWrite_error m.proxy b t v f).2.1.symm.trans hv))
      · exact .inl (.inr (.inr ⟨t, v, some (.ok L'), hs, .inr (by rw [← hv]; rfl)⟩))
    · exact .inl (.inr (.inl ⟨x, o, hl⟩))
    · simp at hwr

theorem Sound.step_holds (h : m.step b a = some (m', b')) {x : α} {L : Lineage} (hx : m'.Holds x L) :
    m.Holds x L ∨ (∃ o, b.source.current id = some ⟨x, L, o⟩) ∨
      ∃ o, b'.source.current id = some ⟨x, L, o⟩ := by
  obtain rfl := hm.id
  rcases step_cases hw hf h with ⟨-, rfl, rfl⟩ | ⟨-, -, ⟨stats, rfl⟩, loads, rfl⟩ |
    ⟨-, r, hr, rfl, rfl⟩ | ⟨v, -, hn, rfl, rfl⟩ | ⟨-, t, v, hs, ⟨-, rfl, rfl⟩ | ⟨-, rfl, rfl⟩⟩ |
    ⟨-, t, v, r, hs, rfl, rfl⟩
  · exact .inl hx
  · rcases hx with hv | ⟨o, hl⟩ | hwr
    · exact .inl (.inl hv)
    · simp only [Option.some.injEq, Except.ok.injEq] at hl
      exact .inr (.inl ⟨o, hl⟩)
    · exact .inl (.inr (.inr hwr))
  · obtain ⟨found, rfl⟩ := hm.loaded _ hr
    rcases hx with ⟨hv, hL⟩ | ⟨o, hl⟩ | hwr
    · rcases found with _ | remote
      · rcases Proxy.settle_none_cases m.proxy b with ⟨e, e'⟩ | ⟨e, -⟩
        · exact .inl (.inl ⟨e.symm.trans hv, e'.symm.trans hL⟩)
        · simp [e] at hv
      · rcases Proxy.settle_some_cases m.proxy b remote with ⟨e, e'⟩ | ⟨e, e'⟩
        · exact .inl (.inl ⟨e.symm.trans hv, e'.symm.trans hL⟩)
        · -- the value installed is the one the load read
          have hx : remote.value = x := by simpa [e] using hv
          exact .inl (.inr (.inl ⟨remote.owner, by rw [hr, ← hx, ← hL, e']⟩))
    · simp at hl
    · exact .inl (.inr (.inr hwr))
  · rcases hx with hv | hl | ⟨t, hwr⟩
    · exact .inl (.inl hv)
    · exact .inl (.inr (.inl hl))
    · simp at hwr
  · rcases hx with hv | hl | ⟨t', hwr⟩
    · exact .inl (.inl hv)
    · exact .inl (.inr (.inl hl))
    · -- the write stored is what the source now holds
      simp only [Option.some.injEq, Prod.mk.injEq, Except.ok.injEq] at hwr
      obtain ⟨rfl, rfl, rfl⟩ := hwr
      exact .inr (.inr ⟨(b.source.current m.proxy.id).bind (·.owner), by simp⟩)
  · rcases hx with hv | hl | ⟨t', hwr⟩
    · exact .inl (.inl hv)
    · exact .inl (.inr (.inl hl))
    · simp at hwr
  · rcases hx with ⟨hv, hL⟩ | hl | ⟨t', hwr⟩
    · rcases r with f | L'
      · obtain ⟨e, e', -⟩ := Proxy.finishWrite_error m.proxy b t v f
        exact .inl (.inl ⟨e.symm.trans hv, e'.symm.trans hL⟩)
      · obtain ⟨e, e'⟩ := Proxy.finishWrite_ok m.proxy b t v L'
        have hx : v = x := by simpa [e] using hv
        exact .inl (.inr (.inr ⟨t, by rw [hs, ← hx, ← hL, e']⟩))
    · exact .inl (.inr (.inl hl))
    · simp at hwr

end Steps

end Member

namespace Cohort

variable {α : Type} {c c' : Cohort α} {id : Identity}

/-- The lineages a cohort carries: the stored one and every member's. -/
def Carries (id : Identity) (c : Cohort α) (L : Lineage) : Prop :=
  L = c.stored id ∨ ∃ m ∈ c.members, m.Carries L

/-- The values a cohort holds at a lineage: the stored one and every member's. -/
def Holds (id : Identity) (c : Cohort α) (x : α) (L : Lineage) : Prop :=
  (∃ o, c.held id = some ⟨x, L, o⟩) ∨ ∃ m ∈ c.members, m.Holds x L

theorem Holds.carries {x : α} {L : Lineage} : c.Holds id x L → c.Carries id L
  | .inl ⟨_, h⟩ => .inl (by simp only [held] at h; simp [stored, Source.lineage, h])
  | .inr ⟨m, hm, h⟩ => .inr ⟨m, hm, h.carries⟩

/-- Below the top of the range: every lineage the cohort carries has increasing magnitudes and
is no higher than the stored one, and no two values are held at one lineage. -/
structure Ordered (id : Identity) (c : Cohort α) : Prop where
  increasing : ∀ L, c.Carries id L → L.Increasing
  below : ∀ L, c.Carries id L → L.top ≤ (c.stored id).top
  agree : ∀ x y L, c.Holds id x L → c.Holds id y L → x = y

/-- The invariant of a reachable cohort. -/
structure Sound (id : Identity) (c : Cohort α) : Prop where
  members : ∀ m ∈ c.members, m.Sound id
  writable : c.backing.writable = true
  answers : c.backing.source.failures = 0
  ordered : ((c.stored id).top : Int) < i64Max → c.Ordered id

theorem step_act {i : Nat} {a : Act α} (h : c.step (.act i a) = some c') :
    ∃ m m' b', c.members[i]? = some m ∧ m.step c.backing a = some (m', b') ∧
      c' = ⟨b', c.members.set i m'⟩ := by
  simp only [step] at h
  split at h
  · next m hm =>
    obtain ⟨⟨m', b'⟩, hs, rfl⟩ := Option.map_eq_some_iff.mp h
    exact ⟨m, m', b', hm, hs, rfl⟩
  · cases h

@[simp] theorem top_empty : Lineage.empty.top = 0 := rfl

theorem increasing_empty : Lineage.empty.Increasing := List.Pairwise.nil

section Act

variable {i : Nat} {m m' : Member α} {b' : Backing α} {a : Act α}

theorem carries_act (hs : c.Sound id) (hi : c.members[i]? = some m)
    (hstep : m.step c.backing a = some (m', b')) {L : Lineage}
    (hL : (⟨b', c.members.set i m'⟩ : Cohort α).Carries id L) :
    c.Carries id L ∨ L = .empty ∨ L = b'.source.lineage id := by
  have mem : m ∈ c.members := List.mem_of_getElem? hi
  rcases hL with h | ⟨k, hk, hc⟩
  · exact .inr (.inr h)
  rcases List.mem_or_eq_of_mem_set hk with hk | rfl
  · exact .inl (.inr ⟨k, hk, hc⟩)
  rcases (hs.members m mem).step_carries hs.writable hs.answers hstep hc with h | h | h | h
  · exact .inl (.inr ⟨m, mem, h⟩)
  · exact .inl (.inl h)
  · exact .inr (.inl h)
  · exact .inr (.inr h)

theorem holds_act (hs : c.Sound id) (hi : c.members[i]? = some m)
    (hstep : m.step c.backing a = some (m', b')) {x : α} {L : Lineage}
    (hx : (⟨b', c.members.set i m'⟩ : Cohort α).Holds id x L) :
    c.Holds id x L ∨ ∃ o, b'.source.current id = some ⟨x, L, o⟩ := by
  have mem : m ∈ c.members := List.mem_of_getElem? hi
  rcases hx with h | ⟨k, hk, hc⟩
  · exact .inr h
  rcases List.mem_or_eq_of_mem_set hk with hk | rfl
  · exact .inl (.inr ⟨k, hk, hc⟩)
  rcases (hs.members m mem).step_holds hs.writable hs.answers hstep hc with h | h | h
  · exact .inl (.inr ⟨m, mem, h⟩)
  · exact .inl (.inl h)
  · exact .inr h

theorem ordered_act (hs : c.Sound id) (hi : c.members[i]? = some m)
    (hstep : m.step c.backing a = some (m', b'))
    (room : (((⟨b', c.members.set i m'⟩ : Cohort α).stored id).top : Int) < i64Max) :
    (⟨b', c.members.set i m'⟩ : Cohort α).Ordered id := by
  have mem : m ∈ c.members := List.mem_of_getElem? hi
  have hm := hs.members m mem
  have carries := fun L hL => carries_act hs hi hstep (L := L) hL
  have holds := fun x L hx => holds_act hs hi hstep (x := x) (L := L) hx
  rcases hm.step_source hs.writable hs.answers hstep with same | ⟨t, v, -, hwr, hsame, -, hnew⟩
  · -- nothing was stored: the stored lineage is the one before
    have hst : b'.source.lineage id = c.stored id := by simp [stored, Source.lineage, same]
    have ho := hs.ordered (by simpa [stored, hst] using room)
    have back : ∀ x L, (⟨b', c.members.set i m'⟩ : Cohort α).Holds id x L → c.Holds id x L := by
      intro x L hx
      rcases holds x L hx with h | ⟨o, h⟩
      · exact h
      · exact .inl ⟨o, by rw [held, ← same, h]⟩
    refine ⟨fun L hL => ?_, fun L hL => ?_, fun x y L hx hy => ho.agree x y L (back x L hx) (back y L hy)⟩
    · rcases carries L hL with h | rfl | rfl
      · exact ho.increasing L h
      · exact increasing_empty
      · exact hst ▸ ho.increasing _ (.inl rfl)
    · show L.top ≤ (b'.source.lineage id).top
      rw [hst]
      rcases carries L hL with h | rfl | rfl
      · exact ho.below L h
      · simp
      · rw [hst]
  · -- a write was stored, one above the lineage it was based on
    have hst : b'.source.lineage id = t.next := by simp [Source.lineage, hnew]
    have hnext := (hm.ticket t v none hwr).1
    have roomPrev : (t.previous.top : Int) < i64Max := by
      have : ((t.previous.append m.options.node false m.options.maxRun).top : Int) < i64Max := by
        rw [← hnext, ← hst]
        exact room
      exact Lineage.top_lt_of_append this
    have htop : (c.stored id).top = t.previous.top := Lineage.top_eq_of_same hsame
    have ho := hs.ordered (htop ▸ roomPrev)
    have based : c.Carries id t.previous := .inr ⟨m, mem, .inr (.inr ⟨t, v, none, hwr, .inl rfl⟩)⟩
    have above : t.next.top = (c.stored id).top + 1 := by
      rw [hnext, Lineage.top_append roomPrev, htop]
    have fresh : ∀ x, ¬ c.Holds id x t.next := fun x hx => by
      have := ho.below _ hx.carries
      omega
    have written : ∀ x L, (⟨b', c.members.set i m'⟩ : Cohort α).Holds id x L →
        c.Holds id x L ∨ (x = v ∧ L = t.next) := by
      intro x L hx
      rcases holds x L hx with h | ⟨o, h⟩
      · exact .inl h
      · rw [hnew, Option.some.injEq, RemoteValue.mk.injEq] at h
        exact .inr ⟨h.1.symm, h.2.1.symm⟩
    refine ⟨fun L hL => ?_, fun L hL => ?_, fun x y L hx hy => ?_⟩
    · rcases carries L hL with h | rfl | rfl
      · exact ho.increasing L h
      · exact increasing_empty
      · exact hst ▸ hnext ▸ (ho.increasing _ based).append roomPrev _ _ _
    · show L.top ≤ (b'.source.lineage id).top
      rw [hst, above]
      rcases carries L hL with h | rfl | rfl
      · exact Nat.le_succ_of_le (ho.below L h)
      · simp
      · rw [hst, above]
    · rcases written x L hx with hx | ⟨hxv, hL⟩ <;> rcases written y L hy with hy | ⟨hyv, hL'⟩
      · exact ho.agree x y L hx hy
      · exact absurd (hL' ▸ hx) (fresh x)
      · exact absurd (hL ▸ hy) (fresh y)
      · rw [hxv, hyv]

end Act

theorem Sound.step (hs : c.Sound id) {e : Turn α} (h : c.step e = some c') : c'.Sound id := by
  cases e with
  | tick clock =>
    simp only [Cohort.step, Option.some.injEq] at h
    subst h
    refine ⟨hs.members, hs.writable, hs.answers, fun room => ?_⟩
    have ho := hs.ordered room
    exact ⟨ho.increasing, ho.below, ho.agree⟩
  | act i a =>
    obtain ⟨m, m', b', hi, hstep, rfl⟩ := step_act h
    have hm := hs.members m (List.mem_of_getElem? hi)
    obtain ⟨hm', hw', hf'⟩ := hm.step hs.writable hs.answers hstep
    refine ⟨fun k hk => ?_, hw', hf', ordered_act hs hi hstep⟩
    rcases List.mem_or_eq_of_mem_set hk with hk | rfl
    · exact hs.members k hk
    · exact hm'

theorem Start.sound (h : Start id c) : c.Sound id := by
  have made : ∀ m ∈ c.members, m.proxy.value = none ∧ m.proxy.version = .empty ∧
      m.writing = none ∧ m.loading = none := fun m hm => by
    obtain ⟨e, hw, hl⟩ := h.fresh m hm
    rw [e]
    exact ⟨rfl, rfl, hw, hl⟩
  have carries : ∀ L, c.Carries id L → L = c.stored id ∨ L = .empty := by
    rintro L (rfl | ⟨m, hm, hv | ⟨x, o, hl⟩ | ⟨t, x, r, hw, -⟩⟩)
    · exact .inl rfl
    · exact .inr (hv ▸ (made m hm).2.1)
    · simp [(made m hm).2.2.2] at hl
    · simp [(made m hm).2.2.1] at hw
  have held : ∀ x L, c.Holds id x L → ∃ o, c.held id = some ⟨x, L, o⟩ := by
    rintro x L (h | ⟨m, hm, ⟨hv, -⟩ | ⟨o, hl⟩ | ⟨t, hw⟩⟩)
    · exact h
    · simp [(made m hm).1] at hv
    · simp [(made m hm).2.2.2] at hl
    · simp [(made m hm).2.2.1] at hw
  refine ⟨fun m hm => ⟨?_, ?_, ?_, ?_⟩, h.writable, h.answers, fun _ => ⟨?_, ?_, ?_⟩⟩
  · rw [(h.fresh m hm).1]; rfl
  · rw [(h.fresh m hm).1, (made m hm).2.2.1]; rfl
  · simp [(made m hm).2.2.1]
  · simp [(made m hm).2.2.2]
  · intro L hL
    rcases carries L hL with rfl | rfl
    · exact h.increasing
    · exact increasing_empty
  · intro L hL
    rcases carries L hL with rfl | rfl
    · exact Nat.le_refl _
    · simp
  · intro x y L hx hy
    obtain ⟨o, hx⟩ := held x L hx
    obtain ⟨o', hy⟩ := held y L hy
    rw [hx, Option.some.injEq, RemoteValue.mk.injEq] at hy
    exact hy.1

theorem Reachable.sound (h : Reachable id c) : c.Sound id := by
  induction h with
  | start h => exact h.sound
  | next _ step ih => exact ih.step step

theorem run_cons (c : Cohort α) (e : Turn α) (es : List (Turn α)) :
    c.run (e :: es) = (c.step e).bind fun c' => c'.run es := rfl

theorem run_append (c : Cohort α) (es es' : List (Turn α)) :
    c.run (es ++ es') = (c.run es).bind fun c' => c'.run es' := by
  induction es generalizing c with
  | nil => rfl
  | cons e es ih =>
    rw [List.cons_append, run_cons, run_cons, Option.bind_assoc]
    congr 1
    funext c'
    exact ih c'

/-- The run lemma: a property of reachable cohorts that every allowed step keeps holds after a
run of allowed steps; the cohort stays reachable. -/
theorem Reachable.run_keeps {P : Cohort α → Prop} {Q : Turn α → Prop}
    (keep : ∀ c c' e, Reachable id c → Q e → c.step e = some c' → P c → P c') :
    ∀ {c c' : Cohort α} {es : List (Turn α)}, Reachable id c → c.run es = some c' →
      (∀ e ∈ es, Q e) → P c → Reachable id c' ∧ P c'
  | c, c', [], hc, hr, _, hP => by
    simp only [run, Option.some.injEq] at hr
    exact hr ▸ ⟨hc, hP⟩
  | c, c', e :: es, hc, hr, hok, hP => by
    rw [run_cons, Option.bind_eq_some_iff] at hr
    obtain ⟨c₁, h₁, h₂⟩ := hr
    have hok₁ := hok e List.mem_cons_self
    exact Reachable.run_keeps keep (hc.next h₁) h₂ (fun e he => hok e (List.mem_cons_of_mem _ he))
      (keep c c₁ e hc hok₁ h₁ hP)

theorem Reachable.run {es : List (Turn α)} (hc : Reachable id c) (hr : c.run es = some c') :
    Reachable id c' :=
  (Reachable.run_keeps (P := fun _ => True) (Q := fun _ => True) (fun _ _ _ _ _ _ _ => trivial)
    hc hr (fun _ _ => trivial) trivial).1

theorem member_of_getElem? {i : Nat} {m : Member α} (h : c.members[i]? = some m) :
    c.member i = m := by
  simp [member, List.getD_eq_getElem?_getD, h]

theorem step_at (i : Nat) {e : Turn α} (h : c.step e = some c') :
    (c'.member i = c.member i ∧ ∀ a, e ≠ .act i a) ∨
      ∃ a, e = .act i a ∧ c.member i ∈ c.members ∧
        (c.member i).step c.backing a = some (c'.member i, c'.backing) := by
  cases e with
  | tick clock =>
    simp only [Cohort.step, Option.some.injEq] at h
    subst h
    exact .inl ⟨rfl, fun _ => nofun⟩
  | act j a =>
    obtain ⟨m, m', b', hj, hs, rfl⟩ := step_act h
    have hlt : j < c.members.length := (List.getElem?_eq_some_iff.mp hj).1
    by_cases hji : j = i
    · subst hji
      refine .inr ⟨a, rfl, by rw [member_of_getElem? hj]; exact List.mem_of_getElem? hj, ?_⟩
      rw [member_of_getElem? hj, member_of_getElem? (List.getElem?_set_self hlt)]
      exact hs
    · refine .inl ⟨?_, fun a' he => hji (Turn.act.inj he).1⟩
      simp [member, List.getD_eq_getElem?_getD, List.getElem?_set_ne hji]

theorem held_step (hs : c.Sound id) {e : Turn α} (h : c.step e = some c') (he : e.stores = false) :
    c'.held id = c.held id := by
  cases e with
  | tick clock =>
    simp only [Cohort.step, Option.some.injEq] at h
    subst h
    rfl
  | act j a =>
    obtain ⟨m, m', b', hj, hstep, rfl⟩ := step_act h
    rcases (hs.members m (List.mem_of_getElem? hj)).step_source hs.writable hs.answers hstep with
      same | ⟨t, v, rfl, -⟩
    · exact same
    · simp [Turn.stores] at he

theorem writing_step (hs : c.Sound id) {e : Turn α} (h : c.step e = some c') {i : Nat}
    (he : e ≠ .act i .endWrite) {t : WriteTicket} {v : α} {r : Option (Outcome Lineage)}
    (hw : (c.member i).writing = some (t, v, r)) :
    ∃ r', (c'.member i).writing = some (t, v, r') ∧ ∀ x ∈ r, r' = some x := by
  rcases step_at i h with ⟨same, -⟩ | ⟨a, rfl, mem, hstep⟩
  · exact ⟨r, same ▸ hw, fun x hx => hx⟩
  rcases Member.step_cases hs.writable hs.answers hstep with ⟨-, e, -⟩ | ⟨-, -, ⟨stats, e⟩, -⟩ |
    ⟨-, r', -, e, -⟩ | ⟨v', -, hn, -⟩ | ⟨-, t', v', hs', ⟨-, e, -⟩ | ⟨-, e, -⟩⟩ | ⟨rfl, -⟩
  · exact ⟨r, by rw [e, hw], fun x hx => hx⟩
  · exact ⟨r, by rw [e]; exact hw, fun x hx => hx⟩
  · exact ⟨r, by rw [e]; exact hw, fun x hx => hx⟩
  · simp [hn] at hw
  · rw [hw, Option.some.injEq, Prod.mk.injEq, Prod.mk.injEq] at hs'
    obtain ⟨rfl, rfl, rfl⟩ := hs'
    exact ⟨_, by rw [e], nofun⟩
  · rw [hw, Option.some.injEq, Prod.mk.injEq, Prod.mk.injEq] at hs'
    obtain ⟨rfl, rfl, rfl⟩ := hs'
    exact ⟨_, by rw [e], nofun⟩
  · exact absurd rfl he

theorem stamp_step (hs : c.Sound id) {e : Turn α} (h : c.step e = some c') {i : Nat}
    (hi : e ≠ .act i .install) (he : e ≠ .act i .endWrite) :
    (c'.member i).proxy.stamp = (c.member i).proxy.stamp := by
  rcases step_at i h with ⟨same, -⟩ | ⟨a, rfl, mem, hstep⟩
  · rw [same]
  rcases Member.step_cases hs.writable hs.answers hstep with ⟨-, e, -⟩ | ⟨-, -, ⟨stats, e⟩, -⟩ |
    ⟨rfl, -⟩ | ⟨v', -, -, e, -⟩ | ⟨-, t', v', -, ⟨-, e, -⟩ | ⟨-, e, -⟩⟩ | ⟨rfl, -⟩
  · rw [e]
  · rw [e]
  · exact absurd rfl hi
  · rw [e]
  · rw [e]
  · rw [e]
  · exact absurd rfl he

theorem loading_step (hs : c.Sound id) {e : Turn α} (h : c.step e = some c') {i : Nat}
    (hi : e ≠ .act i .install) {o : Outcome (Option (RemoteValue α))}
    (hl : (c.member i).loading = some o) : (c'.member i).loading = some o := by
  rcases step_at i h with ⟨same, -⟩ | ⟨a, rfl, mem, hstep⟩
  · rw [same, hl]
  rcases Member.step_cases hs.writable hs.answers hstep with ⟨-, e, -⟩ | ⟨-, hn, -⟩ |
    ⟨rfl, -⟩ | ⟨v', -, -, e, -⟩ | ⟨-, t', v', -, ⟨-, e, -⟩ | ⟨-, e, -⟩⟩ | ⟨-, t, v, r, -, e, -⟩
  · rw [e, hl]
  · simp [hn] at hl
  · exact absurd rfl hi
  · rw [e, hl]
  · rw [e, hl]
  · rw [e, hl]
  · rw [e, hl]

theorem writing_run {es : List (Turn α)} (hc : Reachable id c) (hr : c.run es = some c') {i : Nat}
    (he : Turn.act i .endWrite ∉ es) {t : WriteTicket} {v : α} {r : Option (Outcome Lineage)}
    (hw : (c.member i).writing = some (t, v, r)) :
    ∃ r', (c'.member i).writing = some (t, v, r') ∧ ∀ x ∈ r, r' = some x := by
  refine (Reachable.run_keeps (Q := fun e => e ≠ .act i .endWrite)
    (P := fun c => ∃ r', (c.member i).writing = some (t, v, r') ∧ ∀ x ∈ r, r' = some x) ?_
    hc hr (fun e h h' => he (h' ▸ h)) ⟨r, hw, fun _ h => h⟩).2
  rintro c c' e hc he' h ⟨r', hw', keep⟩
  obtain ⟨r'', hw'', keep'⟩ := writing_step hc.sound h he' hw'
  exact ⟨r'', hw'', fun x hx => keep' x (keep x hx)⟩

theorem member_mem {i : Nat} (h : (c.member i).writing.isSome) : c.member i ∈ c.members := by
  unfold member at h ⊢
  rw [List.getD_eq_getElem?_getD] at h ⊢
  cases hi : c.members[i]? with
  | none => simp [hi] at h; cases h
  | some m => simpa using List.mem_of_getElem? hi

theorem startWrite_at (hs : c.Sound id) {i : Nat} {v : α}
    (h : c.step (.act i (.startWrite v)) = some c') :
    c.member i ∈ c.members ∧ (c.member i).writing = none ∧
      (c'.member i).writing = some (⟨(c.member i).proxy.version,
        (c.member i).proxy.version.append (c.member i).options.node false
          (c.member i).options.maxRun, (c.member i).proxy.owner⟩, v, none) := by
  rcases step_at i h with ⟨-, ne⟩ | ⟨a, he, mem, hstep⟩
  · exact absurd rfl (ne _)
  obtain rfl := (Turn.act.inj he).2
  rcases Member.step_cases hs.writable hs.answers hstep with ⟨ha, -⟩ | ⟨ha, -⟩ | ⟨ha, -⟩ |
    ⟨v', ha, hn, e, -⟩ | ⟨ha, -⟩ | ⟨ha, -⟩
  · rcases ha with ha | ha <;> cases ha
  · rcases ha with ha | ha <;> cases ha
  · cases ha
  · cases ha
    rw [e]
    exact ⟨mem, hn, rfl⟩
  · cases ha
  · cases ha

theorem store_at (hs : c.Sound id) {i : Nat} (h : c.step (.act i .store) = some c') :
    ∃ t v, (c.member i).writing = some (t, v, none) ∧
      (((c.stored id).compare t.previous = .same ∧
          (c'.member i).writing = some (t, v, some (.ok t.next)) ∧
          ∃ o, c'.held id = some ⟨v, t.next, o⟩) ∨
        ((c.stored id).compare t.previous ≠ .same ∧
          (c'.member i).writing = some (t, v, some (.error
            (.versionConflict id.render t.previous.render (c.stored id).render))) ∧
          c'.backing.source = c.backing.source)) := by
  rcases step_at i h with ⟨-, ne⟩ | ⟨a, he, mem, hstep⟩
  · exact absurd rfl (ne _)
  obtain rfl := (Turn.act.inj he).2
  have hid := (hs.members _ mem).id
  rcases Member.step_cases hs.writable hs.answers hstep with ⟨ha, -⟩ | ⟨ha, -⟩ | ⟨ha, -⟩ |
    ⟨v', ha, -⟩ | ⟨-, t, v, hw, ⟨same, e, eb⟩ | ⟨differ, e, eb⟩⟩ | ⟨ha, -⟩
  · rcases ha with ha | ha <;> cases ha
  · rcases ha with ha | ha <;> cases ha
  · cases ha
  · cases ha
  · refine ⟨t, v, hw, .inl ⟨by rwa [← hid], by rw [e], (c.held id).bind (·.owner), ?_⟩⟩
    rw [held, eb, hid]
    simp [held]
  · refine ⟨t, v, hw, .inr ⟨by rwa [← hid], by rw [e, ← hid]; rfl, by rw [eb]⟩⟩
  · cases ha

theorem endWrite_at (hs : c.Sound id) {i : Nat} (h : c.step (.act i .endWrite) = some c') :
    ∃ t v r, (c.member i).writing = some (t, v, some r) ∧
      (c'.member i).proxy = ((c.member i).proxy.finishWrite c.backing t v r).1 ∧
      (c'.member i).writing = none := by
  rcases step_at i h with ⟨-, ne⟩ | ⟨a, he, -, hstep⟩
  · exact absurd rfl (ne _)
  obtain rfl := (Turn.act.inj he).2
  rcases Member.step_cases hs.writable hs.answers hstep with ⟨ha, -⟩ | ⟨ha, -⟩ | ⟨ha, -⟩ |
    ⟨v', ha, -⟩ | ⟨ha, -⟩ | ⟨-, t, v, r, hw, e, -⟩
  · rcases ha with ha | ha <;> cases ha
  · rcases ha with ha | ha <;> cases ha
  · cases ha
  · cases ha
  · cases ha
  · exact ⟨t, v, r, hw, by rw [e], by rw [e]⟩

/-- **A write round.** A write of the member at `i` starts on a reachable cohort, other steps
run, the source stores it, more steps run, and it ends. The store succeeds exactly when the
lineage then stored is the same as the base the write read at its start, the member's cached
lineage, and the answer stays until the write ends. A success leaves the written value in the
source at the base extended by the member's node, and the member caching it there; below the top
of the range that lineage is higher than the one it replaced. A failure is a conflict: it leaves
the source as it was, the member's value and lineage as they were before the write ended, its
pending writes as they were before the write, and the member expired. -/
theorem write_round {c₀ c₁ c₂ c₃ c₄ c₅ : Cohort α} {i : Nat} {v : α} {es es' : List (Turn α)}
    (hc : Reachable id c₀) (h₁ : c₀.step (.act i (.startWrite v)) = some c₁)
    (h₂ : c₁.run es = some c₂) (he : Turn.act i .endWrite ∉ es)
    (h₃ : c₂.step (.act i .store) = some c₃)
    (h₄ : c₃.run es' = some c₄) (he' : Turn.act i .endWrite ∉ es')
    (h₅ : c₄.step (.act i .endWrite) = some c₅) :
    let base := (c₀.member i).proxy.version
    let next := base.append (c₀.member i).options.node false (c₀.member i).options.maxRun
    ∃ r, (c₃.member i).answer? = some r ∧ (c₄.member i).answer? = some r ∧
      (r = .ok next ↔ (c₂.stored id).compare base = .same) ∧
      (r = .ok next →
        (∃ o, c₃.held id = some ⟨v, next, o⟩) ∧
        (c₅.member i).proxy.value = some v ∧ (c₅.member i).proxy.version = next ∧
        (((c₂.stored id).top : Int) < i64Max → next.compare (c₂.stored id) = .higher)) ∧
      (r ≠ .ok next →
        r = .error (.versionConflict id.render base.render (c₂.stored id).render) ∧
        c₃.backing.source = c₂.backing.source ∧
        (c₅.member i).proxy.value = (c₄.member i).proxy.value ∧
        (c₅.member i).proxy.version = (c₄.member i).proxy.version ∧
        (c₅.member i).proxy.pendingWrites = (c₀.member i).proxy.pendingWrites ∧
        (c₅.member i).proxy.stamp = .forceExpired) := by
  dsimp only
  have hc₁ := hc.next h₁
  have hc₂ := hc₁.run h₂
  have hc₃ := hc₂.next h₃
  have hc₄ := hc₃.run h₄
  obtain ⟨mem₀, idle, hw₁⟩ := startWrite_at hc.sound h₁
  obtain ⟨r₂, hw₂, -⟩ := writing_run hc₁ h₂ he hw₁
  -- the write the source stores is the one that started
  obtain ⟨t, v', hw₂', outcome⟩ := store_at hc₂.sound h₃
  rw [hw₂, Option.some.injEq, Prod.mk.injEq, Prod.mk.injEq] at hw₂'
  obtain ⟨rfl, rfl, rfl⟩ := hw₂'
  have ended : ∀ t r, (c₃.member i).writing = some (t, v, some r) →
      (c₄.member i).writing = some (t, v, some r) ∧
        (c₅.member i).proxy = ((c₄.member i).proxy.finishWrite c₄.backing t v r).1 := by
    intro t r hw₃
    obtain ⟨r', hw₄, keep⟩ := writing_run hc₃ h₄ he' hw₃
    obtain rfl := keep r rfl
    obtain ⟨t', v'', r'', hw₄', hp, -⟩ := endWrite_at hc₄.sound h₅
    rw [hw₄, Option.some.injEq, Prod.mk.injEq, Prod.mk.injEq, Option.some.injEq] at hw₄'
    obtain ⟨rfl, rfl, rfl⟩ := hw₄'
    exact ⟨hw₄, hp⟩
  rcases outcome with ⟨same, hw₃, stored⟩ | ⟨differ, hw₃, unchanged⟩
  · obtain ⟨hw₄, hp⟩ := ended _ _ hw₃
    refine ⟨.ok _, by simp [Member.answer?, hw₃], by simp [Member.answer?, hw₄],
      ⟨fun _ => same, fun _ => rfl⟩, fun _ => ⟨stored, ?_, ?_, fun room => ?_⟩, fun h => absurd rfl h⟩
    · rw [hp]; rfl
    · rw [hp]; rfl
    · -- the base is a lineage of the cohort, so its magnitudes increase
      have based : c₂.Carries id (c₀.member i).proxy.version :=
        .inr ⟨_, member_mem (i := i) (by simp [hw₂]), .inr (.inr ⟨_, v, none, hw₂, .inl rfl⟩)⟩
      have hroom : ((c₀.member i).proxy.version.top : Int) < i64Max := by
        rw [← Lineage.top_eq_of_same same]
        exact room
      exact Lineage.compare_append_of_same_increasing ((hc₂.sound.ordered room).increasing _ based)
        hroom same _ _ _
  · obtain ⟨hw₄, hp⟩ := ended _ _ hw₃
    obtain ⟨hv, hver, hexp⟩ := Proxy.finishWrite_error (c₄.member i).proxy c₄.backing _ v _
    have one : (c₄.member i).proxy.pendingWrites = 1 := by
      simpa [hw₄] using ((hc₄.sound.members _ (member_mem (i := i) (by simp [hw₄]))).pending)
    have zero : (c₀.member i).proxy.pendingWrites = 0 := by
      simpa [idle] using (hc.sound.members _ mem₀).pending
    refine ⟨.error (.versionConflict id.render (c₀.member i).proxy.version.render
        (c₂.stored id).render), by simp [Member.answer?, hw₃], by simp [Member.answer?, hw₄],
      ⟨nofun, fun h => absurd h differ⟩, nofun, fun _ => ⟨rfl, unchanged, ?_, ?_, ?_, ?_⟩⟩
    · rw [hp, hv]
    · rw [hp, hver]
    · rw [hp, (Proxy.finishWrite_keeps _ _ _ _ _).2.1, one, zero]
    · rw [hp, hexp rfl]

theorem stored_eq (c : Cohort α) (id : Identity) :
    c.stored id = ((c.held id).map (·.version)).getD .empty := rfl

theorem held_run {es : List (Turn α)} (hc : Reachable id c) (hr : c.run es = some c')
    (hq : ∀ e ∈ es, e.stores = false) : c'.held id = c.held id :=
  (Reachable.run_keeps (Q := fun e => e.stores = false) (P := fun c' => c'.held id = c.held id)
    (fun _ _ _ hc he h hP => (held_step hc.sound h he).trans hP) hc hr hq rfl).2

theorem stamp_run {es : List (Turn α)} (hc : Reachable id c) (hr : c.run es = some c') {i : Nat}
    (hi : Turn.act i .install ∉ es) (he : Turn.act i .endWrite ∉ es) :
    (c'.member i).proxy.stamp = (c.member i).proxy.stamp :=
  (Reachable.run_keeps (Q := fun e => e ≠ .act i .install ∧ e ≠ .act i .endWrite)
    (P := fun c' => (c'.member i).proxy.stamp = (c.member i).proxy.stamp)
    (fun _ _ _ hc he h hP => (stamp_step hc.sound h he.1 he.2).trans hP) hc hr
    (fun _ h => ⟨fun h' => hi (h' ▸ h), fun h' => he (h' ▸ h)⟩) rfl).2

theorem loading_run {es : List (Turn α)} (hc : Reachable id c) (hr : c.run es = some c') {i : Nat}
    (hi : Turn.act i .install ∉ es) {o : Outcome (Option (RemoteValue α))}
    (hl : (c.member i).loading = some o) : (c'.member i).loading = some o :=
  (Reachable.run_keeps (Q := fun e => e ≠ .act i .install)
    (P := fun c' => (c'.member i).loading = some o)
    (fun _ _ _ hc he h hP => loading_step hc.sound h he hP) hc hr
    (fun _ h h' => hi (h' ▸ h)) hl).2

theorem load_of_expired (hs : c.Sound id) {i : Nat} {a : Act α} (ha : a = .read ∨ a = .reload)
    (hst : (c.member i).proxy.stamp = .forceExpired) (h : c.step (.act i a) = some c') :
    (c'.member i).loading = some (.ok (c.held id)) := by
  rcases step_at i h with ⟨-, ne⟩ | ⟨a', he, mem, hstep⟩
  · exact absurd rfl (ne _)
  obtain rfl := (Turn.act.inj he).2
  have hid := (hs.members _ mem).id
  have expired : ∀ p : ExpiryPolicy, p.freshness (c.member i).proxy.stamp c.backing.clock = .reload :=
    fun p => by rw [hst]; rfl
  -- the value has to be reloaded, so the step is a load, counted as a background one or not
  rcases ha with rfl | rfl <;> simp only [Member.step, expired] at hstep
  · rw [if_neg (by decide)] at hstep
    split at hstep
    · cases hstep
    · rw [Option.some.injEq, Member.fetch_eq hs.answers, Prod.mk.injEq] at hstep
      rw [← hstep.1, held, ← hid]
  · split at hstep
    · cases hstep
    · rw [if_neg (by decide), Option.some.injEq, Member.fetch_eq hs.answers, Prod.mk.injEq] at hstep
      rw [← hstep.1, held, ← hid]

theorem install_exact (hs : c.Sound id) (room : ((c.stored id).top : Int) < i64Max) {i : Nat}
    {found : Option (RemoteValue α)} (hl : (c.member i).loading = some (.ok found))
    (hidle : (c.member i).writing = none) (h : c.step (.act i .install) = some c') :
    (c'.member i).proxy.value = found.map (·.value) ∧
      (c'.member i).proxy.version = (found.map (·.version)).getD .empty ∧
      (c'.member i).writing = none ∧ (c'.member i).loading = none := by
  rcases step_at i h with ⟨-, ne⟩ | ⟨a, he, mem, hstep⟩
  · exact absurd rfl (ne _)
  obtain rfl := (Turn.act.inj he).2
  have hm := hs.members _ mem
  have pending : (c.member i).proxy.pendingWrites = 0 := by simpa [hidle] using hm.pending
  rcases Member.step_cases hs.writable hs.answers hstep with ⟨ha, -⟩ | ⟨ha, -⟩ |
    ⟨-, r, hr, e, -⟩ | ⟨v', ha, -⟩ | ⟨ha, -⟩ | ⟨ha, -⟩
  · rcases ha with ha | ha <;> cases ha
  · rcases ha with ha | ha <;> cases ha
  · rw [hl, Option.some.injEq] at hr
    subst hr
    rw [e]
    refine ⟨?_, ?_, hidle, rfl⟩ <;> rcases found with _ | remote
    · exact (Proxy.settle_none_of_idle pending).1
    · -- the member's cached value at the lineage found is the value found
      have agree : ∀ x, (c.member i).proxy.value = some x →
          (c.member i).proxy.version = remote.version → x = remote.value := fun x hx hv =>
        (hs.ordered room).agree x remote.value remote.version (.inr ⟨_, mem, .inl ⟨hx, hv⟩⟩)
          (.inr ⟨_, mem, .inr (.inl ⟨remote.owner, hl⟩)⟩)
      exact (Proxy.settle_some_of_idle pending agree).1
    · exact (Proxy.settle_none_of_idle pending).2
    · have agree : ∀ x, (c.member i).proxy.value = some x →
          (c.member i).proxy.version = remote.version → x = remote.value := fun x hx hv =>
        (hs.ordered room).agree x remote.value remote.version (.inr ⟨_, mem, .inl ⟨hx, hv⟩⟩)
          (.inr ⟨_, mem, .inr (.inl ⟨remote.owner, hl⟩)⟩)
      exact (Proxy.settle_some_of_idle pending agree).2
  · cases ha
  · cases ha
  · cases ha

/-- The member at `i` is caught up with the source: no write in progress, holding exactly what
the source holds for `id`, and with no load in flight but one that read that. -/
def Caught (id : Identity) (i : Nat) (c : Cohort α) : Prop :=
  (c.member i).writing = none ∧ (c.member i).proxy.value = (c.held id).map (·.value) ∧
    (c.member i).proxy.version = c.stored id ∧ ∀ o ∈ (c.member i).loading, o = .ok (c.held id)

/-- The member at `i` is caught up, or has a write waiting for its store. -/
def Poised (id : Identity) (i : Nat) (c : Cohort α) : Prop :=
  c.Caught id i ∨ ∃ t v, (c.member i).writing = some (t, v, none)

theorem poised_step (hs : c.Sound id) {e : Turn α} (h : c.step e = some c') (he : e.stores = false)
    {i : Nat} (hp : c.Poised id i) : c'.Poised id i := by
  have held := held_step hs h he
  have stored : c'.stored id = c.stored id := by rw [stored_eq, held, ← stored_eq]
  rcases step_at i h with ⟨same, -⟩ | ⟨a, rfl, mem, hstep⟩
  · rcases hp with ⟨hw, hv, hver, hl⟩ | waiting
    · exact .inl ⟨by rw [same, hw], by rw [same, hv, held], by rw [same, hver, stored],
        by rw [same, held]; exact hl⟩
    · exact .inr (same ▸ waiting)
  have hm := hs.members _ mem
  rcases hp with ⟨hw, hv, hver, hl⟩ | ⟨t, v, hw⟩ <;>
  rcases Member.step_cases hs.writable hs.answers hstep with ⟨-, e, -⟩ | ⟨-, -, ⟨stats, e⟩, -⟩ |
    ⟨-, r, hr, e, -⟩ | ⟨v', -, hn, e, -⟩ | ⟨rfl, -⟩ | ⟨-, t', v', r', hw', -⟩
  · exact .inl ⟨by rw [e, hw], by rw [e, hv, held], by rw [e, hver, stored], by rw [e, held]; exact hl⟩
  · refine .inl ⟨by rw [e]; exact hw, by rw [e, held]; exact hv, by rw [e, stored]; exact hver, ?_⟩
    rw [e, held, ← hm.id]
    simp [Cohort.held]
  · -- taking in what the source holds leaves the member holding it
    obtain rfl := hl r hr
    have pending : (c.member i).proxy.pendingWrites = 0 := by simpa [hw] using hm.pending
    have exact : ((c.member i).proxy.settle c.backing (.ok (c.held id))).1.value =
          (c.held id).map (·.value) ∧
        ((c.member i).proxy.settle c.backing (.ok (c.held id))).1.version = c.stored id := by
      rw [stored_eq]
      rcases hfound : c.held id with _ | remote
      · simpa using Proxy.settle_none_of_idle pending
      · have agree : ∀ x, (c.member i).proxy.value = some x →
            (c.member i).proxy.version = remote.version → x = remote.value := fun x hx _ => by
          rw [hv, hfound] at hx
          simpa using hx.symm
        simpa using Proxy.settle_some_of_idle pending agree
    exact .inl ⟨by rw [e]; exact hw, by rw [e, held]; exact exact.1, by rw [e, stored]; exact exact.2,
      by rw [e]; nofun⟩
  · exact .inr ⟨_, v', by rw [e]⟩
  · simp [Turn.stores] at he
  · simp [hw] at hw'
  · exact .inr ⟨t, v, by rw [e, hw]⟩
  · exact .inr ⟨t, v, by rw [e]; exact hw⟩
  · exact .inr ⟨t, v, by rw [e]; exact hw⟩
  · simp [hw] at hn
  · simp [Turn.stores] at he
  · simp [hw] at hw'

theorem poised_run {es : List (Turn α)} (hc : Reachable id c) (hr : c.run es = some c') {i : Nat}
    (hq : ∀ e ∈ es, e.stores = false) (hp : c.Poised id i) : c'.Poised id i :=
  (Reachable.run_keeps (Q := fun e => e.stores = false) (P := fun c => c.Poised id i)
    (fun _ _ _ hc he h hP => poised_step hc.sound h he hP) hc hr hq hp).2

theorem waiting_run {es : List (Turn α)} (hc : Reachable id c) (hr : c.run es = some c') {i : Nat}
    (hq : ∀ e ∈ es, e.stores = false) {t : WriteTicket} {v : α}
    (hw : (c.member i).writing = some (t, v, none)) : (c'.member i).writing = some (t, v, none) := by
  refine (Reachable.run_keeps (Q := fun e => e.stores = false)
    (P := fun c => (c.member i).writing = some (t, v, none)) ?_ hc hr hq hw).2
  intro c c' e hc he h hw
  have hs := hc.sound
  rcases step_at i h with ⟨same, -⟩ | ⟨a, rfl, -, hstep⟩
  · rw [same, hw]
  rcases Member.step_cases hs.writable hs.answers hstep with ⟨-, e, -⟩ | ⟨-, -, ⟨stats, e⟩, -⟩ |
    ⟨-, r, -, e, -⟩ | ⟨v', -, hn, -⟩ | ⟨rfl, -⟩ | ⟨-, t', v', r', hw', -⟩
  · rw [e, hw]
  · rw [e]; exact hw
  · rw [e]; exact hw
  · simp [hw] at hn
  · simp [Turn.stores] at he
  · simp [hw] at hw'

/-- **Recovery after a conflict.** A write of the member at `i` ends with a conflict on a
reachable cohort. Until the member takes in a load or ends another write it stays expired, so its
next read or reload reads the source. Below the top of the range, that load, taken in while no
write of the member is in progress, leaves the member holding exactly what it read: the value and
lineage stored then, or nothing. A write of the member started after that succeeds when nothing
was stored since the load read the source. -/
theorem conflict_recovery {c₀ c₁ c₂ c₃ c₄ c₅ c₆ c₇ c₈ c₉ : Cohort α} {i : Nat} {f : Fault}
    {a : Act α} {w : α} {es₁ es₂ es₃ es₄ : List (Turn α)}
    (hc : Reachable id c₀) (hconf : (c₀.member i).answer? = some (.error f))
    (h₁ : c₀.step (.act i .endWrite) = some c₁)
    (h₂ : c₁.run es₁ = some c₂) (hi₁ : Turn.act i .install ∉ es₁)
    (he₁ : Turn.act i .endWrite ∉ es₁)
    (ha : a = .read ∨ a = .reload) (h₃ : c₂.step (.act i a) = some c₃)
    (h₄ : c₃.run es₂ = some c₄) (hi₂ : Turn.act i .install ∉ es₂) (hq₂ : ∀ e ∈ es₂, e.stores = false)
    (hidle : (c₄.member i).writing = none) (h₅ : c₄.step (.act i .install) = some c₅)
    (room : ((c₂.stored id).top : Int) < i64Max)
    (h₆ : c₅.run es₃ = some c₆) (hq₃ : ∀ e ∈ es₃, e.stores = false)
    (h₇ : c₆.step (.act i (.startWrite w)) = some c₇)
    (h₈ : c₇.run es₄ = some c₈) (hq₄ : ∀ e ∈ es₄, e.stores = false)
    (h₉ : c₈.step (.act i .store) = some c₉) :
    (c₂.member i).proxy.stamp = .forceExpired ∧
      (c₃.member i).loading = some (.ok (c₂.held id)) ∧
      (c₅.member i).proxy.value = (c₂.held id).map (·.value) ∧
      (c₅.member i).proxy.version = c₂.stored id ∧
      ∃ n, (c₉.member i).answer? = some (.ok n) := by
  have hc₁ := hc.next h₁
  have hc₂ := hc₁.run h₂
  have hc₃ := hc₂.next h₃
  have hc₄ := hc₃.run h₄
  have hc₅ := hc₄.next h₅
  have hc₆ := hc₅.run h₆
  have hc₇ := hc₆.next h₇
  have hc₈ := hc₇.run h₈
  -- the write was answered with a conflict, which expired the member
  obtain ⟨t, v, r, hw₀, hp₁, -⟩ := endWrite_at hc.sound h₁
  obtain rfl : r = .error f := by simpa [Member.answer?, hw₀] using hconf
  have conflict : f.isConflict = true := by
    have hm := hc.sound.members _ (member_mem (i := i) (by simp [hw₀]))
    rcases (hm.ticket t v _ hw₀).2 _ rfl with h | ⟨f', h, hf⟩
    · cases h
    · cases h
      exact hf
  have expired₂ : (c₂.member i).proxy.stamp = .forceExpired := by
    rw [stamp_run hc₁ h₂ hi₁ he₁, hp₁]
    exact (Proxy.finishWrite_error _ _ _ _ _).2.2 conflict
  -- so its next read or reload reads the source, and the load stays in flight
  have loaded₃ := load_of_expired hc₂.sound ha expired₂ h₃
  have loaded₄ := loading_run hc₃ h₄ hi₂ loaded₃
  -- nothing is stored until the member's next write
  have held₃ : c₃.held id = c₂.held id := held_step hc₂.sound h₃ (by rcases ha with rfl | rfl <;> rfl)
  have held₄ : c₄.held id = c₂.held id := (held_run hc₃ h₄ hq₂).trans held₃
  have held₅ : c₅.held id = c₂.held id := (held_step hc₄.sound h₅ rfl).trans held₄
  have stored₄ : c₄.stored id = c₂.stored id := by rw [stored_eq, held₄, ← stored_eq]
  obtain ⟨hv₅, hver₅, hw₅, hl₅⟩ := install_exact hc₄.sound (stored₄ ▸ room) loaded₄ hidle h₅
  -- the member is caught up, so its next write is based on the stored lineage
  have caught₅ : c₅.Caught id i :=
    ⟨hw₅, by rw [hv₅, held₅], by rw [hver₅, stored_eq, held₅], by rw [hl₅]; nofun⟩
  obtain ⟨-, idle₆, hw₇⟩ := startWrite_at hc₆.sound h₇
  have caught₆ : c₆.Caught id i :=
    (poised_run hc₅ h₆ hq₃ (.inl caught₅)).resolve_right fun ⟨_, _, h⟩ => by simp [idle₆] at h
  have stored₈ : c₈.stored id = c₆.stored id := by
    rw [stored_eq, held_run hc₇ h₈ hq₄, held_step hc₆.sound h₇ rfl, ← stored_eq]
  obtain ⟨t', w', hw₈, outcome⟩ := store_at hc₈.sound h₉
  rw [waiting_run hc₇ h₈ hq₄ hw₇, Option.some.injEq, Prod.mk.injEq, Prod.mk.injEq] at hw₈
  obtain ⟨rfl, rfl, -⟩ := hw₈
  refine ⟨expired₂, loaded₃, hv₅, by rw [hver₅, stored_eq], ?_⟩
  rcases outcome with ⟨-, hw₉, -⟩ | ⟨differ, -⟩
  · exact ⟨_, by rw [Member.answer?, hw₉]; rfl⟩
  · -- the write's base is the stored lineage, so the store cannot conflict
    refine absurd ?_ differ
    simp only [stored₈, caught₆.2.2.1]
    exact Lineage.compare_self _

/-- The identity `quote:eur`. -/
def quoteId : Identity := ⟨"quote", "eur", none⟩

/-- Proxies of `quote:eur` on nodes `n1` and `n2`, reloading after a minute, over a writable
source that holds `held` and answers every call, at time 1000. -/
def quotes (held : List (Identity × RemoteValue Nat)) : Cohort Nat :=
  ⟨⟨⟨held, 0, 0⟩, true, ⟨[]⟩, .none, 1000⟩,
    [⟨⟨"n1", 5, .blocking 60000, false⟩, Proxy.create quoteId 1, none, none⟩,
      ⟨⟨"n2", 5, .blocking 60000, false⟩, Proxy.create quoteId 2, none, none⟩]⟩

/-- The proxies of `quotes []` after the first `k` of a series of steps. -/
def quotesAt (es : List (Turn Nat)) (k : Nat) : Cohort Nat :=
  ((quotes []).run (es.take k)).getD (quotes [])

theorem quotesAt_reachable (es : List (Turn Nat)) (k : Nat)
    (h : ((quotes []).run (es.take k)).isSome) : Reachable quoteId (quotesAt es k) := by
  have start : Start quoteId (quotes []) :=
    ⟨by simp [quotes, Proxy.create], rfl, rfl, List.Pairwise.nil⟩
  obtain ⟨c, hc⟩ := Option.isSome_iff_exists.mp h
  have : quotesAt es k = c := by simp [quotesAt, hc]
  exact this ▸ (Reachable.start start).run hc

theorem quotesAt_step (es : List (Turn Nat)) (k : Nat) {e : Turn Nat} (he : es[k]? = some e)
    (h : ((quotes []).run (es.take (k + 1))).isSome) :
    (quotesAt es k).step e = some (quotesAt es (k + 1)) := by
  have split : es.take (k + 1) = es.take k ++ [e] := by rw [List.take_add_one, he]; rfl
  rw [split] at h
  obtain ⟨c', hc'⟩ := Option.isSome_iff_exists.mp h
  rw [run_append, Option.bind_eq_some_iff] at hc'
  obtain ⟨c, hc, hstep⟩ := hc'
  obtain ⟨c'', hs, hr⟩ := Option.bind_eq_some_iff.mp hstep
  cases hr
  simp only [quotesAt, split, hc, Option.getD_some, run_append, Option.bind_some, hs, run]

/-- `n1` writes `1`; `n2` loads it and writes `2` on top; `n1` then writes `3` on its stale base,
and the source answers with a conflict. -/
def lostRace : List (Turn Nat) :=
  [.act 0 (.startWrite 1), .act 0 .store, .act 0 .endWrite,
    .act 1 .read, .act 1 .install, .act 1 (.startWrite 2), .act 1 .store, .act 1 .endWrite,
    .act 0 (.startWrite 3), .act 0 .store]

/-- After losing the race, `n1` ends its write, reads the source, takes in what it read, and
writes `4`. -/
def recovery : List (Turn Nat) :=
  lostRace ++ [.act 0 .endWrite, .act 0 .read, .act 0 .install, .act 0 (.startWrite 4), .act 0 .store]

/-- **The write protocol of proxies of one identity.** On a reachable cohort, a write round
(`write_round`): the store succeeds exactly when the stored lineage is the same as the write's
base; a success leaves the written value at the base extended by the writer in the source and in
the writer, above the replaced lineage below the top of the range; a failure is a version
conflict naming the identity, the write's base and the stored lineage, that changes neither the source nor the writer's value, lineage and pending writes, and expires the
writer. And recovery after a conflict (`conflict_recovery`): the writer's next load reads the
source; taken in with no write of it in progress, below the top of the range, it leaves the
writer holding exactly what it read; and a write started after that, with nothing stored since
the load, succeeds. -/
theorem write_protocol (id : Identity) :
    (∀ {c₀ c₁ c₂ c₃ c₄ c₅ : Cohort α} {i : Nat} {v : α} {es es' : List (Turn α)},
      Reachable id c₀ → c₀.step (.act i (.startWrite v)) = some c₁ →
      c₁.run es = some c₂ → Turn.act i .endWrite ∉ es →
      c₂.step (.act i .store) = some c₃ →
      c₃.run es' = some c₄ → Turn.act i .endWrite ∉ es' →
      c₄.step (.act i .endWrite) = some c₅ →
      let base := (c₀.member i).proxy.version
      let next := base.append (c₀.member i).options.node false (c₀.member i).options.maxRun
      ∃ r, (c₃.member i).answer? = some r ∧ (c₄.member i).answer? = some r ∧
        (r = .ok next ↔ (c₂.stored id).compare base = .same) ∧
        (r = .ok next →
          (∃ o, c₃.held id = some ⟨v, next, o⟩) ∧
          (c₅.member i).proxy.value = some v ∧ (c₅.member i).proxy.version = next ∧
          (((c₂.stored id).top : Int) < i64Max → next.compare (c₂.stored id) = .higher)) ∧
        (r ≠ .ok next →
          r = .error (.versionConflict id.render base.render (c₂.stored id).render) ∧
          c₃.backing.source = c₂.backing.source ∧
          (c₅.member i).proxy.value = (c₄.member i).proxy.value ∧
          (c₅.member i).proxy.version = (c₄.member i).proxy.version ∧
          (c₅.member i).proxy.pendingWrites = (c₀.member i).proxy.pendingWrites ∧
          (c₅.member i).proxy.stamp = .forceExpired)) ∧
    (∀ {c₀ c₁ c₂ c₃ c₄ c₅ c₆ c₇ c₈ c₉ : Cohort α} {i : Nat} {f : Fault}
      {a : Act α} {w : α} {es₁ es₂ es₃ es₄ : List (Turn α)},
      Reachable id c₀ → (c₀.member i).answer? = some (.error f) →
      c₀.step (.act i .endWrite) = some c₁ →
      c₁.run es₁ = some c₂ → Turn.act i .install ∉ es₁ → Turn.act i .endWrite ∉ es₁ →
      (a = .read ∨ a = .reload) → c₂.step (.act i a) = some c₃ →
      c₃.run es₂ = some c₄ → Turn.act i .install ∉ es₂ → (∀ e ∈ es₂, e.stores = false) →
      (c₄.member i).writing = none → c₄.step (.act i .install) = some c₅ →
      ((c₂.stored id).top : Int) < i64Max →
      c₅.run es₃ = some c₆ → (∀ e ∈ es₃, e.stores = false) →
      c₆.step (.act i (.startWrite w)) = some c₇ →
      c₇.run es₄ = some c₈ → (∀ e ∈ es₄, e.stores = false) →
      c₈.step (.act i .store) = some c₉ →
      (c₂.member i).proxy.stamp = .forceExpired ∧
        (c₃.member i).loading = some (.ok (c₂.held id)) ∧
        (c₅.member i).proxy.value = (c₂.held id).map (·.value) ∧
        (c₅.member i).proxy.version = c₂.stored id ∧
        ∃ n, (c₉.member i).answer? = some (.ok n)) :=
  ⟨write_round, conflict_recovery⟩

/-- The first write of `n1` stores `1` at `n1+1`. After losing the race to `n2`, the proxy of
`n1` reads the source, takes in `2` at `n1+1;n2+2`, and its next write stores `4`. -/
theorem write_protocol_quotes :
    (let base := ((quotesAt lostRace 0).member 0).proxy.version
      let next := base.append ((quotesAt lostRace 0).member 0).options.node false
        ((quotesAt lostRace 0).member 0).options.maxRun
      ∃ r, ((quotesAt lostRace 2).member 0).answer? = some r ∧
        ((quotesAt lostRace 2).member 0).answer? = some r ∧
        (r = .ok next ↔ ((quotesAt lostRace 1).stored quoteId).compare base = .same) ∧
        (r = .ok next →
          (∃ o, (quotesAt lostRace 2).held quoteId = some ⟨1, next, o⟩) ∧
          ((quotesAt lostRace 3).member 0).proxy.value = some 1 ∧
          ((quotesAt lostRace 3).member 0).proxy.version = next ∧
          ((((quotesAt lostRace 1).stored quoteId).top : Int) < i64Max →
            next.compare ((quotesAt lostRace 1).stored quoteId) = .higher)) ∧
        (r ≠ .ok next →
          r = .error (.versionConflict quoteId.render base.render
            ((quotesAt lostRace 1).stored quoteId).render) ∧
          (quotesAt lostRace 2).backing.source = (quotesAt lostRace 1).backing.source ∧
          ((quotesAt lostRace 3).member 0).proxy.value =
            ((quotesAt lostRace 2).member 0).proxy.value ∧
          ((quotesAt lostRace 3).member 0).proxy.version =
            ((quotesAt lostRace 2).member 0).proxy.version ∧
          ((quotesAt lostRace 3).member 0).proxy.pendingWrites =
            ((quotesAt lostRace 0).member 0).proxy.pendingWrites ∧
          ((quotesAt lostRace 3).member 0).proxy.stamp = .forceExpired)) ∧
    ((quotesAt recovery 11).member 0).proxy.stamp = .forceExpired ∧
      ((quotesAt recovery 12).member 0).loading = some (.ok ((quotesAt recovery 11).held quoteId)) ∧
      ((quotesAt recovery 13).member 0).proxy.value =
        ((quotesAt recovery 11).held quoteId).map (·.value) ∧
      ((quotesAt recovery 13).member 0).proxy.version = (quotesAt recovery 11).stored quoteId ∧
      ∃ n, ((quotesAt recovery 15).member 0).answer? = some (.ok n) := by
  obtain ⟨round, recover⟩ := write_protocol (α := Nat) quoteId
  have none₁ : Turn.act 0 .install ∉ ([] : List (Turn Nat)) := List.not_mem_nil
  have none₂ : Turn.act 0 .endWrite ∉ ([] : List (Turn Nat)) := List.not_mem_nil
  have quiet : ∀ e ∈ ([] : List (Turn Nat)), e.stores = false :=
    fun _ h => absurd h List.not_mem_nil
  exact ⟨@round (quotesAt lostRace 0) (quotesAt lostRace 1) (quotesAt lostRace 1)
      (quotesAt lostRace 2) (quotesAt lostRace 2) (quotesAt lostRace 3) 0 1 [] []
      (quotesAt_reachable _ 0 rfl) (quotesAt_step _ 0 rfl rfl) rfl none₂
      (quotesAt_step _ 1 rfl rfl) rfl none₂ (quotesAt_step _ 2 rfl rfl),
    @recover (quotesAt recovery 10) (quotesAt recovery 11) (quotesAt recovery 11)
      (quotesAt recovery 12) (quotesAt recovery 12) (quotesAt recovery 13) (quotesAt recovery 13)
      (quotesAt recovery 14) (quotesAt recovery 14) (quotesAt recovery 15) 0
      (.versionConflict quoteId.render (Lineage.render ⟨[⟨"n1", 1⟩]⟩)
        (Lineage.render ⟨[⟨"n1", 1⟩, ⟨"n2", 2⟩]⟩)) .read 4 [] [] [] []
      (quotesAt_reachable _ 10 rfl) rfl (quotesAt_step _ 10 rfl rfl) rfl none₁ none₂ (.inl rfl)
      (quotesAt_step _ 11 rfl rfl) rfl none₁ quiet rfl (quotesAt_step _ 12 rfl rfl) (by decide)
      rfl quiet (quotesAt_step _ 13 rfl rfl) rfl quiet (quotesAt_step _ 14 rfl rfl)⟩

/-- Where the write protocol stops. At the top of the range, `n1` writes on a stored lineage whose
newest tag is `r+7fffffffffffffff`: the store succeeds, and the lineage stored conflicts with the
one it replaced instead of being higher. And after losing the race, the proxy of `n1` starts its
next write before reading: the read loads `2` at `n1+1;n2+2` while the write is pending, and
taking it in keeps `1` at `n1+1` cached. -/
theorem write_protocol_gaps :
    ((quotes [(quoteId, ⟨7, ⟨[⟨"r", i64Max⟩]⟩, none⟩)]).run
        [.act 0 .read, .act 0 .install, .act 0 (.startWrite 1), .act 0 .store]).map
      (fun c => ((c.member 0).answer?, (c.stored quoteId).compare ⟨[⟨"r", i64Max⟩]⟩)) =
      some (some (.ok ⟨[⟨"r", i64Max⟩, ⟨"n1", i64Max⟩]⟩), .conflict) ∧
    ((quotes []).run (lostRace ++ [.act 0 .endWrite, .act 0 (.startWrite 4), .act 0 .read,
        .act 0 .install])).map
      (fun c => ((c.member 0).proxy.value, (c.member 0).proxy.version,
        (c.held quoteId).map (·.value), c.stored quoteId)) =
      some (some 1, ⟨[⟨"n1", 1⟩]⟩, some 2, ⟨[⟨"n1", 1⟩, ⟨"n2", 2⟩]⟩) :=
  ⟨rfl, rfl⟩

end Cohort

end Stowage.Remote
