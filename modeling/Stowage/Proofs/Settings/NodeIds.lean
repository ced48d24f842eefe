import Stowage.Proofs.Lineage.Stamped
import Stowage.Proofs.Identity.Text
import Stowage.Settings.Basic
/-!
Node ids the settings accept.

A node id ends up inside three texts: the tags of the lineages it writes, split at their last
mark and joined by `;`; the identities it owns, split at the first `:` and then at the first
`@`; and, in the soak, the ids `n-0`, `n-1`, … of the nodes it starts. The settings check
refuses an empty id and one holding `;`, `@` or a blank, and nothing else, so an accepted id may
hold marks, hexadecimal digits and `:`. None of these breaks a split: the magnitude after the
last mark is all digits, a tag holds `;` only in its node, and the kind before the first `:` and
the key before the first `@` are checked apart from the owner. Hence every lineage an accepted
node writes and every identity it owns read back from their texts, and a dash and a number keep
the id accepted.
-/
namespace Stowage

namespace Version.Lineage

theorem valid_empty : empty.Valid := fun _ h => absurd h List.not_mem_nil

theorem Valid.append {l : Lineage} (hv : l.Valid) {node : String} (hnode : Tag.NodeValid node)
    (isDelete : Bool) (maxRun : Nat) : (l.append node isDelete maxRun).Valid := by
  intro u hu
  rcases mem_append hu with hu | rfl
  · exact hv u hu
  · exact Tag.valid_next (top_le_max hv) hnode isDelete

/-- The run lemma for readable lineages: writes by nodes a lineage can carry keep every tag
readable. -/
theorem Valid.appendAll {l : Lineage} (hv : l.Valid) {ws : List Write}
    (hws : ∀ w ∈ ws, Tag.NodeValid w.node) : (l.appendAll ws).Valid := by
  induction ws generalizing l with
  | nil => exact hv
  | cons w ws ih =>
    rw [appendAll_cons]
    exact ih (hv.append (hws w List.mem_cons_self) _ _) fun w' hw' =>
      hws w' (List.mem_cons_of_mem w hw')

end Version.Lineage

namespace Settings

open Version

/-- A node id the settings accept: not empty, and holding no `;`, no `@` and no blank. -/
structure NodeIdAccepted (id : String) : Prop where
  ne : id ≠ ""
  clean : ∀ c ∈ id.toList, c ≠ ';' ∧ c ≠ '@' ∧ Text.isBlank c = false

theorem reservedInNodeId_eq_none_iff (id : String) :
    reservedInNodeId id = none ↔ ∀ c ∈ id.toList, c ≠ ';' ∧ c ≠ '@' ∧ Text.isBlank c = false := by
  simp [reservedInNodeId, List.find?_eq_none, and_assoc]

/-- **What the settings check accepts**: a node id that is not empty and holds no reserved
character, and a positive run cap, cache capacity and pending limit. -/
theorem validate_eq_ok_iff (s : Settings) :
    s.validate = .ok () ↔ NodeIdAccepted s.node.id ∧ 0 < s.version.maxSameNodeRun ∧
      0 < s.cache.capacity ∧ 0 < s.flusher.maxPending := by
  have accepted : NodeIdAccepted s.node.id ↔
      s.node.id ≠ "" ∧ reservedInNodeId s.node.id = none := by
    rw [reservedInNodeId_eq_none_iff]
    exact ⟨fun h => ⟨h.ne, h.clean⟩, fun h => ⟨h.1, h.2⟩⟩
  rw [accepted]
  unfold validate
  by_cases hempty : s.node.id = ""
  · simp [hempty]
  · cases hr : reservedInNodeId s.node.id with
    | some c => simp [hempty]
    | none =>
      simp only [String.isEmpty_iff, hempty, if_false, Nat.pos_iff_ne_zero]
      split_ifs with run cap pending
      · simp [run]
      · simp [cap]
      · simp [pending]
      · simp [hempty, run, cap, pending]

namespace NodeIdAccepted

variable {id : String}

theorem nodeValid (h : NodeIdAccepted id) : Tag.NodeValid id :=
  ⟨h.ne, fun hm => (h.clean ';' hm).1 rfl⟩

theorem withOwner (h : NodeIdAccepted id) (idt : Identity) :
    idt.withOwner id = .ok { idt with owner := some id } :=
  Identity.withOwner_eq_ok_iff.mpr ⟨rfl, h.ne, fun hm => (h.clean '@' hm).2.1 rfl⟩

theorem digit_clean {c : Char} (h : c.isDigit = true) :
    c ≠ ';' ∧ c ≠ '@' ∧ Text.isBlank c = false := by
  have hn : 48 ≤ c.toNat ∧ c.toNat ≤ 57 := by
    simp only [Char.isDigit, Bool.and_eq_true, decide_eq_true_eq] at h
    exact ⟨UInt32.le_iff_toNat_le.mp h.1, UInt32.le_iff_toNat_le.mp h.2⟩
  refine ⟨?_, ?_, ?_⟩
  · rintro rfl
    simp at hn
  · rintro rfl
    simp at hn
  · simp [Text.isBlank, Text.inRanges]
    omega

theorem numbered (h : NodeIdAccepted id) (i : Nat) :
    NodeIdAccepted (id ++ "-" ++ toString i) := by
  refine ⟨by simp [h.ne], fun c hc => ?_⟩
  simp only [String.toList_append, Nat.toString_eq_repr, Nat.toList_repr, List.mem_append] at hc
  rcases hc with (hc | hc) | hc
  · exact h.clean c hc
  · rw [show "-".toList = ['-'] from rfl, List.mem_singleton] at hc
    subst hc
    decide
  · exact digit_clean (Nat.isDigit_of_mem_toDigits (by decide) (by decide) hc)

end NodeIdAccepted

theorem validate_renamed {s : Settings} (hs : s.validate = .ok ()) {id : String}
    (hid : NodeIdAccepted id) : validate { s with node := { s.node with id := id } } = .ok () := by
  obtain ⟨-, run, cap, pending⟩ := (validate_eq_ok_iff s).mp hs
  exact (validate_eq_ok_iff _).mpr ⟨hid, run, cap, pending⟩

/-- **Checked node ids are safe in every text form.** Under settings that pass the check, with
node id `n`: every lineage made by writes of `n`, from the empty lineage or from one read from
any text, reads back from its text; `n` may own every valid identity, and the owned identity
reads back from its text; and the id `n-i` of the soak's `i`-th node passes the check again. -/
theorem validated_node_id_safe (s : Settings) (hs : s.validate = .ok ()) :
    (∀ (base : Lineage) (ws : List Write),
        (base = Lineage.empty ∨ ∃ text, base = Lineage.parse text) →
        (∀ w ∈ ws, w.node = s.node.id) →
        Lineage.parse (base.appendAll ws).render = base.appendAll ws) ∧
      (∀ idt : Identity, idt.Valid →
        idt.withOwner s.node.id = .ok { idt with owner := some s.node.id } ∧
          Identity.parse { idt with owner := some s.node.id }.render =
            .ok { idt with owner := some s.node.id }) ∧
      ∀ i : Nat,
        validate { s with node := { s.node with id := s.node.id ++ "-" ++ toString i } } = .ok () := by
  have hn : NodeIdAccepted s.node.id := ((validate_eq_ok_iff s).mp hs).1
  refine ⟨fun base ws hbase hws => ?_, fun idt hv => ⟨hn.withOwner idt, ?_⟩, fun i =>
    validate_renamed hs (hn.numbered i)⟩
  · -- both starting points read back, and every write by `n` keeps every tag readable
    have start : base.Valid := by
      rcases hbase with rfl | ⟨text, rfl⟩
      · exact Lineage.valid_empty
      · exact Lineage.valid_parse text
    apply Lineage.parse_render
    exact start.appendAll fun w hw => hws w hw ▸ hn.nodeValid
  · apply Identity.parse_render
    exact ⟨hv.kind_ne, hv.kind_sep, hv.key_ne, hv.key_sep, by simpa using hn.ne,
      by simpa using fun hm => (hn.clean '@' hm).2.1 rfl⟩

/-- A node id holding both tag marks, hexadecimal digits and `:` passes the check, and so is
safe in every text form. -/
theorem validated_node_id_safe_marked :
    let s : Settings := { node := { id := "edge+7:ff-a" } }
    s.validate = .ok () ∧
      (∀ (base : Lineage) (ws : List Write),
          (base = Lineage.empty ∨ ∃ text, base = Lineage.parse text) →
          (∀ w ∈ ws, w.node = s.node.id) →
          Lineage.parse (base.appendAll ws).render = base.appendAll ws) ∧
        (∀ idt : Identity, idt.Valid →
          idt.withOwner s.node.id = .ok { idt with owner := some s.node.id } ∧
            Identity.parse { idt with owner := some s.node.id }.render =
              .ok { idt with owner := some s.node.id }) ∧
        ∀ i : Nat,
          validate { s with node := { s.node with id := s.node.id ++ "-" ++ toString i } } =
            .ok () := by
  intro s
  have hs : s.validate = .ok () :=
    (validate_eq_ok_iff s).mpr
      ⟨⟨by decide, (reservedInNodeId_eq_none_iff _).mp (by decide)⟩, by decide, by decide, by decide⟩
  exact ⟨hs, validated_node_id_safe s hs⟩

end Settings

end Stowage
