import Mathlib
import Stowage.Proofs.Lineage.Text
import Stowage.Proofs.Json.Strings
/-!
The text forms of tags and lineages.

A lineage is kept as the `;`-joined texts of its tags, and serialised as the JSON string of that
text. Reading a tag checks that its magnitude lies between 1 and `2^63 - 1`, while a signed
64-bit ordinal may also be `-2^63`, whose magnitude is one more. So the deletion at that ordinal
renders to a text that reads as the unversioned tag, and a lineage holding it loses the tag.
Every other tag with a non-empty node reads back from its text; every lineage of such tags
without `;` in their nodes reads back, also through its JSON string; and every lineage read
from text reads back as itself.
-/
namespace Stowage.Version

namespace Tag

theorem magnitude_le_iff {t : Tag} (lo : -(i64Max + 1) ≤ t.ordinal) (hi : t.ordinal ≤ i64Max) :
    (t.magnitude : Int) ≤ i64Max ↔ t.ordinal ≠ -(i64Max + 1) := by
  unfold magnitude
  by_cases hpos : 0 ≤ t.ordinal
  · rw [Int.natAbs_of_nonneg hpos]
    omega
  · rw [Int.ofNat_natAbs_of_nonpos (by omega)]
    omega

theorem parse_render_iff {t : Tag} (node : t.node ≠ "") (nonzero : t.ordinal ≠ 0)
    (lo : -(i64Max + 1) ≤ t.ordinal) (hi : t.ordinal ≤ i64Max) :
    parse t.render = t ↔ t.ordinal ≠ -(i64Max + 1) := by
  rw [← magnitude_le_iff lo hi, parse_render_eq node (Int.natAbs_pos.mpr nonzero)]
  by_cases fits : (t.magnitude : Int) ≤ i64Max
  · rw [if_neg (Int.not_lt.mpr fits)]
    exact iff_of_true rfl fits
  · rw [if_pos (Int.not_le.mp fits)]
    -- the text reads as the unversioned tag, whose ordinal is zero
    have lost : unversioned ≠ t := by
      intro h
      exact nonzero (by rw [← h]; rfl)
    exact iff_of_false lost fits

end Tag

/-- **The text forms read back, but at the ordinal `-2^63`.** A signed 64-bit tag `t` with a
non-empty node and a nonzero ordinal reads back from its text exactly when the ordinal is not
`-2^63`; a lineage `l` of tags that read back and hold no `;` reads back from its text, and its
JSON string reads as that text; and the text of the lineage read from any `text` reads back as
it. -/
theorem text_forms_read_back (t : Tag) (node : t.node ≠ "") (nonzero : t.ordinal ≠ 0)
    (lo : -(i64Max + 1) ≤ t.ordinal) (hi : t.ordinal ≤ i64Max) (l : Lineage) (hl : l.Valid)
    (text : String) :
    (Tag.parse t.render = t ↔ t.ordinal ≠ -(i64Max + 1)) ∧
      (Lineage.parse l.render = l ∧ Json.readValue (Json.quote l.render) = .ok (.str l.render)) ∧
      Lineage.parse (Lineage.parse text).render = Lineage.parse text :=
  ⟨Tag.parse_render_iff node nonzero lo hi, ⟨Lineage.parse_render hl, Json.readValue_quote l.render⟩,
    Lineage.parse_render_parse text⟩

/-- The forms at the deletion `-(2^63 - 1)` by a node holding marks and hexadecimal digits, at
the lineage of it and a live tag, and at a text with an empty piece and an unreadable one. -/
theorem text_forms_read_back_marked_node :
    let t : Tag := ⟨"a-1+f", -9223372036854775807⟩
    let l : Lineage := ⟨[t, ⟨"b", 1⟩]⟩
    let text := "a-1+f;;n-8000000000000000;b+1"
    (t.node ≠ "" ∧ t.ordinal ≠ 0 ∧ -(i64Max + 1) ≤ t.ordinal ∧ t.ordinal ≤ i64Max ∧ l.Valid) ∧
      (Tag.parse t.render = t ↔ t.ordinal ≠ -(i64Max + 1)) ∧
      (Lineage.parse l.render = l ∧ Json.readValue (Json.quote l.render) = .ok (.str l.render)) ∧
      Lineage.parse (Lineage.parse text).render = Lineage.parse text := by
  intro t l text
  have node : t.node ≠ "" := by decide
  have nonzero : t.ordinal ≠ 0 := by decide
  have lo : -(i64Max + 1) ≤ t.ordinal := by decide
  have hi : t.ordinal ≤ i64Max := by decide
  have valid : l.Valid := by
    intro u hu
    rcases List.mem_pair.mp hu with rfl | rfl
    · exact ⟨node, by decide, by decide, by decide⟩
    · exact ⟨by decide, by decide, by decide, by decide⟩
  exact ⟨⟨node, nonzero, lo, hi, valid⟩, text_forms_read_back t node nonzero lo hi l valid text⟩

/-- The deletion at the ordinal `-2^63` renders to a text that reads as the unversioned tag,
and the lineage of that one tag reads back empty. -/
theorem tag_min_ordinal_unreadable :
    (Tag.make "n" (-9223372036854775808)).render = "n-8000000000000000" ∧
      Tag.parse "n-8000000000000000" = Tag.unversioned ∧
      Lineage.parse (Lineage.ofTag (Tag.make "n" (-9223372036854775808))).render = Lineage.empty := by
  decide

end Stowage.Version
