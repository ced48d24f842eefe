import Stowage.Version.Lineage
/-!
The text form of a lineage reads back as the lineage.

A tag whose node is non-empty and holds no `;`, and whose magnitude lies between 1 and
`2^63 - 1`, renders to its node, its mark and its magnitude in hexadecimal digits. The digits
hold no mark, so reading splits the text at the mark it was written with and gets the tag back.
A lineage of such tags renders to their texts joined by `;`; none of the texts holds a `;`,
so reading splits the lineage text back into them.
-/
namespace Stowage.Version

namespace Tag

/-- A tag that reads back from its text. -/
structure Valid (t : Tag) : Prop where
  node_ne : t.node ≠ ""
  no_sep : ';' ∉ t.node.toList
  pos : 0 < t.magnitude
  le_max : (t.magnitude : Int) ≤ i64Max

theorem digitChar_hex : ∀ d < 16, hexValue (Nat.digitChar d) = d ∧
    isHexDigit (Nat.digitChar d) = true ∧ Nat.digitChar d ≠ '+' ∧ Nat.digitChar d ≠ '-' ∧
    Nat.digitChar d ≠ ';' := by
  decide

theorem toDigits_hex (n : Nat) :
    (∀ c ∈ Nat.toDigits 16 n, ∃ d < 16, c = Nat.digitChar d) ∧
      (Nat.toDigits 16 n).foldl (fun acc c => acc * 16 + hexValue c) 0 = n := by
  induction n using Nat.base_induction 16 (by decide) with
  | single m hm =>
    rw [Nat.toDigits_of_lt_base hm]
    refine ⟨fun c hc => ⟨m, hm, List.mem_singleton.mp hc⟩, ?_⟩
    simp [(digitChar_hex m hm).1]
  | digit m k hk hm ih =>
    obtain ⟨hchars, hvalue⟩ := ih
    rw [← Nat.toDigits_append_toDigits (by decide) hm hk, Nat.toDigits_of_lt_base hk]
    refine ⟨fun c hc => ?_, ?_⟩
    · rcases List.mem_append.mp hc with hc | hc
      · exact hchars c hc
      · exact ⟨k, hk, List.mem_singleton.mp hc⟩
    · rw [List.foldl_append, hvalue]
      simp only [List.foldl_cons, List.foldl_nil, (digitChar_hex k hk).1]
      omega

theorem splitAtLastMark_append (pre ds : List Char) {m : Char} (hm : m = '+' ∨ m = '-')
    (hds : ∀ c ∈ ds, c ≠ '+' ∧ c ≠ '-') : splitAtLastMark (pre ++ m :: ds) = some (pre, m, ds) := by
  have after : (pre ++ m :: ds).reverse.takeWhile (fun c => c != '+' && c != '-') = ds.reverse := by
    have marked : ¬ ((m != '+' && m != '-') = true) := by
      rcases hm with rfl | rfl <;> decide
    rw [List.reverse_append, List.reverse_cons, List.append_assoc,
      List.takeWhile_append_of_pos (fun c hc => by simpa using hds c (List.mem_reverse.mp hc)),
      List.singleton_append, List.takeWhile_cons_of_neg (p := fun c => c != '+' && c != '-') marked,
      List.append_nil]
  unfold splitAtLastMark
  simp only [after, List.length_reverse, List.length_append, List.length_cons]
  rw [if_neg (by omega)]
  have hat : pre.length + (ds.length + 1) - ds.length - 1 = pre.length := by omega
  simp [hat]

theorem isUnversioned_of_pos {t : Tag} (h : 0 < t.magnitude) : t.isUnversioned = false := by
  simp only [isUnversioned, magnitude] at *
  simpa [Int.natAbs_eq_zero] using Nat.pos_iff_ne_zero.mp h

theorem toList_render {t : Tag} (h : 0 < t.magnitude) :
    t.render.toList = t.node.toList ++ (if t.isDelete then '-' else '+') ::
      Nat.toDigits 16 t.magnitude := by
  unfold render hexDigits
  rw [isUnversioned_of_pos h]
  cases t.isDelete <;> simp

theorem parse_render_eq {t : Tag} (node : t.node ≠ "") (pos : 0 < t.magnitude) :
    parse t.render = if (t.magnitude : Int) > i64Max then unversioned else t := by
  obtain ⟨hchars, hvalue⟩ := toDigits_hex t.magnitude
  have marks : ∀ c ∈ Nat.toDigits 16 t.magnitude, c ≠ '+' ∧ c ≠ '-' := by
    intro c hc
    obtain ⟨d, hd, rfl⟩ := hchars c hc
    exact ⟨(digitChar_hex d hd).2.2.1, (digitChar_hex d hd).2.2.2.1⟩
  have hmark : (if t.isDelete then '-' else '+') = '+' ∨ (if t.isDelete then '-' else '+') = '-' := by
    cases t.isDelete <;> simp
  -- the node is there, and the digits are hexadecimal and stand for the magnitude
  have accepted : (t.node.toList.isEmpty || (Nat.toDigits 16 t.magnitude).isEmpty ||
      !(Nat.toDigits 16 t.magnitude).all isHexDigit) = false := by
    have hnode : t.node.toList.isEmpty = false := by
      simpa [List.isEmpty_iff, String.toList_eq_nil_iff] using node
    have hhex : (Nat.toDigits 16 t.magnitude).all isHexDigit = true := by
      rw [List.all_eq_true]
      intro c hc
      obtain ⟨d, hd, rfl⟩ := hchars c hc
      exact (digitChar_hex d hd).2.1
    simp [hnode, hhex]
  unfold parse
  rw [toList_render pos, splitAtLastMark_append _ _ hmark marks]
  simp only [accepted, Bool.false_eq_true, ↓reduceIte, hvalue, String.ofList_toList]
  -- the mark and the magnitude give back the signed ordinal
  have signed : (if (if t.isDelete then '-' else '+') = '-' then -(t.magnitude : Int)
      else t.magnitude) = t.ordinal := by
    unfold isDelete magnitude
    by_cases hneg : t.ordinal < 0
    · simp only [hneg, decide_true, ↓reduceIte]
      rw [Int.ofNat_natAbs_of_nonpos (by omega), Int.neg_neg]
    · simp only [hneg, decide_false, Bool.false_eq_true, ↓reduceIte]
      exact Int.natAbs_of_nonneg (by omega)
  have nonzero : t.ordinal ≠ 0 := by
    simp only [magnitude] at pos
    omega
  rw [signed]
  unfold make
  rw [if_neg nonzero]

/-- **A tag reads back from its text** when its node is not empty and its magnitude lies
between 1 and `2^63 - 1`; its node may hold marks and `;`. -/
theorem parse_render_of_fits {t : Tag} (node : t.node ≠ "") (pos : 0 < t.magnitude)
    (fits : (t.magnitude : Int) ≤ i64Max) : parse t.render = t := by
  rw [parse_render_eq node pos, if_neg (Int.not_lt.mpr fits)]

theorem parse_render {t : Tag} (h : t.Valid) : parse t.render = t :=
  parse_render_of_fits h.node_ne h.pos h.le_max

theorem sep_not_mem_render {t : Tag} (h : t.Valid) : ';' ∉ t.render.toList := by
  rw [toList_render h.pos, List.mem_append, List.mem_cons]
  rintro (hnode | hmark | hdigit)
  · exact h.no_sep hnode
  · revert hmark
    cases t.isDelete <;> decide
  · obtain ⟨d, hd, hc⟩ := (toDigits_hex t.magnitude).1 ';' hdigit
    exact (digitChar_hex d hd).2.2.2.2 hc.symm

theorem splitAtLastMark_sublist {cs node digits : List Char} {mark : Char}
    (h : splitAtLastMark cs = some (node, mark, digits)) : node.Sublist cs := by
  unfold splitAtLastMark at h
  dsimp only at h
  split at h
  · cases h
  · simp only [Option.some.injEq, Prod.mk.injEq] at h
    rw [← h.1]
    exact List.take_sublist _ _

theorem valid_parse {text : String} (hsep : ';' ∉ text.toList)
    (hv : (parse text).isUnversioned = false) : (parse text).Valid := by
  have unv : unversioned.isUnversioned = true := rfl
  unfold parse at hv ⊢
  generalize hs : splitAtLastMark text.toList = r at hv ⊢
  rcases r with _ | ⟨node, mark, digits⟩
  · rw [unv] at hv
    cases hv
  dsimp only at hv ⊢
  by_cases bad : (node.isEmpty || digits.isEmpty || !digits.all isHexDigit) = true
  · rw [if_pos bad, unv] at hv
    cases hv
  rw [if_neg bad] at hv ⊢
  have hnode : node ≠ [] := by
    intro hnil
    simp [hnil] at bad
  generalize digits.foldl (fun acc c => acc * 16 + hexValue c) 0 = value at hv ⊢
  by_cases big : value > i64Max
  · rw [if_pos big, unv] at hv
    cases hv
  rw [if_neg big] at hv ⊢
  have signed : (if mark = '-' then -(value : Int) else value).natAbs = value := by
    split <;> simp
  unfold make at hv ⊢
  by_cases zero : (if mark = '-' then -(value : Int) else value) = 0
  · rw [if_pos zero, unv] at hv
    cases hv
  rw [if_neg zero]
  refine ⟨?_, ?_, ?_, ?_⟩
  · intro hempty
    exact hnode (by simpa using congrArg String.toList hempty)
  · rw [String.toList_ofList]
    exact fun hmem => hsep ((splitAtLastMark_sublist hs).subset hmem)
  · show 0 < (if mark = '-' then -(value : Int) else value).natAbs
    omega
  · show ((if mark = '-' then -(value : Int) else value).natAbs : Int) ≤ i64Max
    rw [signed]
    omega

end Tag

namespace Lineage

/-- A lineage whose tags read back. -/
def Valid (l : Lineage) : Prop := ∀ t ∈ l.tags, t.Valid

/-- **A lineage of valid tags reads back from its text.** -/
theorem parse_render {l : Lineage} (h : l.Valid) : parse l.render = l := by
  obtain ⟨tags⟩ := l
  unfold parse render
  rw [String.toList_intercalate]
  cases tags with
  | nil => rfl
  | cons t ts =>
    have apart : ∀ cs ∈ (t :: ts).map (fun u => u.render.toList), ';' ∉ cs := by
      intro cs hcs
      obtain ⟨u, hu, rfl⟩ := List.mem_map.mp hcs
      exact Tag.sep_not_mem_render (h u hu)
    simp only [List.map_map, Function.comp_def] at apart ⊢
    rw [show ";".toList = [';'] from rfl, List.splitOn_intercalate ';' apart (by simp)]
    simp only [List.map_map, Function.comp_def, String.ofList_toList]
    congr 1
    -- every piece reads back as its tag, and no tag is dropped as unversioned
    rw [List.filter_eq_self.mpr, List.map_congr_left fun u hu => Tag.parse_render (h u hu),
      List.map_id']
    intro u hu
    obtain ⟨v, hv, rfl⟩ := List.mem_map.mp hu
    simp [Tag.parse_render (h v hv), Tag.isUnversioned_of_pos (h v hv).pos]


theorem pieces_splitOnP (p : Char → Bool) (cs : List Char) :
    ∀ piece ∈ cs.splitOnP p, ∀ c ∈ piece, p c = false := by
  induction cs with
  | nil =>
    intro piece hp c hc
    rw [List.splitOnP_nil, List.mem_singleton] at hp
    rw [hp] at hc
    cases hc
  | cons x xs ih =>
    intro piece hp c hc
    rw [List.splitOnP_cons_eq_if_modifyHead] at hp
    by_cases hx : p x = true
    · rw [if_pos hx, List.mem_cons] at hp
      rcases hp with rfl | hp
      · cases hc
      · exact ih piece hp c hc
    · rw [if_neg hx] at hp
      rcases hsplit : xs.splitOnP p with _ | ⟨first, others⟩
      · rw [hsplit] at hp
        cases hp
      rw [hsplit, List.modifyHead_cons, List.mem_cons] at hp
      rcases hp with rfl | hp
      · rcases List.mem_cons.mp hc with rfl | hc
        · simpa using hx
        · exact ih first (by simp [hsplit]) c hc
      · exact ih piece (by simp [hsplit, hp]) c hc

theorem valid_parse (text : String) : (parse text).Valid := by
  intro t ht
  simp only [parse, List.map_map, List.mem_filter, List.mem_map, Function.comp_apply,
    Bool.not_eq_eq_eq_not, Bool.not_true] at ht
  obtain ⟨⟨piece, hpiece, rfl⟩, hv⟩ := ht
  refine Tag.valid_parse ?_ hv
  rw [String.toList_ofList]
  intro hsep
  have := pieces_splitOnP (· == ';') text.toList piece hpiece ';' hsep
  simp at this

/-- **Reading is idempotent:** the text of a lineage read from any text reads back as it. -/
theorem parse_render_parse (text : String) : parse (parse text).render = parse text :=
  parse_render (valid_parse text)

end Lineage

end Stowage.Version
