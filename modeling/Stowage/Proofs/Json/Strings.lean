import Mathlib
import Stowage.Json.Read
import Stowage.Json.Write
/-!
A quoted string reads back as the string.

Writing a string escapes the quote, the backslash and the control characters: five of these by
their short escapes, the others by `\u00` and two hexadecimal digits, and every other character
stands for itself. Reading a string body undoes each escape in one step and stops at the first
quote that stands alone, which is the closing one, since every quote inside was escaped. So the
JSON text of every string, however odd its characters, reads back as that string.
-/
namespace Stowage.Json

theorem hexValue_hexDigit {n : Nat} (h : n < 16) : hexValue (hexDigit n) = some n := by
  interval_cases n <;> decide

theorem hexQuad_control (c : Char) (hc : c.toNat < 0x20) (more : List Char) (read : Nat) :
    hexQuad ⟨'0' :: '0' :: hexDigit (c.toNat / 16) :: hexDigit (c.toNat % 16) :: more, read⟩ =
      .ok (c.toNat, ⟨more, read + 4⟩) := by
  have zero : hexValue '0' = some 0 := by decide
  have hi : c.toNat / 16 < 16 := by omega
  have lo : c.toNat % 16 < 16 := Nat.mod_lt _ (by decide)
  simp only [hexQuad, hexQuad.go, Cursor.peek?, Cursor.bump, List.head?_cons, List.drop_succ_cons,
    List.drop_zero, zero, hexValue_hexDigit hi, hexValue_hexDigit lo, Except.ok.injEq,
    Prod.mk.injEq, and_true]
  omega

theorem go_control (c : Char) (hc : c.toNat < 0x20) (more acc : List Char) (read fuel : Nat) :
    stringBody.go ⟨'\\' :: 'u' :: '0' :: '0' :: hexDigit (c.toNat / 16) ::
        hexDigit (c.toNat % 16) :: more, read⟩ acc (fuel + 1) =
      stringBody.go ⟨more, read + 6⟩ (c :: acc) fuel := by
  have hq := hexQuad_control c hc more (read + 1 + 1)
  have unpaired : ¬ (0xDC00 ≤ c.toNat ∧ c.toNat ≤ 0xDFFF) := by omega
  have single : c.toNat < 0xD800 ∨ 0xDBFF < c.toNat := by omega
  simp only [stringBody.go, Cursor.peek?, Cursor.bump, List.head?_cons, List.drop_succ_cons,
    List.drop_zero, hq, unicodeEscape, unpaired, single, if_false, if_true, Char.ofNat_toNat]
  rfl

theorem go_plain (c : Char) (quote : c ≠ '"') (backslash : c ≠ '\\') (printable : ¬ c.toNat < 0x20)
    (more acc : List Char) (read fuel : Nat) :
    stringBody.go ⟨c :: more, read⟩ acc (fuel + 1) = stringBody.go ⟨more, read + 1⟩ (c :: acc) fuel := by
  simp only [stringBody.go, Cursor.peek?, Cursor.bump, List.head?_cons, List.drop_succ_cons,
    List.drop_zero]
  split
  · contradiction
  · rfl

theorem go_escapeChar (c : Char) (more acc : List Char) (read fuel : Nat) :
    stringBody.go ⟨escapeChar c ++ more, read⟩ acc (fuel + 1) =
      stringBody.go ⟨more, read + (escapeChar c).length⟩ (c :: acc) fuel := by
  unfold escapeChar
  split
  case h_8 quote backslash _ _ _ _ _ =>
    split
    · next control => exact go_control c control more acc read fuel
    · next printable => exact go_plain c quote backslash printable more acc read fuel
  -- each short escape is read by its own branch of the reader
  all_goals simp [stringBody.go, Cursor.peek?, Cursor.bump]

theorem length_le_escaped (cs : List Char) : cs.length ≤ (cs.flatMap escapeChar).length := by
  induction cs with
  | nil => exact Nat.le_refl 0
  | cons c cs ih =>
    have one : 1 ≤ (escapeChar c).length := by
      unfold escapeChar
      split <;> try split
      all_goals simp
    rw [List.flatMap_cons, List.length_append, List.length_cons]
    omega

theorem go_escaped (cs rest acc : List Char) (read fuel : Nat) (enough : cs.length < fuel) :
    stringBody.go ⟨cs.flatMap escapeChar ++ '"' :: rest, read⟩ acc fuel =
      .ok (String.ofList (acc.reverse ++ cs), ⟨rest, read + (cs.flatMap escapeChar).length + 1⟩) := by
  induction cs generalizing acc read fuel with
  | nil =>
    obtain ⟨fuel, rfl⟩ : ∃ f, fuel = f + 1 := ⟨fuel - 1, by simp at enough; omega⟩
    simp [stringBody.go, Cursor.peek?, Cursor.bump]
  | cons c cs ih =>
    obtain ⟨fuel, rfl⟩ : ∃ f, fuel = f + 1 := ⟨fuel - 1, by simp at enough; omega⟩
    rw [List.flatMap_cons, List.append_assoc, go_escapeChar,
      ih (c :: acc) _ fuel (by simp at enough; omega)]
    simp only [List.reverse_cons, List.append_assoc, List.cons_append, List.nil_append,
      List.length_append]
    rw [Nat.add_assoc read]

theorem skipBlanks_quote (rest : List Char) (read : Nat) :
    Cursor.skipBlanks ⟨'"' :: rest, read⟩ = ⟨'"' :: rest, read⟩ := rfl

theorem skipBlanks_nil (read : Nat) : Cursor.skipBlanks ⟨[], read⟩ = ⟨[], read⟩ := rfl

/-- **A quoted string reads back as the string.** -/
theorem readValue_quote (s : String) : readValue (quote s) = .ok (.str s) := by
  have text : (quote s).toList = '"' :: (s.toList.flatMap escapeChar ++ ['"']) := by
    simp [quote]
  have enough : s.toList.length < (s.toList.flatMap escapeChar ++ ['"']).length + 1 := by
    have := length_le_escaped s.toList
    rw [List.length_append, List.length_singleton]
    omega
  have body := go_escaped s.toList [] [] 1 _ enough
  rw [List.reverse_nil, List.nil_append, String.ofList_toList] at body
  unfold readValue value
  rw [text, skipBlanks_quote]
  simp only [Cursor.peek?, List.head?_cons, Cursor.bump, List.drop_succ_cons, List.drop_zero,
    stringBody, body, Except.map, skipBlanks_nil, List.isEmpty_nil, ↓reduceIte]

end Stowage.Json
