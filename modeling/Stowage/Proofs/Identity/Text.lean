import Mathlib
import Stowage.Identity
import Stowage.Proofs.Json.Strings
/-!
The text form of identities.

An identity's text is its kind, `:`, its key and, when it has an owner, `@` and the owner.
Reading splits a text at its first `:` and what follows at its first `@`, then checks the parts
in the order kind, key, owner. A checked kind holds no `:` and a checked key no `@`, so the
split finds the parts the text was written from. Hence every identity made from parts that pass
the checks reads back from its text, also through its JSON string; every text that reads as an
identity is that identity's text; and which error reading gives is fixed by the parts the split
finds, in the order the checks are made.
-/
namespace Stowage.Identity

/-- An identity made from a kind and a key, owned by `owner` when one is given, every part
checked. -/
def ofParts (kind key : String) (owner : Option String) : Except IdentityError Identity :=
  make kind key >>= fun id => owner.elim (.ok id) id.withOwner

/-- An identity whose parts pass the checks: a kind without `:`, a key and an owner without
`@`, none of them empty. -/
structure Valid (id : Identity) : Prop where
  kind_ne : id.kind ≠ ""
  kind_sep : ':' ∉ id.kind.toList
  key_ne : id.key ≠ ""
  key_sep : '@' ∉ id.key.toList
  owner_ne : ∀ o ∈ id.owner, o ≠ ""
  owner_sep : ∀ o ∈ id.owner, '@' ∉ o.toList

section Checks

theorem ascii_mem_utf8EncodeChar {c d : Char} (hc : c.toNat < 128) :
    c.toUInt8 ∈ String.utf8EncodeChar d ↔ d = c := by
  have hval : ∀ x : Char, x.toNat = x.val.toNat := fun _ => rfl
  unfold String.utf8EncodeChar
  simp only [Char.toUInt8, UInt32.toUInt8, Char.ext_iff, UInt32.ext_iff]
  split_ifs with h1 h2 h3
  · -- one byte: the character itself
    rw [List.mem_singleton]
    constructor
    · intro h
      have := congrArg UInt8.toNat h
      simp at this
      have := hval c
      have := hval d
      omega
    · intro h
      rw [h]
  all_goals
    simp only [List.mem_cons, List.mem_nil_iff, or_false]
    constructor
    · intro h
      repeat' rcases h with h | h
      all_goals
        have := congrArg UInt8.toNat h
        simp at this
        have := hval c
        omega
    · intro h
      rw [hval] at hc
      omega

theorem holdsAscii_iff {s : String} {c : Char} (hc : c.toNat < 128) :
    holdsAscii s c = true ↔ c ∈ s.toList := by
  rw [holdsAscii, ← String.utf8Encode_toList, List.utf8Encode, List.toList_data_toByteArray,
    List.contains_iff_mem, List.mem_flatMap]
  simp [ascii_mem_utf8EncodeChar hc]

theorem checkKind_eq (kind : String) :
    checkKind kind = if kind = "" then .error .emptyKind
      else if ':' ∈ kind.toList then .error (.invalidChar ':') else .ok () := by
  simp [checkKind, ← holdsAscii_iff (s := kind) (c := ':') (by decide)]

theorem checkKey_eq (key : String) :
    checkKey key = if key = "" then .error .emptyKey
      else if '@' ∈ key.toList then .error (.invalidChar '@') else .ok () := by
  simp [checkKey, ← holdsAscii_iff (s := key) (c := '@') (by decide)]

theorem withOwner_eq (id : Identity) (owner : String) :
    id.withOwner owner = if owner = "" then .error .emptyOwner
      else if '@' ∈ owner.toList then .error (.invalidChar '@')
      else .ok { id with owner := some owner } := by
  simp [withOwner, ← holdsAscii_iff (s := owner) (c := '@') (by decide)]

theorem make_eq (kind key : String) :
    make kind key = (checkKind kind).bind fun _ => (checkKey key).bind fun _ => .ok ⟨kind, key, none⟩ :=
  rfl

theorem make_of_split {kind key : String} (hk : ':' ∉ kind.toList) (hkey : '@' ∉ key.toList) :
    make kind key = if kind = "" then .error .emptyKind
      else if key = "" then .error .emptyKey else .ok ⟨kind, key, none⟩ := by
  rw [make_eq, checkKind_eq, checkKey_eq]
  by_cases hke : kind = "" <;> by_cases hye : key = "" <;> simp [hke, hye, hk, hkey, Except.bind]

theorem make_eq_ok_iff {kind key : String} {id : Identity} :
    make kind key = .ok id ↔ id = ⟨kind, key, none⟩ ∧ kind ≠ "" ∧ ':' ∉ kind.toList ∧
      key ≠ "" ∧ '@' ∉ key.toList := by
  rw [make_eq, checkKind_eq, checkKey_eq]
  split_ifs <;> simp_all [Except.bind, eq_comm]

theorem withOwner_eq_ok_iff {id id' : Identity} {owner : String} :
    id.withOwner owner = .ok id' ↔ id' = { id with owner := some owner } ∧ owner ≠ "" ∧
      '@' ∉ owner.toList := by
  rw [withOwner_eq]
  split_ifs <;> simp_all [eq_comm]

/-- **What checking parts answers.** An identity is made from parts exactly when it is the
identity of those parts and they pass the checks. -/
theorem ofParts_eq_ok_iff {kind key : String} {owner : Option String} {id : Identity} :
    ofParts kind key owner = .ok id ↔ id = ⟨kind, key, owner⟩ ∧ id.Valid := by
  cases hmake : make kind key with
  | error e =>
    simp only [ofParts, hmake, bind, Except.bind, reduceCtorEq, false_iff, not_and]
    rintro rfl hv
    -- valid parts are never refused
    have := make_eq_ok_iff.mpr ⟨rfl, hv.kind_ne, hv.kind_sep, hv.key_ne, hv.key_sep⟩
    rw [hmake] at this
    cases this
  | ok id₀ =>
    obtain ⟨rfl, hk, hks, hy, hys⟩ := make_eq_ok_iff.mp hmake
    cases owner with
    | none =>
      simp only [ofParts, hmake, bind, Except.bind, Option.elim, Except.ok.injEq]
      constructor
      · rintro rfl
        exact ⟨rfl, hk, hks, hy, hys, by simp, by simp⟩
      · rintro ⟨rfl, -⟩
        rfl
    | some o =>
      simp only [ofParts, hmake, bind, Except.bind, Option.elim, withOwner_eq_ok_iff]
      constructor
      · rintro ⟨rfl, ho, hos⟩
        exact ⟨rfl, hk, hks, hy, hys, by simpa using ho, by simpa using hos⟩
      · rintro ⟨rfl, hv⟩
        exact ⟨rfl, hv.owner_ne o rfl, hv.owner_sep o rfl⟩

end Checks

section Split

theorem splitFirst_of_not_mem {cs : List Char} {sep : Char} (h : sep ∉ cs) :
    splitFirst cs sep = none := by
  have whole : cs.takeWhile (· != sep) = cs :=
    List.takeWhile_eq_self_iff.mpr fun c hc => bne_iff_ne.mpr (by rintro rfl; exact h hc)
  simp [splitFirst, whole]

theorem splitFirst_append {pre post : List Char} {sep : Char} (h : sep ∉ pre) :
    splitFirst (pre ++ sep :: post) sep = some (pre, post) := by
  have before : (pre ++ sep :: post).takeWhile (· != sep) = pre := by
    rw [List.takeWhile_append_of_pos fun c hc => bne_iff_ne.mpr (by rintro rfl; exact h hc),
      List.takeWhile_cons_of_neg (by simp), List.append_nil]
  unfold splitFirst
  simp only [before, List.length_append, List.length_cons]
  rw [if_neg (by omega), List.drop_append]
  simp

theorem exists_first_sep {cs : List Char} {sep : Char} (h : sep ∈ cs) :
    ∃ pre post, cs = pre ++ sep :: post ∧ sep ∉ pre := by
  induction cs with
  | nil => cases h
  | cons c cs ih =>
    by_cases hc : c = sep
    · exact ⟨[], cs, by rw [hc]; rfl, List.not_mem_nil⟩
    · obtain ⟨pre, post, rfl, hpre⟩ := ih ((List.mem_cons.mp h).resolve_left (Ne.symm hc))
      exact ⟨c :: pre, post, rfl, by simp [Ne.symm hc, hpre]⟩

end Split

section Reading

theorem toList_sep (a b : String) (sep : Char) :
    (a ++ String.singleton sep ++ b).toList = a.toList ++ sep :: b.toList := by
  simp

theorem parse_of_no_kind {s : String} (h : ':' ∉ s.toList) : parse s = .error .missingKind := by
  unfold parse
  rw [splitFirst_of_not_mem h]

/-- **Reading a text without `@` after its first `:`** checks that kind and key are not empty. -/
theorem parse_unowned {kind key : String} (hk : ':' ∉ kind.toList) (hkey : '@' ∉ key.toList) :
    parse (kind ++ ":" ++ key) = if kind = "" then .error .emptyKind
      else if key = "" then .error .emptyKey else .ok ⟨kind, key, none⟩ := by
  unfold parse
  rw [show kind ++ ":" ++ key = kind ++ String.singleton ':' ++ key from rfl, toList_sep,
    splitFirst_append hk]
  dsimp only
  rw [splitFirst_of_not_mem hkey]
  simp only [String.ofList_toList]
  exact make_of_split hk hkey

/-- **Reading a text with `@` after its first `:`** checks kind and key, then the owner: it must
not be empty and must hold no further `@`. -/
theorem parse_owned {kind key owner : String} (hk : ':' ∉ kind.toList)
    (hkey : '@' ∉ key.toList) :
    parse (kind ++ ":" ++ key ++ "@" ++ owner) = if kind = "" then .error .emptyKind
      else if key = "" then .error .emptyKey
      else if owner = "" then .error .emptyOwner
      else if '@' ∈ owner.toList then .error (.invalidChar '@')
      else .ok ⟨kind, key, some owner⟩ := by
  have text : (kind ++ ":" ++ key ++ "@" ++ owner).toList =
      kind.toList ++ ':' :: (key.toList ++ '@' :: owner.toList) := by
    simp
  unfold parse
  rw [text, splitFirst_append hk]
  dsimp only
  rw [splitFirst_append hkey]
  simp only [String.ofList_toList]
  rw [make_of_split hk hkey]
  by_cases hke : kind = "" <;> by_cases hye : key = "" <;>
    simp [hke, hye, bind, Except.bind, withOwner_eq]

theorem render_unowned (kind key : String) : render ⟨kind, key, none⟩ = kind ++ ":" ++ key := by
  simp [render]

theorem render_owned (kind key owner : String) :
    render ⟨kind, key, some owner⟩ = kind ++ ":" ++ key ++ "@" ++ owner := by
  simp [render, String.append_assoc]

/-- **A valid identity reads back from its text.** -/
theorem parse_render {id : Identity} (h : id.Valid) : parse id.render = .ok id := by
  obtain ⟨kind, key, owner⟩ := id
  cases owner with
  | none =>
    rw [render_unowned, parse_unowned h.kind_sep h.key_sep, if_neg h.kind_ne, if_neg h.key_ne]
  | some o =>
    rw [render_owned, parse_owned h.kind_sep h.key_sep, if_neg h.kind_ne, if_neg h.key_ne,
      if_neg (h.owner_ne o rfl), if_neg (h.owner_sep o rfl)]

/-- **A text that reads as an identity is that identity's text.** -/
theorem render_of_parse {s : String} {id : Identity} (h : parse s = .ok id) : id.render = s := by
  by_cases colon : ':' ∈ s.toList
  · obtain ⟨kind, rest, hs, hk⟩ := exists_first_sep colon
    have hk' : ':' ∉ (String.ofList kind).toList := by simpa using hk
    by_cases owned : '@' ∈ rest
    · -- the rest splits again, at its first `@`
      obtain ⟨key, owner, hr, hkey⟩ := exists_first_sep owned
      have hkey' : '@' ∉ (String.ofList key).toList := by simpa using hkey
      have text : s = String.ofList kind ++ ":" ++ String.ofList key ++ "@" ++ String.ofList owner :=
        String.ext (by simp [hs, hr])
      rw [text, parse_owned hk' hkey'] at h
      split_ifs at h
      cases h
      exact (render_owned _ _ _).trans text.symm
    · have text : s = String.ofList kind ++ ":" ++ String.ofList rest := String.ext (by simp [hs])
      have hrest : '@' ∉ (String.ofList rest).toList := by simpa using owned
      rw [text, parse_unowned hk' hrest] at h
      split_ifs at h
      cases h
      exact (render_unowned _ _).trans text.symm
  · rw [parse_of_no_kind colon] at h
    cases h

end Reading

/-- **The text form is a bijection onto the texts that read.** An identity made from a kind, a
key and an optional owner that pass the checks reads back from its text, and its JSON string
reads as that text; a text that reads as an identity is its text; and reading a text `s` fails
when `s` has no `:`, and otherwise, split at its first `:` and then at the first `@` of the
rest, with the first of these errors that applies: an empty kind, an empty key, an empty owner,
an owner holding `@`. -/
theorem text_form_bijective (kind key : String) (owner : Option String) (id : Identity)
    (made : ofParts kind key owner = .ok id) (s : String) :
    (parse id.render = .ok id ∧ Json.readValue (Json.quote id.render) = .ok (.str id.render)) ∧
      (∀ id', parse s = .ok id' → id'.render = s) ∧
      (':' ∉ s.toList → parse s = .error .missingKind) ∧
      (∀ k y, ':' ∉ k.toList → '@' ∉ y.toList →
        parse (k ++ ":" ++ y) = if k = "" then .error .emptyKind
          else if y = "" then .error .emptyKey else .ok ⟨k, y, none⟩) ∧
      (∀ k y o, ':' ∉ k.toList → '@' ∉ y.toList →
        parse (k ++ ":" ++ y ++ "@" ++ o) = if k = "" then .error .emptyKind
          else if y = "" then .error .emptyKey
          else if o = "" then .error .emptyOwner
          else if '@' ∈ o.toList then .error (.invalidChar '@')
          else .ok ⟨k, y, some o⟩) :=
  ⟨⟨parse_render (ofParts_eq_ok_iff.mp made).2, Json.readValue_quote id.render⟩,
    fun _ => render_of_parse, parse_of_no_kind, fun _ _ => parse_unowned,
    fun _ _ _ => parse_owned⟩


/-- The text form at an owned identity whose key holds `:`, and at a text whose owner holds
`@`. -/
theorem text_form_bijective_owned :
    let id : Identity := ⟨"doc", "a:b", some "n1"⟩
    let s := "doc:a:b@n@1"
    ofParts "doc" "a:b" (some "n1") = .ok id ∧
      (parse id.render = .ok id ∧ Json.readValue (Json.quote id.render) = .ok (.str id.render)) ∧
      (∀ id', parse s = .ok id' → id'.render = s) ∧
      (':' ∉ s.toList → parse s = .error .missingKind) ∧
      (∀ k y, ':' ∉ k.toList → '@' ∉ y.toList →
        parse (k ++ ":" ++ y) = if k = "" then .error .emptyKind
          else if y = "" then .error .emptyKey else .ok ⟨k, y, none⟩) ∧
      (∀ k y o, ':' ∉ k.toList → '@' ∉ y.toList →
        parse (k ++ ":" ++ y ++ "@" ++ o) = if k = "" then .error .emptyKind
          else if y = "" then .error .emptyKey
          else if o = "" then .error .emptyOwner
          else if '@' ∈ o.toList then .error (.invalidChar '@')
          else .ok ⟨k, y, some o⟩) := by
  intro id s
  have made : ofParts "doc" "a:b" (some "n1") = .ok id :=
    ofParts_eq_ok_iff.mpr ⟨rfl, by decide, by decide, by decide, by decide,
      by simp [id], by simp [id]⟩
  exact ⟨made, text_form_bijective "doc" "a:b" (some "n1") id made s⟩

end Stowage.Identity
