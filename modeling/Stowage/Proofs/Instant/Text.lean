import Mathlib
import Stowage.Proofs.Instant.Calendar
/-!
RFC 3339 text reads back as the instant it was written for.

Writing puts every field in a fixed number of digits with leading zeros, and reading takes
exactly that many digits: a number below `10 ^ w` written in `w` digits reads back as itself,
with the rest of the text left as it was. A fraction of three digits followed by `Z` is as many
milliseconds. So the text of a date, a time of day and milliseconds reads back as the instant of
that date and time, second 60 being read as second 59 with a second more of fraction. An instant
whose year lies in 0 to 9999 and whose fraction of a second or more is a leap second after
second 59 is written as such text, of the date `civilFromDays` gives it: it reads back as
itself, cut to whole milliseconds.
-/
namespace Stowage.Instant

/-! ### Fixed-width numbers -/

theorem digitChar_dec : ∀ d < 10, (Nat.digitChar d).isDigit = true ∧
    (Nat.digitChar d).toNat - '0'.toNat = d := by
  decide

theorem toDigits_dec (n : Nat) :
    (∀ c ∈ Nat.toDigits 10 n, c.isDigit = true) ∧
      (Nat.toDigits 10 n).foldl (fun acc c => acc * 10 + (c.toNat - '0'.toNat)) 0 = n := by
  induction n using Nat.base_induction 10 (by decide) with
  | single m hm =>
    rw [Nat.toDigits_of_lt_base hm]
    refine ⟨fun c hc => ?_, ?_⟩
    · rw [List.mem_singleton.mp hc]
      exact (digitChar_dec m hm).1
    · simp only [List.foldl_cons, List.foldl_nil, Nat.zero_mul, Nat.zero_add]
      exact (digitChar_dec m hm).2
  | digit m k hk hm ih =>
    obtain ⟨hchars, hvalue⟩ := ih
    rw [← Nat.toDigits_append_toDigits (by decide) hm hk, Nat.toDigits_of_lt_base hk]
    refine ⟨fun c hc => ?_, ?_⟩
    · rcases List.mem_append.mp hc with hc | hc
      · exact hchars c hc
      · rw [List.mem_singleton.mp hc]
        exact (digitChar_dec k hk).1
    · rw [List.foldl_append, hvalue]
      simp only [List.foldl_cons, List.foldl_nil, (digitChar_dec k hk).2]
      omega

theorem toList_padded (w n : Nat) :
    (padded w n).toList =
      List.replicate (w - (Nat.toDigits 10 n).length) '0' ++ Nat.toDigits 10 n := by
  simp [padded, Nat.toString_eq_repr, Nat.repr]

theorem foldl_zeros (k acc : Nat) :
    (List.replicate k '0').foldl (fun acc c => acc * 10 + (c.toNat - '0'.toNat)) acc =
      acc * 10 ^ k := by
  induction k generalizing acc with
  | zero => simp
  | succ k ih =>
    rw [List.replicate_succ, List.foldl_cons, ih]
    simp [pow_succ]
    ring

theorem length_padded {w n : Nat} (hw : 0 < w) (hn : n < 10 ^ w) :
    (padded w n).toList.length = w := by
  have hlen : (Nat.toDigits 10 n).length ≤ w := Nat.toDigits_length 10 n w hw hn
  rw [toList_padded]
  simp
  omega

theorem isDigit_padded {w n : Nat} : ∀ c ∈ (padded w n).toList, c.isDigit = true := by
  intro c hc
  rw [toList_padded] at hc
  rcases List.mem_append.mp hc with hc | hc
  · rw [List.eq_of_mem_replicate hc]
    rfl
  · exact (toDigits_dec n).1 c hc

theorem value_padded (w n : Nat) :
    (padded w n).toList.foldl (fun acc c => acc * 10 + (c.toNat - '0'.toNat)) 0 = n := by
  rw [toList_padded, List.foldl_append, foldl_zeros, Nat.zero_mul, (toDigits_dec n).2]

theorem digits_padded {w n : Nat} (hw : 0 < w) (hn : n < 10 ^ w) (rest : List Char) :
    digits w ((padded w n).toList ++ rest) = some (n, rest) := by
  have hlen := length_padded hw hn
  unfold digits
  rw [List.take_left' hlen, List.drop_left' hlen,
    if_pos ⟨hlen, List.all_eq_true.mpr isDigit_padded⟩, value_padded]

theorem digits_two {n : Nat} (hn : n < 100) (rest : List Char) :
    digits 2 ((padded 2 n).toList ++ rest) = some (n, rest) :=
  digits_padded (by norm_num) (by norm_num; omega) rest

/-- The text written for a date, a time of day and a number of milliseconds. -/
def stampText (y m d h mi s ms : Nat) : String :=
  padded 4 y ++ "-" ++ padded 2 m ++ "-" ++ padded 2 d ++ "T" ++ padded 2 h ++ ":" ++
    padded 2 mi ++ ":" ++ padded 2 s ++ "." ++ padded 3 ms ++ "Z"

theorem toList_stampText (y m d h mi s ms : Nat) :
    (stampText y m d h mi s ms).toList =
      (padded 4 y).toList ++ '-' :: ((padded 2 m).toList ++ '-' :: ((padded 2 d).toList ++
        'T' :: ((padded 2 h).toList ++ ':' :: ((padded 2 mi).toList ++ ':' ::
          ((padded 2 s).toList ++ '.' :: ((padded 3 ms).toList ++ ['Z'])))))) := by
  delta stampText
  simp only [String.toList_append, String.reduceToList, List.append_assoc,
    List.cons_append, List.nil_append]

theorem readDate_padded {y m d : Nat} (hy : y < 10000) (hm : m < 100) (hd : d < 100)
    (rest : List Char) :
    readDate ((padded 4 y).toList ++ '-' :: ((padded 2 m).toList ++ '-' ::
      ((padded 2 d).toList ++ rest))) = some ((y, m, d), rest) := by
  simp [readDate, digits_padded (w := 4) (by norm_num) (show y < 10 ^ 4 by norm_num; omega),
    digits_two hm, digits_two hd, expect]

theorem readTime_padded {h mi s : Nat} (hh : h < 100) (hmi : mi < 100) (hs : s < 100)
    (rest : List Char) :
    readTime ((padded 2 h).toList ++ ':' :: ((padded 2 mi).toList ++ ':' ::
      ((padded 2 s).toList ++ rest))) = some ((h, mi, s), rest) := by
  simp [readTime, digits_two hh, digits_two hmi, digits_two hs, expect]

theorem readFraction_millis {ms : Nat} (hms : ms < 1000) (rest : List Char) :
    readFraction ('.' :: ((padded 3 ms).toList ++ 'Z' :: rest)) =
      some (ms * 1000000, 'Z' :: rest) := by
  have hlen := length_padded (w := 3) (by norm_num) (show ms < 10 ^ 3 by norm_num; omega)
  -- the digits end where `Z` begins
  have htake : ((padded 3 ms).toList ++ 'Z' :: rest).takeWhile Char.isDigit =
      (padded 3 ms).toList := by
    rw [List.takeWhile_append_of_pos isDigit_padded]
    simp
  simp only [readFraction, htake]
  rw [if_neg (by simp [← List.length_eq_zero_iff, hlen]), List.take_of_length_le (by omega),
    value_padded, hlen]
  simp [hlen]

theorem parse_stampText {y m d h mi s ms : Nat} (hy : y < 10000) (hm : 1 ≤ m ∧ m ≤ 12)
    (hd : 1 ≤ d ∧ (d : Int) ≤ monthLength y m) (hh : h ≤ 23) (hmi : mi ≤ 59) (hs : s ≤ 60)
    (hms : ms < 1000) :
    parse? (stampText y m d h mi s ms) = some ⟨daysFromCivil y m d * 86400 + h * 3600 + mi * 60 +
      (if s = 60 then 59 else s), if s = 60 then ms * 1000000 + 1000000000 else ms * 1000000⟩ := by
  have hml : monthLength y m ≤ 31 := by
    unfold monthLength
    split_ifs <;> omega
  have hfields : fieldsInRange y m d h mi s = true := by
    simp only [fieldsInRange, Bool.and_eq_true, decide_eq_true_eq]
    omega
  unfold parse?
  rw [toList_stampText, readDate_padded hy (by omega) (by omega)]
  simp only [timeSeparator, readOffset, Option.bind_eq_bind, Option.bind_some, Char.reduceEq,
    or_self, or_false, ↓reduceIte, readTime_padded (show h < 100 by omega) (show mi < 100 by omega)
    (show s < 100 by omega), readFraction_millis hms, List.isEmpty_nil, hfields, Bool.and_self,
    Nat.cast_ite, Nat.cast_ofNat, sub_zero]

/-! ### Instants -/

/-- The calendar year an instant falls in. -/
def year (t : Instant) : Int := (civilFromDays (t.seconds / 86400)).1

/-- A fraction of a second or more stands for a leap second: it lasts one second and follows
second 59 of a minute. -/
def LeapValid (t : Instant) : Prop :=
  1000000000 ≤ t.nanos → t.nanos < 2000000000 ∧ t.seconds % 60 = 59

/-- The instant with its fraction cut to whole milliseconds. -/
def truncMillis (t : Instant) : Instant := ⟨t.seconds, t.nanos / 1000000 * 1000000⟩

theorem render_eq_stampText (t : Instant) (hy : 0 ≤ t.year ∧ t.year ≤ 9999) :
    t.render = stampText t.year.toNat (civilFromDays (t.seconds / 86400)).2.1.toNat
      (civilFromDays (t.seconds / 86400)).2.2.toNat ((t.seconds % 86400).toNat / 3600)
      ((t.seconds % 86400).toNat / 60 % 60)
      ((t.seconds % 86400).toNat % 60 + if 1000000000 ≤ t.nanos then 1 else 0)
      ((if 1000000000 ≤ t.nanos then t.nanos - 1000000000 else t.nanos) / 1000000) := by
  unfold render year at *
  -- name the date once, so that the year's test is the hypothesis
  dsimp only
  generalize civilFromDays (t.seconds / 86400) = p at hy ⊢
  obtain ⟨y, m, d⟩ := p
  dsimp only at hy ⊢
  rw [yearText, if_pos hy]
  split_ifs <;> rfl

/-- **Written text reads back.** An instant of a year in 0 to 9999 whose fraction of a second or
more is a leap second reads back from its text as itself, cut to whole milliseconds. -/
theorem parse_render {t : Instant} (hleap : t.LeapValid) (hy : 0 ≤ t.year ∧ t.year ≤ 9999) :
    parse? t.render = some t.truncMillis := by
  obtain ⟨⟨hm1, hm12, hd1, hdl⟩, hback⟩ := civilFromDays_valid (t.seconds / 86400)
  rw [render_eq_stampText t hy]
  unfold year at hy ⊢
  generalize civilFromDays (t.seconds / 86400) = p at hy hm1 hm12 hd1 hdl hback ⊢
  obtain ⟨y, m, d⟩ := p
  dsimp only at hy hm1 hm12 hd1 hdl hback ⊢
  have ey : ((y.toNat : Nat) : Int) = y := Int.toNat_of_nonneg hy.1
  have em : ((m.toNat : Nat) : Int) = m := Int.toNat_of_nonneg (by omega)
  have ed : ((d.toNat : Nat) : Int) = d := Int.toNat_of_nonneg (by omega)
  have er : (((t.seconds % 86400).toNat : Nat) : Int) = t.seconds % 86400 :=
    Int.toNat_of_nonneg (Int.emod_nonneg _ (by decide))
  have hr : t.seconds % 86400 < 86400 := Int.emod_lt_of_pos _ (by decide)
  have hms : (if 1000000000 ≤ t.nanos then t.nanos - 1000000000 else t.nanos) / 1000000 < 1000 := by
    split_ifs with hn
    · have := (hleap hn).1
      omega
    · omega
  rw [parse_stampText (by omega) (by omega) ⟨by omega, by rw [ey, em, ed]; exact hdl⟩ (by omega)
    (by omega) (by split_ifs <;> omega) hms, ey, em, ed, hback]
  simp only [truncMillis, Option.some.injEq, Instant.mk.injEq]
  by_cases hn : 1000000000 ≤ t.nanos
  · -- a leap second: written as second 60, read as second 59 and a second more of fraction
    have ⟨hn2, h59⟩ := hleap hn
    simp only [hn, if_true]
    constructor <;> split_ifs <;> omega
  · simp only [hn, if_false]
    constructor <;> split_ifs <;> omega

end Stowage.Instant
