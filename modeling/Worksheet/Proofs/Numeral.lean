-- SUMMARY: A written numeral is read as the number that its digits and its exponent denote.
import Worksheet.Proofs.Exactness
import Worksheet.Proofs.Numeral.Grammar

/-!
# Written Numerals

A numeral is made of digits, digits after a point, and an exponent. It is read as the decimal
with all of its digits: `Numeral.parse?_chars`. A minus sign in front changes the sign of the
number and nothing else: `parse?_cons_minus`.
-/

namespace Worksheet

open Digits

/-! ## Characters of numerals -/

theorem Digits.isBlank_char : ∀ d < 10, Text.isBlank (char d) = false := by decide

theorem Integer.ofDigits_map (ds : List Char) : ofDigits (ds.map charValue) = value ds := by
  rw [ofDigits, List.foldl_map]
  rfl

namespace Text

variable {s ds : List Char}

theorem trim_eq_self (h : ∀ c ∈ s, isBlank c = false) : trim s = s :=
  (strip_eq_iff h).2 ⟨[], [], by simp, by simp, by simp⟩

theorem digitValue?_char : ∀ d < 10, digitValue? (char d) = some d := by decide

theorem areDecimals_of_areDigits (h : AreDigits ds) : AreDecimals ds := by
  intro c hc
  obtain ⟨d, hd, rfl⟩ := h c hc
  rw [digitValue?_char d hd]
  exact Option.some_ne_none d

theorem digitValues_of_areDigits (h : AreDigits ds) : digitValues ds = ds.map charValue := by
  induction ds with
  | nil => rfl
  | cons c ds ih =>
    obtain ⟨⟨d, hd, rfl⟩, hds⟩ := List.forall_mem_cons.1 h
    rw [digitValues_cons (digitValue?_char d hd), List.map_cons, charValue_char d hd, ih hds]

theorem number_of_areDigits (h : AreDigits ds) : number ds = value ds := by
  rw [← Integer.ofDigits_digitValues, digitValues_of_areDigits h, Integer.ofDigits_map]

end Text

namespace Decimal

open Text (LeadingSign)

variable {s : List Char} {v : Decimal}

/-! ## Numerals with a sign -/

/-- A spelling is read without blanks around it. -/
theorem Spelling.numeral?_chars (n : Spelling) : numeral? n.chars = some n.decimal := by
  rw [numeral?, Text.trim_eq_self n.isBlank_of_mem, n.signed?_chars]

/-- A minus sign in front of a numeral changes the sign of its number and nothing else. -/
theorem parse?_cons_minus (htrim : Text.trim s = s) (hminus : s.head? ≠ some '-')
    (hplus : s.head? ≠ some '+') (h : parse? s = some v) :
    v.negative = false ∧ parse? ('-' :: s) = some { v with negative := true } := by
  obtain ⟨hv, hw⟩ := Option.filter_eq_some_iff.1 h
  rw [numeral?, htrim] at hv
  obtain ⟨n, rfl, rfl⟩ := signed?_eq_some_iff.1 hv
  have hsign : n.sign = .absent := by
    cases hsign : n.sign with
    | absent => rfl
    | plus => exact absurd (by simp [Spelling.chars, hsign, LeadingSign.chars]) hplus
    | minus => exact absurd (by simp [Spelling.chars, hsign, LeadingSign.chars]) hminus
  have hchars : ({ n with sign := .minus } : Spelling).chars = '-' :: n.chars := by
    rw [Spelling.chars, Spelling.chars, hsign]
    rfl
  have hread := ({ n with sign := .minus } : Spelling).numeral?_chars
  rw [hchars] at hread
  exact ⟨by simp [Spelling.decimal, hsign], Option.filter_eq_some_iff.2 ⟨hread, hw⟩⟩

/-! ## Numerals by their parts -/

/-- A numeral without its sign: digits, the digits after a point, and an exponent if one is
    written. A point without digits after it is not written. -/
structure Numeral where
  whole : List Char
  decimals : List Char
  exponent? : Option Int
  areDigits_whole : AreDigits whole
  whole_ne : whole ≠ []
  areDigits_decimals : AreDigits decimals

namespace Numeral

def pointChars (n : Numeral) : List Char := if n.decimals = [] then [] else '.' :: n.decimals

/-- The exponent with its sign and at least two digits. -/
def exponentChars (n : Numeral) : List Char :=
  match n.exponent? with
  | none => []
  | some e => 'E' :: (if e < 0 then '-' else '+') :: padded 2 e.natAbs

def chars (n : Numeral) : List Char := n.whole ++ (n.pointChars ++ n.exponentChars)

/-- The exponent that is written, or zero. -/
def exponent (n : Numeral) : Int := n.exponent?.getD 0

/-- What the digits denote, without the exponent. -/
def mantissa (n : Numeral) : Rat :=
  Digits.value n.whole + Digits.value n.decimals / 10 ^ n.decimals.length

def value (n : Numeral) : Rat := n.mantissa * 10 ^ n.exponent

/-- The number with exactly the digits of the numeral. -/
def decimal (n : Numeral) (negative : Bool) : Decimal :=
  ⟨negative, Digits.value (n.whole ++ n.decimals), n.exponent - n.decimals.length⟩

theorem magnitude_decimal (n : Numeral) (negative : Bool) :
    (n.decimal negative).magnitude = n.value := by
  have hpow : (10 : Rat) ^ n.decimals.length ≠ 0 := by positivity
  have hmantissa : (Digits.value (n.whole ++ n.decimals) : Rat) =
      n.mantissa * 10 ^ n.decimals.length := by
    rw [value_append, mantissa, add_mul, div_mul_cancel₀ _ hpow]
    push_cast
    rfl
  rw [magnitude_eq, decimal, hmantissa, sub_eq_add_neg, ten_zpow_add, zpow_neg, zpow_natCast,
    value]
  field_simp

end Numeral

/-! ## Reading numerals -/

theorem isLetter_upper : 'E' = 'e' ∨ 'E' = 'E' := .inr rfl

/-- The exponent as it is written. -/
def written (e : Int) : WrittenExponent where
  letter := 'E'
  sign := if e < 0 then .minus else .plus
  digits := padded 2 e.natAbs
  isLetter := isLetter_upper
  areDecimals := Text.areDecimals_of_areDigits (areDigits_padded _ _)
  digits_ne := List.length_pos_iff.1 ((by decide : 0 < 2).trans_le (le_length_padded 2 _))

theorem value_written (e : Int) : (written e).value = e := by
  unfold WrittenExponent.value written
  rw [Text.number_of_areDigits (areDigits_padded _ _), value_padded]
  by_cases he : e < 0
  · rw [if_pos he, LeadingSign.apply]
    omega
  · rw [if_neg he, LeadingSign.apply]
    omega

namespace Numeral

variable {n : Numeral}

/-- The numeral with a minus sign or without a sign. -/
def spelling (n : Numeral) (negative : Bool) : Spelling where
  sign := if negative then .minus else .absent
  whole := n.whole
  decimals? := if n.decimals = [] then none else some n.decimals
  exponent? := n.exponent?.map written
  areDecimals_whole := Text.areDecimals_of_areDigits n.areDigits_whole
  areDecimals_decimals := by
    split
    · exact Text.areDecimals_nil
    · exact Text.areDecimals_of_areDigits n.areDigits_decimals
  digits_ne := List.append_ne_nil_of_left_ne_nil n.whole_ne _

theorem chars_spelling (n : Numeral) (negative : Bool) :
    (n.spelling negative).chars = (if negative then ['-'] else []) ++ n.chars := by
  have hsign : (n.spelling negative).sign.chars = if negative then ['-'] else [] := by
    cases negative <;> rfl
  have hpoint : (n.spelling negative).pointChars = n.pointChars := by
    by_cases hnil : n.decimals = [] <;> simp [Spelling.pointChars, pointChars, spelling, hnil]
  have hexponent : (n.spelling negative).exponentChars = n.exponentChars := by
    unfold Spelling.exponentChars exponentChars spelling
    cases n.exponent? with
    | none => rfl
    | some e => by_cases he : e < 0 <;> simp [WrittenExponent.chars, written, he, LeadingSign.chars]
  rw [Spelling.chars, hsign, hpoint, hexponent]
  rfl

theorem decimal_spelling (n : Numeral) (negative : Bool) :
    (n.spelling negative).decimal = n.decimal negative := by
  have hsign : decide ((n.spelling negative).sign = .minus) = negative := by
    cases negative <;> rfl
  have hdecimals : (n.spelling negative).decimals = n.decimals := by
    by_cases hnil : n.decimals = [] <;> simp [Spelling.decimals, spelling, hnil]
  have hexponent : (n.spelling negative).exponent = n.exponent := by
    unfold Spelling.exponent exponent spelling
    cases n.exponent? with
    | none => rfl
    | some e => exact value_written e
  have hdigits : AreDigits (n.whole ++ n.decimals) :=
    areDigits_append.2 ⟨n.areDigits_whole, n.areDigits_decimals⟩
  rw [Spelling.decimal, hsign, hdecimals, hexponent, decimal]
  congr 1
  exact Text.number_of_areDigits hdigits

/-- A numeral is read with exactly its digits, if its exponents are within bounds. -/
theorem parse?_chars {negative : Bool} (h : isWritable (n.decimal negative) = true) :
    parse? ((if negative then ['-'] else []) ++ n.chars) = some (n.decimal negative) := by
  have hread := (n.spelling negative).numeral?_chars
  rw [n.chars_spelling, n.decimal_spelling] at hread
  exact Option.filter_eq_some_iff.2 ⟨hread, h⟩

end Numeral

end Decimal

end Worksheet
