-- SUMMARY: Which texts are decimal numerals, and the exact number that each of them denotes.
import Worksheet.Format.Display
import Worksheet.Proofs.Digits
import Worksheet.Proofs.ScriptDigits

/-!
# The Grammar of Decimal Numerals

A numeral is a sign or none, digits with at most one point among them, and an exponent or none;
blanks may stand around it. These texts and no others are read, and each is read as the number with
exactly its digits: `numeral?_eq_some_iff`. All other texts are shown as they are, in every format.
-/

namespace Worksheet.Decimal

open Text

variable {s : List Char} {v : Decimal} {e : Int} {n : Nat}

/-! ## Numerals by their parts -/

/-- The exponent of a numeral: the letter, a sign or none, and digits. -/
structure WrittenExponent where
  letter : Char
  sign : LeadingSign
  digits : List Char
  isLetter : letter = 'e' ∨ letter = 'E'
  areDecimals : AreDecimals digits
  digits_ne : digits ≠ []

namespace WrittenExponent

def chars (x : WrittenExponent) : List Char := x.letter :: (x.sign.chars ++ x.digits)

def value (x : WrittenExponent) : Int := x.sign.apply (number x.digits)

end WrittenExponent

/-- A numeral as it is written: a sign or none, digits, a point with digits behind it or no point,
    and an exponent or none. There is a digit in front of the point or behind it. -/
structure Spelling where
  sign : LeadingSign
  whole : List Char
  /-- The digits behind the point, if there is a point. -/
  decimals? : Option (List Char)
  exponent? : Option WrittenExponent
  areDecimals_whole : AreDecimals whole
  areDecimals_decimals : AreDecimals (decimals?.getD [])
  digits_ne : whole ++ decimals?.getD [] ≠ []

namespace Spelling

variable (n : Spelling)

/-- The digits behind the point. -/
def decimals : List Char := n.decimals?.getD []

def pointChars : List Char := (n.decimals?.map ('.' :: ·)).getD []

def exponentChars : List Char := (n.exponent?.map WrittenExponent.chars).getD []

def chars : List Char := n.sign.chars ++ (n.whole ++ (n.pointChars ++ n.exponentChars))

/-- The exponent that is written, or zero. -/
def exponent : Int := (n.exponent?.map WrittenExponent.value).getD 0

/-- The number with the sign of the numeral and with all of its digits, the point removed. -/
def decimal : Decimal :=
  ⟨n.sign = .minus, number (n.whole ++ n.decimals), n.exponent - n.decimals.length⟩

/-- The text is the numeral, with blanks around it or none. -/
def IsIn (s : String) : Prop := IsPadded isBlank n.chars s.toList

end Spelling

/-! ## Reading digits -/

/-- Digits are read up to the first character that is none. -/
theorem spanDigits_of_areDecimals {ds rest : List Char} (h : AreDecimals ds)
    (hrest : ∀ c ∈ rest.head?, digitValue? c = none) :
    spanDigits (ds ++ rest) = (digitValues ds, rest) := by
  induction ds with
  | nil =>
    cases rest with
    | nil => rfl
    | cons c rest => simp [spanDigits, hrest c rfl, digitValues]
  | cons c ds ih =>
    obtain ⟨hc, hds⟩ := areDecimals_cons.1 h
    obtain ⟨d, hd⟩ := Option.ne_none_iff_exists'.1 hc
    simp only [List.cons_append, spanDigits, hd, ih hds, digitValues_cons hd]

/-- Every text is digits and what follows them. -/
theorem exists_spanDigits (s : List Char) :
    ∃ ds rest, s = ds ++ rest ∧ AreDecimals ds ∧ spanDigits s = (digitValues ds, rest) := by
  induction s with
  | nil => exact ⟨[], [], rfl, areDecimals_nil, rfl⟩
  | cons c s ih =>
    cases hc : digitValue? c with
    | none => exact ⟨[], c :: s, rfl, areDecimals_nil, by simp [spanDigits, hc, digitValues]⟩
    | some d =>
      obtain ⟨ds, rest, rfl, hds, hspan⟩ := ih
      refine ⟨c :: ds, rest, rfl, areDecimals_cons.2 ⟨by simp [hc], hds⟩, ?_⟩
      simp only [spanDigits, hc, hspan, digitValues_cons hc]

theorem digitValues_eq_nil_iff {ds : List Char} (h : AreDecimals ds) :
    digitValues ds = [] ↔ ds = [] := by
  rw [← List.length_eq_zero_iff, length_digitValues h, List.length_eq_zero_iff]

theorem spanDigits_eq_self (h : AreDecimals s) : spanDigits s = (digitValues s, []) := by
  have hspan : spanDigits (s ++ []) = (digitValues s, []) :=
    spanDigits_of_areDecimals h fun c hc => nomatch hc
  rwa [List.append_nil] at hspan

theorem wholeNumber?_of_spanDigits {ds : List Nat} {rest : List Char}
    (h : spanDigits s = (ds, rest)) :
    wholeNumber? s = if ds ≠ [] ∧ rest = [] then some (Integer.ofDigits ds) else none := by
  unfold wholeNumber?
  rw [h]
  cases ds with
  | nil => rfl
  | cons d ds => cases rest <;> simp

/-- A whole number is digits, and at least one. -/
theorem wholeNumber?_eq_some_iff :
    wholeNumber? s = some n ↔ AreDecimals s ∧ s ≠ [] ∧ n = number s := by
  constructor
  · intro h
    obtain ⟨ds, rest, rfl, hds, hspan⟩ := exists_spanDigits s
    rw [wholeNumber?_of_spanDigits hspan] at h
    obtain ⟨⟨hne, rfl⟩, hn⟩ := Option.ite_none_right_eq_some.1 h
    rw [List.append_nil]
    refine ⟨hds, mt (digitValues_eq_nil_iff hds).2 hne, ?_⟩
    rw [← Integer.ofDigits_digitValues, Option.some.inj hn]
  · rintro ⟨hs, hne, rfl⟩
    rw [wholeNumber?_of_spanDigits (spanDigits_eq_self hs), Integer.ofDigits_digitValues]
    exact if_pos ⟨mt (digitValues_eq_nil_iff hs).1 hne, rfl⟩

/-! ## Reading exponents -/

theorem exponent?_chars (x : WrittenExponent) : Decimal.exponent? x.chars = some x.value := by
  obtain ⟨c, sign, ds, hc, hds, hne⟩ := x
  have hread := wholeNumber?_eq_some_iff.2 ⟨hds, hne, rfl⟩
  unfold Decimal.exponent? WrittenExponent.chars WrittenExponent.value
  simp only [if_pos hc]
  cases sign with
  | minus => simp [LeadingSign.chars, LeadingSign.apply, hread]
  | plus => simp [LeadingSign.chars, LeadingSign.apply, hread]
  | absent =>
    obtain ⟨c', ds, rfl⟩ := List.exists_cons_of_ne_nil hne
    obtain ⟨hminus, hplus⟩ := head_ne_sign (areDecimals_cons.1 hds).1
    simp only [LeadingSign.chars, LeadingSign.apply, List.nil_append]
    split
    · rename_i heq
      exact absurd (List.cons.inj heq).1 hminus
    · rename_i heq
      exact absurd (List.cons.inj heq).1 hplus
    · rw [hread]
      rfl

/-- What an exponent may be: nothing, or a letter, a sign or none, and digits. -/
theorem exponent?_eq_some_iff : Decimal.exponent? s = some e ↔
    ∃ x? : Option WrittenExponent, s = (x?.map WrittenExponent.chars).getD [] ∧
      e = (x?.map WrittenExponent.value).getD 0 := by
  constructor
  · intro h
    unfold Decimal.exponent? at h
    split at h
    · exact ⟨none, rfl, (Option.some.inj h).symm⟩
    · rename_i c rest
      obtain ⟨hc, h⟩ := Option.ite_none_right_eq_some.1 h
      split at h
      · obtain ⟨n, hn, rfl⟩ := map_natCast_eq_some_iff.1 h
        obtain ⟨hds, hne, rfl⟩ := wholeNumber?_eq_some_iff.1 hn
        exact ⟨some ⟨c, .minus, _, hc, hds, hne⟩, rfl, rfl⟩
      · obtain ⟨n, hn, rfl⟩ := map_natCast_eq_some_iff.1 h
        obtain ⟨hds, hne, rfl⟩ := wholeNumber?_eq_some_iff.1 hn
        exact ⟨some ⟨c, .plus, _, hc, hds, hne⟩, rfl, rfl⟩
      · obtain ⟨n, hn, rfl⟩ := map_natCast_eq_some_iff.1 h
        obtain ⟨hds, hne, rfl⟩ := wholeNumber?_eq_some_iff.1 hn
        exact ⟨some ⟨c, .absent, _, hc, hds, hne⟩, rfl, rfl⟩
  · rintro ⟨x?, rfl, rfl⟩
    cases x? with
    | none => rfl
    | some x => exact exponent?_chars x

/-! ## Reading numerals -/

theorem unsigned?_of_spans {negative : Bool} {ds fs : List Nat} {rest rest' : List Char}
    (hwhole : spanDigits s = (ds, rest)) (hfraction : spanFraction rest = (fs, rest')) :
    unsigned? negative s = if ds ++ fs = [] then none else
      (Decimal.exponent? rest').map fun e =>
        ⟨negative, Integer.ofDigits (ds ++ fs), e - fs.length⟩ := by
  unfold unsigned?
  simp only [hwhole, hfraction, Bool.and_eq_true, List.isEmpty_iff, List.append_eq_nil_iff]

theorem unsigned?_cons_sign {negative : Bool} {c : Char} (hc : c = '-' ∨ c = '+') :
    unsigned? negative (c :: s) = none := by
  rcases hc with rfl | rfl <;> rfl

namespace Spelling

variable (n : Spelling)

/-- The exponent does not start with a digit. -/
theorem digitValue?_head_exponentChars : ∀ c ∈ n.exponentChars.head?, digitValue? c = none := by
  unfold exponentChars
  cases n.exponent? with
  | none => exact fun c hc => nomatch hc
  | some x =>
    intro c hc
    obtain rfl : x.letter = c := Option.some.inj hc
    rcases x.isLetter with h | h <;> rw [h] <;> decide

theorem digitValue?_head_behind :
    ∀ c ∈ (n.pointChars ++ n.exponentChars).head?, digitValue? c = none := by
  unfold pointChars
  cases n.decimals? with
  | none => exact n.digitValue?_head_exponentChars
  | some ds =>
    intro c hc
    obtain rfl : '.' = c := Option.some.inj hc
    decide

theorem spanFraction_behind :
    spanFraction (n.pointChars ++ n.exponentChars) = (digitValues n.decimals, n.exponentChars) := by
  have hdecimals := n.areDecimals_decimals
  unfold pointChars decimals
  cases hpoint : n.decimals? with
  | none =>
    unfold exponentChars
    cases n.exponent? with
    | none => rfl
    | some x =>
      obtain ⟨c, sign, ds, rfl | rfl, hds, hne⟩ := x
      · rfl
      · rfl
  | some ds =>
    rw [hpoint] at hdecimals
    exact spanDigits_of_areDecimals hdecimals n.digitValue?_head_exponentChars

/-- What stands behind the sign is read with all of its digits. -/
theorem unsigned?_chars :
    unsigned? (n.sign = .minus) (n.whole ++ (n.pointChars ++ n.exponentChars)) =
      some n.decimal := by
  have hdigits : AreDecimals (n.whole ++ n.decimals) :=
    areDecimals_append.2 ⟨n.areDecimals_whole, n.areDecimals_decimals⟩
  have hexponent : Decimal.exponent? n.exponentChars = some n.exponent :=
    exponent?_eq_some_iff.2 ⟨n.exponent?, rfl, rfl⟩
  have hlength : (digitValues n.decimals).length = n.decimals.length :=
    length_digitValues n.areDecimals_decimals
  rw [unsigned?_of_spans (spanDigits_of_areDecimals n.areDecimals_whole n.digitValue?_head_behind)
      n.spanFraction_behind, ← digitValues_append, hexponent,
    if_neg (mt (digitValues_eq_nil_iff hdigits).1 n.digits_ne), Integer.ofDigits_digitValues,
    hlength]
  rfl

theorem signed?_chars : signed? n.chars = some n.decimal := by
  have hread := n.unsigned?_chars
  unfold chars signed?
  cases hsign : n.sign with
  | minus =>
    rw [hsign] at hread
    exact hread
  | plus =>
    rw [hsign] at hread
    exact hread
  | absent =>
    rw [hsign] at hread
    simp only [LeadingSign.chars, List.nil_append]
    split
    · rename_i heq
      rw [heq, unsigned?_cons_sign (.inl rfl)] at hread
      cases hread
    · rename_i heq
      rw [heq, unsigned?_cons_sign (.inr rfl)] at hread
      cases hread
    · exact hread

end Spelling

/-- What is read is a numeral behind its sign. -/
theorem exists_spelling (sign : LeadingSign) (h : unsigned? (sign = .minus) s = some v) :
    ∃ n : Spelling, sign.chars ++ s = n.chars ∧ v = n.decimal := by
  obtain ⟨whole, rest, rfl, hwhole, hspan⟩ := exists_spanDigits s
  obtain ⟨decimals?, rest', hrest, hdecimals, hfraction⟩ : ∃ (decimals? : Option (List Char))
      (rest' : List Char), rest = (decimals?.map ('.' :: ·)).getD [] ++ rest' ∧
        AreDecimals (decimals?.getD []) ∧
        spanFraction rest = (digitValues (decimals?.getD []), rest') := by
    unfold spanFraction
    split
    · rename_i rest
      obtain ⟨ds, rest', rfl, hds, hspan'⟩ := exists_spanDigits rest
      exact ⟨some ds, rest', rfl, hds, hspan'⟩
    · exact ⟨none, rest, rfl, areDecimals_nil, rfl⟩
  rw [unsigned?_of_spans hspan hfraction, ← digitValues_append] at h
  obtain ⟨hne, h⟩ := Option.ite_none_left_eq_some.1 h
  obtain ⟨e, he, rfl⟩ := Option.map_eq_some_iff.1 h
  obtain ⟨x?, hx, rfl⟩ := exponent?_eq_some_iff.1 he
  have hdigits : AreDecimals (whole ++ decimals?.getD []) :=
    areDecimals_append.2 ⟨hwhole, hdecimals⟩
  have hne' := mt (digitValues_eq_nil_iff hdigits).2 hne
  refine ⟨⟨sign, whole, decimals?, x?, hwhole, hdecimals, hne'⟩, ?_, ?_⟩
  · rw [hrest, hx]
    rfl
  · rw [Integer.ofDigits_digitValues, length_digitValues hdecimals]
    rfl

theorem signed?_eq_some_iff : signed? s = some v ↔ ∃ n : Spelling, s = n.chars ∧ v = n.decimal := by
  constructor
  · intro h
    unfold signed? at h
    split at h
    · exact exists_spelling .minus h
    · exact exists_spelling .plus h
    · exact exists_spelling .absent h
  · rintro ⟨n, rfl, rfl⟩
    exact n.signed?_chars

namespace Spelling

variable {n : Spelling} {s : String} {P : Char → Prop}

/-- A numeral has no other characters than digits, signs, the point and the letters of exponents. -/
theorem forall_mem_chars (n : Spelling) (hdigit : ∀ c, digitValue? c ≠ none → P c)
    (hmark : ∀ c ∈ ['+', '-', '.', 'e', 'E'], P c) : ∀ c ∈ n.chars, P c := by
  have hsign (sign : LeadingSign) : ∀ c ∈ sign.chars, P c := by
    cases sign with
    | absent => exact fun c hc => nomatch hc
    | plus => exact fun c hc => hmark c (List.mem_singleton.1 hc ▸ by simp)
    | minus => exact fun c hc => hmark c (List.mem_singleton.1 hc ▸ by simp)
  have hdigits {ds : List Char} (h : AreDecimals ds) : ∀ c ∈ ds, P c :=
    fun c hc => hdigit c (h c hc)
  have hdecimals := n.areDecimals_decimals
  refine List.forall_mem_append.2 ⟨hsign _, List.forall_mem_append.2 ⟨hdigits n.areDecimals_whole,
    List.forall_mem_append.2 ⟨?_, ?_⟩⟩⟩
  · unfold pointChars
    cases hpoint : n.decimals? with
    | none => exact fun c hc => nomatch hc
    | some ds =>
      rw [hpoint] at hdecimals
      exact List.forall_mem_cons.2 ⟨hmark '.' (by simp), hdigits hdecimals⟩
  · unfold exponentChars
    cases n.exponent? with
    | none => exact fun c hc => nomatch hc
    | some x =>
      refine List.forall_mem_cons.2 ⟨hmark _ ?_, List.forall_mem_append.2
        ⟨hsign _, hdigits x.areDecimals⟩⟩
      rcases x.isLetter with h | h <;> simp [h]

theorem isBlank_of_mem (n : Spelling) : ∀ c ∈ n.chars, isBlank c = false :=
  n.forall_mem_chars (fun _ => isBlank_eq_false) (by simp; decide)

theorem isIn_iff : n.IsIn s ↔ trim s.toList = n.chars := (strip_eq_iff n.isBlank_of_mem).symm

/-- In the text of a numeral there are blanks besides. -/
theorem IsIn.forall_mem (h : n.IsIn s) (hblank : ∀ c, isBlank c = true → P c)
    (hdigit : ∀ c, digitValue? c ≠ none → P c) (hmark : ∀ c ∈ ['+', '-', '.', 'e', 'E'], P c) :
    ∀ c ∈ s.toList, P c := by
  obtain ⟨before, after, hbefore, hafter, hs⟩ := h
  rw [hs]
  refine List.forall_mem_append.2 ⟨List.forall_mem_append.2 ⟨?_, ?_⟩, ?_⟩
  · exact fun c hc => hblank c (hbefore c hc)
  · exact n.forall_mem_chars hdigit hmark
  · exact fun c hc => hblank c (hafter c hc)

/-- Neither underscores nor the letter that all words for infinity and for no number have. -/
theorem IsIn.notMem (h : n.IsIn s) : '_' ∉ s.toList ∧ 'n' ∉ s.toList ∧ 'N' ∉ s.toList := by
  have hne (x : Char) (hx : isBlank x = false ∧ digitValue? x = none ∧
      x ∉ ['+', '-', '.', 'e', 'E']) : x ∉ s.toList := by
    intro hmem
    refine h.forall_mem (P := (· ≠ x)) ?_ ?_ ?_ x hmem rfl
    · rintro c hc rfl
      rw [hx.1] at hc
      cases hc
    · rintro c hc rfl
      exact hc hx.2.1
    · rintro c hc rfl
      exact hx.2.2 hc
  exact ⟨hne '_' (by decide), hne 'n' (by decide), hne 'N' (by decide)⟩

theorem IsIn.length_le (h : n.IsIn s) : (n.whole ++ n.decimals).length ≤ s.length := by
  have hdecimals : n.decimals.length ≤ n.pointChars.length := by
    unfold decimals pointChars
    cases n.decimals? <;> simp
  obtain ⟨before, after, -, -, hs⟩ := h
  rw [← String.length_toList, hs, chars]
  simp only [List.length_append]
  omega

end Spelling

/-- The texts that are read, and the number of each, whatever its exponent is. -/
theorem numeral?_eq_some_iff {s : String} :
    numeral? s.toList = some v ↔ ∃ n : Spelling, n.IsIn s ∧ v = n.decimal := by
  unfold numeral?
  simp only [signed?_eq_some_iff, Spelling.isIn_iff]

/-! ## Numerals within bounds -/

/-- Below these bounds the exponents of a number are never too large. -/
theorem Spelling.IsIn.isWritable {n : Spelling} {s : String} (h : n.IsIn s)
    (hlength : s.length < 10 ^ 17) (hexponent : n.exponent.natAbs < 10 ^ 17) :
    isWritable n.decimal = true := by
  have hle := h.length_le
  have hpos : 0 < (n.whole ++ n.decimals).length := List.length_pos_iff.2 n.digits_ne
  have hcount : Digits.count (number (n.whole ++ n.decimals)) ≤ (n.whole ++ n.decimals).length := by
    apply (Digits.count_le_iff hpos).2
    exact number_lt (areDecimals_append.2 ⟨n.areDecimals_whole, n.areDecimals_decimals⟩)
  rw [List.length_append] at hle hcount
  refine Bool.and_eq_true_iff.2 ⟨decide_eq_true ?_, decide_eq_true ?_⟩
  · simp only [adjusted, digitCount, largestWritten, Spelling.decimal]
    omega
  · simp only [smallestWritten, Spelling.decimal]
    omega

/-! ## Texts that are no numerals -/

/-- The words for infinity and for what is no number. -/
def specialWords : List (List Char) :=
  ["inf".toList, "infinity".toList, "nan".toList, "snan".toList]

/-- The text is such a word in any case, with a sign or none and with digits behind it or none. -/
def IsSpecial (s : String) : Prop :=
  ∃ (sign : LeadingSign) (word digits : List Char), word.map Char.toLower ∈ specialWords ∧
    AreDecimals digits ∧ IsPadded isBlank (sign.chars ++ (word ++ digits)) s.toList

theorem eq_or_eq_of_toLower {c : Char} (h : c.toLower = 'n') : c = 'n' ∨ c = 'N' := by
  unfold Char.toLower at h
  split at h
  · have hval : c.val + ('a'.val - 'A'.val) = 'N'.val + ('a'.val - 'A'.val) := congrArg Char.val h
    exact .inr (Char.ext (UInt32.add_left_inj _ |>.1 hval))
  · exact .inl h

theorem IsSpecial.not_isIn {s : String} (h : IsSpecial s) (n : Spelling) : ¬n.IsIn s := by
  intro hn
  obtain ⟨sign, word, digits, hword, -, before, after, -, -, hs⟩ := h
  obtain ⟨-, hlower, hupper⟩ := hn.notMem
  have hletter : 'n' ∈ word.map Char.toLower := by
    have hall : ∀ w ∈ specialWords, 'n' ∈ w := by simp [specialWords]
    exact hall _ hword
  obtain ⟨c, hc, hcase⟩ := List.mem_map.1 hletter
  have hmem : c ∈ s.toList := by simp [hs, hc]
  rcases eq_or_eq_of_toLower hcase with rfl | rfl
  · exact hlower hmem
  · exact hupper hmem

/-- A text is read exactly if it is a numeral, with blanks around it or none, and it is read as the
    number with the sign and all the digits of the numeral. The words for infinity and for no number
    are no numerals. Every text that is no numeral is shown as it is, in every format. -/
theorem parse_numeral (s : String) (hlength : s.length < 10 ^ 17)
    (hexponent : ∀ n : Spelling, n.IsIn s → n.exponent.natAbs < 10 ^ 17) :
    (∀ v, parse? s.toList = some v ↔
      '_' ∉ s.toList ∧ ∃ n : Spelling, n.IsIn s ∧ v = n.decimal) ∧
    (IsSpecial s → ∀ n : Spelling, ¬n.IsIn s) ∧
    ((∀ n : Spelling, ¬n.IsIn s) → parse? s.toList = none ∧
      ∀ strict id pattern, Format.Display.text strict s id pattern = .ok s) := by
  have hparse (v : Decimal) : parse? s.toList = some v ↔
      '_' ∉ s.toList ∧ ∃ n : Spelling, n.IsIn s ∧ v = n.decimal := by
    rw [parse?, Option.filter_eq_some_iff, numeral?_eq_some_iff]
    constructor
    · rintro ⟨⟨n, hn, hv⟩, -⟩
      exact ⟨hn.notMem.1, n, hn, hv⟩
    · rintro ⟨-, n, hn, rfl⟩
      exact ⟨⟨n, hn, rfl⟩, hn.isWritable hlength (hexponent n hn)⟩
  refine ⟨hparse, IsSpecial.not_isIn, fun hnone => ?_⟩
  have hread : parse? s.toList = none := by
    apply Option.eq_none_iff_forall_ne_some.2
    intro v hv
    obtain ⟨-, n, hn, -⟩ := (hparse v).1 hv
    exact hnone n hn
  refine ⟨hread, fun strict id pattern => ?_⟩
  unfold Format.Display.text
  rw [hread]

/-- A numeral with a digit of another script, and with zeros in front of its exponent. -/
def threeAndAHalfPercent : Spelling where
  sign := .minus
  whole := ['٣']
  decimals? := some ['5', '0']
  exponent? := some ⟨'E', .minus, ['0', '0', '2'], .inr rfl, by simp [AreDecimals]; decide, by simp⟩
  areDecimals_whole := by simp [AreDecimals]; decide
  areDecimals_decimals := by simp [AreDecimals]; decide
  digits_ne := by simp

/-- The numeral between blanks of two kinds, and a signed word for no number. -/
theorem parse_numeral_arabic :
    ("\u00A0-٣.50E-002\u3000".length < 10 ^ 17 ∧
      (∀ n : Spelling, n.IsIn "\u00A0-٣.50E-002\u3000" → n.exponent.natAbs < 10 ^ 17) ∧
      threeAndAHalfPercent.IsIn "\u00A0-٣.50E-002\u3000") ∧
    parse? "\u00A0-٣.50E-002\u3000".toList = some ⟨true, 350, -4⟩ ∧
    IsSpecial " -sNaN12" ∧ parse? " -sNaN12".toList = none ∧
    Format.Display.text true " -sNaN12" 2 "0.00" = .ok " -sNaN12" := by
  have hin : threeAndAHalfPercent.IsIn "\u00A0-٣.50E-002\u3000" :=
    ⟨['\u00A0'], ['\u3000'], by simp; decide, by simp; decide, rfl⟩
  have hexponent : ∀ n : Spelling, n.IsIn "\u00A0-٣.50E-002\u3000" →
      n.exponent.natAbs < 10 ^ 17 := by
    intro n hn
    have hread := numeral?_eq_some_iff.2 ⟨n, hn, rfl⟩
    rw [numeral?_eq_some_iff.2 ⟨_, hin, rfl⟩] at hread
    have hvalue : -4 = n.exponent - n.decimals.length :=
      congrArg Decimal.exponent (Option.some.inj hread)
    have hlength : (n.whole ++ n.decimals).length ≤ 12 := hn.length_le
    rw [List.length_append] at hlength
    omega
  have hspecial : IsSpecial " -sNaN12" :=
    ⟨.minus, "sNaN".toList, "12".toList, by simp [specialWords], by simp [AreDecimals]; decide,
      [' '], [], by simp; decide, by simp, rfl⟩
  have hlength : "\u00A0-٣.50E-002\u3000".length < 10 ^ 17 := by decide
  obtain ⟨hread, -, -⟩ := parse_numeral _ hlength hexponent
  obtain ⟨-, hnot, hshown⟩ := parse_numeral " -sNaN12" (by decide) fun n hn =>
    absurd hn (hspecial.not_isIn n)
  obtain ⟨hnone, htext⟩ := hshown (hnot hspecial)
  exact ⟨⟨hlength, hexponent, hin⟩, (hread _).2 ⟨by decide, threeAndAHalfPercent, hin, rfl⟩,
    hspecial, hnone, htext true 2 "0.00"⟩

end Worksheet.Decimal
