-- SUMMARY: Which texts are integer numerals, and the integer that each of them denotes.
import Worksheet.Proofs.ScriptDigits

/-!
# The Grammar of Integer Numerals

An integer numeral is a sign or none and then digits, with single underscores between digits;
spaces may stand around it. These texts and no others are read, if they do not have too many
digits: `parse?_eq_some_iff`.
-/

namespace Worksheet.Integer

open Text

variable {s : List Char} {needed : Bool} {ds : List Nat} {i : Int} {n : Nat}

/-! ## Runs of digits -/

/-- Runs of digits, each with an underscore in front. -/
def underscored (runs : List (List Char)) : List Char := runs.flatMap ('_' :: ·)

/-- Digits behind digits need no more of them, and otherwise none may be missing. -/
theorem digits?_append {front rest : List Char} (h : AreDecimals front)
    (hne : needed = true → front ≠ []) :
    digits? needed (front ++ rest) = (digits? false rest).map (digitValues front ++ ·) := by
  induction front generalizing needed with
  | nil =>
    obtain rfl : needed = false := Bool.eq_false_iff.2 fun h => hne h rfl
    exact Option.map_id'.symm
  | cons c front ih =>
    obtain ⟨hc, hfront⟩ := areDecimals_cons.1 h
    obtain ⟨d, hd⟩ := Option.ne_none_iff_exists'.1 hc
    have hrest : digits? false (front ++ rest) =
        (digits? false rest).map (digitValues front ++ ·) := ih hfront fun h => nomatch h
    cases needed <;> simp [digits?, hd, hrest, digitValues_cons hd, Function.comp_def]

theorem digits?_underscored {runs : List (List Char)}
    (h : ∀ run ∈ runs, AreDecimals run ∧ run ≠ []) :
    digits? false (underscored runs) = some (digitValues runs.flatten) := by
  induction runs with
  | nil => rfl
  | cons run runs ih =>
    obtain ⟨⟨hrun, hne⟩, hruns⟩ := List.forall_mem_cons.1 h
    have hmark : digitValue? '_' = none := by decide
    have hread : digits? true (run ++ underscored runs) =
        some (digitValues (run ++ runs.flatten)) := by
      rw [digits?_append hrun fun _ => hne, ih hruns, digitValues_append]
      rfl
    change digits? false ('_' :: (run ++ underscored runs)) = _
    simpa [digits?, hmark] using hread

/-- What is read: digits, and further runs behind underscores. -/
theorem digits?_eq_some_iff : digits? needed s = some ds ↔
    ∃ first more, AreDecimals first ∧ (needed = true → first ≠ []) ∧
      (∀ run ∈ more, AreDecimals run ∧ run ≠ []) ∧ s = first ++ underscored more ∧
      ds = digitValues (first ++ more.flatten) := by
  constructor
  · intro h
    induction s generalizing needed ds with
    | nil =>
      cases needed with
      | true => cases h
      | false =>
        exact ⟨[], [], areDecimals_nil, nofun, nofun, rfl, (Option.some.inj h).symm⟩
    | cons c s ih =>
      cases hc : digitValue? c with
      | some d =>
        obtain ⟨ds', hds, rfl⟩ : ∃ ds', digits? false s = some ds' ∧ d :: ds' = ds := by
          cases needed <;> simpa [digits?, hc] using h
        obtain ⟨first, more, hfirst, -, hmore, rfl, rfl⟩ := ih hds
        have hfront : AreDecimals (c :: first) := areDecimals_cons.2 ⟨by simp [hc], hfirst⟩
        exact ⟨c :: first, more, hfront, by simp, hmore, rfl, (digitValues_cons hc _).symm⟩
      | none =>
        -- An underscore ends the run, and the next one must have a digit.
        obtain ⟨rfl, rfl, h⟩ : c = '_' ∧ needed = false ∧ digits? true s = some ds := by
          cases needed with
          | true => simp [digits?, hc] at h
          | false => simpa [digits?, hc] using h
        obtain ⟨first, more, hfirst, hne, hmore, rfl, rfl⟩ := ih h
        exact ⟨[], first :: more, areDecimals_nil, nofun,
          List.forall_mem_cons.2 ⟨⟨hfirst, hne rfl⟩, hmore⟩, rfl, rfl⟩
  · rintro ⟨first, more, hfirst, hne, hmore, rfl, rfl⟩
    rw [digits?_append hfirst hne, digits?_underscored hmore, digitValues_append]
    rfl

/-! ## Numerals by their parts -/

/-- An integer numeral as it is written: a sign or none, a run of digits, and further runs of
    digits, each behind an underscore. -/
structure Spelling where
  sign : LeadingSign
  first : List Char
  more : List (List Char)
  areDecimals_first : AreDecimals first
  first_ne : first ≠ []
  areDecimals_more : ∀ run ∈ more, AreDecimals run ∧ run ≠ []
  length_le : (first ++ more.flatten).length ≤ 4300

namespace Spelling

def digits (n : Spelling) : List Char := n.first ++ n.more.flatten

def chars (n : Spelling) : List Char := n.sign.chars ++ (n.first ++ underscored n.more)

theorem areDecimals_flatten {first : List Char} {more : List (List Char)}
    (hfirst : AreDecimals first) (hmore : ∀ run ∈ more, AreDecimals run ∧ run ≠ []) :
    AreDecimals (first ++ more.flatten) :=
  areDecimals_append.2 ⟨hfirst, List.forall_mem_flatten.2 fun run hrun => (hmore run hrun).1⟩

theorem areDecimals_digits (n : Spelling) : AreDecimals n.digits :=
  areDecimals_flatten n.areDecimals_first n.areDecimals_more

/-- The integer with the sign and the digits of the numeral. -/
def value (n : Spelling) : Int := n.sign.apply (number n.digits)

theorem natAbs_value_lt (n : Spelling) : n.value.natAbs < 10 ^ Digits.limit := by
  have hlength : n.digits.length ≤ Digits.limit := n.length_le
  rw [value, LeadingSign.natAbs_apply]
  exact (number_lt n.areDecimals_digits).trans_le (Nat.pow_le_pow_right (by decide) hlength)

/-- The text is the numeral, with spaces around it or none. -/
def IsIn (n : Spelling) (s : String) : Prop := IsPadded isSpace n.chars s.toList

theorem isSpace_of_mem (n : Spelling) : ∀ c ∈ n.chars, isSpace c = false := by
  have hdigits {ds : List Char} (h : AreDecimals ds) : ∀ c ∈ ds, isSpace c = false :=
    fun c hc => isSpace_eq_false (isBlank_eq_false (h c hc))
  refine List.forall_mem_append.2 ⟨?_, List.forall_mem_append.2 ⟨hdigits n.areDecimals_first, ?_⟩⟩
  · cases n.sign with
    | absent => exact nofun
    | plus => exact fun c hc => List.mem_singleton.1 hc ▸ by decide
    | minus => exact fun c hc => List.mem_singleton.1 hc ▸ by decide
  · refine List.forall_mem_flatMap.2 fun run hrun => ?_
    exact List.forall_mem_cons.2 ⟨by decide, hdigits (n.areDecimals_more run hrun).1⟩

theorem isIn_iff {n : Spelling} {s : String} : n.IsIn s ↔ trimSpaces s.toList = n.chars :=
  (strip_eq_iff n.isSpace_of_mem).symm

end Spelling

/-! ## Reading numerals -/

theorem natural?_chars (m : Spelling) :
    natural? (m.first ++ underscored m.more) = some (number m.digits) := by
  have hread : digits? true (m.first ++ underscored m.more) = some (digitValues m.digits) :=
    digits?_eq_some_iff.2
      ⟨_, _, m.areDecimals_first, fun _ => m.first_ne, m.areDecimals_more, rfl, rfl⟩
  have hlength : (digitValues m.digits).length ≤ Digits.limit := by
    rw [length_digitValues m.areDecimals_digits]
    exact m.length_le
  unfold natural?
  simp only [hread, if_pos hlength, ofDigits_digitValues]

theorem exists_spelling (sign : LeadingSign) (h : natural? s = some n) :
    ∃ m : Spelling, sign.chars ++ s = m.chars ∧ sign.apply n = m.value := by
  unfold natural? at h
  split at h
  · rename_i ds hds
    obtain ⟨hlength, hn⟩ := Option.ite_none_right_eq_some.1 h
    obtain ⟨first, more, hfirst, hne, hmore, rfl, rfl⟩ := digits?_eq_some_iff.1 hds
    rw [length_digitValues (Spelling.areDecimals_flatten hfirst hmore)] at hlength
    refine ⟨⟨sign, first, more, hfirst, hne rfl, hmore, hlength⟩, rfl, ?_⟩
    rw [← Option.some.inj hn, ofDigits_digitValues]
    rfl
  · cases h

/-- Digits of any script are a numeral, if they are not too many. -/
theorem natural?_of_areDecimals (h : AreDecimals s) (hne : s ≠ [])
    (hlength : s.length ≤ Digits.limit) : natural? s = some (number s) := by
  have hread := natural?_chars {
    sign := .absent
    first := s
    more := []
    areDecimals_first := h
    first_ne := hne
    areDecimals_more := fun _ hrun => nomatch hrun
    length_le := by simpa [Digits.limit] using hlength }
  simpa [underscored, Spelling.digits] using hread

/-- A digit-like character without a place value is in no numeral. -/
theorem natural?_eq_none (hs : ∀ c ∈ s, isDigitLike c = true) (h : ¬AreDecimals s) :
    natural? s = none := by
  unfold natural?
  cases hds : digits? true s with
  | none => rfl
  | some ds =>
    obtain ⟨first, more, hfirst, -, -, rfl, -⟩ := digits?_eq_some_iff.1 hds
    cases more with
    | nil => exact absurd (areDecimals_append.2 ⟨hfirst, areDecimals_nil⟩) h
    | cons run more =>
      have hmem : '_' ∈ first ++ underscored (run :: more) := by simp [underscored]
      exact absurd (hs _ hmem) (by decide)

theorem natural?_cons_sign {c : Char} (hc : c = '-' ∨ c = '+') : natural? (c :: s) = none := by
  rcases hc with rfl | rfl <;> rfl

/-- The texts that are read, and the integer of each. -/
theorem parse?_eq_some_iff {s : String} :
    parse? s.toList = some i ↔ ∃ m : Spelling, m.IsIn s ∧ i = m.value := by
  simp only [Spelling.isIn_iff]
  unfold parse?
  constructor
  · intro h
    split at h
    · rename_i heq
      obtain ⟨n, hn, rfl⟩ := map_natCast_eq_some_iff.1 h
      obtain ⟨m, hm, hvalue⟩ := exists_spelling .minus hn
      exact ⟨m, heq.trans hm, hvalue⟩
    · rename_i heq
      obtain ⟨n, hn, rfl⟩ := map_natCast_eq_some_iff.1 h
      obtain ⟨m, hm, hvalue⟩ := exists_spelling .plus hn
      exact ⟨m, heq.trans hm, hvalue⟩
    · obtain ⟨n, hn, rfl⟩ := map_natCast_eq_some_iff.1 h
      exact exists_spelling .absent hn
  · rintro ⟨m, hm, rfl⟩
    have hread := natural?_chars m
    rw [hm, Spelling.chars, Spelling.value]
    cases m.sign with
    | minus => exact map_natCast_eq_some_iff.2 ⟨_, hread, rfl⟩
    | plus => exact map_natCast_eq_some_iff.2 ⟨_, hread, rfl⟩
    | absent =>
      simp only [LeadingSign.chars, LeadingSign.apply, List.nil_append]
      split
      · rename_i heq
        rw [heq, natural?_cons_sign (.inl rfl)] at hread
        cases hread
      · rename_i heq
        rw [heq, natural?_cons_sign (.inr rfl)] at hread
        cases hread
      · exact map_natCast_eq_some_iff.2 ⟨_, hread, rfl⟩

end Worksheet.Integer
