-- SUMMARY: Which texts are references, which address each one denotes, and how it is written.
import Mathlib.Data.List.TakeWhile
import Worksheet.Address
import Worksheet.Proofs.Column
import Worksheet.Proofs.Numeral
import Worksheet.Proofs.Traced

/-!
# References

A reference is a column name followed by digits, with blanks around it or none. Texts of
another form are no addresses. Of the references, those to row zero are refused, and those
with too many digits are not read: `parse_reference`. A written address is a reference to
itself, so nothing is lost: `parse_of_text`.
-/

namespace Worksheet

/-! ## Characters of references -/

theorem Column.isBlank_of_isLetter {c : Char} (h : isLetter c = true) :
    Text.isBlank c = false := by
  have hletters : ∀ d < 26, Text.isBlank (letter d) = false := by decide
  obtain ⟨d, hd, rfl⟩ := exists_letter h
  exact hletters d hd

theorem Digits.isLetter_char : ∀ d < 10, Column.isLetter (char d) = false := by decide

namespace Address

variable {s : String} {t letters digits : List Char} {a b : Address}

/-! ## Cutting a reference -/

/-- The text has these letters and digits, which make a reference, and blanks around them. -/
structure IsReference (s : String) (letters digits : List Char) : Prop where
  parts : Text.trim s.toList = letters ++ digits
  isName : Column.isName letters = true
  digits_ne_nil : digits ≠ []
  areDigits : digits.all Char.isDigit = true

theorem isBlank_of_mem (hletters : Column.isName letters = true)
    (hdigits : digits.all Char.isDigit = true) :
    ∀ c ∈ letters ++ digits, Text.isBlank c = false := by
  intro c hc
  rcases List.mem_append.1 hc with hc | hc
  · simp only [Column.isName, Bool.and_eq_true, List.all_eq_true] at hletters
    exact Column.isBlank_of_isLetter (hletters.2 c hc)
  · obtain ⟨d, hd, rfl⟩ := Digits.areDigits_iff.2 hdigits c hc
    exact Digits.isBlank_char d hd

/-- Digits are no letters, so the letters end where the digits start. -/
theorem cut_append (hletters : letters.all Column.isLetter = true)
    (hdigits : digits.all Char.isDigit = true) :
    (letters ++ digits).takeWhile Column.isLetter = letters ∧
      (letters ++ digits).dropWhile Column.isLetter = digits := by
  have hall : ∀ c ∈ letters, Column.isLetter c = true := List.all_eq_true.1 hletters
  have hnone : ∀ c ∈ digits, Column.isLetter c = false := by
    intro c hc
    obtain ⟨d, hd, rfl⟩ := Digits.areDigits_iff.2 hdigits c hc
    exact Digits.isLetter_char d hd
  rw [List.takeWhile_append_of_pos hall, List.dropWhile_append_of_pos hall]
  cases digits with
  | nil => simp
  | cons c rest => simp [hnone c List.mem_cons_self]

/-- A text is cut into letters and digits exactly if it consists of them. -/
theorem split?_eq_some_iff : split? t = some (letters, digits) ↔
    t = letters ++ digits ∧ Column.isName letters = true ∧ digits ≠ [] ∧
      digits.all Char.isDigit = true := by
  constructor
  · intro h
    have hall : (t.takeWhile Column.isLetter).all Column.isLetter = true := List.all_takeWhile
    simp only [split?] at h
    split at h
    · cases h
    · rename_i hne
      simp only [Bool.or_eq_true, Bool.not_eq_true', List.isEmpty_iff, not_or,
        Bool.not_eq_false] at hne
      obtain ⟨⟨hletters, hdigits⟩, hareDigits⟩ := hne
      cases h
      refine ⟨List.takeWhile_append_dropWhile.symm, ?_, hdigits, hareDigits⟩
      simp [Column.isName, hletters, hall]
  · rintro ⟨rfl, hname, hne, hdigits⟩
    simp only [Column.isName, Bool.and_eq_true] at hname
    obtain ⟨htake, hdrop⟩ := cut_append hname.2 hdigits
    have hletters : letters ≠ [] := by simpa using hname.1
    simp [split?, htake, hdrop, hletters, hne, hdigits]

theorem split?_trim_iff : split? (Text.trim s.toList) = some (letters, digits) ↔
    IsReference s letters digits := by
  rw [split?_eq_some_iff]
  constructor
  · rintro ⟨hparts, hname, hne, hdigits⟩
    exact ⟨hparts, hname, hne, hdigits⟩
  · rintro ⟨hparts, hname, hne, hdigits⟩
    exact ⟨hparts, hname, hne, hdigits⟩

/-! ## Addresses and their fields -/

theorem ext_iff_fields : a = b ↔ a.column = b.column ∧ a.row = b.row := by
  cases a
  cases b
  simp only [Address.mk.injEq]

theorem create_eq_ok_iff {column row : Int} :
    create column row = .ok a ↔ a.column = column ∧ a.row = row := by
  unfold create
  constructor
  · intro h
    split at h
    · cases h
    · split at h
      · cases h
      · cases h
        exact ⟨rfl, rfl⟩
  · rintro ⟨rfl, rfl⟩
    have hc := a.column_pos
    have hr := a.row_pos
    rw [dif_neg (by omega), dif_neg (by omega)]

theorem create_zero {column : Int} (hc : 1 ≤ column) :
    create column 0 = .error (.rowIndex 0) := by
  have hcount : Digits.count (0 : Int).natAbs ≤ Digits.limit := by decide
  rw [create, dif_neg (by omega), dif_pos (by decide), Fault.naming_integer, if_pos hcount]

theorem isName_columnName (a : Address) : Column.isName a.columnName = true := by
  have hpos := a.column_pos
  exact Column.isName_name (by omega)

theorem index_columnName (a : Address) : Column.index a.columnName = a.column := by
  have hpos := a.column_pos
  rw [columnName, Column.index_name]
  omega

/-- The column has one name only. -/
theorem columnName_eq_iff (h : Column.isName letters = true) :
    a.columnName = letters ↔ a.column = Column.index letters := by
  constructor
  · rintro rfl
    exact (index_columnName a).symm
  · intro hc
    rw [columnName, hc, Column.name_index h]

/-! ## Written addresses -/

theorem chars_eq (a : Address) : a.chars = a.columnName ++ Digits.ofNat a.row.natAbs := by
  have hpos := a.row_pos
  rw [chars, Digits.ofInt, if_neg (by omega)]

/-- An address can be written if its row number does not have too many digits. -/
theorem text_eq_ok_iff : a.text = .ok s ↔
    Digits.count a.row.natAbs ≤ Digits.limit ∧ s.toList = a.chars := by
  rw [← Digits.exceedsLimit_eq_false_iff]
  unfold text
  split
  · rename_i h
    simp [h]
  · rename_i h
    simp only [Bool.not_eq_true] at h
    rw [Except.ok.injEq, h, ← String.toList_inj, String.toList_ofList]
    simp [eq_comm]

theorem text_eq_error_iff {e : Fault} : a.text = .error e ↔
    Digits.limit < Digits.count a.row.natAbs ∧ e = .unreadableNumeral := by
  rw [← Nat.not_le, ← Digits.exceedsLimit_eq_false_iff]
  unfold text
  split
  · rename_i h
    simp [h, eq_comm]
  · rename_i h
    simp [h]

/-- An address is written as a reference without blanks around it. -/
theorem isReference_of_chars (h : s.toList = a.chars) :
    IsReference s a.columnName (Digits.ofNat a.row.natAbs) := by
  have hname := isName_columnName a
  have hdigits := Digits.areDigits_iff.1 (Digits.areDigits_ofNat a.row.natAbs)
  refine ⟨?_, hname, List.length_pos_iff.1 (Digits.count_pos _), hdigits⟩
  rw [h, chars_eq]
  exact Text.trim_eq_self (isBlank_of_mem hname hdigits)

/-! ## Reading references -/

/-- What is read for a reference. -/
theorem parse_of_isReference (h : IsReference s letters digits) :
    parse s = if Digits.limit < digits.length then .error .unreadableNumeral
      else create (Column.index letters) (Digits.value digits) := by
  simp only [parse, split?_trim_iff.2 h]

theorem parse_of_not_isReference (h : ∀ letters digits, ¬IsReference s letters digits) :
    parse s = .error (.addressFormat (.text (String.ofList (Text.trim s.toList)))) := by
  have hsplit : split? (Text.trim s.toList) = none := by
    rw [Option.eq_none_iff_forall_ne_some]
    rintro ⟨letters, digits⟩ hs
    exact h letters digits (split?_trim_iff.1 hs)
  simp only [parse, hsplit]

/-- A text is a reference with these letters and digits, or none. -/
theorem IsReference.unique {letters' digits' : List Char} (h : IsReference s letters digits)
    (h' : IsReference s letters' digits') : letters = letters' ∧ digits = digits' := by
  have hs := split?_trim_iff.2 h
  rw [split?_trim_iff.2 h'] at hs
  cases hs
  exact ⟨rfl, rfl⟩

/-- A written address is read back as it was. -/
theorem parse_of_text (h : a.text = .ok s) : parse s = .ok a := by
  obtain ⟨hcount, hs⟩ := text_eq_ok_iff.1 h
  have hlength : ¬Digits.limit < (Digits.ofNat a.row.natAbs).length := Nat.not_lt.2 hcount
  have hpos := a.row_pos
  rw [parse_of_isReference (isReference_of_chars hs), if_neg hlength, create_eq_ok_iff,
    index_columnName, Digits.value_ofNat]
  exact ⟨rfl, by omega⟩

/-- The address has the column with these letters and the row with this number. -/
structure Denotes (a : Address) (letters digits : List Char) : Prop where
  columnName : a.columnName = letters
  column : a.column = Column.index letters
  row : a.row = Digits.value digits

theorem IsReference.denotes_iff (h : IsReference s letters digits) :
    a.Denotes letters digits ↔ a.column = Column.index letters ∧ a.row = Digits.value digits := by
  constructor
  · rintro ⟨-, hc, hr⟩
    exact ⟨hc, hr⟩
  · rintro ⟨hc, hr⟩
    exact ⟨(columnName_eq_iff h.isName).2 hc, hc, hr⟩

theorem parse_eq_ok_iff : parse s = .ok a ↔ ∃ letters digits, IsReference s letters digits ∧
    digits.length ≤ Digits.limit ∧ 1 ≤ Digits.value digits ∧ a.Denotes letters digits := by
  constructor
  · intro h
    by_cases hs : ∃ letters digits, IsReference s letters digits
    · obtain ⟨letters, digits, hs⟩ := hs
      rw [parse_of_isReference hs] at h
      split at h
      · cases h
      · rename_i hlength
        have hfields := create_eq_ok_iff.1 h
        have hpos := a.row_pos
        exact ⟨letters, digits, hs, Nat.not_lt.1 hlength, by omega, hs.denotes_iff.2 hfields⟩
    · simp only [not_exists] at hs
      rw [parse_of_not_isReference hs] at h
      cases h
  · rintro ⟨letters, digits, hs, hlength, -, ha⟩
    rw [parse_of_isReference hs, if_neg (Nat.not_lt.2 hlength), create_eq_ok_iff]
    exact hs.denotes_iff.1 ha

/-- A text is refused for one of three reasons: it refers to row zero, it has too many digits,
    or it is no reference at all. -/
theorem parse_eq_error_iff {e : Fault} : parse s = .error e ↔
    (∃ letters digits, IsReference s letters digits ∧ digits.length ≤ Digits.limit ∧
      Digits.value digits = 0 ∧ e = .rowIndex 0) ∨
    (∃ letters digits, IsReference s letters digits ∧ Digits.limit < digits.length ∧
      e = .unreadableNumeral) ∨
    ((∀ letters digits, ¬IsReference s letters digits) ∧
      e = .addressFormat (.text (String.ofList (Text.trim s.toList)))) := by
  by_cases hs : ∃ letters digits, IsReference s letters digits
  · obtain ⟨letters, digits, hs⟩ := hs
    -- The letters and digits are the only ones, so each reason is about them.
    have hthese {P : List Char → Prop} :
        (∃ letters digits, IsReference s letters digits ∧ P digits) ↔ P digits := by
      constructor
      · rintro ⟨letters', digits', hs', hp⟩
        rwa [(hs.unique hs').2]
      · exact fun hp => ⟨letters, digits, hs, hp⟩
    have hsome : ¬∀ letters digits, ¬IsReference s letters digits :=
      fun h => h letters digits hs
    have hcolumn := Column.one_le_index hs.isName
    rw [hthese, hthese, parse_of_isReference hs]
    simp only [hsome, false_and, or_false]
    rcases Nat.lt_or_ge Digits.limit digits.length with hlong | hshort
    · simp [hlong, Nat.not_le.2 hlong, eq_comm]
    · rw [if_neg (Nat.not_lt.2 hshort)]
      rcases Nat.eq_zero_or_pos (Digits.value digits) with hzero | hpos
      · rw [hzero, Nat.cast_zero, create_zero hcolumn]
        simp [hshort, Nat.not_lt.2 hshort, eq_comm]
      · obtain ⟨a, ha⟩ : ∃ a, create (Column.index letters) (Digits.value digits) = .ok a :=
          ⟨⟨Column.index letters, Digits.value digits, hcolumn, by omega⟩,
            create_eq_ok_iff.2 ⟨rfl, rfl⟩⟩
        simp [ha, hpos.ne', Nat.not_lt.2 hshort]
  · have hnone : ∀ letters digits, ¬IsReference s letters digits := by simpa using hs
    rw [parse_of_not_isReference hnone]
    simp [hnone, eq_comm]

/-- An address is written like a reference to it, without the leading zeros. -/
theorem IsReference.text_eq (h : IsReference s letters digits)
    (hlength : digits.length ≤ Digits.limit) (hpos : 1 ≤ Digits.value digits)
    (ha : a.Denotes letters digits) :
    a.text = .ok (String.ofList (letters ++ digits.dropWhile (· = '0'))) := by
  have hdigits := Digits.areDigits_iff.2 h.areDigits
  have hrow : a.row.natAbs = Digits.value digits := by
    have := ha.row
    omega
  have hlt : Digits.value digits < 10 ^ Digits.limit :=
    (Digits.value_lt hdigits).trans_le (Nat.pow_le_pow_right (by decide) hlength)
  rw [text_eq_ok_iff, chars_eq, String.toList_ofList, ha.columnName, hrow,
    Digits.ofNat_value hdigits hpos]
  exact ⟨(Digits.count_le_iff (by decide)).2 hlt, rfl⟩

theorem count_row_le_of_parse (h : parse s = .ok a) :
    Digits.count a.row.natAbs ≤ Digits.limit := by
  obtain ⟨letters, digits, hs, hlength, hpos, hdenotes⟩ := parse_eq_ok_iff.1 h
  exact (text_eq_ok_iff.1 (hs.text_eq hlength hpos hdenotes)).1

/-- The address is written as the very reference if that has no blanks around it and no leading
    zeros. -/
theorem IsReference.ofList_eq_iff (h : IsReference s letters digits) :
    String.ofList (letters ++ digits.dropWhile (· = '0')) = s ↔
      Text.trim s.toList = s.toList ∧ digits.head? ≠ some '0' := by
  have hzeros : digits.dropWhile (· = '0') = digits ↔ digits.head? ≠ some '0' := by
    rw [List.dropWhile_eq_self_iff]
    cases digits <;> simp
  rw [← hzeros, ← String.toList_inj, String.toList_ofList, h.parts]
  constructor
  · intro hs
    have hblank : ∀ c ∈ s.toList, Text.isBlank c = false := by
      intro c hc
      rw [← hs] at hc
      have hsub := (List.dropWhile_sublist (l := digits) (· = '0')).append_left letters
      exact isBlank_of_mem h.isName h.areDigits c (hsub.subset hc)
    have htrim : letters ++ digits = s.toList := h.parts ▸ Text.trim_eq_self hblank
    exact ⟨htrim, List.append_cancel_left (hs.trans htrim.symm)⟩
  · rintro ⟨hs, hd⟩
    rw [hd, hs]

/-- A text is read as an address exactly if it is a reference, not too long and not to row zero,
    and it is refused for one reason otherwise. The address has the column and the row of the
    reference, and is written without its leading zeros. Each address is read back as it was
    from what is written for it. -/
theorem parse_reference (s : String) :
    (∀ a, parse s = .ok a ↔ ∃ letters digits, IsReference s letters digits ∧
      digits.length ≤ Digits.limit ∧ 1 ≤ Digits.value digits ∧ a.Denotes letters digits) ∧
    (∀ e, parse s = .error e ↔
      (∃ letters digits, IsReference s letters digits ∧ digits.length ≤ Digits.limit ∧
        Digits.value digits = 0 ∧ e = .rowIndex 0) ∨
      (∃ letters digits, IsReference s letters digits ∧ Digits.limit < digits.length ∧
        e = .unreadableNumeral) ∨
      ((∀ letters digits, ¬IsReference s letters digits) ∧
        e = .addressFormat (.text (String.ofList (Text.trim s.toList))))) ∧
    (∀ a letters digits, parse s = .ok a → IsReference s letters digits →
      (create a.column a.row >>= text) =
        .ok (String.ofList (letters ++ digits.dropWhile (· = '0'))) ∧
      ((create a.column a.row >>= text) = .ok s ↔
        Text.trim s.toList = s.toList ∧ digits.head? ≠ some '0')) ∧
    ∀ a : Address, Digits.count a.row.natAbs ≤ Digits.limit →
      ∃ t, a.text = .ok t ∧ parse t = .ok a := by
  refine ⟨fun a => parse_eq_ok_iff, fun e => parse_eq_error_iff, ?_, ?_⟩
  · intro a letters digits ha hs
    obtain ⟨letters', digits', hs', hlength, hpos, hdenotes⟩ := parse_eq_ok_iff.1 ha
    obtain ⟨rfl, rfl⟩ := hs.unique hs'
    have hcreate : create a.column a.row = pure a := create_eq_ok_iff.2 ⟨rfl, rfl⟩
    have htext : (create a.column a.row >>= text) =
        .ok (String.ofList (letters ++ digits.dropWhile (· = '0'))) := by
      rw [hcreate, pure_bind]
      exact hs.text_eq hlength hpos hdenotes
    refine ⟨htext, ?_⟩
    rw [htext, Except.ok.injEq]
    exact hs.ofList_eq_iff
  · intro a hcount
    have htext : a.text = .ok (String.ofList a.chars) :=
      text_eq_ok_iff.2 ⟨hcount, String.toList_ofList⟩
    exact ⟨_, htext, parse_of_text htext⟩

/-- Blanks around a reference, and zeros in front of its row number. -/
theorem parse_reference_padded :
    let s := " AB007\t"
    let a : Address := { column := 28, row := 7 }
    IsReference s ['A', 'B'] ['0', '0', '7'] ∧ parse s = .ok a ∧
      (create a.column a.row >>= text) = .ok "AB7" ∧ ∃ t, a.text = .ok t ∧ parse t = .ok a :=
  have hs : IsReference " AB007\t" ['A', 'B'] ['0', '0', '7'] :=
    ⟨by decide, by decide, by decide, by decide⟩
  have ha : parse " AB007\t" = .ok { column := 28, row := 7 } :=
    ((parse_reference _).1 _).2 ⟨_, _, hs, by decide, by decide,
      hs.denotes_iff.2 ⟨by decide, by decide⟩⟩
  ⟨hs, ha, ((parse_reference _).2.2.1 _ _ _ ha hs).1,
    (parse_reference "").2.2.2 _ (by decide)⟩

end Address

end Worksheet
