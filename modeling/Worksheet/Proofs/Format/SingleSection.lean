-- SUMMARY: A single section with places shows a number below zero with a minus sign in front.
import Worksheet.Proofs.Format.NegativeSection

/-!
# A Single Section

A pattern of one section has none for numbers below zero. Unless it is strict, its section shows
them too: with a minus sign in front of what it shows for the numbers above zero, to the last digit.
-/

namespace Worksheet

/-! ## Blanks around a text -/

namespace Text

variable {c : Char} {s : List Char}

/-- Only blanks are dropped. -/
theorem mem_trim (hc : c ∈ s) (h : isBlank c = false) : c ∈ trim s := by
  obtain ⟨before, after, hbefore, hafter, hs⟩ := isPadded_strip isBlank s
  rw [hs, List.mem_append, List.mem_append] at hc
  rcases hc with (hc | hc) | hc
  · exact absurd (hbefore c hc) (by simp [h])
  · exact hc
  · exact absurd (hafter c hc) (by simp [h])

end Text

/-! ## The sign of a number in a section -/

namespace Format

open NumberToken

namespace Number

variable {v : Decimal} {s : List Char}

/-- The arithmetic is that of the magnitude, and only the sign is put in front. -/
theorem inLayout_minus (hv : v.negative = false) (h0 : v.coefficient ≠ 0) (l : Layout) :
    inLayout { v with negative := true } l = ('-' :: ·) <$> inLayout v l := by
  have hplus : v.isNegative = false := by simp [Decimal.isNegative, hv]
  have hminus : ({ v with negative := true } : Decimal).isNegative = true := by
    simp [Decimal.isNegative, Decimal.isZero, h0]
  unfold inLayout
  simp only [hplus, hminus, if_true, Bool.false_eq_true, if_false, map_bind, map_pure,
    List.nil_append, List.cons_append]
  rfl

theorem text_minus (hgeneral : Text.find? "general".toList (Text.lowerAll s) = none)
    (hplace : (ofSection s).any isPlace = true) (hv : v.negative = false)
    (h0 : v.coefficient ≠ 0) :
    text { v with negative := true } s = ('-' :: ·) <$> text v s := by
  rw [text_of_any_isPlace hgeneral hplace, text_of_any_isPlace hgeneral hplace,
    inLayout_minus hv h0]

end Number

/-! ## Patterns of one section -/

/-- The pattern is one section, and it shows a number in places and not as General does. -/
structure IsSingleSection (P : String) : Prop where
  oneSection : ';' ∉ P.toList
  hasPlace : (ofSection (clean P.toList)).any isPlace = true
  noGeneral : Text.find? "general".toList (Text.lowerAll (clean P.toList)) = none

namespace IsSingleSection

variable {P : String}

/-- A place is a character of the section itself. -/
theorem exists_char_mem (h : IsSingleSection P) : ∃ p : Placeholder, p.char ∈ P.toList := by
  obtain ⟨t, ht, hplace⟩ := List.any_eq_true.1 h.hasPlace
  cases t with
  | digit p =>
    refine ⟨p, (clean_sublist P.toList).subset ?_⟩
    apply (texts_ofSection_sublist _).subset
    exact List.mem_flatMap.2 ⟨.digit p, ht, List.mem_singleton_self _⟩
  | _ => cases hplace

/-- A section with a place is not the word General between blanks. -/
theorem isGeneral_eq_false (h : IsSingleSection P) : isGeneral P.toList = false := by
  have hchar (p : Placeholder) :
      Text.isBlank p.char = false ∧ Text.lower p.char = [p.char] ∧ p.char ∉ "general".toList := by
    cases p <;> decide
  obtain ⟨p, hp⟩ := h.exists_char_mem
  obtain ⟨hblank, hlower, hword⟩ := hchar p
  apply decide_eq_false
  intro heq
  apply hword
  rw [← heq]
  exact List.mem_flatMap.2 ⟨p.char, Text.mem_trim hp hblank, by simp [hlower]⟩

theorem served?_negative (h : IsSingleSection P) : served? P .negative = none := by
  unfold served? sections
  rw [Text.pieces_eq_singleton h.oneSection]
  simp [Sign.place, h.isGeneral_eq_false]

theorem fallback_eq (h : IsSingleSection P) : fallback P = ⟨P.toList, false, true⟩ := by
  unfold fallback sections
  rw [Text.pieces_eq_singleton h.oneSection]
  rfl

end IsSingleSection

namespace Display

variable {d P : String} {v : Decimal} {id : Int}

theorem text_minus_strict (h : IsUnsigned d v) (hP : IsSingleSection P) :
    text true ("-" ++ d) id P = .error (.noSection P .negative) := by
  rw [text_eq_choose h.parse?_minus, h.sign_minus, choose_eq, hP.served?_negative]
  rfl

/-- The first section takes the place of the missing one and is given the number with its sign. -/
theorem text_minus_lenient (h : IsUnsigned d v) (hP : IsSingleSection P)
    (hid : isDate id = false) :
    text false ("-" ++ d) id P = ("-" ++ ·) <$> text false d id P := by
  have hshow : ∀ x, showIn id P.toList x = Number.text x (clean P.toList) := by
    intro x
    exact if_neg (by simp [hid])
  have hcons (s : List Char) : String.ofList ('-' :: s) = "-" ++ String.ofList s := by
    apply String.toList_inj.1
    simp
  have htext := Number.text_minus hP.noGeneral hP.hasPlace h.negative h.coefficient_ne_zero
  rw [text_eq_choose h.parse?_minus, h.sign_minus, choose_eq, hP.served?_negative,
    h.text_eq hP.oneSection, textIn, hP.fallback_eq]
  change (inChoice _ id ⟨P.toList, false, true⟩ >>= fun s => pure (String.ofList s)) =
    (fun s => "-" ++ s) <$> (showIn id P.toList v >>= fun s => pure (String.ofList s))
  rw [inChoice_eq]
  change (showIn id P.toList _ >>= fun s => pure (String.ofList s)) = _
  rw [hshow, hshow, htext, map_bind, bind_map_left]
  simp only [map_pure, hcons]

/-- A single section shows a number of any length below zero as the one above zero behind a minus
    sign, or fails at both alike. If it is strict, it has no section for the one below zero. -/
theorem text_minus_single_section (h : IsUnsigned d v) (hP : IsSingleSection P)
    (hid : isDate id = false) :
    text false ("-" ++ d) id P = ("-" ++ ·) <$> text false d id P ∧
      text true ("-" ++ d) id P = .error (.noSection P .negative) ∧
      text true d id P = text false d id P := by
  refine ⟨text_minus_lenient h hP hid, text_minus_strict h hP, ?_⟩
  rw [h.text_eq hP.oneSection, h.text_eq hP.oneSection]

/-- More digits than the standard arithmetic has room for. -/
theorem text_minus_single_section_29_digits :
    (IsUnsigned "12345678901234567890123456789.125" ⟨false, 12345678901234567890123456789125, -3⟩ ∧
      IsSingleSection "#,##0.00" ∧ isDate 4 = false) ∧
    text false "-12345678901234567890123456789.125" 4 "#,##0.00" =
      .ok "-12,345,678,901,234,567,890,123,456,789.13" ∧
    text true "-12345678901234567890123456789.125" 4 "#,##0.00" =
      .error (.noSection "#,##0.00" .negative) ∧
    text true "12345678901234567890123456789.125" 4 "#,##0.00" =
      .ok "12,345,678,901,234,567,890,123,456,789.13" := by
  have hd : IsUnsigned "12345678901234567890123456789.125"
      ⟨false, 12345678901234567890123456789125, -3⟩ :=
    ⟨rfl, by decide, by decide, by decide +kernel, by decide +kernel⟩
  have hP : IsSingleSection "#,##0.00" := ⟨by decide, rfl, rfl⟩
  have hplus : text false "12345678901234567890123456789.125" 4 "#,##0.00" =
      .ok "12,345,678,901,234,567,890,123,456,789.13" := by with_unfolding_all rfl
  obtain ⟨hlenient, hstrict, hsame⟩ := text_minus_single_section hd hP (rfl : isDate 4 = false)
  rw [hplus] at hlenient hsame
  exact ⟨⟨hd, hP, rfl⟩, hlenient, hstrict, hsame⟩

end Display

end Format

end Worksheet
