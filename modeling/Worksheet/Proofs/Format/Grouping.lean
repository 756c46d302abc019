-- SUMMARY: A comma in the whole part of a fixed-point section groups its digits by threes and changes nothing else.
import Worksheet.Proofs.Format.Fixed
import Worksheet.Proofs.Format.Rounded

/-!
# Thousands Separators

The digits of a whole part are laid from the right, and a comma stands behind each one that has a
multiple of three digits on its right. Zeros that fill a place are digits like any other, and the
leftmost place may hold many of them. What a reader sees is `IsGrouped`, and without its commas it
is what the section shows that has none: `Section.text_grouped`.
-/

namespace Worksheet.Format

open Digits Reading NumberToken

variable {s ds : List Char} {c : Char} {ts : List NumberToken}

/-! ## Grouped digits -/

/-- Digits, and a comma directly in front of just those that have a digit on their left and a
    multiple of three digits from themselves to the right end. -/
structure IsGrouped (s : List Char) : Prop where
  mem : ∀ c ∈ s, c.isDigit = true ∨ c = ','
  followed : ∀ a b, s = a ++ ',' :: b → ∃ c ∈ b.head?, c.isDigit = true
  comma_iff : ∀ a c b, s = a ++ c :: b → c.isDigit = true →
    (a.getLast? = some ',' ↔ (∃ d ∈ a, d.isDigit = true) ∧ 3 ∣ digitCount (c :: b))

namespace IsGrouped

theorem nil : IsGrouped [] where
  mem _ hc := nomatch hc
  followed a _ h := by cases a <;> cases h
  comma_iff a _ _ h := by cases a <;> cases h

/-- No comma stands in front. -/
theorem isDigit_head (h : IsGrouped (c :: s)) : c.isDigit = true := by
  refine (h.mem c List.mem_cons_self).resolve_right ?_
  rintro rfl
  obtain ⟨d, hd, hdigit⟩ := h.followed [] s rfl
  cases s with
  | nil => cases hd
  | cons x s =>
    obtain rfl := Option.some.inj hd
    obtain ⟨⟨y, hy, hdigit'⟩, -⟩ := (h.comma_iff [','] x s rfl hdigit).1 rfl
    obtain rfl := List.mem_singleton.1 hy
    cases hdigit'

/-- Behind the first digit only what follows decides on the comma. -/
theorem comma_iff_cons {a b : List Char} {x : Char} (h : IsGrouped (x :: a ++ c :: b))
    (hc : c.isDigit = true) : (x :: a).getLast? = some ',' ↔ 3 ∣ digitCount (c :: b) := by
  rw [h.comma_iff (x :: a) c b rfl hc, and_iff_right]
  exact ⟨x, List.mem_cons_self, isDigit_head h⟩

theorem cons (h : IsGrouped s) (hc : c.isDigit = true) (hs : s ≠ [] → ¬ 3 ∣ digitCount s) :
    IsGrouped (c :: s) where
  mem := List.forall_mem_cons.2 ⟨.inl hc, h.mem⟩
  followed a b heq := by
    cases a with
    | nil =>
      obtain rfl := (List.cons.inj heq).1
      cases hc
    | cons x a => exact h.followed a b (List.cons.inj heq).2
  comma_iff a d b heq hd := by
    cases a with
    | nil => simp
    | cons x a =>
      obtain ⟨rfl, rfl⟩ := List.cons.inj heq
      have hleft : ∃ y ∈ c :: a, y.isDigit = true := ⟨c, List.mem_cons_self, hc⟩
      rw [and_iff_right hleft]
      cases a with
      | nil =>
        refine iff_of_false ?_ (hs (List.cons_ne_nil _ _))
        rintro heq
        obtain rfl := Option.some.inj heq
        cases hc
      | cons y a =>
        rw [List.getLast?_cons_cons]
        exact h.comma_iff_cons hd

theorem cons_comma (h : IsGrouped s) (hc : c.isDigit = true) (hne : s ≠ [])
    (hs : 3 ∣ digitCount s) : IsGrouped (c :: ',' :: s) where
  mem := List.forall_mem_cons.2 ⟨.inl hc, List.forall_mem_cons.2 ⟨.inr rfl, h.mem⟩⟩
  followed a b heq := by
    rcases a with - | ⟨x, - | ⟨y, a⟩⟩
    · obtain rfl := (List.cons.inj heq).1
      cases hc
    · obtain rfl : s = b := (List.cons.inj (List.cons.inj heq).2).2
      obtain ⟨d, s, rfl⟩ := List.exists_cons_of_ne_nil hne
      exact ⟨d, rfl, h.isDigit_head⟩
    · exact h.followed a b (List.cons.inj (List.cons.inj heq).2).2
  comma_iff a d b heq hd := by
    rcases a with - | ⟨x, - | ⟨y, a⟩⟩
    · simp
    · obtain rfl := (List.cons.inj (List.cons.inj heq).2).1
      cases hd
    · obtain ⟨rfl, hrest⟩ := List.cons.inj heq
      obtain ⟨rfl, rfl⟩ := List.cons.inj hrest
      have hleft : ∃ y ∈ c :: ',' :: a, y.isDigit = true := ⟨c, List.mem_cons_self, hc⟩
      rw [and_iff_right hleft]
      cases a with
      | nil => exact iff_of_true rfl hs
      | cons y a =>
        rw [List.getLast?_cons_cons, List.getLast?_cons_cons]
        exact h.comma_iff_cons hd

end IsGrouped

/-! ## Grouping from the right -/

/-- Digits with their commas. -/
def groupDigits : List Char → List Char
  | [] => []
  | c :: ds =>
    if ds.length ≠ 0 ∧ ds.length % 3 = 0 then c :: ',' :: groupDigits ds else c :: groupDigits ds

theorem filter_groupDigits (h : AreDigits ds) : (groupDigits ds).filter (· ≠ ',') = ds := by
  induction ds with
  | nil => rfl
  | cons c ds ih =>
    obtain ⟨hc, hds⟩ := areDigits_cons.1 h
    have hne : c ≠ ',' := by
      rintro rfl
      cases hc
    have hkeep (s : List Char) : (c :: s).filter (· ≠ ',') = c :: s.filter (· ≠ ',') :=
      List.filter_cons_of_pos (decide_eq_true hne)
    unfold groupDigits
    split
    · rw [hkeep, List.filter_cons_of_neg (by decide), ih hds]
    · rw [hkeep, ih hds]

theorem digitCount_groupDigits (h : AreDigits ds) : digitCount (groupDigits ds) = ds.length := by
  rw [← digitCount_filter (c := ',') (by decide), filter_groupDigits h, digitCount_of_areDigits h]

theorem isGrouped_groupDigits (h : AreDigits ds) : IsGrouped (groupDigits ds) := by
  induction ds with
  | nil => exact .nil
  | cons c ds ih =>
    obtain ⟨hc, hds⟩ := areDigits_cons.1 h
    have hcount := digitCount_groupDigits hds
    unfold groupDigits
    split
    · rename_i hsep
      apply (ih hds).cons_comma hc
      · intro hnil
        rw [hnil] at hcount
        exact hsep.1 hcount.symm
      · exact hcount ▸ Nat.dvd_of_mod_eq_zero hsep.2
    · rename_i hsep
      apply (ih hds).cons hc
      intro hne hdvd
      rw [hcount] at hdvd
      refine hsep ⟨fun hnil => hne ?_, Nat.mod_eq_zero_of_dvd hdvd⟩
      rw [List.length_eq_zero_iff.1 hnil]
      rfl

namespace Piece

theorem grouped_reverse (h : AreDigits ds) :
    (grouped 0 (ds.reverse.map filled)).reverse = groupDigits ds := by
  induction ds with
  | nil => rfl
  | cons c ds ih =>
    obtain ⟨hc, hds⟩ := areDigits_cons.1 h
    have hreverse : AreDigits ds.reverse := fun x hx => hds x (List.mem_reverse.1 hx)
    rw [List.reverse_cons, List.map_append, grouped_append, List.reverse_append, ih hds,
      digitCount_of_areDigits hreverse, List.length_reverse, Nat.zero_add]
    simp only [List.map_cons, List.map_nil, grouped, hc, if_true, groupDigits]
    split <;> rfl

end Piece

/-- Without literals and blanks the commas group what is shown without them. -/
theorem fillTokens_true (hliterals : literals ts = [])
    (hdigits : AreDigits (fillTokens ds ts false)) :
    fillTokens ds ts true = groupDigits (fillTokens ds ts false) := by
  have hliterals' : literals ts.reverse = [] := by
    rwa [literals, List.filterMap_reverse, List.reverse_eq_nil_iff]
  have hshown : (fillTokens ds ts false).reverse =
      (Piece.ofReversed ts.reverse (shownDigits ds).reverse).map Piece.char :=
    List.reverse_reverse _
  rw [← Piece.grouped_reverse hdigits, hshown, Piece.map_char_ofReversed hliterals',
    ← Piece.ofReversed_eq_map_filled hliterals']
  rfl

/-! ## The section -/

namespace Fixed.Section

variable {s : Section} {v : Decimal}

/-- The number that the section shows for a number, counted in its last place. -/
def units (s : Section) (v : Decimal) : Nat :=
  ⌊s.scaled v.magnitude * 10 ^ s.fraction.length + 1 / 2⌋₊

theorem rounded_eq (s : Section) (v : Decimal) :
    rounded v ⟨[], s.body, s.tail⟩ = ⟨false, s.units v, -s.fraction.length⟩ := by
  simp only [rounded, Fixed.scaled, s.fractionPlaces_body, s.percents_eq, s.commas_eq, units,
    s.scaled_eq]

theorem text_eq_layout (s : Section) (hdigits : v.digitCount < 100000)
    (hadjusted : v.adjusted.natAbs < 100000) (hlength : s.chars.length < 100000) :
    Number.text v s.chars =
      .ok (signText v.value ++ Fixed.layout ⟨false, s.units v, -s.fraction.length⟩ s.body ++
        List.replicate s.percents '%') := by
  have hsize := s.length_le
  have htexts := length_le_length_texts (s.body ++ s.tail)
  have hbody : s.body.length ≤ 100000 := by
    rw [List.length_append] at htexts
    exact ((Nat.le_add_right _ _).trans htexts).trans hlength.le
  have hplain : ∀ t ∈ s.body ++ s.tail, t.isPlain = true :=
    List.forall_mem_append.2 ⟨forall_body (fun _ => rfl) rfl rfl, forall_tail rfl rfl⟩
  have hplace : (s.body ++ s.tail).any isPlace = true := by
    rw [List.any_append, s.isCore_body.any_isPlace, Bool.true_or]
  have htext := inLayout_eq_layout (d := v) (l := ⟨[], s.body, s.tail⟩) hdigits hadjusted
    (by rw [s.percents_eq]; omega) (by rw [s.commas_eq]; omega) hbody s.slash_notMem_body
    s.isMark_body
  rw [chars, text_texts hplain hplace, s.ofTokens_eq, htext, s.rounded_eq, s.ending_eq]
  exact congrArg (fun t => Except.ok (t ++ _ ++ _)) (List.append_nil _)

/-- The section without the commas in its whole part. -/
def ungrouped (s : Section) : Section where
  whole := s.whole.filter (· ≠ .comma)
  fraction? := s.fraction?
  commas := s.commas
  percents := s.percents
  isCore_whole := by
    obtain ⟨⟨p, rest, hstarts⟩, ⟨front, q, hends⟩⟩ := s.isCore_whole
    constructor
    · exact ⟨p, rest.filter (· ≠ .comma), by rw [hstarts]; rfl⟩
    · exact ⟨front.filter (· ≠ .comma), q, by rw [hends, List.filter_append]; rfl⟩
  mem_whole t ht := s.mem_whole t (List.mem_of_mem_filter ht)
  fraction_ne := s.fraction_ne

theorem places_ungrouped (s : Section) : places s.ungrouped.whole = places s.whole := by
  unfold places ungrouped
  rw [List.filterMap_filter]
  refine List.filterMap_congr fun t _ => ?_
  cases t <;> rfl

theorem length_ungrouped_le (s : Section) : s.ungrouped.chars.length ≤ s.chars.length := by
  have hwhole : s.ungrouped.whole.Sublist s.whole := List.filter_sublist
  exact (texts_sublist ((hwhole.append_right _).append_right _)).length_le

theorem contains_comma_ungrouped (s : Section) : s.ungrouped.whole.contains .comma = false := by
  have hnot : .comma ∉ s.whole.filter (· ≠ .comma) := by simp
  rw [List.contains_eq_mem]
  exact decide_eq_false hnot

/-- What the places in front of the point show. -/
def wholeText (s : Section) (n : Nat) : List Char :=
  fillWhole (ofNat (n / 10 ^ s.fraction.length)) (places s.whole)

/-- What the places behind the point show. -/
def decimalsText (s : Section) (n : Nat) : List Char :=
  (fractionCells ((Digits.fraction s.fraction.length n).zip s.fraction)).flatten

theorem areDigits_wholeText (hquestion : .digit .question ∉ s.whole) (n : Nat) :
    AreDigits (s.wholeText n) := by
  apply areDigits_fillWhole (areDigits_ofNat _)
  intro hmem
  obtain ⟨t, ht, hplace⟩ := List.mem_filterMap.1 hmem
  cases t with
  | digit p => exact hquestion (Option.some.inj hplace ▸ ht)
  | _ => cases hplace

theorem mem_decimalsText (n : Nat) : ∀ c ∈ s.decimalsText n, c.isDigit = true ∨ c = ' ' := by
  obtain ⟨k, j, hcells, -⟩ := exists_trims (length_fraction s.fraction.length n)
  intro c hc
  rw [decimalsText, hcells] at hc
  exact Trims.mem_shown (areDigits_fraction _ n) hc

theorem layout_grouped (hcomma : .comma ∈ s.whole) (hquestion : .digit .question ∉ s.whole)
    (n : Nat) :
    Fixed.layout ⟨false, n, -s.fraction.length⟩ s.body =
      groupDigits (s.wholeText n) ++ behindPoint s.fraction? (s.decimalsText n) := by
  have hplain : fillTokens (ofNat (n / 10 ^ s.fraction.length)) s.whole false = s.wholeText n :=
    fillTokens_eq_fillWhole s.places_whole_ne s.literals_whole
  have hdigits : AreDigits (fillTokens (ofNat (n / 10 ^ s.fraction.length)) s.whole false) :=
    hplain ▸ areDigits_wholeText hquestion n
  rw [s.layout_eq, List.contains_iff_mem.2 hcomma, fillTokens_true s.literals_whole hdigits, hplain]
  rfl

theorem layout_ungrouped (s : Section) (n : Nat) :
    Fixed.layout ⟨false, n, -s.fraction.length⟩ s.ungrouped.body =
      s.wholeText n ++ behindPoint s.fraction? (s.decimalsText n) := by
  have hplain : fillTokens (ofNat (n / 10 ^ s.fraction.length)) s.ungrouped.whole false =
      fillWhole _ (places s.ungrouped.whole) :=
    fillTokens_eq_fillWhole s.ungrouped.places_whole_ne s.ungrouped.literals_whole
  have hlayout := s.ungrouped.layout_eq false n
  rw [s.contains_comma_ungrouped] at hlayout
  rw [s.places_ungrouped] at hplain
  exact hlayout.trans (congrArg (· ++ _) hplain)

/-- Only a whole part has commas to lose. -/
theorem filter_text (s : Section) (v : Decimal) (n : Nat) (whole : List Char) :
    (signText v.value ++ (whole ++ behindPoint s.fraction? (s.decimalsText n)) ++
        List.replicate s.percents '%').filter (· ≠ ',') =
      signText v.value ++ (whole.filter (· ≠ ',') ++
        behindPoint s.fraction? (s.decimalsText n)) ++ List.replicate s.percents '%' := by
  have hsign : ',' ∉ signText v.value := by
    unfold signText
    split <;> decide
  have hdecimals : ',' ∉ behindPoint s.fraction? (s.decimalsText n) := by
    unfold behindPoint
    split
    · refine List.not_mem_cons_of_ne_of_not_mem (by decide) fun hmem => ?_
      exact absurd (mem_decimalsText n _ hmem) (by decide)
    · exact List.not_mem_nil
  have hpercents : ',' ∉ List.replicate s.percents '%' :=
    fun hmem => absurd (List.eq_of_mem_replicate hmem) (by decide)
  simp only [List.filter_append]
  rw [List.filter_eq_self.2 (forall_ne_of_notMem hsign),
    List.filter_eq_self.2 (forall_ne_of_notMem hdecimals),
    List.filter_eq_self.2 (forall_ne_of_notMem hpercents)]

/-- The commas group the digits in front of the point, and without them the text is what the
    section shows that has none. -/
theorem text_grouped (s : Section) (v : Decimal) (hcomma : .comma ∈ s.whole)
    (hquestion : .digit .question ∉ s.whole) (hdigits : v.digitCount < 100000)
    (hadjusted : v.adjusted.natAbs < 100000) (hlength : s.chars.length < 100000) :
    ∃ whole decimals,
      Number.text v s.chars =
        .ok (signText v.value ++ (whole ++ behindPoint s.fraction? decimals) ++
          List.replicate s.percents '%') ∧
      IsGrouped whole ∧ (∀ c ∈ decimals, c.isDigit = true ∨ c = ' ') ∧
      Number.text v s.ungrouped.chars =
        .ok ((signText v.value ++ (whole ++ behindPoint s.fraction? decimals) ++
          List.replicate s.percents '%').filter (· ≠ ',')) := by
  have hwhole := areDigits_wholeText hquestion (s.units v)
  have htext := s.text_eq_layout hdigits hadjusted hlength
  have htext' := s.ungrouped.text_eq_layout hdigits hadjusted (s.length_ungrouped_le.trans_lt hlength)
  rw [layout_grouped hcomma hquestion] at htext
  refine ⟨groupDigits (s.wholeText (s.units v)), s.decimalsText (s.units v), htext,
    isGrouped_groupDigits hwhole, mem_decimalsText _, ?_⟩
  rw [filter_text, filter_groupDigits hwhole, ← s.layout_ungrouped]
  exact htext'

/-- The section `#,#00,000.0`. -/
def thousands : Section where
  whole := .digit .hash :: .comma :: .digit .hash :: zeros 2 ++ .comma :: zeros 3
  fraction? := some [.zero]
  commas := 0
  percents := 0
  isCore_whole := ⟨⟨.hash, _, rfl⟩,
    ⟨.digit .hash :: .comma :: .digit .hash :: zeros 2 ++ .comma :: zeros 2, .zero, rfl⟩⟩
  mem_whole := by decide
  fraction_ne := by decide

/-- Zeros that fill a place are grouped, and places that show nothing are not. -/
theorem text_grouped_thousands :
    NumberToken.comma ∈ thousands.whole ∧ .digit .question ∉ thousands.whole ∧
      Number.text ⟨true, 525, -2⟩ thousands.chars = .ok "-00,005.3".toList ∧
      Number.text ⟨true, 525, -2⟩ thousands.ungrouped.chars = .ok "-00005.3".toList := by
  have hcomma : NumberToken.comma ∈ thousands.whole := by decide
  have hquestion : .digit .question ∉ thousands.whole := by decide
  have hgrouped : Number.text ⟨true, 525, -2⟩ thousands.chars = .ok "-00,005.3".toList := by rfl
  obtain ⟨whole, decimals, htext, -, -, hungrouped⟩ :=
    text_grouped thousands ⟨true, 525, -2⟩ hcomma hquestion (by decide +kernel)
      (by decide +kernel) (by decide +kernel)
  rw [← Except.ok.inj (hgrouped.symm.trans htext)] at hungrouped
  exact ⟨hcomma, hquestion, hgrouped, hungrouped⟩

example : thousands.chars = "#,#00,000.0".toList := by rfl

end Fixed.Section

end Worksheet.Format
