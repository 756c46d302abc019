-- SUMMARY: A literal in a fixed-point section is shown in its place and moves no digit.
import Worksheet.Proofs.Format.Cells
import Worksheet.Proofs.Format.Scan

/-!
# Literals in a Section

Sections for telephone numbers and the like have literals between their places. An escaped
character that is put in front of some place adds a cell of its own to what the section shows, and
all other cells stay: in front of the body, between places of the whole part, whose digits are
counted from the right, and between places behind the point. So the text has one more character,
between what the tokens on its left and on its right show: `text_insert`.
-/

namespace Worksheet.Format.Fixed

open NumberToken

variable {ts us : List NumberToken} {c : Char} {v : Decimal} {a b : List Char}

/-! ## One more cell -/

section

variable {α : Type} {k : Nat} {x : α} {xs ys : List α}

/-- The second list is the first one with one more element behind so many of its own. -/
def Inserted (k : Nat) (x : α) (xs ys : List α) : Prop :=
  ∃ as bs, as.length = k ∧ xs = as ++ bs ∧ ys = as ++ x :: bs

namespace Inserted

theorem cons (y : α) (h : Inserted k x xs ys) : Inserted (k + 1) x (y :: xs) (y :: ys) := by
  obtain ⟨as, bs, rfl, rfl, rfl⟩ := h
  exact ⟨y :: as, bs, rfl, rfl, rfl⟩

theorem append_left (zs : List α) (h : Inserted k x xs ys) :
    Inserted (zs.length + k) x (zs ++ xs) (zs ++ ys) := by
  obtain ⟨as, bs, rfl, rfl, rfl⟩ := h
  exact ⟨zs ++ as, bs, List.length_append, by simp, by simp⟩

theorem append_right (zs : List α) (h : Inserted k x xs ys) :
    Inserted k x (xs ++ zs) (ys ++ zs) := by
  obtain ⟨as, bs, rfl, rfl, rfl⟩ := h
  exact ⟨as, bs ++ zs, rfl, by simp, by simp⟩

theorem reverse {j : Nat} (hj : xs.length = k + j) (h : Inserted k x xs ys) :
    Inserted j x xs.reverse ys.reverse := by
  obtain ⟨as, bs, rfl, rfl, rfl⟩ := h
  rw [List.length_append] at hj
  exact ⟨bs.reverse, as.reverse, by rw [List.length_reverse]; omega, by simp, by simp⟩

end Inserted

end

/-! ## Literals in a whole part and behind the point -/

/-- The literal takes no digit, and the digits in front of it are counted as before. -/
theorem reversedCells_insert (thousands : Bool) (us ts : List NumberToken) (c : Char)
    (ds : List Char) (n : Nat) :
    Inserted us.length [c] (reversedCells thousands (us ++ ts) ds n)
      (reversedCells thousands (us ++ .literal c :: ts) ds n) := by
  induction us generalizing ds n with
  | nil => exact ⟨[], _, rfl, rfl, rfl⟩
  | cons t us ih =>
    cases t with
    | digit p =>
      have hplaces : (us ++ .literal c :: ts).any isPlace = (us ++ ts).any isPlace := by
        simp [List.any_append, isPlace, place?]
      simp only [List.cons_append, reversedCells, hplaces]
      exact (ih _ _).cons _
    | literal d => exact (ih ds n).cons [d]
    | point => exact (ih ds n).cons []
    | comma => exact (ih ds n).cons []
    | slash => exact (ih ds n).cons []
    | percent => exact (ih ds n).cons []
    | exponent upper signed => exact (ih ds n).cons []

theorem wholeCells_insert (thousands : Bool) (ts us : List NumberToken) (c : Char)
    (ds : List Char) :
    Inserted ts.length [c] (wholeCells thousands (ts ++ us) ds)
      (wholeCells thousands (ts ++ .literal c :: us) ds) := by
  have h := reversedCells_insert thousands us.reverse ts.reverse c (shownDigits ds).reverse 0
  have hlength : (reversedCells thousands (us.reverse ++ ts.reverse) (shownDigits ds).reverse
      0).length = us.reverse.length + ts.length := by
    simp only [length_reversedCells, List.length_append, List.length_reverse]
  have hreverse := h.reverse hlength
  unfold wholeCells
  rw [List.reverse_append, List.reverse_append, List.reverse_cons, List.append_assoc]
  exact hreverse

theorem placedCells_insert (ts us : List NumberToken) (c : Char) (cells : List (List Char)) :
    Inserted ts.length [c] (placedCells (ts ++ us) cells)
      (placedCells (ts ++ .literal c :: us) cells) := by
  induction ts generalizing cells with
  | nil => exact ⟨[], _, rfl, rfl, rfl⟩
  | cons t ts ih =>
    cases t with
    | digit p =>
      cases cells with
      | nil => exact (ih []).cons []
      | cons cell cells => exact (ih cells).cons cell
    | literal d => exact (ih cells).cons [d]
    | point => exact (ih cells).cons []
    | comma => exact (ih cells).cons []
    | slash => exact (ih cells).cons []
    | percent => exact (ih cells).cons []
    | exponent upper signed => exact (ih cells).cons []

theorem places_insert (ts us : List NumberToken) (c : Char) :
    places (ts ++ .literal c :: us) = places (ts ++ us) := by
  rw [places_append, places_append]
  rfl

/-! ## Literals in a body -/

/-- The literal stands before the point or behind it. -/
theorem insert_point_cases (ts us : List NumberToken) (c : Char) :
    (beforePoint (ts ++ us) = ts ++ beforePoint us ∧
      beforePoint (ts ++ .literal c :: us) = ts ++ .literal c :: beforePoint us ∧
      afterPoint? (ts ++ .literal c :: us) = afterPoint? (ts ++ us)) ∨
    ∃ whole fraction, ts = whole ++ .point :: fraction ∧ ∀ rest,
      beforePoint (ts ++ rest) = whole ∧ afterPoint? (ts ++ rest) = some (fraction ++ rest) := by
  obtain ⟨hpoint, -, -⟩ | ⟨whole, fraction, rfl, hwhole, -, -⟩ := point_cases ts
  · refine .inl ⟨beforePoint_append_left hpoint us, beforePoint_append_left hpoint _, ?_⟩
    rw [afterPoint?_append_left hpoint, afterPoint?_append_left hpoint]
    rfl
  · refine .inr ⟨whole, fraction, rfl, fun rest => ?_⟩
    rw [List.append_assoc]
    constructor
    · exact (beforePoint_append_left hwhole _).trans (List.append_nil whole)
    · exact afterPoint?_append_left hwhole _

theorem fractionPlaces_insert (ts us : List NumberToken) (c : Char) :
    fractionPlaces (ts ++ .literal c :: us) = fractionPlaces (ts ++ us) := by
  unfold fractionPlaces
  obtain ⟨-, -, hafter⟩ | ⟨whole, fraction, -, hparts⟩ := insert_point_cases ts us c
  · rw [hafter]
  · rw [(hparts _).2, (hparts _).2]
    exact places_insert fraction us c

theorem bodyCells_insert (r : Decimal) (ts us : List NumberToken) (c : Char) :
    Inserted ts.length [c] (bodyCells r (ts ++ us)) (bodyCells r (ts ++ .literal c :: us)) := by
  unfold bodyCells
  obtain ⟨hbefore, hbefore', hafter⟩ | ⟨whole, fraction, rfl, hparts⟩ := insert_point_cases ts us c
  · have hcomma : (ts ++ .literal c :: beforePoint us).contains .comma =
        (ts ++ beforePoint us).contains .comma := by
      simp [List.contains_eq_mem]
    rw [hbefore, hbefore', hafter]
    simp only [hcomma]
    exact (wholeCells_insert _ ts (beforePoint us) c r.integerDigits).append_right _
  · have hcells := placedCells_insert fraction us c
      (fractionCells (r.fractionDigits.zip (places (fraction ++ us))))
    have hfront := (hcells.cons ['.']).append_left
      (wholeCells (whole.contains .comma) whole r.integerDigits)
    rw [length_wholeCells] at hfront
    simp only [hparts, places_insert, List.length_append, List.length_cons]
    exact hfront

/-! ## Literals in a section -/

/-- In front of a place the literal stands before the body or in it. -/
theorem insert_cases (hplace : us.any isPlace = true) (hslash : .slash ∉ ts ++ us) (c : Char) :
    (∃ lead body tail, Layout.ofTokens (ts ++ us) = ⟨ts ++ lead, body, tail⟩ ∧
      Layout.ofTokens (ts ++ .literal c :: us) = ⟨ts ++ .literal c :: lead, body, tail⟩) ∨
    ∃ lead front behind tail, ts = lead ++ front ∧
      Layout.ofTokens (ts ++ us) = ⟨lead, front ++ behind, tail⟩ ∧
      Layout.ofTokens (ts ++ .literal c :: us) = ⟨lead, front ++ .literal c :: behind, tail⟩ := by
  obtain ⟨behind, last, tail, rfl, hbehind, hlast, htail⟩ := Layout.exists_core hplace
  simp only [List.mem_append, not_or] at hslash
  by_cases hfirst : ts.any isPlace = true
  · obtain ⟨lead, first, front, rfl, hlead, hfirst, -⟩ := Layout.exists_core hfirst
    simp only [List.mem_append, not_or] at hslash
    have hlayout (xs : List NumberToken) (hxs : .slash ∉ xs) :
        Layout.ofTokens (lead ++ (first ++ (front ++ (xs ++ (behind ++ (last ++ tail)))))) =
          ⟨lead, first ++ (front ++ (xs ++ (behind ++ last))), tail⟩ := by
      have hcore := hfirst.append hlast (front ++ (xs ++ behind))
      have hofTokens := Layout.ofTokens_of_slash_notMem hlead hcore htail
        (by simp only [List.mem_append, not_or]; tauto)
      simpa only [List.append_assoc] using hofTokens
    refine .inr ⟨lead, first ++ front, behind ++ last, tail, rfl, ?_, ?_⟩
    · simpa only [List.append_assoc, List.nil_append] using hlayout [] List.not_mem_nil
    · simpa only [List.append_assoc, List.singleton_append] using hlayout [.literal c] (by simp)
  · have hts : ∀ t ∈ ts, t.isPlace = false := by simpa using hfirst
    have hslash' : .slash ∉ last ++ tail := by
      simp only [List.mem_append, not_or]
      exact hslash.2.2
    refine .inl ⟨behind, last, tail, ?_, ?_⟩
    · have hlead : ∀ t ∈ ts ++ behind, t.isPlace = false :=
        List.forall_mem_append.2 ⟨hts, hbehind⟩
      have hlayout := Layout.ofTokens_of_slash_notMem hlead hlast htail hslash'
      rwa [List.append_assoc] at hlayout
    · have hlead : ∀ t ∈ ts ++ .literal c :: behind, t.isPlace = false :=
        List.forall_mem_append.2 ⟨hts, List.forall_mem_cons.2 ⟨rfl, hbehind⟩⟩
      have hlayout := Layout.ofTokens_of_slash_notMem hlead hlast htail hslash'
      rwa [List.append_assoc] at hlayout

/-- The literal changes neither the scaling nor the rounding. -/
theorem rounded_insert (hplace : us.any isPlace = true) (hslash : .slash ∉ ts ++ us) (c : Char)
    (v : Decimal) :
    rounded v (Layout.ofTokens (ts ++ .literal c :: us)) =
      rounded v (Layout.ofTokens (ts ++ us)) := by
  have hpercents : (Layout.ofTokens (ts ++ .literal c :: us)).percents =
      (Layout.ofTokens (ts ++ us)).percents := by
    simp [Layout.percents_ofTokens]
  obtain ⟨lead, body, tail, hlayout, hlayout'⟩ |
    ⟨lead, front, behind, tail, -, hlayout, hlayout'⟩ := insert_cases hplace hslash c
  · apply rounded_congr hpercents
    · rw [hlayout, hlayout']
      rfl
    · rw [hlayout, hlayout']
  · apply rounded_congr hpercents
    · rw [hlayout, hlayout']
      rfl
    · rw [hlayout, hlayout']
      exact fractionPlaces_insert front behind c

/-- Each token shows what it shows without the literal. -/
theorem tokenCells_insert (hplace : us.any isPlace = true) (hslash : .slash ∉ ts ++ us) (c : Char)
    (v : Decimal) :
    Inserted ts.length [c] (tokenCells v (ts ++ us)) (tokenCells v (ts ++ .literal c :: us)) := by
  unfold tokenCells
  rw [rounded_insert hplace hslash]
  generalize rounded v (Layout.ofTokens (ts ++ us)) = r
  obtain ⟨lead, body, tail, hlayout, hlayout'⟩ |
    ⟨lead, front, behind, tail, rfl, hlayout, hlayout'⟩ := insert_cases hplace hslash c
  · rw [hlayout, hlayout']
    unfold cells
    rw [List.map_append, List.map_append, List.append_assoc, List.append_assoc]
    exact ⟨ts.map NumberToken.text, _, List.length_map _, rfl, rfl⟩
  · rw [hlayout, hlayout']
    have hbody := (bodyCells_insert r front behind c).append_right
      (List.replicate (⟨lead, front ++ behind, tail⟩ : Layout).commas [] ++
        (tail.dropWhile (· = .comma)).map NumberToken.text)
    have hcells := hbody.append_left (lead.map NumberToken.text)
    rw [List.length_map, ← List.length_append] at hcells
    exact hcells

/-- Behind a place that the scan reaches an escaped character is a literal. -/
theorem ofSection_insert (hreads : Reads (a ++ b) ts b) (hb : b ≠ []) (c : Char) :
    ofSection (a ++ '\\' :: c :: b) = ts ++ .literal c :: scan false b := by
  obtain ⟨front, hfront, hreads'⟩ := hreads.replace (t := '\\' :: c :: b) hb (by simp)
  obtain rfl := List.append_cancel_right hfront
  exact hreads'.scan_eq

theorem IsFixedPoint.insert (h : IsFixedPoint (a ++ b)) (hreads : Reads (a ++ b) ts b)
    (hb : b ≠ [])
    (hgeneral : Text.find? "general".toList (Text.lowerAll (a ++ '\\' :: c :: b)) = none) :
    IsFixedPoint (a ++ '\\' :: c :: b) := by
  have hsection : ofSection (a ++ b) = ts ++ scan false b := hreads.scan_eq
  have hmem : ∀ t ∈ ofSection (a ++ '\\' :: c :: b), t ∈ ofSection (a ++ b) ∨ t = .literal c := by
    rw [ofSection_insert hreads hb, hsection]
    intro t ht
    rcases List.mem_append.1 ht with ht | ht
    · exact .inl (List.mem_append_left _ ht)
    · exact (List.mem_cons.1 ht).symm.imp (List.mem_append_right ts) id
  refine ⟨hgeneral, fun hslash => ?_, fun t ht => ?_⟩
  · rcases hmem _ hslash with hslash | hliteral
    · exact h.slash hslash
    · cases hliteral
  · rcases hmem t ht with ht | rfl
    · exact h.mark t ht
    · rfl

/-- The text has one more character, between what the tokens in front of the literal show and what
    those behind it show. In front of the first place these are characters of the section. -/
theorem text_insert (h : IsFixedPoint (a ++ b)) (hreads : Reads (a ++ b) ts b)
    (hplace : (scan false b).any isPlace = true)
    (hgeneral : Text.find? "general".toList (Text.lowerAll (a ++ '\\' :: c :: b)) = none)
    (hdigits : v.digitCount < 100000) (hadjusted : v.adjusted.natAbs < 100000)
    (hlength : (a ++ b).length < 100000) :
    ∃ shown rest,
      tokenCells v (ofSection (a ++ b)) = shown ++ rest ∧
      tokenCells v (ofSection (a ++ '\\' :: c :: b)) = shown ++ [c] :: rest ∧
      shown.length = ts.length ∧ rest.length = (scan false b).length ∧
      Number.text v (a ++ b) = .ok (signText v.value ++ (shown.flatten ++ rest.flatten)) ∧
      Number.text v (a ++ '\\' :: c :: b) =
        .ok (signText v.value ++ (shown.flatten ++ c :: rest.flatten)) ∧
      ((∀ t ∈ ts, t.isPlace = false) → shown = ts.map NumberToken.text) := by
  have hb : b ≠ [] := by
    rintro rfl
    cases hplace
  have hsection : ofSection (a ++ b) = ts ++ scan false b := hreads.scan_eq
  have hsection' := ofSection_insert hreads hb c
  have hplaces : (ofSection (a ++ b)).any isPlace = true := by
    rw [hsection, List.any_append, hplace, Bool.or_true]
  have hplaces' : (ofSection (a ++ '\\' :: c :: b)).any isPlace = true := by
    rw [hsection', List.any_append, List.any_cons, hplace, Bool.or_true, Bool.or_true]
  have hsize : (ofSection (a ++ b)).length < 100000 := (length_ofSection_le _).trans_lt hlength
  have hsize' : (ofSection (a ++ '\\' :: c :: b)).length ≤ 100000 := by
    rw [hsection, List.length_append] at hsize
    rw [hsection', List.length_append, List.length_cons]
    exact hsize
  have htext := text_eq_cells h hplaces hdigits hadjusted hsize.le
  have htext' := text_eq_cells (h.insert hreads hb hgeneral) hplaces' hdigits hadjusted hsize'
  obtain ⟨shown, rest, hshown, hcells, hcells'⟩ :=
    tokenCells_insert hplace (hsection ▸ h.slash) c v
  rw [← hsection] at hcells
  rw [← hsection'] at hcells'
  rw [hcells, List.flatten_append] at htext
  rw [hcells', List.flatten_append] at htext'
  refine ⟨shown, rest, hcells, hcells', hshown, ?_, htext, htext', fun hnone => ?_⟩
  · have hcount := congrArg List.length hcells
    rw [length_tokenCells, hsection, List.length_append, List.length_append, hshown] at hcount
    exact (Nat.add_left_cancel hcount).symm
  · obtain ⟨rest', hfront⟩ := exists_tokenCells_append hnone (scan false b) v
    rw [← hsection, hcells] at hfront
    exact (List.append_inj hfront (hshown.trans (List.length_map _).symm)).1

/-- Behind the leftmost place, which holds four digits, and two more places. -/
theorem text_insert_grouped :
    IsFixedPoint "#,##0.0".toList ∧
      Reads ("#,##".toList ++ "0.0".toList) [.digit .hash, .comma, .digit .hash, .digit .hash]
        "0.0".toList ∧
      Number.text ⟨true, 12345678, -1⟩ "#,##0.0".toList = .ok "-1,234,567.8".toList ∧
      Number.text ⟨true, 12345678, -1⟩ "#,##\\x0.0".toList = .ok "-1,234,56x7.8".toList := by
  have hfixed : IsFixedPoint "#,##0.0".toList := ⟨by decide +kernel, by decide, by decide⟩
  have hreads : Reads ("#,##".toList ++ "0.0".toList)
      ("#,##".toList.map ofChar ++ []) "0.0".toList :=
    Reads.append_left (List.all_eq_true.1 rfl) (.done "0.0".toList)
  obtain ⟨shown, rest, hcells, -, hshown, -, htext, htext', -⟩ := text_insert (c := 'x')
    (v := ⟨true, 12345678, -1⟩) hfixed hreads (by decide) (by decide +kernel) (by decide +kernel)
    (by decide +kernel) (by decide)
  have hvalue : tokenCells ⟨true, 12345678, -1⟩ (ofSection "#,##0.0".toList) =
      ["1,234,".toList, [], ['5'], ['6']] ++ [['7'], ['.'], ['8']] := by decide +kernel
  obtain ⟨rfl, rfl⟩ := List.append_inj (hcells.symm.trans hvalue) hshown
  exact ⟨hfixed, hreads, htext, htext'⟩

end Worksheet.Format.Fixed
