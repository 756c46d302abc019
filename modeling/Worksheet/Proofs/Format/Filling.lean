-- SUMMARY: Places that are filled with digits show the number of these digits, and no place for a zero is blank.
import Mathlib.Data.List.Count
import Worksheet.Format.Filling
import Worksheet.Proofs.Format.Reading

/-!
# Filled Places

Padding only adds zeros in front of a whole part, and trimming only takes zeros from the end of a
fraction part, so the number that is read is the number that was written: `natural?_fillWhole`,
`exists_shown`. Places among other tokens are filled like places side by side:
`filter_fillTokens`.
-/

namespace Worksheet.Format

open Digits Reading NumberToken

variable {ds : List Char} {ps : List Placeholder} {ts : List NumberToken}

/-! ## Places before the point -/

theorem areDigits_shownDigits (h : AreDigits ds) : AreDigits (shownDigits ds) := by
  unfold shownDigits
  split
  · exact fun c hc => nomatch hc
  · exact h

theorem value_shownDigits (ds : List Char) : value (shownDigits ds) = value ds := by
  unfold shownDigits
  split
  · rename_i h
    rw [h]
    rfl
  · rfl

theorem mem_padding {p : Placeholder} {c : Char} (h : c ∈ p.padding) : c = '0' ∨ c = ' ' := by
  cases p with
  | zero => exact .inl (List.mem_singleton.1 h)
  | hash => cases h
  | question => exact .inr (List.mem_singleton.1 h)

/-- Padding is a zero for each zero place, and blanks. -/
theorem filter_padding (ps : List Placeholder) :
    (ps.flatMap Placeholder.padding).filter (· ≠ ' ') = List.replicate (ps.count .zero) '0' := by
  induction ps with
  | nil => rfl
  | cons p ps ih =>
    rw [List.flatMap_cons, List.filter_append, ih]
    cases p with
    | zero => simp [Placeholder.padding, List.replicate_succ]
    | hash => simp [Placeholder.padding]
    | question => simp [Placeholder.padding]

/-- The digits that a filled whole part shows: zeros, and the digits that are put in. -/
theorem filter_fillWhole (h : AreDigits ds) (ps : List Placeholder) :
    ∃ k, (fillWhole ds ps).filter (· ≠ ' ') = List.replicate k '0' ++ shownDigits ds ∧
      ps.count .zero ≤ k + (shownDigits ds).length := by
  refine ⟨(ps.take (ps.length - (shownDigits ds).length)).count .zero, ?_, ?_⟩
  · rw [fillWhole, List.filter_append, filter_padding,
      filter_of_areDigits (areDigits_shownDigits h) (by decide)]
  · have hsplit := congrArg (List.count .zero)
      (List.take_append_drop (ps.length - (shownDigits ds).length) ps)
    have hrest := List.count_le_length (a := Placeholder.zero)
      (l := ps.drop (ps.length - (shownDigits ds).length))
    rw [List.count_append] at hsplit
    rw [List.length_drop] at hrest
    omega

theorem length_fillWhole_le (ds : List Char) (ps : List Placeholder) :
    (fillWhole ds ps).length ≤ max ps.length (shownDigits ds).length := by
  have hpadding (ps : List Placeholder) : (ps.flatMap Placeholder.padding).length ≤ ps.length := by
    induction ps with
    | nil => exact le_rfl
    | cons p ps ih =>
      have hp : p.padding.length ≤ 1 := by cases p <;> decide
      rw [List.flatMap_cons, List.length_append, List.length_cons]
      omega
  have htake := hpadding (ps.take (ps.length - (shownDigits ds).length))
  rw [List.length_take] at htake
  rw [fillWhole, List.length_append]
  omega

/-- Places for zeros show at least as many digits. -/
theorem fillWhole_replicate_zero {n : Nat} (hn : 0 < n) (k : Nat) :
    fillWhole (ofNat k) (List.replicate n .zero) = padded n k := by
  have hpadding (i : Nat) :
      (List.replicate i Placeholder.zero).flatMap Placeholder.padding = List.replicate i '0' := by
    rw [List.flatMap_replicate]
    exact List.flatten_replicate_singleton
  unfold fillWhole shownDigits
  simp only [List.take_replicate, List.length_replicate, hpadding]
  split
  · rename_i hzero
    rw [padded, hzero, ← List.replicate_succ', List.length_nil, List.append_nil,
      List.length_singleton]
    congr 1
    omega
  · rw [padded, Nat.min_eq_left (Nat.sub_le _ _)]

/-- A filled whole part is read as the number that it was filled with. -/
theorem natural?_fillWhole (n : Nat) (ps : List Placeholder) :
    natural? (fillWhole (ofNat n) ps) = some n := by
  obtain ⟨k, hfilter, -⟩ := filter_fillWhole (areDigits_ofNat n) ps
  have hdigits : AreDigits (List.replicate k '0' ++ shownDigits (ofNat n)) :=
    areDigits_append.2 ⟨areDigits_replicate_zero k, areDigits_shownDigits (areDigits_ofNat n)⟩
  rw [natural?_eq_some hfilter hdigits, value_append, value_replicate_zero, value_shownDigits,
    value_ofNat, Nat.zero_mul, Nat.zero_add]

theorem natural?_orZero {s : List Char} {n : Nat} (h : natural? s = some n) :
    natural? (orZero s) = some n := by
  cases s with
  | nil => exact h
  | cons c s => exact h

/-- No zero place is left without a digit. -/
theorem count_zero_le_digitCount (h : AreDigits ds) (ps : List Placeholder) :
    ps.count .zero ≤ digitCount (fillWhole ds ps) := by
  obtain ⟨k, hfilter, hcount⟩ := filter_fillWhole h ps
  have hdigits : AreDigits (List.replicate k '0' ++ shownDigits ds) :=
    areDigits_append.2 ⟨areDigits_replicate_zero k, areDigits_shownDigits h⟩
  rw [← digitCount_filter (c := ' ') (by decide), hfilter, digitCount_of_areDigits hdigits,
    List.length_append, List.length_replicate]
  exact hcount

theorem mem_fillWhole (h : AreDigits ds) {c : Char} (hc : c ∈ fillWhole ds ps) :
    c.isDigit = true ∨ c = ' ' := by
  rcases List.mem_append.1 hc with hc | hc
  · obtain ⟨p, -, hp⟩ := List.mem_flatMap.1 hc
    exact (mem_padding hp).imp (fun hzero => by rw [hzero]; decide) id
  · obtain ⟨d, hd, rfl⟩ := areDigits_shownDigits h c hc
    exact .inl (isDigit_char d hd)

/-- Without blank places a filled whole part is digits. -/
theorem areDigits_fillWhole (h : AreDigits ds) (hquestion : .question ∉ ps) :
    AreDigits (fillWhole ds ps) := by
  refine areDigits_iff.2 (List.all_eq_true.2 fun c hc => ?_)
  rcases List.mem_append.1 hc with hc | hc
  · obtain ⟨p, hp, hc⟩ := List.mem_flatMap.1 hc
    cases p with
    | zero => exact List.mem_singleton.1 hc ▸ rfl
    | hash => cases hc
    | question => exact absurd (List.mem_of_mem_take hp) hquestion
  · obtain ⟨d, hd, rfl⟩ := areDigits_shownDigits h c hc
    exact isDigit_char d hd

theorem mem_orZero {s : List Char} (h : ∀ c ∈ s, c.isDigit = true ∨ c = ' ') {c : Char}
    (hc : c ∈ orZero s) : c.isDigit = true ∨ c = ' ' := by
  cases s with
  | nil => exact .inl (List.mem_singleton.1 hc ▸ rfl)
  | cons d s => exact h c hc

/-! ## Places among other tokens -/

theorem any_isPlace_iff : ts.any isPlace = true ↔ places ts ≠ [] := by
  simp [places, isPlace, List.filterMap_eq_nil_iff, Option.isSome_iff_ne_none]

namespace Piece

/-- The character of a piece that stands in a place. -/
def filled? : Piece → Option Char
  | .filled c => some c
  | .literal _ => none

theorem filterMap_map_filled (s : List Char) : (s.map filled).filterMap filled? = s := by
  rw [List.filterMap_map]
  exact List.filterMap_some

/-- The pieces from places are the digits, and the padding of the places that are left. -/
theorem filterMap_filled_ofReversed (h : places ts ≠ [] ∨ ds = []) :
    (ofReversed ts ds).filterMap filled? =
      ds ++ ((places ts).drop ds.length).flatMap Placeholder.padding := by
  induction ts generalizing ds with
  | nil =>
    obtain rfl : ds = [] := h.resolve_left fun hne => hne rfl
    rfl
  | cons t ts ih =>
    cases t with
    | digit p =>
      have hplaces : places (.digit p :: ts) = p :: places ts := rfl
      rw [ofReversed, List.filterMap_append, filterMap_map_filled, hplaces]
      by_cases hmore : ts.any isPlace = true
      · have hne := any_isPlace_iff.1 hmore
        rw [if_pos hmore]
        cases ds with
        | nil => simp [ih (.inr rfl)]
        | cons c ds => simp [ih (.inl hne)]
      · have hnil : places ts = [] := by
          rw [any_isPlace_iff, not_not] at hmore
          exact hmore
        rw [if_neg hmore, List.drop_length, ih (.inr rfl), hnil]
        cases ds with
        | nil => simp
        | cons c ds => simp
    | literal c => exact ih h
    | point => exact ih h
    | comma => exact ih h
    | slash => exact ih h
    | percent => exact ih h
    | exponent upper signed => exact ih h

/-- Without literal tokens all pieces come from places. -/
theorem ofReversed_eq_map_filled (h : literals ts = []) :
    ofReversed ts ds = ((ofReversed ts ds).filterMap filled?).map filled := by
  induction ts generalizing ds with
  | nil => rfl
  | cons t ts ih =>
    cases t with
    | digit p =>
      rw [ofReversed, List.filterMap_append, filterMap_map_filled, List.map_append, ← ih h]
    | literal c => cases h
    | point => exact ih h
    | comma => exact ih h
    | slash => exact ih h
    | percent => exact ih h
    | exponent upper signed => exact ih h

theorem map_char_map_filled (s : List Char) : (s.map filled).map char = s := by
  rw [List.map_map]
  exact List.map_id s

theorem map_char_ofReversed (h : literals ts = []) :
    (ofReversed ts ds).map char = (ofReversed ts ds).filterMap filled? := by
  conv_lhs => rw [ofReversed_eq_map_filled h]
  exact map_char_map_filled _

/-- The counter goes on by one for each digit. -/
theorem grouped_append (s : List Char) (n : Nat) (rest : List Piece) :
    grouped n (s.map filled ++ rest) =
      grouped n (s.map filled) ++ grouped (n + digitCount s) rest := by
  induction s generalizing n with
  | nil => rfl
  | cons c s ih =>
    simp only [List.map_cons, List.cons_append, grouped, digitCount, List.countP_cons]
    split
    · rename_i hc
      have hcount : n + (s.countP Char.isDigit + 1) = n + 1 + digitCount s := by
        rw [digitCount]
        omega
      rw [hcount, ih]
      split <;> rfl
    · rw [ih]
      rfl

/-- Grouping adds commas and nothing else. -/
theorem filter_grouped (n : Nat) (pieces : List Piece) :
    (grouped n pieces).filter (· ≠ ',') = (pieces.map char).filter (· ≠ ',') := by
  induction pieces generalizing n with
  | nil => rfl
  | cons piece pieces ih =>
    cases piece with
    | literal c => simp only [grouped, char, List.map_cons, List.filter_cons, ih]
    | filled c =>
      simp only [grouped, char, List.map_cons]
      split_ifs
      · rw [List.filter_cons_of_neg (by decide), List.filter_cons, List.filter_cons, ih]
      · rw [List.filter_cons, List.filter_cons, ih]
      · rw [List.filter_cons, List.filter_cons, ih]

end Piece

theorem reverse_flatMap_padding (ps : List Placeholder) :
    (ps.reverse.flatMap Placeholder.padding).reverse = ps.flatMap Placeholder.padding := by
  have hreverse : List.reverse ∘ Placeholder.padding = Placeholder.padding := by
    funext p
    cases p <;> rfl
  rw [List.reverse_flatMap, List.reverse_reverse, hreverse]

/-- The pieces from places are what places side by side show. -/
theorem reverse_filterMap_filled (hplaces : places ts ≠ []) (ds : List Char) :
    ((Piece.ofReversed ts.reverse (shownDigits ds).reverse).filterMap Piece.filled?).reverse =
      fillWhole ds (places ts) := by
  have hplaces' : places ts.reverse ≠ [] := by
    rwa [places, List.filterMap_reverse, Ne, List.reverse_eq_nil_iff]
  rw [Piece.filterMap_filled_ofReversed (.inl hplaces'), List.reverse_append, List.reverse_reverse,
    List.length_reverse, places, List.filterMap_reverse, List.drop_reverse, reverse_flatMap_padding]
  rfl

/-- Places among tokens that are not literals show what places side by side show. -/
theorem fillTokens_eq_fillWhole (hplaces : places ts ≠ []) (hliterals : literals ts = []) :
    fillTokens ds ts false = fillWhole ds (places ts) := by
  have hliterals' : literals ts.reverse = [] := by
    rwa [literals, List.filterMap_reverse, List.reverse_eq_nil_iff]
  rw [← reverse_filterMap_filled hplaces, ← Piece.map_char_ofReversed hliterals']
  rfl

/-- Thousands separators are commas among the characters that are shown without them. -/
theorem filter_fillTokens_true (ds : List Char) (ts : List NumberToken) :
    (fillTokens ds ts true).filter (· ≠ ',') = (fillTokens ds ts false).filter (· ≠ ',') := by
  unfold fillTokens
  simp only [if_true, Bool.false_eq_true, if_false]
  rw [List.filter_reverse, Piece.filter_grouped, ← List.filter_reverse]

/-- Places among tokens that are not literals show what places side by side show, and commas. -/
theorem filter_fillTokens (h : AreDigits ds) (hplaces : places ts ≠ [])
    (hliterals : literals ts = []) (thousands : Bool) :
    (fillTokens ds ts thousands).filter (· ≠ ',') = fillWhole ds (places ts) := by
  have hcommas : (fillWhole ds (places ts)).filter (· ≠ ',') = fillWhole ds (places ts) := by
    rw [List.filter_eq_self]
    intro c hc
    refine decide_eq_true ?_
    rintro rfl
    exact absurd (mem_fillWhole h hc) (by decide)
  cases thousands with
  | false => rw [fillTokens_eq_fillWhole hplaces hliterals, hcommas]
  | true => rw [filter_fillTokens_true, fillTokens_eq_fillWhole hplaces hliterals, hcommas]

theorem mem_fillTokens (h : AreDigits ds) (hplaces : places ts ≠ []) (hliterals : literals ts = [])
    {thousands : Bool} {c : Char} (hc : c ∈ fillTokens ds ts thousands) :
    c.isDigit = true ∨ c = ' ' ∨ c = ',' := by
  by_cases hcomma : c = ','
  · exact .inr (.inr hcomma)
  · have hmem : c ∈ (fillTokens ds ts thousands).filter (· ≠ ',') :=
      List.mem_filter.2 ⟨hc, decide_eq_true hcomma⟩
    rw [filter_fillTokens h hplaces hliterals] at hmem
    exact (mem_fillWhole h hmem).imp id .inl

/-! ## Places after the point -/

theorem flatten_fractionCells_of_trimmed {cells : List (Char × Placeholder)}
    (h : cells.all isTrimmed = true) :
    ∃ j, (fractionCells cells).flatten = List.replicate j ' ' := by
  induction cells with
  | nil => exact ⟨0, rfl⟩
  | cons cell cells ih =>
    obtain ⟨c, p⟩ := cell
    obtain ⟨hcell, hcells⟩ := Bool.and_eq_true_iff.1 (List.all_cons ▸ h)
    obtain ⟨j, hj⟩ := ih hcells
    rw [fractionCells, hcell, hcells, Bool.and_self, if_pos rfl, List.flatten_cons, hj]
    cases p with
    | zero => simp [isTrimmed] at hcell
    | hash => exact ⟨j, rfl⟩
    | question => exact ⟨j + 1, rfl⟩

/-- A fraction part shows digits up to the last one that is not trimmed, and then blanks. -/
theorem exists_shown (cells : List (Char × Placeholder)) :
    ∃ shown hidden j, cells = shown ++ hidden ∧ hidden.all isTrimmed = true ∧
      (∀ cell ∈ shown.getLast?, isTrimmed cell = false) ∧
      (fractionCells cells).flatten = shown.map Prod.fst ++ List.replicate j ' ' := by
  induction cells with
  | nil => exact ⟨[], [], 0, rfl, rfl, (fun cell h => nomatch h), rfl⟩
  | cons cell cells ih =>
    by_cases htrim : (cell :: cells).all isTrimmed = true
    · obtain ⟨j, hj⟩ := flatten_fractionCells_of_trimmed htrim
      exact ⟨[], cell :: cells, j, rfl, htrim, (fun cell h => nomatch h), hj⟩
    · obtain ⟨shown, hidden, j, hcells, hhidden, hlast, hflatten⟩ := ih
      refine ⟨cell :: shown, hidden, j, by rw [hcells]; rfl, hhidden, ?_, ?_⟩
      · cases shown with
        | nil =>
          -- All that follows is trimmed, so the first cell is not.
          intro x hx
          obtain rfl : cell = x := Option.some.inj hx
          rw [hcells, List.nil_append, List.all_cons, hhidden, Bool.and_true] at htrim
          exact Bool.eq_false_iff.2 htrim
        | cons first rest =>
          rw [List.getLast?_cons_cons]
          exact hlast
      · rw [fractionCells, ← List.all_cons, if_neg htrim, List.flatten_cons, hflatten]
        rfl

theorem length_fractionCells (cells : List (Char × Placeholder)) :
    (fractionCells cells).length = cells.length := by
  induction cells with
  | nil => rfl
  | cons cell cells ih => rw [fractionCells, List.length_cons, List.length_cons, ih]

/-- Places without literals show their cells side by side. -/
theorem layCells_map_digit {cells : List (List Char)} (h : cells.length = ps.length) :
    layCells (ps.map .digit) cells = cells.flatten := by
  induction ps generalizing cells with
  | nil =>
    rw [List.length_eq_zero_iff.1 h]
    rfl
  | cons p ps ih =>
    cases cells with
    | nil => cases h
    | cons cell cells => exact congrArg (cell ++ ·) (ih (Nat.succ.inj h))

/-- The digits after the point of which the first `k` are shown: those left out are zeros in
    places that need not show them, and the last one shown is no such zero. -/
structure Trims (ds : List Char) (ps : List Placeholder) (k : Nat) : Prop where
  le_length : k ≤ ds.length
  drop_eq : ds.drop k = List.replicate (ds.length - k) '0'
  notMem_drop : .zero ∉ ps.drop k
  last : ∀ i, k = i + 1 → ds[i]? = some '0' → ps[i]? = some .zero

theorem exists_trims (h : ds.length = ps.length) :
    ∃ k j, (fractionCells (ds.zip ps)).flatten = ds.take k ++ List.replicate j ' ' ∧
      Trims ds ps k := by
  obtain ⟨shown, hidden, j, hcells, hhidden, hlast, hflatten⟩ := exists_shown (ds.zip ps)
  have hds : ds = shown.map Prod.fst ++ hidden.map Prod.fst := by
    rw [← List.map_append, ← hcells, List.map_fst_zip h.le]
  have hps : ps = shown.map Prod.snd ++ hidden.map Prod.snd := by
    rw [← List.map_append, ← hcells, List.map_snd_zip h.ge]
  have htrimmed : ∀ cell ∈ hidden, cell.1 = '0' ∧ cell.2 ≠ .zero := by
    simpa [isTrimmed] using hhidden
  have hlength : shown.length = (shown.map Prod.fst).length := (List.length_map _).symm
  refine ⟨shown.length, j, ?_, ?_, ?_, ?_, ?_⟩
  · rw [hflatten, hds, hlength, List.take_left]
  · rw [hds, List.length_append, List.length_map]
    exact Nat.le_add_right _ _
  · rw [hds, hlength, List.drop_left, List.length_append, Nat.add_sub_cancel_left, List.length_map,
      List.map_eq_replicate_iff]
    exact fun cell hcell => (htrimmed cell hcell).1
  · have hlength' : shown.length = (shown.map Prod.snd).length := (List.length_map _).symm
    rw [hps, hlength', List.drop_left]
    intro hmem
    obtain ⟨cell, hcell, hzero⟩ := List.mem_map.1 hmem
    exact (htrimmed cell hcell).2 hzero
  · intro i hi hdigit
    obtain ⟨cell, hcell⟩ : ∃ cell, shown[i]? = some cell :=
      ⟨_, List.getElem?_eq_getElem (by omega)⟩
    have hi' : i < (shown.map Prod.fst).length := by
      rw [List.length_map]
      omega
    have hnot := hlast cell (by rw [List.getLast?_eq_getElem?, hi]; exact hcell)
    rw [hds, List.getElem?_append_left hi', List.getElem?_map, hcell] at hdigit
    rw [hps, List.getElem?_append_left (by rwa [List.length_map] at hi' ⊢), List.getElem?_map,
      hcell]
    obtain ⟨c, p⟩ := cell
    obtain rfl : c = '0' := Option.some.inj hdigit
    cases p with
    | zero => rfl
    | hash => cases hnot
    | question => cases hnot

/-- The point and what stands behind it, if there are places for it. -/
def behindPoint (fraction? : Option (List Placeholder)) (decimals : List Char) : List Char :=
  if fraction?.isSome then '.' :: decimals else []

namespace Trims

variable {k n : Nat} {A : List Char}

theorem length_take (h : Trims ds ps k) : (ds.take k).length = k :=
  List.length_take_of_le h.le_length

theorem value_eq (h : Trims ds ps k) : value ds = value (ds.take k) * 10 ^ (ds.length - k) := by
  conv_lhs => rw [← List.take_append_drop k ds, h.drop_eq]
  rw [value_append, value_replicate_zero, List.length_replicate, Nat.add_zero]

theorem filter_shown (hds : AreDigits ds) (k j : Nat) :
    (ds.take k ++ List.replicate j ' ').filter (· ≠ ' ') = ds.take k := by
  rw [List.filter_append, filter_of_areDigits (areDigits_take hds k) (by decide)]
  simp

theorem digitCount_shown (h : Trims ds ps k) (hds : AreDigits ds) (j : Nat) :
    digitCount (ds.take k ++ List.replicate j ' ') = k := by
  rw [← digitCount_filter (c := ' ') (by decide), filter_shown hds,
    digitCount_of_areDigits (areDigits_take hds k), h.length_take]

theorem mem_shown (hds : AreDigits ds) {k j : Nat} {c : Char}
    (hc : c ∈ ds.take k ++ List.replicate j ' ') : c.isDigit = true ∨ c = ' ' := by
  rcases List.mem_append.1 hc with hc | hc
  · obtain ⟨d, hd, rfl⟩ := areDigits_take hds k c hc
    exact .inl (isDigit_char d hd)
  · exact .inr (List.eq_of_mem_replicate hc)

/-- The zeros that are not shown do not count. -/
theorem decimal?_eq (h : Trims (Digits.fraction ps.length n) ps k) (hA : '.' ∉ A)
    (ha : natural? (A.filter (· ≠ ',')) = some (n / 10 ^ ps.length)) (j : Nat) :
    decimal? (A ++ '.' :: ((Digits.fraction ps.length n).take k ++ List.replicate j ' ')) =
      some ((n : Rat) / 10 ^ ps.length) := by
  have hds := areDigits_fraction ps.length n
  have hb := natural?_eq_some (filter_shown hds k j) (areDigits_take hds k)
  have hvalue := h.value_eq
  have hk := h.le_length
  rw [value_fraction, length_fraction] at hvalue
  rw [length_fraction] at hk
  rw [decimal?_of_point hA ha hb, h.digitCount_shown hds]
  congr 1
  have hsplit := Nat.div_add_mod n (10 ^ ps.length)
  rw [hvalue] at hsplit
  have hpow : (10 : Rat) ^ ps.length = 10 ^ (ps.length - k) * 10 ^ k := by
    rw [← pow_add, Nat.sub_add_cancel hk]
  have hcast : (n : Rat) = 10 ^ ps.length * (n / 10 ^ ps.length : Nat) +
      value ((Digits.fraction ps.length n).take k) * 10 ^ (ps.length - k) := by
    exact_mod_cast hsplit.symm
  have hpos : (10 : Rat) ^ (ps.length - k) ≠ 0 := by positivity
  rw [hcast, add_div, mul_div_cancel_left₀ _ (by positivity), hpow, mul_comm (10 ^ (ps.length - k)),
    mul_div_mul_right _ _ hpos]

/-- A fraction part is read with its whole part, also where there is no point and no place. -/
theorem decimal?_behindPoint {fraction? : Option (List Placeholder)}
    (h : Trims (Digits.fraction (fraction?.getD []).length n) (fraction?.getD []) k) (hA : '.' ∉ A)
    (ha : natural? (A.filter (· ≠ ',')) = some (n / 10 ^ (fraction?.getD []).length)) (j : Nat) :
    decimal? (A ++ behindPoint fraction?
      ((Digits.fraction (fraction?.getD []).length n).take k ++ List.replicate j ' ')) =
        some ((n : Rat) / 10 ^ (fraction?.getD []).length) := by
  cases fraction? with
  | none => simpa [behindPoint] using decimal?_of_whole hA ha
  | some ps => exact h.decimal?_eq hA ha j

theorem digitCount_decimals_behindPoint {fraction? : Option (List Placeholder)}
    (h : Trims ds (fraction?.getD []) k) (hds : AreDigits ds) (hA : '.' ∉ A) (j : Nat) :
    digitCount (decimals (A ++ behindPoint fraction? (ds.take k ++ List.replicate j ' '))) ≤ k := by
  have hnot := forall_ne_of_notMem hA
  unfold decimals
  rw [List.dropWhile_append_of_pos hnot]
  cases fraction? with
  | none => exact Nat.zero_le _
  | some ps => exact (h.digitCount_shown hds j).le

/-- Every zero place shows its digit. -/
theorem isDigit_of_zero (h : Trims ds ps k) (hds : AreDigits ds) (hlength : ds.length = ps.length)
    {i : Nat} (hi : ps[i]? = some .zero) (j : Nat) :
    ((ds.take k ++ List.replicate j ' ')[i]?).any Char.isDigit = true := by
  have hlt : i < k := by
    by_contra hge
    refine h.notMem_drop (List.mem_of_getElem? (i := i - k) ?_)
    rw [List.getElem?_drop, Nat.add_sub_cancel' (not_lt.1 hge), hi]
  obtain ⟨d, hd, hdigit⟩ := hds (ds.get ⟨i, by have := h.le_length; omega⟩) (List.get_mem _ _)
  rw [List.getElem?_append_left (by rwa [h.length_take]), List.getElem?_take_of_lt hlt,
    List.getElem?_eq_getElem (by have := h.le_length; omega)]
  rw [List.get_eq_getElem] at hdigit
  rw [hdigit]
  exact isDigit_char d hd

/-- A zero that only zeros follow stands in front of a zero place or in it. -/
theorem exists_zero_of_trailing (h : Trims ds ps k) (hds : AreDigits ds) {i j : Nat}
    (hi : (ds.take k ++ List.replicate j ' ')[i]? = some '0')
    (hrest : ∀ c ∈ (ds.take k ++ List.replicate j ' ').drop (i + 1), c = '0' ∨ c = ' ') :
    ∃ l, i ≤ l ∧ ps[l]? = some .zero := by
  have hlt : i < k := by
    by_contra hge
    rw [List.getElem?_append_right (by rw [h.length_take]; exact not_lt.1 hge)] at hi
    exact absurd (List.eq_of_mem_replicate (List.mem_of_getElem? hi)) (by decide)
  obtain ⟨l, rfl⟩ : ∃ l, k = l + 1 := ⟨k - 1, by omega⟩
  have hl : l < ds.length := h.le_length
  -- The last digit that is shown.
  have hlast : (ds.take (l + 1) ++ List.replicate j ' ')[l]? = some (ds.get ⟨l, hl⟩) := by
    rw [List.getElem?_append_left (by rw [h.length_take]; exact Nat.lt_succ_self l),
      List.getElem?_take_of_lt (Nat.lt_succ_self l), List.getElem?_eq_getElem hl]
    rfl
  have hzero : ds.get ⟨l, hl⟩ = '0' := by
    rcases Nat.lt_or_ge i l with hil | hil
    · have hmem : ds.get ⟨l, hl⟩ ∈ (ds.take (l + 1) ++ List.replicate j ' ').drop (i + 1) := by
        refine List.mem_of_getElem? (i := l - (i + 1)) ?_
        rw [List.getElem?_drop, Nat.add_sub_cancel' hil, hlast]
      refine (hrest _ hmem).resolve_right fun hblank => ?_
      exact notMem_of_areDigits hds (by decide) (hblank ▸ List.get_mem ds ⟨l, hl⟩)
    · obtain rfl : i = l := by omega
      exact Option.some.inj (hlast.symm.trans hi)
  refine ⟨l, by omega, h.last l rfl ?_⟩
  rw [List.getElem?_eq_getElem hl, ← hzero]
  rfl

end Trims

end Worksheet.Format
