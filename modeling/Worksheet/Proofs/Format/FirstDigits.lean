-- SUMMARY: What places for zeros in front of a body show of a number.
import Worksheet.Proofs.Format.Filling
import Worksheet.Proofs.Format.Layout
import Worksheet.Proofs.Format.Normalized

/-!
# The First Digits of a Body

Places for zeros in front of a body show the digits that the places behind them leave. In a
fixed-point body these are the leading digits of the number.
-/

namespace Worksheet.Format

open Digits NumberToken

variable {n k : Nat} {ts : List NumberToken} {ps : List Placeholder}

/-! ## Padded numbers -/

theorem shownDigits_of_pos (hk : 0 < k) : shownDigits (ofNat k) = ofNat k := by
  obtain ⟨d, ds, hd, hten, heq⟩ := head_ofNat hk
  refine if_neg fun hzero => char_ne_zero d hten hd ?_
  rw [heq] at hzero
  exact (List.cons.inj hzero).1

/-- Without its last digits a number shows the digits in front of them. -/
theorem shownDigits_div (k j : Nat) :
    shownDigits (ofNat (k / 10 ^ j)) =
      (shownDigits (ofNat k)).take ((shownDigits (ofNat k)).length - j) := by
  rcases Nat.eq_zero_or_pos k with rfl | hk
  · have hzero : shownDigits (ofNat 0) = [] := rfl
    rw [Nat.zero_div, hzero, List.take_nil]
  rw [shownDigits_of_pos hk]
  rcases Nat.lt_or_ge j (count k) with hj | hj
  · obtain ⟨d, ds, hd, hten, heq⟩ := head_ofNat hk
    have hlength : (ofNat k).length - j = (ds.length - j) + 1 := by
      unfold count at hj
      rw [heq, List.length_cons] at hj ⊢
      omega
    have hdrop : ((ofNat k).drop ((ofNat k).length - j)).length = j := by
      unfold count at hj
      rw [List.length_drop]
      omega
    have hfront := areDigits_take (areDigits_ofNat k) ((ofNat k).length - j)
    have hback := (areDigits_ofNat k).sublist (List.drop_sublist ((ofNat k).length - j) _)
    have hdiv : k / 10 ^ j = value ((ofNat k).take ((ofNat k).length - j)) := by
      have hlt := value_lt hback
      rw [hdrop] at hlt
      conv_lhs => rw [← value_ofNat k, ← List.take_append_drop ((ofNat k).length - j) (ofNat k),
        value_append, hdrop, Nat.mul_comm, Nat.mul_add_div (ten_pow_pos j), Nat.div_eq_of_lt hlt,
        Nat.add_zero]
    have hpos : 0 < k / 10 ^ j :=
      Nat.div_pos ((Nat.pow_le_pow_right (by decide) (by omega)).trans (pow_count_le hk))
        (ten_pow_pos j)
    rw [shownDigits_of_pos hpos, hdiv]
    rw [hlength, heq, List.take_succ_cons] at hfront ⊢
    exact ofNat_value_cons hfront (char_ne_zero d hten hd)
  · have hzero : k / 10 ^ j = 0 :=
      Nat.div_eq_of_lt ((lt_pow_count k).trans_le (Nat.pow_le_pow_right (by decide) hj))
    have hnone : (ofNat k).length - j = 0 := Nat.sub_eq_zero_of_le hj
    rw [hzero, hnone]
    rfl

/-- Numbers with room for a zero in front are told apart by their first characters. -/
theorem eq_of_padded_append {i : Nat} {x y : List Char} (h : padded n k ++ x = padded n i ++ y)
    (hi : count i < n) : k = i := by
  have hlength := length_padded hi.le
  rcases Nat.lt_or_ge n (count k) with hk | hk
  · have hpos : 0 < k := by
      have hone : count 0 = 1 := rfl
      have hdigit := count_pos i
      apply Nat.pos_of_ne_zero
      rintro rfl
      omega
    obtain ⟨d, ds, hd, hten, heq⟩ := head_ofNat hpos
    have hnone : padded n k = ofNat k := by
      have hzero : n - (ofNat k).length = 0 := Nat.sub_eq_zero_of_le hk.le
      rw [padded, hzero]
      rfl
    have hfirst : padded n i = '0' :: (List.replicate (n - count i - 1) '0' ++ ofNat i) := by
      have hsucc : n - (ofNat i).length = n - count i - 1 + 1 := by
        unfold count at hi ⊢
        omega
      rw [padded, hsucc, List.replicate_succ]
      rfl
    rw [hnone, heq, hfirst] at h
    exact absurd (List.cons.inj h).1 (char_ne_zero d hten hd)
  · have hsame := (List.append_inj h ((length_padded hk).trans hlength.symm)).1
    rw [← value_padded n k, hsame, value_padded]

/-! ## Places for zeros in front of other tokens -/

namespace Piece

/-- With places further on each place takes one digit. -/
theorem exists_ofReversed_append {us : List NumberToken} (hplace : us.any isPlace = true)
    (ts : List NumberToken) (ds : List Char) :
    ∃ pieces, ofReversed (ts ++ us) ds =
      pieces ++ ofReversed us (ds.drop (places ts).length) := by
  induction ts generalizing ds with
  | nil => exact ⟨[], rfl⟩
  | cons t ts ih =>
    cases t with
    | digit p =>
      have hmore : (ts ++ us).any isPlace = true := by
        rw [List.any_append, hplace, Bool.or_true]
      obtain ⟨pieces, h⟩ := ih (ds.drop 1)
      rw [List.drop_drop, Nat.add_comm] at h
      rw [List.cons_append, ofReversed, if_pos hmore]
      cases ds with
      | nil => exact ⟨_ ++ pieces, by rw [List.append_assoc]; exact congrArg _ (by simpa using h)⟩
      | cons c ds => exact ⟨_ ++ pieces, by rw [List.append_assoc]; exact congrArg _ h⟩
    | literal c =>
      obtain ⟨pieces, h⟩ := ih ds
      exact ⟨.literal c :: pieces, congrArg (List.cons _) h⟩
    | point => exact ih ds
    | comma => exact ih ds
    | slash => exact ih ds
    | percent => exact ih ds
    | exponent upper signed => exact ih ds

end Piece

theorem places_zeros_ne (hn : 0 < n) : places (zeros n) ≠ [] := by
  rw [places_zeros]
  exact List.ne_nil_of_length_pos (by simpa using hn)

theorem literals_zeros (n : Nat) : literals (zeros n) = [] := by
  simp [zeros, literals, literal?]

theorem fillTokens_zeros (hn : 0 < n) (k : Nat) :
    fillTokens (ofNat k) (zeros n) false = padded n k := by
  rw [fillTokens_eq_fillWhole (places_zeros_ne hn) (literals_zeros n), places_zeros,
    fillWhole_replicate_zero hn]

/-- Places for zeros in front of other tokens show a number without its last digits, one for each
    of the other places. -/
theorem exists_fillTokens_zeros (hn : 0 < n) (k : Nat) (ts : List NumberToken)
    (thousands : Bool) :
    ∃ rest, (fillTokens (ofNat k) (zeros n ++ ts) thousands).filter (· ≠ ',') =
      padded n (k / 10 ^ (places ts).length) ++ rest := by
  have hplace : (zeros n).reverse.any isPlace = true := by
    rw [List.any_reverse]
    exact any_isPlace_iff.2 (places_zeros_ne hn)
  have hplain : ∃ rest, fillTokens (ofNat k) (zeros n ++ ts) false =
      padded n (k / 10 ^ (places ts).length) ++ rest := by
    obtain ⟨pieces, hpieces⟩ := Piece.exists_ofReversed_append hplace ts.reverse
      (shownDigits (ofNat k)).reverse
    have hcount : (places ts.reverse).length = (places ts).length := by
      rw [places, places, List.filterMap_reverse, List.length_reverse]
    have hdigits : (shownDigits (ofNat k)).reverse.drop (places ts).length =
        (shownDigits (ofNat (k / 10 ^ (places ts).length))).reverse := by
      rw [shownDigits_div, List.drop_reverse]
    refine ⟨(pieces.map Piece.char).reverse, ?_⟩
    rw [← fillTokens_zeros hn]
    unfold fillTokens
    simp only [Bool.false_eq_true, if_false]
    rw [List.reverse_append, hpieces, hcount, hdigits, List.map_append, List.reverse_append]
  obtain ⟨rest, hrest⟩ := hplain
  have hfilter : (padded n (k / 10 ^ (places ts).length)).filter (· ≠ ',') = _ :=
    Reading.filter_of_areDigits (areDigits_padded _ _) (by decide)
  refine ⟨rest.filter (· ≠ ','), ?_⟩
  cases thousands with
  | false => rw [hrest, List.filter_append, hfilter]
  | true => rw [filter_fillTokens_true, hrest, List.filter_append, hfilter]

theorem exists_fillWhole_zeros (hn : 0 < n) (k : Nat) (ps : List Placeholder) :
    ∃ rest, fillWhole (ofNat k) (List.replicate n .zero ++ ps) =
      padded n (k / 10 ^ ps.length) ++ rest := by
  obtain ⟨rest, h⟩ := exists_fillTokens_zeros hn k (ps.map .digit) false
  have hplaces : places (zeros n ++ ps.map .digit) = List.replicate n .zero ++ ps := by
    rw [zeros, ← List.map_append, places_map_digit]
  have hne : places (zeros n ++ ps.map .digit) ≠ [] := by
    rw [hplaces]
    exact List.ne_nil_of_length_pos (by simp; omega)
  have hliterals : literals (zeros n ++ ps.map .digit) = [] := by
    simp [zeros, literals, literal?]
  rw [filter_fillTokens (areDigits_ofNat k) hne hliterals, hplaces, places_map_digit] at h
  exact ⟨rest, h⟩

theorem fillWhole_zeros_ne (hn : 0 < n) (k : Nat) (ps : List Placeholder) :
    fillWhole (ofNat k) (List.replicate n .zero ++ ps) ≠ [] := by
  obtain ⟨rest, hrest⟩ := exists_fillWhole_zeros hn k ps
  have hlength := le_length_padded n (k / 10 ^ ps.length)
  rw [hrest]
  exact List.ne_nil_of_length_pos (by rw [List.length_append]; omega)

theorem orZero_eq_self {s : List Char} (h : s ≠ []) : orZero s = s := by
  cases s with
  | nil => exact absurd rfl h
  | cons c s => rfl

/-! ## Bodies that start with places for zeros -/

variable {c : Decimal.Context} {m : Decimal} {w : List NumberToken} {number : List Char}

theorem forall_zeros_ne {t : NumberToken} (h : .digit .zero ≠ t) (n : Nat) :
    ∀ x ∈ zeros n, decide (x ≠ t) = true :=
  List.forall_mem_map.2 fun _ hp => decide_eq_true (List.eq_of_mem_replicate hp ▸ h)

theorem beforePoint_zeros_append (n : Nat) (w : List NumberToken) :
    beforePoint (zeros n ++ w) = zeros n ++ beforePoint w :=
  List.takeWhile_append_of_pos (forall_zeros_ne (by decide) n)

theorem afterPoint?_zeros_append (n : Nat) (w : List NumberToken) :
    afterPoint? (zeros n ++ w) = afterPoint? w := by
  unfold afterPoint?
  rw [List.dropWhile_append_of_pos (forall_zeros_ne (by decide) n)]

/-- Places for zeros alone show a number rounded to an integer. -/
theorem Fixed.text_zeros (hn : 0 < n) (hp : 0 < c.precision)
    (hm : m.coefficient ≠ 0 → m.adjusted < Decimal.maxExponent) :
    Fixed.text c m (zeros n) = .ok (padded n ⌊m.magnitude + 1 / 2⌋₊) := by
  have hnone : afterPoint? (zeros n ++ []) = none := afterPoint?_zeros_append n []
  have hbefore : beforePoint (zeros n ++ []) = zeros n ++ [] := beforePoint_zeros_append n []
  rw [List.append_nil] at hnone hbefore
  have hround : c.roundHalfUp m 0 = _ := Decimal.Context.roundHalfUp_eq hp (by decide) hm
  rw [pow_zero, mul_one] at hround
  have hplaces : fractionPlaces (zeros n) = [] := by
    rw [fractionPlaces, hnone]
    rfl
  have hcomma : (zeros n).contains .comma = false := by simp [zeros]
  unfold text
  rw [hplaces]
  refine bind_eq_ok_iff.2 ⟨_, mapError_eq_ok_iff.2 hround, congrArg Except.ok ?_⟩
  unfold layout
  simp only [hnone, hbefore, hcomma]
  rw [Decimal.integerDigits, Decimal.wholePart_of_places, pow_zero, Nat.div_one,
    fillTokens_zeros hn]

/-- In fixed-point notation the first places have the leading digits. -/
theorem Fixed.exists_text_zeros (hn : 0 < n) (h : Fixed.text c m (zeros n ++ w) = .ok number) :
    ∃ rest, number.filter (· ≠ ',') =
      padded n (⌊m.magnitude * 10 ^ (fractionPlaces w).length + 1 / 2⌋₊ /
        10 ^ (places w).length) ++ rest := by
  have hplaces : fractionPlaces (zeros n ++ w) = fractionPlaces w := by
    rw [fractionPlaces, afterPoint?_zeros_append, fractionPlaces]
  obtain ⟨r, hr, hlayout⟩ := bind_eq_ok_iff.1 h
  rw [hplaces] at hr
  obtain rfl := Decimal.Context.roundHalfUp_of_ok (mapError_eq_ok_iff.1 hr)
  obtain rfl := Except.ok.inj hlayout
  have hcount : (places w).length =
      (fractionPlaces w).length + (places (beforePoint w)).length := by
    rw [places_eq w, List.length_append, Nat.add_comm, fractionPlaces]
  obtain ⟨rest, hrest⟩ := exists_fillTokens_zeros hn
    (⌊m.magnitude * 10 ^ (fractionPlaces w).length + 1 / 2⌋₊ / 10 ^ (fractionPlaces w).length)
    (beforePoint w) ((zeros n ++ beforePoint w).contains .comma)
  rw [Nat.div_div_eq_div_mul, ← Nat.pow_add, ← hcount] at hrest
  unfold layout
  rw [beforePoint_zeros_append, afterPoint?_zeros_append, Decimal.integerDigits,
    Decimal.wholePart_of_places]
  cases afterPoint? w with
  | none => exact ⟨rest, hrest⟩
  | some fraction =>
    simp only [List.filter_append, hrest, List.append_assoc]
    exact ⟨_, rfl⟩

/-- In scientific notation the first place has the leading digit, which is not zero. -/
theorem Scientific.exists_text_zeros {s : Shape} (hn : 0 < n) (h0 : m.coefficient ≠ 0)
    (hp : m.digitCount ≤ c.precision) (hl : c.least ≤ -m.digitCount)
    (hwhole : s.whole = List.replicate n .zero ++ ps) (h : Scientific.text c m s = .ok number) :
    ∃ k rest, number = padded n k ++ rest ∧ 10 ^ (n - 1) ≤ k := by
  have hwidth : s.width = n + ps.length := by
    rw [Shape.width, hwhole, List.length_append, List.length_replicate]
    omega
  obtain ⟨r, hr, hlayout⟩ := bind_eq_ok_iff.1 h
  obtain ⟨N, hN, hlow, -⟩ :=
    split_of_ok h0 hp (by omega) (mapError_eq_ok_iff.1 hr)
  obtain rfl := Except.ok.inj hlayout
  obtain ⟨rest, hrest⟩ := exists_fillWhole_zeros hn (N / 10 ^ s.places) ps
  refine ⟨N / 10 ^ s.places / 10 ^ ps.length, ?_⟩
  unfold layout
  rw [hN, Decimal.integerDigits, Decimal.wholePart_of_places, hwhole,
    orZero_eq_self (fillWhole_zeros_ne hn _ _), hrest]
  simp only [List.append_assoc]
  refine ⟨_, rfl, ?_⟩
  have hrest' : s.rest = (n - 1) + (s.places + ps.length) := by
    rw [Shape.rest, hwidth]
    omega
  rw [Nat.div_div_eq_div_mul, ← Nat.pow_add, Nat.le_div_iff_mul_le (ten_pow_pos _), ← Nat.pow_add,
    ← hrest']
  exact hlow

/-- The places in front of the mark belong to the mantissa. -/
theorem Scientific.exists_ofBody?_zeros (n : Nat) (h : ∃ t ∈ w, t.isMark = true) :
    ∃ s ps, Shape.ofBody? (zeros n ++ w) = some s ∧ s.whole = List.replicate n .zero ++ ps := by
  have hmark : ∀ t ∈ zeros n, (!t.isMark) = true := forall_map_digit fun _ => rfl
  unfold Shape.ofBody?
  rw [List.takeWhile_append_of_pos hmark, List.dropWhile_append_of_pos hmark]
  cases hdrop : w.dropWhile (!·.isMark) with
  | nil =>
    obtain ⟨t, ht, htrue⟩ := h
    have hfalse := List.dropWhile_eq_nil_iff.1 hdrop t ht
    rw [htrue] at hfalse
    cases hfalse
  | cons t rest =>
    have ht := List.head?_dropWhile_not (!·.isMark) w
    rw [hdrop] at ht
    cases t with
    | exponent upper signed =>
      refine ⟨_, places (beforePoint (w.takeWhile (!·.isMark))), rfl, ?_⟩
      simp only [beforePoint_zeros_append, places_append, places_zeros]
    | _ => cases ht

namespace Fraction

variable {s : Shape}

/-- The places in front of the numerator are the whole part, unless they belong to it. -/
theorem exists_ofBody?_zeros (n : Nat) (h : .slash ∈ w) :
    ∃ s, Shape.ofBody? (zeros n ++ w) = some s ∧
      (s.whole = [] ∨ ∃ ps, s.whole = List.replicate n .zero ++ ps ∧ ps.length + 1 < w.length) := by
  have hnot := forall_zeros_ne (t := .slash) (by decide) n
  have hplaces : ∀ t ∈ (zeros n).reverse, t.isPlace = true := by
    simp [zeros, isPlace, place?]
  have hlength := congrArg List.length
    (List.takeWhile_append_dropWhile (p := (· ≠ .slash)) (l := w))
  rw [List.length_append] at hlength
  unfold Shape.ofBody?
  simp only [List.takeWhile_append_of_pos hnot, List.dropWhile_append_of_pos hnot,
    List.reverse_append]
  cases hafter : w.dropWhile (· ≠ .slash) with
  | nil => exact absurd rfl (of_decide_eq_true (List.dropWhile_eq_nil_iff.1 hafter _ h))
  | cons t after =>
    rw [hafter, List.length_cons] at hlength
    refine ⟨_, rfl, ?_⟩
    obtain ⟨before, hbefore⟩ : ∃ before, (w.takeWhile (· ≠ .slash)).reverse = before := ⟨_, rfl⟩
    have hcount : before.length = (w.takeWhile (· ≠ .slash)).length := by
      rw [← hbefore, List.length_reverse]
    simp only [hbefore, List.dropWhile_append]
    cases hhead : before.dropWhile isPlace with
    | nil =>
      left
      have hnone : (zeros n).reverse.dropWhile isPlace = [] :=
        List.dropWhile_eq_nil_iff.2 hplaces
      rw [hnone]
      rfl
    | cons t head =>
      right
      -- The token in front of the numerator is no place.
      have ht : t.isPlace = false := by
        have hfirst := List.head?_dropWhile_not isPlace before
        rw [hhead] at hfirst
        simpa using hfirst
      have hnone : places [t] = [] := by
        rw [places, List.filterMap_cons]
        cases t with
        | digit p => cases ht
        | _ => rfl
      have hhead' := (List.dropWhile_sublist (l := before) isPlace).length_le
      rw [hhead, List.length_cons] at hhead'
      refine ⟨places head.reverse, ?_, ?_⟩
      · simp only [List.isEmpty_cons, Bool.false_eq_true, if_false]
        rw [List.reverse_append, List.reverse_reverse, places_append, places_zeros,
          List.reverse_cons, places_append, hnone, List.append_nil]
      · have hle := List.length_filterMap_le place? head.reverse
        rw [List.length_reverse] at hle
        unfold places
        omega

theorem digits_of_ok {ds : List Char} (h : digits k = .ok ds) : ds = ofNat k := by
  unfold digits at h
  split at h
  · cases h
  · exact (Except.ok.inj h).symm

/-- A numerator may have blanks in front of it, but no zeros. -/
theorem alignNumerator_ofNat (s : Shape) (k : Nat) (x y : List Char) :
    s.alignNumerator (ofNat k) ++ '/' :: x ≠ '0' :: '0' :: y := by
  have hself : ofNat k ++ '/' :: x ≠ '0' :: '0' :: y := by
    rcases Nat.eq_zero_or_pos k with rfl | hk
    · intro h
      exact absurd (List.cons.inj (List.cons.inj h).2).1 (by decide)
    · obtain ⟨d, ds, hd, hten, heq⟩ := head_ofNat hk
      rw [heq]
      exact fun h => char_ne_zero d hten hd (List.cons.inj h).1
  unfold Shape.alignNumerator
  split
  · rcases s.numerator.length - (ofNat k).length with _ | i
    · exact hself
    · exact fun h => absurd (List.cons.inj h).1 (by decide)
  · exact hself

/-- A fraction without a whole part does not start with two zeros. -/
theorem text_of_whole_eq_nil (hwhole : s.whole = []) (h : Fraction.text c m s = .ok number)
    (x y : List Char) : number ++ x ≠ '0' :: '0' :: y := by
  obtain ⟨r, -, hlayout⟩ := bind_eq_ok_iff.1 h
  unfold layout at hlayout
  simp only [hwhole, List.isEmpty_nil, Bool.not_true, Bool.false_and, Bool.false_eq_true, if_false,
    Bool.true_or, if_true] at hlayout
  obtain ⟨ds, hds, hlayout⟩ := bind_eq_ok_iff.1 hlayout
  obtain ⟨es, -, hlayout⟩ := bind_eq_ok_iff.1 hlayout
  obtain ⟨ws, -, hlayout⟩ := bind_eq_ok_iff.1 hlayout
  obtain rfl := Except.ok.inj hlayout
  rw [digits_of_ok hds, List.append_assoc]
  exact alignNumerator_ofNat s _ _ y

/-- The whole part stands in the first places, and what is shown without a fraction is the whole
    part alone. -/
theorem exists_text_zeros (hn : 0 < n) (hwhole : s.whole = List.replicate n .zero ++ ps)
    (h : Fraction.text c m s = .ok number) :
    ∃ k rest, number = padded n (k / 10 ^ ps.length) ++ rest ∧
      (k = ⌊m.magnitude⌋₊ ∨ number = fillWhole (ofNat k) s.whole) := by
  have hne : s.whole.isEmpty = false := by
    obtain ⟨i, rfl⟩ : ∃ i, n = i + 1 := ⟨n - 1, by omega⟩
    rw [hwhole]
    rfl
  have hfloor : s.wholePart m = ⌊m.magnitude⌋₊ := by
    rw [Shape.wholePart, hne, if_neg Bool.false_ne_true, Decimal.wholePart_eq_floor]
  obtain ⟨r, -, hlayout⟩ := bind_eq_ok_iff.1 h
  unfold layout at hlayout
  simp only [hne, hfloor, Bool.not_false, Bool.true_and] at hlayout
  obtain ⟨k, hk⟩ : ∃ k, (if decide (r.numerator = r.denominator) = true then ⌊m.magnitude⌋₊ + 1
    else ⌊m.magnitude⌋₊) = k := ⟨_, rfl⟩
  obtain ⟨rest, hrest⟩ := exists_fillWhole_zeros hn k ps
  have hfill := fillWhole_zeros_ne hn k ps
  rw [hk, hwhole] at hlayout
  split at hlayout
  · obtain ⟨ds, hds, hlayout⟩ := bind_eq_ok_iff.1 hlayout
    obtain rfl := digits_of_ok hds
    obtain rfl := Except.ok.inj hlayout
    rw [orZero_eq_self hfill]
    exact ⟨k, rest, hrest, .inr (by rw [hwhole])⟩
  · rename_i hshown
    have hcarried : ¬decide (r.numerator = r.denominator) = true :=
      fun hc => hshown (Bool.or_eq_true_iff.2 (.inl hc))
    rw [if_neg hcarried] at hk
    obtain ⟨ds, -, hlayout⟩ := bind_eq_ok_iff.1 hlayout
    obtain ⟨es, -, hlayout⟩ := bind_eq_ok_iff.1 hlayout
    obtain ⟨ws, hws, hlayout⟩ := bind_eq_ok_iff.1 hlayout
    obtain rfl := digits_of_ok hws
    rw [if_neg (by simpa using hfill)] at hlayout
    obtain rfl := Except.ok.inj hlayout
    rw [hrest, List.append_assoc, List.append_assoc]
    exact ⟨k, _, rfl, .inl hk.symm⟩

end Fraction

end Worksheet.Format
