-- SUMMARY: A section without slash and mark shows one cell for each of its tokens.
import Worksheet.Proofs.Format.Filling
import Worksheet.Proofs.Format.Rounded

/-!
# Cells

A fixed-point section is laid out by three loops: one copies what stands around the body, one
puts digits into the places of the whole part from the right, and one puts digits into the places
behind the point from the left. Here each token has what it shows as a cell of its own, and the
text of a number is the sign and the cells side by side: `text_eq_cells`.
-/

namespace Worksheet.Format.Fixed

open NumberToken Reading

variable {ts : List NumberToken} {v : Decimal} {s : List Char}

/-! ## The whole part -/

/-- What the tokens of a whole part show, last token first, if so many digits are shown behind
    them. The digits come last one first. A comma is shown with the digit on its left. -/
def reversedCells (thousands : Bool) : List NumberToken → List Char → Nat → List (List Char)
  | [], _, _ => []
  | .literal c :: ts, ds, n => [c] :: reversedCells thousands ts ds n
  | .digit p :: ts, ds, n =>
    let taken := if ts.any isPlace then ds.take 1 else ds
    let shown := if taken.isEmpty then p.padding else taken
    let cell := if thousands then Piece.grouped n (shown.map .filled) else shown
    cell.reverse :: reversedCells thousands ts (ds.drop taken.length) (n + digitCount shown)
  | _ :: ts, ds, n => [] :: reversedCells thousands ts ds n

theorem length_reversedCells (thousands : Bool) (ts : List NumberToken) (ds : List Char) (n : Nat) :
    (reversedCells thousands ts ds n).length = ts.length := by
  induction ts generalizing ds n with
  | nil => rfl
  | cons t ts ih => cases t <;> exact congrArg (· + 1) (ih _ _)

/-- The cells are the pieces of the whole part. -/
theorem flatMap_reversedCells (thousands : Bool) (ts : List NumberToken) (ds : List Char)
    (n : Nat) :
    (reversedCells thousands ts ds n).flatMap List.reverse =
      if thousands then Piece.grouped n (Piece.ofReversed ts ds)
      else (Piece.ofReversed ts ds).map Piece.char := by
  induction ts generalizing ds n with
  | nil => cases thousands <;> rfl
  | cons t ts ih =>
    cases t with
    | digit p =>
      rw [reversedCells, Piece.ofReversed, List.flatMap_cons, List.reverse_reverse, ih]
      cases thousands with
      | true => exact (Piece.grouped_append _ n _).symm
      | false =>
        simp only [Bool.false_eq_true, if_false, List.map_append, Piece.map_char_map_filled]
    | literal c =>
      rw [reversedCells, List.flatMap_cons, ih]
      cases thousands <;> rfl
    | point => exact ih ds n
    | comma => exact ih ds n
    | slash => exact ih ds n
    | percent => exact ih ds n
    | exponent upper signed => exact ih ds n

/-- What the tokens of a whole part show. -/
def wholeCells (thousands : Bool) (ts : List NumberToken) (ds : List Char) : List (List Char) :=
  (reversedCells thousands ts.reverse (shownDigits ds).reverse 0).reverse

theorem length_wholeCells (thousands : Bool) (ts : List NumberToken) (ds : List Char) :
    (wholeCells thousands ts ds).length = ts.length := by
  rw [wholeCells, List.length_reverse, length_reversedCells, List.length_reverse]

theorem flatten_wholeCells (thousands : Bool) (ts : List NumberToken) (ds : List Char) :
    (wholeCells thousands ts ds).flatten = fillTokens ds ts thousands := by
  have hpieces := flatMap_reversedCells thousands ts.reverse (shownDigits ds).reverse 0
  have hreverse := congrArg List.reverse hpieces
  rw [List.reverse_flatMap] at hreverse
  have hid : List.reverse ∘ List.reverse = (id : List Char → List Char) :=
    funext List.reverse_reverse
  rw [hid, List.flatMap_id] at hreverse
  exact hreverse

/-! ## The places behind the point -/

/-- What the tokens behind the point show, if their places show these cells. -/
def placedCells : List NumberToken → List (List Char) → List (List Char)
  | .digit _ :: ts, cell :: cells => cell :: placedCells ts cells
  | .literal c :: ts, cells => [c] :: placedCells ts cells
  | _ :: ts, cells => [] :: placedCells ts cells
  | [], _ => []

theorem length_placedCells (ts : List NumberToken) (cells : List (List Char)) :
    (placedCells ts cells).length = ts.length := by
  fun_induction placedCells ts cells with
  | case1 p ts cell cells ih => exact congrArg (· + 1) ih
  | case2 c ts cells ih => exact congrArg (· + 1) ih
  | case3 t ts cells _ _ ih => exact congrArg (· + 1) ih
  | case4 => rfl

theorem flatten_placedCells (ts : List NumberToken) (cells : List (List Char)) :
    (placedCells ts cells).flatten = layCells ts cells := by
  fun_induction placedCells ts cells with
  | case1 p ts cell cells ih => exact congrArg (cell ++ ·) ih
  | case2 c ts cells ih => exact congrArg (c :: ·) ih
  | case3 t ts cells hdigit hliteral ih =>
    rw [layCells]
    · exact ih
    · exact hliteral
    · exact hdigit
  | case4 => rfl

/-! ## The section -/

/-- What the tokens of a body show of a rounded number. -/
def bodyCells (r : Decimal) (body : List NumberToken) : List (List Char) :=
  let whole := beforePoint body
  wholeCells (whole.contains .comma) whole r.integerDigits ++
    match afterPoint? body with
    | none => []
    | some fraction =>
      ['.'] :: placedCells fraction (fractionCells (r.fractionDigits.zip (places fraction)))

theorem length_bodyCells (r : Decimal) (body : List NumberToken) :
    (bodyCells r body).length = body.length := by
  unfold bodyCells
  obtain ⟨-, hbefore, hafter⟩ | ⟨whole, fraction, rfl, -, hbefore, hafter⟩ := point_cases body
  · rw [hbefore, hafter, List.append_nil, length_wholeCells]
  · rw [hbefore, hafter, List.length_append, List.length_append, length_wholeCells,
      List.length_cons, List.length_cons, length_placedCells]

theorem flatten_bodyCells (r : Decimal) (body : List NumberToken) :
    (bodyCells r body).flatten = layout r body := by
  unfold bodyCells layout
  simp only [List.flatten_append, flatten_wholeCells]
  cases afterPoint? body with
  | none => exact List.append_nil _
  | some fraction =>
    simp only [List.flatten_cons, flatten_placedCells]
    rfl

/-- What the tokens of a layout show of a rounded number: the commas right behind the body
    nothing, and all other tokens around it themselves. -/
def cells (r : Decimal) (l : Layout) : List (List Char) :=
  l.lead.map NumberToken.text ++ (bodyCells r l.body ++
    (List.replicate l.commas [] ++ (l.tail.dropWhile (· = .comma)).map NumberToken.text))

theorem length_cells (r : Decimal) (l : Layout) :
    (cells r l).length = (l.lead ++ (l.body ++ l.tail)).length := by
  have htail := congrArg List.length
    (List.takeWhile_append_dropWhile (p := (· = NumberToken.comma)) (l := l.tail))
  rw [List.length_append] at htail
  simp only [cells, Layout.commas, List.length_append, List.length_map, List.length_replicate,
    length_bodyCells, htail]

theorem flatten_cells (r : Decimal) (l : Layout) :
    (cells r l).flatten = l.beginning ++ layout r l.body ++ l.ending := by
  simp only [cells, List.flatten_append, flatten_bodyCells, List.flatten_replicate_nil,
    List.nil_append, ← List.flatMap_def]
  rw [← List.append_assoc]
  rfl

/-- What each token shows of a number. -/
def tokenCells (v : Decimal) (ts : List NumberToken) : List (List Char) :=
  cells (rounded v (Layout.ofTokens ts)) (Layout.ofTokens ts)

theorem length_tokenCells (v : Decimal) (ts : List NumberToken) :
    (tokenCells v ts).length = ts.length := by
  rw [tokenCells, length_cells, Layout.append_eq]

/-- In front of the first place a token shows itself. -/
theorem exists_tokenCells_append (h : ∀ t ∈ ts, t.isPlace = false) (us : List NumberToken)
    (v : Decimal) : ∃ rest, tokenCells v (ts ++ us) = ts.map NumberToken.text ++ rest := by
  have hlead : (Layout.ofTokens (ts ++ us)).lead = ts ++ us.takeWhile (!·.isPlace) := by
    have hall : ∀ t ∈ ts, (!t.isPlace) = true := by simpa using h
    rw [Layout.lead_ofTokens, List.takeWhile_append_of_pos hall]
  unfold tokenCells cells
  rw [hlead, List.map_append, List.append_assoc]
  exact ⟨_, rfl⟩

/-- A section that shows no number in place of General, no fraction and no exponent. -/
structure IsFixedPoint (s : List Char) : Prop where
  general : Text.find? "general".toList (Text.lowerAll s) = none
  slash : .slash ∉ ofSection s
  mark : ∀ t ∈ ofSection s, t.isMark = false

/-- The text of a number is its sign and what each token shows. -/
theorem text_eq_cells (h : IsFixedPoint s) (hplace : (ofSection s).any isPlace = true)
    (hdigits : v.digitCount < 100000) (hadjusted : v.adjusted.natAbs < 100000)
    (hlength : (ofSection s).length ≤ 100000) :
    Number.text v s = .ok (signText v.value ++ (tokenCells v (ofSection s)).flatten) := by
  have hbody := Layout.body_sublist (ofSection s)
  have hslash : .slash ∉ (Layout.ofTokens (ofSection s)).body :=
    fun hmem => h.slash (hbody.subset hmem)
  have hmark : ∀ t ∈ (Layout.ofTokens (ofSection s)).body, t.isMark = false :=
    fun t ht => h.mark t (hbody.subset ht)
  rw [text_of_any_isPlace h.general hplace, inLayout_eq_layout hdigits hadjusted
    ((Layout.percents_le _).trans hlength) ((Layout.commas_le _).trans hlength)
    (hbody.length_le.trans hlength) hslash hmark, tokenCells, flatten_cells]
  simp only [List.append_assoc]

end Worksheet.Format.Fixed
