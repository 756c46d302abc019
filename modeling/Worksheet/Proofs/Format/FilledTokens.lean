-- SUMMARY: Places among other tokens show what places side by side show, and literals stay where they are.
import Worksheet.Proofs.Format.Filling

/-!
# Places among Other Tokens

The digits of a whole part are put into its places one by one, last digit first, and the leftmost
place takes all that are left. For places side by side the padding is counted instead and put in
front of the digits. Apart from literals and separators both show the same:
`fillTokens_agrees_fillWhole`.
-/

namespace Worksheet.Format

open Digits NumberToken

variable {ds : List Char} {ts : List NumberToken} {keep : Char → Bool}

/-! ## Pieces of two kinds -/

namespace Piece

/-- The character of a piece that is literal. -/
def literal? : Piece → Option Char
  | .filled _ => none
  | .literal c => some c

/-- The literal pieces are the literals of the tokens. -/
theorem filterMap_literal_ofReversed (ts : List NumberToken) (ds : List Char) :
    (ofReversed ts ds).filterMap literal? = literals ts := by
  induction ts generalizing ds with
  | nil => rfl
  | cons t ts ih =>
    cases t with
    | digit p =>
      have hfilled (s : List Char) : (s.map filled).filterMap literal? = [] := by
        simp [List.filterMap_eq_nil_iff, literal?]
      rw [ofReversed, List.filterMap_append, hfilled]
      exact ih _
    | literal c => exact congrArg (List.cons c) (ih ds)
    | point => exact ih ds
    | comma => exact ih ds
    | slash => exact ih ds
    | percent => exact ih ds
    | exponent upper signed => exact ih ds

/-- Characters that tell the kind of their pieces select the pieces of that kind. -/
theorem filter_map_char {pieces : List Piece} {kind : Piece → Option Char}
    (h : ∀ x ∈ pieces, kind x = if keep x.char then some x.char else none) :
    (pieces.map char).filter keep = pieces.filterMap kind := by
  induction pieces with
  | nil => rfl
  | cons x pieces ih =>
    have hx := h x List.mem_cons_self
    have hrest := ih fun y hy => h y (List.mem_cons_of_mem x hy)
    rw [List.map_cons, List.filter_cons, List.filterMap_cons, hx, hrest]
    cases keep x.char <;> rfl

end Piece

/-! ## What is left without separators -/

/-- The pieces that digits in the places of a whole part make, last one first. -/
def wholePieces (ds : List Char) (ts : List NumberToken) : List Piece :=
  Piece.ofReversed ts.reverse (shownDigits ds).reverse

theorem reverse_filterMap_literal (ds : List Char) (ts : List NumberToken) :
    ((wholePieces ds ts).filterMap Piece.literal?).reverse = literals ts := by
  rw [wholePieces, Piece.filterMap_literal_ofReversed, literals, List.filterMap_reverse,
    List.reverse_reverse]
  rfl

theorem mem_literals_of_mem {c : Char} (hc : .literal c ∈ wholePieces ds ts) : c ∈ literals ts := by
  rw [← reverse_filterMap_literal ds, List.mem_reverse]
  exact List.mem_filterMap.2 ⟨_, hc, rfl⟩

theorem isDigit_or_of_mem (h : AreDigits ds) (hplaces : places ts ≠ []) {c : Char}
    (hc : .filled c ∈ wholePieces ds ts) : c.isDigit = true ∨ c = ' ' := by
  have hmem : c ∈ fillWhole ds (places ts) := by
    rw [← reverse_filterMap_filled hplaces, List.mem_reverse]
    exact List.mem_filterMap.2 ⟨_, hc, rfl⟩
  exact mem_fillWhole h hmem

/-- Without separators the characters of one kind are the pieces of that kind. -/
theorem filter_fillTokens_eq {kind : Piece → Option Char} (hcomma : keep ',' = false)
    (h : ∀ x ∈ wholePieces ds ts, kind x = if keep x.char then some x.char else none)
    (thousands : Bool) :
    (fillTokens ds ts thousands).filter keep =
      ((wholePieces ds ts).filterMap kind).reverse := by
  have hungrouped : (fillTokens ds ts false).filter keep =
      ((wholePieces ds ts).filterMap kind).reverse := by
    rw [← Piece.filter_map_char h, ← List.filter_reverse]
    rfl
  cases thousands with
  | false => exact hungrouped
  | true =>
    have hkeep (s : List Char) : (s.filter (· ≠ ',')).filter keep = s.filter keep := by
      rw [List.filter_filter]
      refine List.filter_congr fun c _ => ?_
      by_cases hc : c = ','
      · simp [hc, hcomma]
      · simp [hc]
    rw [← hkeep, filter_fillTokens_true, hkeep, hungrouped]

/-! ## Digits and padding -/

/-- The digits that places side by side show: the zeros of the places that get no digit, and the
    digits that are put in. -/
theorem filter_isDigit_fillWhole (h : AreDigits ds) (ps : List Placeholder) :
    (fillWhole ds ps).filter Char.isDigit =
      List.replicate ((ps.take (ps.length - (shownDigits ds).length)).count .zero) '0' ++
        shownDigits ds := by
  have hdigits : (shownDigits ds).filter Char.isDigit = shownDigits ds := by
    rw [List.filter_eq_self, ← List.all_eq_true]
    exact areDigits_iff.1 (areDigits_shownDigits h)
  have hpadding (ps : List Placeholder) : (ps.flatMap Placeholder.padding).filter Char.isDigit =
      List.replicate (ps.count .zero) '0' := by
    rw [← filter_padding]
    refine List.filter_congr fun c hc => ?_
    obtain ⟨p, -, hp⟩ := List.mem_flatMap.1 hc
    rcases mem_padding hp with rfl | rfl <;> rfl
  rw [fillWhole, List.filter_append, hpadding, hdigits]

/-- In places among other tokens digits are shown as in places side by side, if literals and
    separators are left out. The literals are shown in their order, and so are all digits, behind
    a zero for each zero place that gets none of them. A zero alone is no such digit. -/
theorem fillTokens_agrees_fillWhole (hds : AreDigits ds) (hplaces : places ts ≠ [])
    (hliterals : ∀ c ∈ literals ts, c.isDigit = false ∧ c ≠ ' ' ∧ c ≠ ',') (thousands : Bool) :
    (fillTokens ds ts thousands).filter (fun c => c ∉ literals ts ∧ c ≠ ',') =
      fillWhole ds (places ts) ∧
    (fillTokens ds ts thousands).filter (· ∈ literals ts) = literals ts ∧
    (fillTokens ds ts thousands).filter Char.isDigit =
      List.replicate
        (((places ts).take ((places ts).length - (shownDigits ds).length)).count .zero) '0' ++
          shownDigits ds := by
  have hnot {c : Char} (hc : .filled c ∈ wholePieces ds ts) : c ∉ literals ts ∧ c ≠ ',' := by
    rcases isDigit_or_of_mem hds hplaces hc with hdigit | rfl
    · refine ⟨fun hmem => ?_, ?_⟩
      · rw [(hliterals c hmem).1] at hdigit
        cases hdigit
      · rintro rfl
        cases hdigit
    · exact ⟨fun hmem => (hliterals _ hmem).2.1 rfl, by decide⟩
  have hfilled : (fillTokens ds ts thousands).filter (fun c => c ∉ literals ts ∧ c ≠ ',') =
      fillWhole ds (places ts) := by
    rw [← reverse_filterMap_filled hplaces]
    refine filter_fillTokens_eq (by simp) (fun x hx => ?_) thousands
    cases x with
    | filled c => exact (if_pos (decide_eq_true (hnot hx))).symm
    | literal c => simp [Piece.filled?, Piece.char, mem_literals_of_mem hx]
  have hliteral : (fillTokens ds ts thousands).filter (· ∈ literals ts) =
      ((wholePieces ds ts).filterMap Piece.literal?).reverse := by
    have hcomma : ',' ∉ literals ts := fun hmem => (hliterals _ hmem).2.2 rfl
    refine filter_fillTokens_eq (decide_eq_false hcomma) (fun x hx => ?_) thousands
    cases x with
    | filled c => simp [Piece.literal?, Piece.char, (hnot hx).1]
    | literal c => simp [Piece.literal?, Piece.char, mem_literals_of_mem hx]
  refine ⟨hfilled, hliteral.trans (reverse_filterMap_literal ds ts), ?_⟩
  rw [← filter_isDigit_fillWhole hds, ← hfilled, List.filter_filter]
  -- A digit is neither a literal nor a separator.
  refine List.filter_congr fun c _ => ?_
  by_cases hc : c.isDigit = true
  · have hmem : c ∉ literals ts := fun hmem => by
      rw [(hliterals c hmem).1] at hc
      cases hc
    have hcomma : c ≠ ',' := by
      rintro rfl
      cases hc
    simp [hc, hmem, hcomma]
  · simp [hc]

/-- The tokens of `#(0%)0?`. -/
def telephone : List NumberToken :=
  [.digit .hash, .literal '(', .digit .zero, .percent, .literal ')', .digit .zero, .digit .question]

/-- The leftmost place takes two digits, and a separator stands behind them. -/
theorem fillTokens_agrees_fillWhole_telephone :
    AreDigits "12345".toList ∧ places telephone ≠ [] ∧
      ('(' ∈ literals telephone ∧ '('.isDigit = false ∧ '(' ≠ ' ' ∧ '(' ≠ ',') ∧
      fillTokens "12345".toList telephone true = "12,(3)45".toList ∧
      fillWhole "12345".toList (places telephone) = "12345".toList := by
  have hds : AreDigits "12345".toList := areDigits_iff.2 rfl
  have hplaces : places telephone ≠ [] := by decide
  have hliterals : ∀ c ∈ literals telephone, c.isDigit = false ∧ c ≠ ' ' ∧ c ≠ ',' := by
    have hchars : literals telephone = ['(', ')'] := rfl
    rw [hchars, List.forall_mem_cons, List.forall_mem_singleton]
    decide
  have htext : fillTokens "12345".toList telephone true = "12,(3)45".toList := by rfl
  obtain ⟨hfilled, -, -⟩ := fillTokens_agrees_fillWhole hds hplaces hliterals true
  refine ⟨hds, hplaces, ⟨by decide, hliterals '(' (by decide)⟩, htext, ?_⟩
  rw [← hfilled, htext]
  rfl

end Worksheet.Format
