-- SUMMARY: Numbers shown as fractions.
import Worksheet.Text.Integer
import Worksheet.Fault
import Worksheet.Ratio
import Worksheet.Format.Filling

/-!
# Fractions

A section such as `# ?/?` shows a whole part and the nearest fraction whose
denominator has at most as many digits as the section has characters after the
slash. If these are digits already, as in `# ?/8`, they are the denominator. If
the section has no places for a whole part, the fraction may exceed one.
-/

namespace Worksheet.Format.Fraction

/-- The parts of a section's body around its first slash. -/
structure Shape where
  /-- Places of the whole part. -/
  whole : List Placeholder
  /-- Literals between the whole part and the fraction. -/
  separator : List Char
  /-- Places of the numerator: those right before the slash. -/
  numerator : List Placeholder
  /-- All that follows the slash. -/
  denominator : List Char

/-- The shape of a body, if it has a slash. -/
def Shape.ofBody? (body : List NumberToken) : Option Shape :=
  let before := body.takeWhile (· ≠ .slash)
  match body.dropWhile (· ≠ .slash) with
  | [] => none
  | _ :: after =>
    let numerator := (before.reverse.takeWhile NumberToken.isPlace).reverse
    let head := (before.reverse.dropWhile NumberToken.isPlace).reverse
    some {
      whole := NumberToken.places head
      separator := NumberToken.literals head
      numerator := NumberToken.places numerator
      denominator := NumberToken.texts after }

/-- Whether the denominator is fixed: digits, and no zero in front. -/
def Shape.isFixed (s : Shape) : Bool :=
  !s.denominator.isEmpty && s.denominator.all Text.isDigitLike && s.denominator.head? ≠ some '0'

/-- The whole part of a number that a shape shows. -/
def Shape.wholePart (s : Shape) (d : Decimal) : Nat :=
  if s.whole.isEmpty then 0 else d.wholePart

/-- The number less its whole part, exactly. -/
def remainder (d : Decimal) (whole : Nat) : Decimal :=
  if whole = 0 then d
  else if 0 ≤ d.exponent then ⟨false, 0, 0⟩
  else { d with coefficient := d.coefficient - whole * Nat.pow 10 (-d.exponent).toNat }

/-- The fraction that stands for a remainder. -/
def ratio (c : Decimal.Context) (s : Shape) (d : Decimal) : Except Fault Ratio :=
  if s.isFixed then
    match Integer.natural? s.denominator with
    | none => .error .unreadableNumeral
    | some k => do
      let n ← Decimal.lift (do c.roundHalfUp (← c.mul d (.ofNat k)) 0)
      pure ⟨n.coefficient, k⟩
  else .ok (Ratio.nearest d.magnitude (Nat.pow 10 (max s.denominator.length 1) - 1))

/-- The digits of a number, if it is not too long to be written. -/
def digits (n : Nat) : Except Fault (List Char) :=
  if Digits.exceedsLimit n then .error .unreadableNumeral else .ok (Digits.ofNat n)

/-- Blanks before a numerator up to the width of its places, if one of them asks
    for blanks. -/
def Shape.alignNumerator (s : Shape) (ds : List Char) : List Char :=
  if s.numerator.contains .question then
    List.replicate (s.numerator.length - ds.length) ' ' ++ ds
  else ds

/-- Blanks after a denominator that is not fixed, if a question mark asks for them. -/
def Shape.alignDenominator (s : Shape) (ds : List Char) : List Char :=
  if !s.isFixed && s.denominator.contains '?' then
    ds ++ List.replicate (s.denominator.length - ds.length) ' '
  else ds

/-- A whole part and a fraction in a shape. A fraction of one counts as a whole,
    and a fraction of zero is not shown beside a whole part. -/
def layout (s : Shape) (whole : Nat) (r : Ratio) : Except Fault (List Char) :=
  let carried := !s.whole.isEmpty && r.numerator = r.denominator
  let whole := if carried then whole + 1 else whole
  if !s.whole.isEmpty && (carried || r.numerator = 0) then do
    return orZero (fillWhole (← digits whole) s.whole)
  else do
    let numerator := s.alignNumerator (← digits r.numerator)
    let denominator := s.alignDenominator (← digits r.denominator)
    let fraction := numerator ++ '/' :: denominator
    let wholeText := fillWhole (← digits whole) s.whole
    if s.whole.isEmpty || wholeText.isEmpty then return fraction
    else return wholeText ++ (if s.separator.isEmpty then [' '] else s.separator) ++ fraction

/-- A number without sign in a shape. -/
def text (c : Decimal.Context) (d : Decimal) (s : Shape) : Except Fault (List Char) := do
  let whole := s.wholePart d
  layout s whole (← ratio c s (remainder d whole))

end Worksheet.Format.Fraction
