-- SUMMARY: Numbers shown by a section.
import Worksheet.Text.Case
import Worksheet.Text.Search
import Worksheet.Format.Fixed
import Worksheet.Format.Fraction
import Worksheet.Format.General
import Worksheet.Format.Scientific

/-!
# Numbers in a Section

A section that holds the word General shows the number in its place. A section
without places for digits is shown as it is, with the number for each `@`. In
all other sections the tokens from the first to the last place are the body: it
shows the number, as a fraction if it has a slash, in scientific notation if it
has the mark of an exponent, and in fixed-point notation otherwise. What stands
around the body is shown as it is.
-/

namespace Worksheet.Format

/-- The tokens of a section around and in its body. -/
structure Layout where
  lead : List NumberToken
  body : List NumberToken
  tail : List NumberToken
deriving DecidableEq

namespace Layout

/-- Whether a token may belong to a fixed denominator. -/
def isDenominator : NumberToken → Bool
  | .slash => true
  | .literal c => Text.isDigitLike c
  | _ => false

/-- The parts of a section that has places for digits. If its body has a slash in
    it or right behind it, digits that follow belong to the body too. -/
def ofTokens (ts : List NumberToken) : Layout :=
  let lead := ts.takeWhile (!·.isPlace)
  let rest := (ts.dropWhile (!·.isPlace)).reverse
  let body := (rest.dropWhile (!·.isPlace)).reverse
  let tail := (rest.takeWhile (!·.isPlace)).reverse
  if (body ++ tail.take 1).contains .slash then
    ⟨lead, body ++ tail.takeWhile isDenominator, tail.dropWhile isDenominator⟩
  else ⟨lead, body, tail⟩

/-- How many commas stand right behind the body: each divides by a thousand. -/
def commas (l : Layout) : Nat := (l.tail.takeWhile (· = .comma)).length

/-- What is shown after the number. -/
def ending (l : Layout) : List Char := NumberToken.texts (l.tail.dropWhile (· = .comma))

/-- What is shown before the number. -/
def beginning (l : Layout) : List Char := NumberToken.texts l.lead

/-- How many percent signs there are: each multiplies by a hundred. -/
def percents (l : Layout) : Nat := (l.lead ++ l.body ++ l.tail).count .percent

end Layout

namespace Number

/-- The arithmetic for a number: precise enough for all of its digits. -/
def context (d : Decimal) : Decimal.Context := ⟨60 + d.digitCount, .halfEven⟩

/-- The number that a layout shows for a number, without its sign. The powers of ten that
    scale it must be in range themselves. -/
def magnitude (c : Decimal.Context) (d : Decimal) (l : Layout) : Except Decimal.Signal Decimal := do
  let m ← c.abs d
  if Decimal.maxExponent < 2 * l.percents ∨ Decimal.maxExponent < 3 * l.commas then
    .error .overflow
  else
    let m ← c.scale m (2 * l.percents)
    c.scale m (-(3 * l.commas))

/-- A number without sign in the body of a section. -/
def bodyText (c : Decimal.Context) (m : Decimal) (body : List NumberToken) :
    Except Fault (List Char) :=
  match Fraction.Shape.ofBody? body with
  | some s => Fraction.text c m s
  | none =>
    match Scientific.Shape.ofBody? body with
    | some s => Scientific.text c m s
    | none => Fixed.text c m body

/-- A number in a layout. -/
def inLayout (d : Decimal) (l : Layout) : Except Fault (List Char) := do
  let c := context d
  let m ← Decimal.lift (magnitude c d l)
  let number ← bodyText c m l.body
  pure ((if d.isNegative then ['-'] else []) ++ l.beginning ++ number ++ l.ending)

end Number

/-- Something in a cleaned section, by what General shows of it and by what a layout
    makes of it. The place of General is looked for in lower case. -/
def inSection (general : Except Fault (List Char)) (inLayout : Layout → Except Fault (List Char))
    (s : List Char) : Except Fault (List Char) :=
  match Text.find? "general".toList (Text.lowerAll s) with
  | some i => do return s.take i ++ (← general) ++ s.drop (i + 7)
  | none =>
    let ts := NumberToken.ofSection s
    let shown := NumberToken.texts ts
    if ts.any NumberToken.isPlace then inLayout (Layout.ofTokens ts)
    else if shown.contains '@' then do return Text.replaceEach '@' (← general) shown
    else .ok shown

/-- A number in a cleaned section. -/
def Number.text (d : Decimal) (s : List Char) : Except Fault (List Char) :=
  inSection (General.text d) (Number.inLayout d) s

end Worksheet.Format
