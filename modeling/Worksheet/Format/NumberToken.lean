-- SUMMARY: The tokens of a section that shows numbers.

/-!
# Tokens of a Number Section

A section is read character by character. Codes in square brackets are dropped,
a backslash makes the next character literal, and `E+`, `E-`, `e+` and `e-` are
one token each.
-/

namespace Worksheet.Format

/-- A place for a digit. They differ in what they show where the number has no
    digit: a zero, nothing or a blank. -/
inductive Placeholder where
  | zero
  | hash
  | question
deriving DecidableEq, Repr

namespace Placeholder

def char : Placeholder → Char
  | .zero => '0'
  | .hash => '#'
  | .question => '?'

/-- What stands in a place without a digit. -/
def padding : Placeholder → List Char
  | .zero => ['0']
  | .hash => []
  | .question => [' ']

end Placeholder

inductive NumberToken where
  | digit (place : Placeholder)
  | point
  | comma
  | slash
  | percent
  /-- The mark of an exponent: its letter's case, and whether a positive exponent
      has a sign too. -/
  | exponent (upper signed : Bool)
  | literal (c : Char)
deriving DecidableEq, Repr

namespace NumberToken

/-- The token of a single character. -/
def ofChar (c : Char) : NumberToken :=
  if c = '0' then .digit .zero
  else if c = '#' then .digit .hash
  else if c = '?' then .digit .question
  else if c = '.' then .point
  else if c = ',' then .comma
  else if c = '/' then .slash
  else if c = '%' then .percent
  else .literal c

/-- The token of two characters, if they are the mark of an exponent. -/
def mark? (c d : Char) : Option NumberToken :=
  if (c = 'e' ∨ c = 'E') ∧ (d = '+' ∨ d = '-') then some (.exponent (c = 'E') (d = '+'))
  else none

/-- The tokens of a section; the flag says that the text starts within brackets. -/
def scan : Bool → List Char → List NumberToken
  | _, [] => []
  | true, c :: rest => scan (c ≠ ']') rest
  | false, [c] => if c = '[' then [] else [ofChar c]
  | false, c :: d :: rest =>
    if c = '[' then scan true (d :: rest)
    else if c = '\\' then .literal d :: scan false rest
    else match mark? c d with
      | some t => t :: scan false rest
      | none => ofChar c :: scan false (d :: rest)

/-- The tokens of a section. -/
def ofSection (s : List Char) : List NumberToken := scan false s

/-- The text of a token, as it stands in the section but for brackets and
    backslashes. -/
def text : NumberToken → List Char
  | .digit p => [p.char]
  | .point => ['.']
  | .comma => [',']
  | .slash => ['/']
  | .percent => ['%']
  | .exponent upper signed => [if upper then 'E' else 'e', if signed then '+' else '-']
  | .literal c => [c]

/-- The texts of tokens, one after another. -/
def texts (ts : List NumberToken) : List Char := ts.flatMap text

/-- The place that a token holds for a digit. -/
def place? : NumberToken → Option Placeholder
  | .digit p => some p
  | _ => none

def isPlace (t : NumberToken) : Bool := t.place?.isSome

/-- Whether a token is the mark of an exponent. -/
def isMark : NumberToken → Bool
  | .exponent _ _ => true
  | _ => false

/-- The places for digits among tokens. -/
def places (ts : List NumberToken) : List Placeholder := ts.filterMap place?

/-- The literal character that a token stands for. -/
def literal? : NumberToken → Option Char
  | .literal c => some c
  | _ => none

/-- The literal characters among tokens. -/
def literals (ts : List NumberToken) : List Char := ts.filterMap literal?

/-- The tokens before the first point. -/
def beforePoint (ts : List NumberToken) : List NumberToken := ts.takeWhile (· ≠ .point)

/-- The tokens after the first point, if there is one. -/
def afterPoint? (ts : List NumberToken) : Option (List NumberToken) :=
  match ts.dropWhile (· ≠ .point) with
  | [] => none
  | _ :: rest => some rest

end NumberToken

end Worksheet.Format
