-- SUMMARY: Texts that are accepted for integers, and the bare integers in them.
import Worksheet.Text.Blank
import Worksheet.Text.Digits

/-!
# Loose Integer Texts

An untyped field that wants an integer also takes a text. Spaces may stand
around it, a sign in front, and a fraction of zeros behind. Leading zeros may
have any underscores among them, and the minus sign may come after them. The
digits may have single underscores between them. What is left without all this
is a bare integer: digits with at most a minus sign.
-/

namespace Worksheet.LooseInteger

/-- Drop zeros and underscores in front of a digit or a minus sign. In front of a
    point, or at the end, the last of them stays; here it is the first argument. -/
def afterZeros? : Char → List Char → Option (List Char)
  | last, [] => some [last]
  | last, c :: rest =>
    if c = '0' ∨ c = '_' then afterZeros? c rest
    else if c.isDigit ∨ c = '-' then some (c :: rest)
    else if c = '.' then some (last :: c :: rest)
    else none

/-- Drop leading zeros; the text must start with a digit. -/
def withoutZeros? : List Char → Option (List Char)
  | [] => none
  | c :: rest =>
    if c = '0' then afterZeros? c rest else if c.isDigit then some (c :: rest) else none

/-- Drop a point with zeros behind it. -/
def withoutFraction (s : List Char) : List Char :=
  match s.dropWhile (· ≠ '.') with
  | [] => s
  | _ :: zeros => if zeros ≠ [] ∧ zeros.all (· = '0') then s.takeWhile (· ≠ '.') else s

/-- Whether every underscore stands alone and between two other characters; the
    flag says that the next character may be one. -/
def hasLoneUnderscores : Bool → List Char → Bool
  | mayFollow, [] => mayFollow
  | mayFollow, c :: rest => if c = '_' then mayFollow && hasLoneUnderscores false rest
    else hasLoneUnderscores true rest

/-- Drop underscores that stand alone; if one does not, all stay. -/
def withoutUnderscores (s : List Char) : List Char :=
  if hasLoneUnderscores false s then s.filter (· ≠ '_') else s

/-- The bare integer in a text that follows the sign. -/
def unsigned? (s : List Char) : Option (List Char) :=
  (withoutZeros? s).map (fun t => withoutUnderscores (withoutFraction t))

/-- The bare integer in a text, if it can be told apart from what is around it. -/
def bare? (s : List Char) : Option (List Char) :=
  match Text.trimSpaces s with
  | '-' :: rest => (unsigned? rest).map ('-' :: ·)
  | '+' :: rest => unsigned? rest
  | rest => unsigned? rest

/-- Whether a bare integer is too long to be turned into a number. -/
def isOversized : List Char → Bool
  | '-' :: ds => Digits.limit ≤ (ds.takeWhile Char.isDigit).length
  | ds => Digits.limit < (ds.takeWhile Char.isDigit).length

/-- The number that digits denote; zero is the only one that starts with a zero. -/
def natural? (ds : List Char) : Option Nat :=
  if ds ≠ [] ∧ ds.all Char.isDigit ∧ (ds.head? = some '0' → ds.length = 1)
  then some (Digits.value ds) else none

/-- The integer that a bare integer denotes. -/
def value? : List Char → Option Int
  | '-' :: ds => (natural? ds).map (fun n => -(n : Int))
  | ds => (natural? ds).map (fun n => (n : Int))

end Worksheet.LooseInteger
