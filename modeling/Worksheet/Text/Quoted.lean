-- SUMMARY: Text in quotes, with escapes for what is not printable.
import Worksheet.Text.Printable

/-!
# Quoted Text

A message shows a text that it complains about in quotes. Single quotes are
used unless the text holds a single quote and no double quote. Inside, the
quote and the backslash are escaped, line feed, carriage return and tab have
their letters, and other unprintable characters are written by code point.
-/

namespace Worksheet.Text.Quoted

def hexDigit (n : Nat) : Char :=
  if n < 10 then Char.ofNat (48 + n) else Char.ofNat (87 + n)

/-- The last `width` hexadecimal digits of a number. -/
def hex : Nat → Nat → List Char
  | 0, _ => []
  | width + 1, n => hex width (n / 16) ++ [hexDigit (n % 16)]

/-- The quote that a text is put in. -/
def delimiter (s : List Char) : Char :=
  if s.contains '\'' && !s.contains '"' then '"' else '\''

/-- A code point written out, in the shortest of the three forms that holds it. -/
def codePoint (n : Nat) : List Char :=
  if n < 0x100 then '\\' :: 'x' :: hex 2 n
  else if n < 0x10000 then '\\' :: 'u' :: hex 4 n
  else '\\' :: 'U' :: hex 8 n

/-- One character between the quotes `q`. -/
def escape (q c : Char) : List Char :=
  if c = q ∨ c = '\\' then ['\\', c]
  else if c = '\n' then ['\\', 'n']
  else if c = '\r' then ['\\', 'r']
  else if c = '\t' then ['\\', 't']
  else if isPrintable c then [c]
  else codePoint c.toNat

/-- A text in quotes. -/
def quote (s : List Char) : List Char :=
  let q := delimiter s
  q :: s.flatMap (escape q) ++ [q]

end Worksheet.Text.Quoted

namespace Worksheet.Text

/-- A string in quotes. -/
def quoted (s : String) : String := String.ofList (Quoted.quote s.toList)

end Worksheet.Text
