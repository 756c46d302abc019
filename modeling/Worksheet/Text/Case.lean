-- SUMMARY: Case mappings, as far as words of ASCII letters can tell.

/-!
# Letter Case

Texts are compared with ASCII words without regard to case. For such a
comparison only the characters matter whose mapped form holds an ASCII letter
or has another length; all other characters stand for themselves.
-/

namespace Worksheet.Text

/-- The lower case of a character. The Kelvin sign gives `k`; the dotted capital
    I gives two characters. -/
def lower (c : Char) : List Char :=
  if c = '\u0130' then ['i', '\u0307']
  else if c = '\u212A' then ['k']
  else [c.toLower]

/-- The upper case of a character. The dotless i gives `I`, the long s gives
    `S`, and the sharp s and the Latin ligatures give two or three letters. -/
def upper (c : Char) : List Char :=
  if c = '\u0131' then ['I']
  else if c = '\u017F' then ['S']
  else if c = '\u00DF' then ['S', 'S']
  else if c = '\uFB00' then ['F', 'F']
  else if c = '\uFB01' then ['F', 'I']
  else if c = '\uFB02' then ['F', 'L']
  else if c = '\uFB03' then ['F', 'F', 'I']
  else if c = '\uFB04' then ['F', 'F', 'L']
  else if c = '\uFB05' ∨ c = '\uFB06' then ['S', 'T']
  else [c.toUpper]

/-- Lower case of a text. -/
def lowerAll (s : List Char) : List Char := s.flatMap lower

/-- Upper case of a text. -/
def upperAll (s : List Char) : List Char := s.flatMap upper

@[simp] theorem lowerAll_nil : lowerAll [] = [] := rfl

@[simp] theorem lowerAll_cons (c : Char) (s : List Char) :
    lowerAll (c :: s) = lower c ++ lowerAll s := by
  simp [lowerAll]

end Worksheet.Text
