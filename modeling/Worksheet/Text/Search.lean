-- SUMMARY: Where a word stands in a text.

/-!
# Searching a Text

The place of a word is the number of characters before its first occurrence.
-/

namespace Worksheet.Text

/-- The place of a word in a text. -/
def find? (word : List Char) : List Char → Option Nat
  | [] => if word.isEmpty then some 0 else none
  | c :: rest =>
    if word.isPrefixOf (c :: rest) then some 0 else (find? word rest).map (· + 1)

/-- Put a text in the place of each occurrence of a character. -/
def replaceEach (c : Char) (new : List Char) (s : List Char) : List Char :=
  s.flatMap (fun x => if x = c then new else [x])

end Worksheet.Text
