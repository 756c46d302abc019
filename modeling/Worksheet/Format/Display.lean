-- SUMMARY: Raw text shown by a number format.
import Worksheet.Decimal.Numeral
import Worksheet.Format.Builtin
import Worksheet.Format.DateText
import Worksheet.Format.Number
import Worksheet.Format.Section

/-!
# Displaying Raw Text

Raw text that is no number is shown as it is. A number is shown by the section
of its sign, as a date if the format is a date format.
-/

namespace Worksheet.Format.Display

/-- A number in the section chosen for it. -/
def inChoice (d : Decimal) (id : Int) (c : Choice) : Except Fault (List Char) := do
  let shown ← if c.absolute then Decimal.lift (Decimal.Context.standard.abs d) else pure d
  if isDate id then DateText.text shown.toBinary64 (clean c.text)
  else Number.text shown (clean c.text)

/-- Raw text in a format. -/
def text (strict : Bool) (raw : String) (id : Int) (pattern : String) : Except Fault String :=
  match Decimal.parse? raw.toList with
  | none => .ok raw
  | some d => do
    let choice ← choose strict pattern d.sign
    return String.ofList (← inChoice d id choice)

/-- The remark that a section is missing and the first one takes its place. -/
def remark? (strict : Bool) (raw : String) (pattern : String) : Option String :=
  match Decimal.parse? raw.toList with
  | none => none
  | some d =>
    match choose strict pattern d.sign with
    | .ok ⟨_, _, true⟩ =>
      some ("No section " ++ String.ofList (Digits.ofNat d.sign.place) ++ " in "
        ++ Text.quoted pattern ++ "; using the first section")
    | _ => none

end Worksheet.Format.Display
