-- SUMMARY: Everything that can go wrong, and what is said about it.
import Worksheet.Schema
import Worksheet.Decimal.Context

/-!
# Faults

A fault is a cause with its data. `Fault.message` words the causes that a user
can act on; the limits of the arithmetic itself have no wording. The wording is
found when the fault arises: `Fault.naming` is the fault where that fails.
-/

namespace Worksheet

/-- The sign of a number, which picks the section of its format. -/
inductive Sign where
  | positive
  | negative
  | zero
deriving DecidableEq, Repr

namespace Sign

/-- The position of the section that serves numbers of this sign. -/
def place : Sign → Nat
  | .positive => 0
  | .negative => 1
  | .zero => 2

def name : Sign → String
  | .positive => "positive"
  | .negative => "negative"
  | .zero => "zero"

end Sign

/-- The tables of a workbook that entries are looked up in. -/
inductive Lookup where
  | sharedStrings
  | cellFormats
  | numberFormats
deriving DecidableEq, Repr

def Lookup.name : Lookup → String
  | .sharedStrings => "shared strings"
  | .cellFormats => "cell formats"
  | .numberFormats => "number formats"

inductive Fault where
  /-- Something other than letters and digits was given for a cell. -/
  | addressFormat (given : Value)
  | columnIndex (given : Int)
  | rowIndex (given : Int)
  /-- A range has not exactly two sides. -/
  | rangeFormat (given : String)
  /-- One side of a range is no cell. -/
  | rangeSide (given : String) (cause : Fault)
  | noSection (pattern : String) (sign : Sign)
  | missingEntry (table : Lookup) (key : Value)
  | serialOutOfRange (serial : Binary64)
  | headerMissing (position : Nat)
  | invalid (problems : List Problem)
  | unreadableFlag (name : String) (given : String)
  /-- A session is started with a log level that there is not. -/
  | unknownLevel (given : Value)
  /-- A numeral is too long to be read or written, has digits without a place value, or is none
      at all. -/
  | unreadableNumeral
  /-- Values of these kinds have no order, or cannot be keys. -/
  | unfitKind
  /-- A number is too large for what is computed with it, or infinite. -/
  | tooLarge
  /-- Not-a-number has no digits after the point. -/
  | noDigits
  /-- Decimal arithmetic gave no result. -/
  | arithmetic (signal : Decimal.Signal)

namespace Fault

/-- What is said about a fault, if anything is. -/
def message : Fault → Option String
  | .addressFormat given =>
    some ("Expected reference of form \"A1\", got " ++ String.ofList given.written)
  | .columnIndex n =>
    some ("Column index should be greater than zero, got " ++ String.ofList (Digits.ofInt n))
  | .rowIndex n =>
    some ("Row index should be greater than zero, got " ++ String.ofList (Digits.ofInt n))
  | .rangeFormat given => some ("Expected reference of form \"A1:B2\", got " ++ Text.quoted given)
  | .rangeSide given cause =>
    some ("Expected reference of form \"A1:B2\", got " ++ Text.quoted given ++ ": "
      ++ cause.message.getD "")
  | .noSection pattern sign =>
    some ("Number format " ++ Text.quoted pattern ++ " has no section "
      ++ String.ofList (Digits.ofNat sign.place) ++ " (" ++ sign.name ++ " values)")
  | .missingEntry table key =>
    some ("No entry for " ++ String.ofList key.written ++ " in " ++ table.name)
  | .serialOutOfRange serial =>
    some ("Serial date " ++ String.ofList serial.text ++ " is out of range")
  | .headerMissing position =>
    some ("Header name at position " ++ String.ofList (Digits.ofNat position) ++ " is missing")
  | .invalid problems => some (Problem.summary problems)
  | .unreadableFlag name given =>
    some (name ++ " must be true or false, got " ++ Text.quoted given)
  | .unknownLevel _ => none
  | .unreadableNumeral => none
  | .unfitKind => none
  | .tooLarge => none
  | .noDigits => none
  | .arithmetic _ => none

/-- The fault with a message that names a value. If the value cannot be written out, there is
    no such message, and that is the fault. -/
def naming (v : Value) (fault : Fault) : Fault :=
  if v.isWritable then fault else .unreadableNumeral

@[simp] theorem naming_null (fault : Fault) : naming .null fault = fault := rfl

@[simp] theorem naming_text (s : String) (fault : Fault) : naming (.text s) fault = fault := rfl

end Fault

/-- A value as messages show it; it must be one that can be written out. -/
def Value.shown (v : Value) : Except Fault String :=
  if v.isWritable then .ok (String.ofList v.written) else .error .unreadableNumeral

@[simp] theorem Value.shown_text (s : String) : shown (.text s) = pure (Text.quoted s) := rfl

/-- The result of a decimal operation. -/
def Decimal.lift {α : Type} (r : Except Decimal.Signal α) : Except Fault α :=
  r.mapError Fault.arithmetic

end Worksheet
