-- SUMMARY: Untyped values, as callers hand them over, and how messages show them.
import Worksheet.Text.Quoted
import Worksheet.Binary64.Shortest

/-!
# Untyped Values

Fields, header cells, keys and references arrive untyped. A message that
complains about a value shows it written out.
-/

namespace Worksheet

inductive Value where
  | null
  | bool (b : Bool)
  | integer (n : Int)
  | real (x : Binary64)
  /-- The real zero with a minus sign. It counts as zero, but shows its sign. -/
  | negativeZero
  | text (s : String)
  | list (items : List Value)
  | record (fields : List (String × Value))
deriving Inhabited

namespace Value

mutual

/-- A value written out. -/
def written : Value → List Char
  | .null => "None".toList
  | .bool true => "True".toList
  | .bool false => "False".toList
  | .integer n => Digits.ofInt n
  | .real x => x.text
  | .negativeZero => "-0.0".toList
  | .text s => Text.Quoted.quote s.toList
  | .list items => '[' :: writtenItems items ++ [']']
  | .record fields => '\x7b' :: writtenFields fields ++ ['\x7d']

/-- Values separated by commas. -/
def writtenItems : List Value → List Char
  | [] => []
  | [v] => v.written
  | v :: rest => v.written ++ ',' :: ' ' :: writtenItems rest

/-- Names and values separated by commas. -/
def writtenFields : List (String × Value) → List Char
  | [] => []
  | [f] => writtenField f
  | f :: rest => writtenField f ++ ',' :: ' ' :: writtenFields rest

/-- A name and its value. -/
def writtenField : String × Value → List Char
  | (name, v) => Text.Quoted.quote name.toList ++ ':' :: ' ' :: v.written

end

mutual

/-- Whether a value can be written out: no integer in it is too long. -/
def isWritable : Value → Bool
  | .integer n => !Digits.exceedsLimit n.natAbs
  | .list items => itemsAreWritable items
  | .record fields => fieldsAreWritable fields
  | _ => true

/-- Whether all of the values can be written out. -/
def itemsAreWritable : List Value → Bool
  | [] => true
  | v :: rest => v.isWritable && itemsAreWritable rest

/-- Whether the values of all fields can be written out. -/
def fieldsAreWritable : List (String × Value) → Bool
  | [] => true
  | f :: rest => fieldIsWritable f && fieldsAreWritable rest

/-- Whether the value of a field can be written out. -/
def fieldIsWritable : String × Value → Bool
  | (_, v) => v.isWritable

end

@[simp] theorem isWritable_null : isWritable .null = true := rfl

@[simp] theorem isWritable_text (s : String) : isWritable (.text s) = true := rfl

@[simp] theorem isWritable_integer (n : Int) :
    isWritable (.integer n) = !Digits.exceedsLimit n.natAbs := rfl

/-- The text of a text value. -/
def text? : Value → Option String
  | .text s => some s
  | _ => none

/-- The value as it stands in the middle of a text: texts without quotes. -/
def plain : Value → String
  | .text s => s
  | v => String.ofList v.written

/-- The whole number that a value is; truth values are one and zero. -/
def whole? : Value → Option Int
  | .integer n => some n
  | .bool b => some (if b then 1 else 0)
  | _ => none

/-- The number that a value counts as when it is compared. -/
def number? : Value → Option Binary64
  | .real x => some x
  | .negativeZero => some (.finite 0)
  | v => v.whole?.map (fun n => .finite n)

/-- Whether a value counts as true where only its truth matters. Nothing, zero
    and whatever is empty do not. -/
def isTrue : Value → Bool
  | .null => false
  | .text s => !s.isEmpty
  | .list items => !items.isEmpty
  | .record fields => !fields.isEmpty
  | v => v.number? ≠ some (.finite 0)

end Value

end Worksheet
