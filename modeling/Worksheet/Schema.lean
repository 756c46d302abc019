-- SUMMARY: Checking untyped fields, with every problem reported at its place.
import Worksheet.Value
import Worksheet.Text.LooseInteger

/-!
# Schemas

A record is built from untyped fields. A check gives the typed value or all
problems, each with the path of fields and positions that leads to it. Strict
checks take a value of the right type only; loose checks also take a value that
denotes one.
-/

namespace Worksheet

/-- What is wrong with a value. -/
inductive Reason where
  | required
  | notText
  | notInteger
  | unreadableInteger
  | oversizedInteger
  | fractionalInteger
  | notFinite
  | notBoolean
  | unreadableBoolean
  | notList
  | notDictionary
  | notTuple
  | notPath
  | tooShort
  | tooSmall (least : Int)
  | notCellKind
  | rule (text : String)
deriving DecidableEq

def Reason.message : Reason → String
  | .required => "Field required"
  | .notText => "Input should be a valid string"
  | .notInteger => "Input should be a valid integer"
  | .unreadableInteger => "Input should be a valid integer, unable to parse string as an integer"
  | .oversizedInteger => "Unable to parse input string as an integer, exceeded maximum size"
  | .fractionalInteger => "Input should be a valid integer, got a number with a fractional part"
  | .notFinite => "Input should be a finite number"
  | .notBoolean => "Input should be a valid boolean"
  | .unreadableBoolean => "Input should be a valid boolean, unable to interpret input"
  | .notList => "Input should be a valid list"
  | .notDictionary => "Input should be a valid dictionary"
  | .notTuple => "Input should be a valid tuple"
  | .notPath => "Input is not a valid path for <class 'pathlib.Path'>"
  | .tooShort => "String should have at least 1 character"
  | .tooSmall n =>
    "Input should be greater than or equal to " ++ String.ofList (Digits.ofInt n)
  | .notCellKind => "Input should be 'text', 'shared_string_ref', 'styled' or 'plain'"
  | .rule text => "Value error, " ++ text

/-- A reason and the path to the value that it is about. -/
structure Problem where
  path : List String
  reason : Reason
deriving DecidableEq

namespace Problem

def message (p : Problem) : String :=
  ".".intercalate p.path ++ ": " ++ p.reason.message

/-- The problem seen from one step further out. -/
def within (step : String) (p : Problem) : Problem := { p with path := step :: p.path }

/-- All problems in one line. -/
def summary (ps : List Problem) : String := "; ".intercalate (ps.map message)

end Problem

/-- A checked value, or its problems. -/
abbrev Checked (α : Type) := Except (List Problem) α

/-- Named values, each name once. -/
abbrev Fields := List (String × Value)

namespace Checked

variable {α β : Type}

def fail (r : Reason) : Checked α := .error [⟨[], r⟩]

/-- Report the problems of a part under its name or position. -/
def within (step : String) (c : Checked α) : Checked α :=
  c.mapError (List.map (Problem.within step))

/-- Both values, or the problems of both. -/
def both : Checked α → Checked β → Checked (α × β)
  | .ok a, .ok b => .ok (a, b)
  | .ok _, .error q => .error q
  | .error p, .ok _ => .error p
  | .error p, .error q => .error (p ++ q)

/-- All values, or the problems of all. -/
def all : List (Checked α) → Checked (List α)
  | [] => .ok []
  | c :: rest => (both c (all rest)).map (fun p => p.1 :: p.2)

/-- Check the items of a list, each under its position. -/
def items (check : Value → Checked α) (vs : List Value) : Checked (List α) :=
  all (vs.zipIdx.map (fun p => within (String.ofList (Digits.ofNat p.2)) (check p.1)))

end Checked

namespace Schema

variable {α : Type}

/-- A field that must be there. -/
def required (fields : Fields) (name : String) (check : Value → Checked α) : Checked α :=
  Checked.within name
    (match fields.lookup name with
    | some v => check v
    | none => Checked.fail .required)

/-- A field with a default. -/
def optional (fields : Fields) (name : String) (default : α) (check : Value → Checked α) :
    Checked α :=
  match fields.lookup name with
  | some v => Checked.within name (check v)
  | none => .ok default

def text : Value → Checked String
  | .text s => .ok s
  | _ => Checked.fail .notText

/-- A text with at least one character. -/
def nonemptyText (v : Value) : Checked String :=
  match text v with
  | .ok s => if s.isEmpty then Checked.fail .tooShort else .ok s
  | .error p => .error p

def strictInteger : Value → Checked Int
  | .integer n => .ok n
  | _ => Checked.fail .notInteger

/-- The integer that a text denotes. -/
def integerText (s : List Char) : Checked Int :=
  match LooseInteger.bare? s with
  | none => Checked.fail .unreadableInteger
  | some t =>
    if LooseInteger.isOversized t then Checked.fail .oversizedInteger
    else
      match LooseInteger.value? t with
      | some n => .ok n
      | none => Checked.fail .unreadableInteger

/-- The magnitudes below this one fit into a word of 64 binary digits with a sign. -/
def wordLimit : Int := 9223372036854775808

/-- The integer that a binary64 value is, if it fits into a word. -/
def integralReal : Binary64 → Checked Int
  | .finite q =>
    if q.den ≠ 1 then Checked.fail .fractionalInteger
    else if -wordLimit < q.num ∧ q.num < wordLimit then .ok q.num
    else Checked.fail .oversizedInteger
  | _ => Checked.fail .notFinite

/-- An integer, or a value that denotes one. -/
def looseInteger : Value → Checked Int
  | .text s => integerText s.toList
  | .real x => integralReal x
  | .negativeZero => .ok 0
  | v =>
    match v.whole? with
    | some n => .ok n
    | none => Checked.fail .notInteger

/-- An integer of at least `least`, or a value that denotes one. -/
def looseIntegerFrom (least : Int) (v : Value) : Checked Int :=
  match looseInteger v with
  | .ok n => if n < least then Checked.fail (.tooSmall least) else .ok n
  | .error p => .error p

def list (check : Value → Checked α) : Value → Checked (List α)
  | .list vs => Checked.items check vs
  | _ => Checked.fail .notList

def tuple (check : Value → Checked α) : Value → Checked (List α)
  | .list vs => Checked.items check vs
  | _ => Checked.fail .notTuple

/-- A mapping from names, each value checked under its name. -/
def dictionary (check : Value → Checked α) : Value → Checked (List (String × α))
  | .record fields =>
    Checked.all (fields.map (fun f => (Checked.within f.1 (check f.2)).map (fun a => (f.1, a))))
  | _ => Checked.fail .notDictionary

end Schema

end Worksheet
