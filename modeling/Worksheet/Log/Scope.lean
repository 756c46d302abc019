-- SUMMARY: What is being worked on, as log messages show it.
import Worksheet.Mapping
import Worksheet.Value

/-!
# Log Scopes

A scope names the workbook, the sheet, the table and the operation that a log
message is about. Names arrive untyped. Scopes are nested: entering sets one
field, and leaving gives it back the value that it had. A field whose value does
not count as true, such as an empty name, is not shown.
-/

namespace Worksheet.Log

inductive Field where
  | workbook
  | sheet
  | table
  | operation
deriving DecidableEq, Repr

namespace Field

/-- The fields in the order in which they are shown. -/
def all : List Field := [.workbook, .sheet, .table, .operation]

def name : Field → String
  | .workbook => "workbook"
  | .sheet => "sheet"
  | .table => "table"
  | .operation => "op"

end Field

structure Scope where
  workbook : Option Value
  sheet : Option Value
  table : Option Value
  operation : Option Value

namespace Scope

/-- The scope in which nothing is named. -/
def empty : Scope := ⟨none, none, none, none⟩

def get (s : Scope) : Field → Option Value
  | .workbook => s.workbook
  | .sheet => s.sheet
  | .table => s.table
  | .operation => s.operation

def set (s : Scope) (f : Field) (v : Option Value) : Scope :=
  match f with
  | .workbook => { s with workbook := v }
  | .sheet => { s with sheet := v }
  | .table => { s with table := v }
  | .operation => { s with operation := v }

@[simp] theorem get_set_self (s : Scope) (f : Field) (v : Option Value) :
    (s.set f v).get f = v := by
  cases f <;> rfl

@[simp] theorem get_set_of_ne {f g : Field} (h : g ≠ f) (s : Scope) (v : Option Value) :
    (s.set g v).get f = s.get f := by
  cases f <;> cases g <;> first | rfl | exact absurd rfl h

@[simp] theorem set_get_self (s : Scope) (f : Field) : s.set f (s.get f) = s := by
  cases f <;> rfl

@[simp] theorem set_set (s : Scope) (f : Field) (v w : Option Value) :
    (s.set f v).set f w = s.set f w := by
  cases f <;> rfl

/-- The value of a field, if it is shown. -/
def shownValue? (s : Scope) (f : Field) : Option Value := (s.get f).filter Value.isTrue

/-- The fields that are shown, with their values. -/
def shown (s : Scope) : List (Field × Value) :=
  Field.all.filterMap (fun f => (s.shownValue? f).map (fun v => (f, v)))

/-- The names and values of the shown fields. -/
def labels (s : Scope) : List String := s.shown.map (fun p => p.1.name ++ "=" ++ p.2.plain)

/-- A message with the shown fields in front. -/
def decorate (s : Scope) (message : String) : String :=
  if s.shown.isEmpty then message else "[" ++ ", ".intercalate s.labels ++ "] " ++ message

/-- Given details of a message, overridden by the shown fields. -/
def details (s : Scope) (given : Mapping String Value) : Mapping String Value :=
  s.shown.foldl (fun m p => m.insert p.1.name p.2) given

end Scope

/-- A scope and what leaving brings back, innermost first. -/
structure Nesting where
  scope : Scope
  saved : List (Field × Option Value)

namespace Nesting

/-- The outermost scope. -/
def start : Nesting := ⟨Scope.empty, []⟩

/-- Enter a scope in which a field has a value. -/
def enter (n : Nesting) (f : Field) (v : Value) : Nesting :=
  ⟨n.scope.set f (some v), (f, n.scope.get f) :: n.saved⟩

/-- Leave the scope that was entered last, if there is one. -/
def leave (n : Nesting) : Nesting :=
  match n.saved with
  | [] => n
  | (f, v) :: rest => ⟨n.scope.set f v, rest⟩

@[simp] theorem leave_enter (n : Nesting) (f : Field) (v : Value) : (n.enter f v).leave = n := by
  simp [enter, leave]

end Nesting

end Worksheet.Log
