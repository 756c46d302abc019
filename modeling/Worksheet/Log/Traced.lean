-- SUMMARY: Computations that may fail and that leave log entries behind.
import Worksheet.Fault
import Worksheet.Log.Scope

/-!
# Traced Computations

A traced computation gives a result or a fault, and in either case the entries
that it has logged on the way. It runs in a scope, which it may narrow for a
part of its work.
-/

namespace Worksheet

namespace Log

inductive Level where
  | debug
  | info
deriving DecidableEq, Repr

def Level.name : Level → String
  | .debug => "DEBUG"
  | .info => "INFO"

structure Entry where
  level : Level
  message : String
deriving DecidableEq, Repr

/-- The scope at hand and all entries so far. -/
structure Trace where
  scope : Scope
  entries : List Entry

/-- The trace before anything is logged. -/
def Trace.start : Trace := ⟨Scope.empty, []⟩

end Log

/-- A computation that may fail and that leaves log entries behind. -/
abbrev Traced (α : Type) := ExceptT Fault (StateM Log.Trace) α

namespace Traced

variable {α : Type}

/-- A result that is there already. -/
def ofResult (r : Except Fault α) : Traced α := fun t => (r, t)

/-- Log a message as it is. -/
def note (level : Log.Level) (message : String) : Traced Unit := fun t =>
  (.ok (), { t with entries := t.entries ++ [⟨level, message⟩] })

/-- Log a message with the scope in front. -/
def log (level : Log.Level) (message : String) : Traced Unit := fun t =>
  (.ok (), { t with entries := t.entries ++ [⟨level, t.scope.decorate message⟩] })

/-- Log a message with the scope in front, if there is one; it may be that what it names cannot
    be written. -/
def logShown (level : Log.Level) (message : Except Fault String) : Traced Unit := do
  log level (← ofResult message)

/-- Work in a scope in which a field has a value. Whether the work succeeds or
    fails, the field gets its old value back. -/
def within (f : Log.Field) (v : Value) (work : Traced α) : Traced α := fun t =>
  let done := work { t with scope := t.scope.set f (some v) }
  (done.1, { done.2 with scope := done.2.scope.set f (t.scope.get f) })

/-- The result of a computation, its entries and the scope that it leaves. -/
def runFrom (work : Traced α) (t : Log.Trace) : Except Fault α × Log.Trace := work t

/-- The result of a computation on its own. -/
def result (work : Traced α) : Except Fault α := (work.runFrom Log.Trace.start).1

/-- The entries that a computation logs on its own. -/
def entries (work : Traced α) : List Log.Entry := (work.runFrom Log.Trace.start).2.entries

end Traced

end Worksheet
