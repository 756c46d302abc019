-- SUMMARY: The order of addresses: by row, and within a row by column.
import Worksheet.Address

/-!
# The Order of Addresses

Addresses are ordered as a sheet is read: row by row, and each row from left to
right. Every address comes after no address at all.
-/

namespace Worksheet.Address

/-- Compare by row, then by column. -/
def order (a b : Address) : Ordering :=
  if a.row < b.row then .lt
  else if b.row < a.row then .gt
  else if a.column < b.column then .lt
  else if b.column < a.column then .gt
  else .eq

/-- What an address may be compared with. -/
inductive Comparand where
  | address (a : Address)
  | nothing
  | other

/-- Compare with anything; what is neither an address nor nothing has no order. -/
def compareWith (a : Address) : Comparand → Except Fault Ordering
  | .address b => .ok (a.order b)
  | .nothing => .ok .gt
  | .other => .error .unfitKind

/-- Whether the outcome of a comparison passes a test. -/
def passes (test : Ordering → Bool) (a : Address) (c : Comparand) : Except Fault Bool :=
  (a.compareWith c).map test

def isBelow : Address → Comparand → Except Fault Bool := passes Ordering.isLT

def isAtMost : Address → Comparand → Except Fault Bool := passes Ordering.isLE

def isAbove : Address → Comparand → Except Fault Bool := passes Ordering.isGT

def isAtLeast : Address → Comparand → Except Fault Bool := passes Ordering.isGE

/-- Whether an address equals what it is compared with. -/
def equals (a : Address) : Comparand → Bool
  | .address b => a = b
  | .nothing => false
  | .other => false

/-! ## Lists of addresses -/

/-- From first to last; equal addresses keep their places. -/
def sorted (as : List Address) : List Address := as.mergeSort (fun a b => (a.order b).isLE)

/-- From last to first; equal addresses keep their places. -/
def sortedDown (as : List Address) : List Address := as.mergeSort (fun a b => (a.order b).isGE)

/-- The first address in order. -/
def least? : List Address → Option Address
  | [] => none
  | a :: rest => some (rest.foldl (fun m b => if (b.order m).isLT then b else m) a)

/-- The last address in order. -/
def greatest? : List Address → Option Address
  | [] => none
  | a :: rest => some (rest.foldl (fun m b => if (b.order m).isGT then b else m) a)

/-- How many different addresses there are. -/
def distinctCount (as : List Address) : Nat := as.eraseDups.length

theorem order_eq_iff (a b : Address) : a.order b = .eq ↔ a = b := by
  cases a; cases b
  simp only [order, Address.mk.injEq]
  grind

end Worksheet.Address
