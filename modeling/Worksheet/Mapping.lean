-- SUMMARY: Mappings that remember the order in which their keys arrived.

/-!
# Mappings

A mapping is a list of pairs with distinct keys. A new key goes to the end, and
writing to a key that is present keeps its place.
-/

namespace Worksheet

abbrev Mapping (κ α : Type) := List (κ × α)

namespace Mapping

variable {κ α : Type} [DecidableEq κ]

/-- The value at a key. -/
def get? (k : κ) : Mapping κ α → Option α
  | [] => none
  | (k', v) :: rest => if k' = k then some v else get? k rest

/-- Write a value at a key. -/
def insert (k : κ) (v : α) : Mapping κ α → Mapping κ α
  | [] => [(k, v)]
  | (k', v') :: rest => if k' = k then (k', v) :: rest else (k', v') :: insert k v rest

/-- The mapping that a sequence of writes leaves behind. -/
def ofList (pairs : List (κ × α)) : Mapping κ α :=
  pairs.foldl (fun m p => m.insert p.1 p.2) []

theorem get?_insert_self (k : κ) (v : α) (m : Mapping κ α) : (m.insert k v).get? k = some v := by
  induction m with
  | nil => simp [insert, get?]
  | cons p rest ih =>
    simp only [insert]
    split
    · rename_i h; simp [get?, h]
    · rename_i h; simp only [get?, h, if_false]; exact ih

theorem get?_insert_of_ne {k k' : κ} (h : k' ≠ k) (v : α) (m : Mapping κ α) :
    (m.insert k' v).get? k = m.get? k := by
  induction m with
  | nil => simp [insert, get?, h]
  | cons p rest ih =>
    simp only [insert]
    split
    · rename_i hp; simp [get?, hp, h]
    · simp only [get?, ih]

end Mapping

end Worksheet
