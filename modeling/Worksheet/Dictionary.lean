-- SUMMARY: Dictionaries with untyped keys, and the check of their entries.
import Worksheet.Mapping
import Worksheet.Schema

/-!
# Dictionaries

A dictionary is built from pairs of untyped values. Keys that are equal as
numbers are the same key, so one, one point zero and true are. A key that
occurs again keeps its place and its first spelling, and gets the later value.
`Dictionary.ofPairs_text` says that a dictionary with text keys is the mapping
of its pairs.
-/

namespace Worksheet.Dictionary

variable {α κ : Type}

/-- Whether a value can be a key; what has parts cannot. -/
def isKey : Value → Bool
  | .list _ => false
  | .record _ => false
  | _ => true

/-- Whether two values are the same key. Not-a-number is not even the same key as
    itself. -/
def sameKey : Value → Value → Bool
  | .null, .null => true
  | .text s, .text t => s = t
  | v, w =>
    match v.number?, w.number? with
    | some x, some y => x = y && x ≠ .nan
    | _, _ => false

/-- Write a value at a key. -/
def insert (k : Value) (v : α) : List (Value × α) → List (Value × α)
  | [] => [(k, v)]
  | (k', v') :: rest => if sameKey k' k then (k', v) :: rest else (k', v') :: insert k v rest

/-- The dictionary that a sequence of writes leaves behind. -/
def ofPairs (pairs : List (Value × α)) : List (Value × α) :=
  pairs.foldl (fun m p => insert p.1 p.2 m) []

/-- How a path names a key. -/
def keyName : Value → String
  | .bool b => if b then "1" else "0"
  | v => v.plain

/-- Check an entry: its key, and its value under the key. -/
def checkEntry (key : Value → Checked κ) (value : Value → Checked α) (entry : Value × Value) :
    Checked (κ × α) :=
  Checked.within (keyName entry.1)
    (Checked.both (Checked.within "[key]" (key entry.1)) (value entry.2))

/-- Check all entries in order. -/
def check (key : Value → Checked κ) (value : Value → Checked α) (entries : List (Value × Value)) :
    Checked (List (κ × α)) :=
  Checked.all (entries.map (checkEntry key value))

/-- A pair with a text for its key. -/
def textKeyed (p : String × α) : Value × α := (.text p.1, p.2)

theorem insert_text (k : String) (v : α) (m : Mapping String α) :
    insert (.text k) v (m.map textKeyed) = (m.insert k v).map textKeyed := by
  induction m with
  | nil => rfl
  | cons p rest ih =>
    by_cases h : p.1 = k
    · simp [insert, textKeyed, sameKey, Mapping.insert, h]
    · simp [insert, textKeyed, sameKey, Mapping.insert, h]
      exact ih

theorem ofPairs_text (pairs : List (String × α)) :
    ofPairs (pairs.map textKeyed) = (Mapping.ofList pairs).map textKeyed := by
  have step (m : Mapping String α) :
      (pairs.map textKeyed).foldl (fun m p => insert p.1 p.2 m) (m.map textKeyed)
        = (pairs.foldl (fun m p => m.insert p.1 p.2) m).map textKeyed := by
    induction pairs generalizing m with
    | nil => rfl
    | cons p rest ih =>
      simp only [List.map_cons, List.foldl_cons]
      rw [← ih, ← insert_text]
      rfl
  exact step []

end Worksheet.Dictionary
