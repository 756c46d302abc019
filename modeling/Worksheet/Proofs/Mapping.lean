-- SUMMARY: What a sequence of writes leaves in a mapping: the keys, and the last value of each.
import Mathlib.Data.List.Induction
import Worksheet.Mapping

/-!
# Written Mappings

After a sequence of writes a mapping has the written keys, in the order in which each
of them came first, and each key has the value that was written to it last.
-/

namespace Worksheet.Mapping

variable {κ α β : Type}

/-- The keys of a mapping, in their order. -/
def keys (m : Mapping κ α) : List κ := m.map Prod.fst

/-- The mapping with all values changed. -/
def mapValues (f : α → β) (m : Mapping κ α) : Mapping κ β := m.map (fun p => (p.1, f p.2))

@[simp] theorem keys_nil : keys ([] : Mapping κ α) = [] := rfl

@[simp] theorem keys_cons (p : κ × α) (m : Mapping κ α) : keys (p :: m) = p.1 :: keys m := rfl

@[simp] theorem keys_mapValues (f : α → β) (m : Mapping κ α) : (m.mapValues f).keys = m.keys := by
  simp [keys, mapValues]

variable [DecidableEq κ]

@[simp] theorem get?_mapValues (f : α → β) (k : κ) (m : Mapping κ α) :
    (m.mapValues f).get? k = (m.get? k).map f := by
  induction m with
  | nil => rfl
  | cons p m ih =>
    have hm : mapValues f (p :: m) = (p.1, f p.2) :: mapValues f m := rfl
    simp only [hm, get?]
    split
    · rfl
    · exact ih

theorem keys_insert (k : κ) (v : α) (m : Mapping κ α) :
    (m.insert k v).keys = if k ∈ m.keys then m.keys else m.keys ++ [k] := by
  induction m with
  | nil => simp [insert]
  | cons p m ih =>
    by_cases h : p.1 = k
    · simp [insert, h]
    · have hk : ¬k = p.1 := fun hk => h hk.symm
      simp only [insert, h, if_false, keys_cons, ih, List.mem_cons, hk, false_or]
      split <;> rfl

theorem insert_mapValues (f : α → β) (k : κ) (v : α) (m : Mapping κ α) :
    (m.mapValues f).insert k (f v) = (m.insert k v).mapValues f := by
  induction m with
  | nil => rfl
  | cons p m ih =>
    have hm : mapValues f (p :: m) = (p.1, f p.2) :: mapValues f m := rfl
    rw [hm]
    simp only [insert]
    split
    · rfl
    · rw [ih]
      rfl

/-! ## Sequences of writes -/

theorem ofList_append_singleton (ps : List (κ × α)) (p : κ × α) :
    ofList (ps ++ [p]) = (ofList ps).insert p.1 p.2 := by
  simp [ofList]

theorem ofList_mapValues (f : α → β) (ps : List (κ × α)) :
    ofList (mapValues f ps) = (ofList ps).mapValues f := by
  induction ps using List.reverseRecOn with
  | nil => rfl
  | append_singleton ps p ih =>
    have hps : mapValues f (ps ++ [p]) = mapValues f ps ++ [(p.1, f p.2)] := by simp [mapValues]
    have hwrite := insert_mapValues f p.1 p.2 (ofList ps)
    rw [hps, ofList_append_singleton, ofList_append_singleton, ih]
    exact hwrite

/-- Each key is there once, in the order of the first writes. -/
theorem keys_ofList (ps : List (κ × α)) : (ofList ps).keys = (ps.map Prod.fst).eraseDups := by
  induction ps using List.reverseRecOn with
  | nil => rfl
  | append_singleton ps p ih =>
    rw [ofList_append_singleton, keys_insert, ih, List.map_append, List.eraseDups_append]
    by_cases h : p.1 ∈ ps.map Prod.fst
    · simp [List.mem_eraseDups.2 h, List.removeAll, h]
    · have hd : p.1 ∉ (ps.map Prod.fst).eraseDups := fun hd => h (List.mem_eraseDups.1 hd)
      have hp : [p.1].eraseDups = [p.1] := rfl
      simp [hd, hp, List.removeAll, h]

/-- A key has the value of the last write to it. -/
theorem get?_ofList (k : κ) (ps : List (κ × α)) :
    (ofList ps).get? k = ((ps.filter (fun p => p.1 = k)).getLast?).map Prod.snd := by
  induction ps using List.reverseRecOn with
  | nil => rfl
  | append_singleton ps p ih =>
    rw [ofList_append_singleton, List.filter_append]
    by_cases h : p.1 = k
    · subst h
      simp [get?_insert_self]
    · simp [get?_insert_of_ne h, h, ih]

end Worksheet.Mapping
