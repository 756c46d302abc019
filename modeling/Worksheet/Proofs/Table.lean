-- SUMMARY: When a table can be made from headers and rows of values, and which one it is.
import Mathlib.Data.List.Forall2
import Worksheet.Proofs.Mapping
import Worksheet.Proofs.Traced
import Worksheet.Table

/-!
# Assembled Tables

A check gives a value only if all of its parts do. So a table is made only from texts,
and `Table.assemble_eq_ok_iff` says which rows it has: each one is what is left after
the values are written to the headers one after another.
-/

namespace Worksheet

namespace Checked

variable {α β : Type}

theorem both_eq_ok_iff {a : Checked α} {b : Checked β} {p : α × β} :
    both a b = .ok p ↔ a = .ok p.1 ∧ b = .ok p.2 := by
  cases a <;> cases b <;> simp [both, Prod.ext_iff]

theorem within_eq_ok_iff {step : String} {c : Checked α} {a : α} :
    within step c = .ok a ↔ c = .ok a := by
  exact mapError_eq_ok_iff

theorem all_cons_eq_ok_iff {c : Checked α} {cs : List (Checked α)} {as : List α} :
    all (c :: cs) = .ok as ↔ ∃ a rest, c = .ok a ∧ all cs = .ok rest ∧ as = a :: rest := by
  simp only [all]
  cases c with
  | error p => cases all cs <;> simp [both, Except.map]
  | ok a => cases all cs <;> simp [both, Except.map, eq_comm]

/-- The steps under which problems would be reported do not matter for a value. -/
theorem all_zipIdx_eq_ok_iff (check : α → Checked β) (name : Nat → String) (k : Nat)
    (vs : List α) (as : List β) :
    all ((vs.zipIdx k).map (fun p => within (name p.2) (check p.1))) = .ok as ↔
      List.Forall₂ (fun v a => check v = .ok a) vs as := by
  induction vs generalizing k as with
  | nil => simp [all, eq_comm]
  | cons v vs ih =>
    rw [List.zipIdx_cons, List.map_cons, all_cons_eq_ok_iff, List.forall₂_cons_left_iff]
    simp only [within_eq_ok_iff, ih]

end Checked

@[simp] theorem Schema.text_eq_ok_iff {v : Value} {s : String} :
    Schema.text v = .ok s ↔ v = .text s := by
  cases v <;> simp [Schema.text, Checked.fail]

/-- A list of texts, each of which is checked to be one. -/
theorem forall₂_text_iff {vs : List Value} {ss : List String} :
    List.Forall₂ (fun v s => Schema.text v = .ok s) vs ss ↔ vs = ss.map .text := by
  induction vs generalizing ss with
  | nil => simp [eq_comm]
  | cons v vs ih =>
    cases ss with
    | nil => simp
    | cons s ss =>
      rw [List.forall₂_cons, ih, Schema.text_eq_ok_iff, List.map_cons, List.cons.injEq]

namespace Table

/-- The values of a row before they are checked to be texts. -/
def untyped (row : Mapping String String) : Mapping String Value := row.mapValues .text

theorem check_textKeyed_eq_ok_iff {m : Mapping String Value} {row : Mapping String String} :
    Dictionary.check Schema.text Schema.text (m.map Dictionary.textKeyed) = .ok row ↔
      m = untyped row := by
  induction m generalizing row with
  | nil =>
    cases row with
    | nil => exact iff_of_true rfl rfl
    | cons q rest => exact iff_of_false (fun h => nomatch h) (fun h => nomatch h)
  | cons p m ih =>
    simp only [Dictionary.check, List.map_cons, Checked.all_cons_eq_ok_iff] at ih ⊢
    simp only [Dictionary.checkEntry, Checked.within_eq_ok_iff, Checked.both_eq_ok_iff,
      Dictionary.textKeyed, Schema.text_eq_ok_iff, Value.text.injEq, ih]
    constructor
    · rintro ⟨⟨k, s⟩, rest, ⟨hk, hs⟩, rfl, rfl⟩
      obtain ⟨k', v⟩ := p
      simp only at hk hs
      subst hk hs
      rfl
    · intro h
      cases row with
      | nil => cases h
      | cons q rest =>
        obtain ⟨rfl, rfl⟩ := List.cons.inj h
        exact ⟨q, rest, ⟨rfl, rfl⟩, rfl, rfl⟩

/-- A row is made from the values that are left when all of them have been written. -/
theorem checkRow_eq_ok_iff {headers : List String} {values : List Value}
    {row : Mapping String String} :
    checkRow (headers.map .text) values = .ok row ↔
      Mapping.ofList (headers.zip values) = untyped row := by
  have hz :
      (headers.map Value.text).zip values = (headers.zip values).map Dictionary.textKeyed := by
    rw [List.zip_map_left]
    rfl
  rw [checkRow, hz, Dictionary.ofPairs_text, check_textKeyed_eq_ok_iff]

theorem assemble_eq_ok_iff {name : Value} {headers : List String} {rows : List (List Value)}
    {table : Table} :
    assemble name (headers.map .text) rows = .ok table ↔
      name = .text table.name ∧ table.columns = headers ∧
        List.Forall₂ (fun values row => Mapping.ofList (headers.zip values) = untyped row)
          rows table.rows := by
  have hrows := Checked.all_zipIdx_eq_ok_iff (checkRow (headers.map .text))
    (fun i => String.ofList (Digits.ofNat i)) 0 rows table.rows
  have hcolumns := Checked.all_zipIdx_eq_ok_iff Schema.text
    (fun i => String.ofList (Digits.ofNat i)) 0 (headers.map .text) table.columns
  simp only [checkRow_eq_ok_iff] at hrows
  rw [forall₂_text_iff, List.map_inj_right (fun _ _ => Value.text.inj)] at hcolumns
  constructor
  · intro h
    obtain ⟨⟨⟨n, cs⟩, rs⟩, hparts, ht⟩ := bind_eq_ok_iff.1 h
    cases ht
    simp only [Checked.both_eq_ok_iff, Checked.within_eq_ok_iff, Schema.text_eq_ok_iff] at hparts
    obtain ⟨⟨hn, hc⟩, hr⟩ := hparts
    exact ⟨hn, (hcolumns.1 hc).symm, hrows.1 hr⟩
  · rintro ⟨hn, hc, hr⟩
    refine bind_eq_ok_iff.2 ⟨((table.name, table.columns), table.rows), ?_, rfl⟩
    simp only [Checked.both_eq_ok_iff, Checked.within_eq_ok_iff, Schema.text_eq_ok_iff]
    exact ⟨⟨hn, hcolumns.2 hc.symm⟩, hrows.2 hr⟩

/-- Rows of texts always make a table. -/
theorem exists_assemble_text (name : String) (headers : List String) (rows : List (List String)) :
    ∃ table, assemble (.text name) (headers.map .text) (rows.map (List.map .text)) = .ok table := by
  refine ⟨⟨name, headers, rows.map fun row => Mapping.ofList (headers.zip row)⟩, ?_⟩
  rw [assemble_eq_ok_iff]
  refine ⟨rfl, rfl, ?_⟩
  rw [List.forall₂_map_left_iff, List.forall₂_map_right_iff, List.forall₂_same]
  intro row _
  rw [List.zip_map_right, untyped, ← Mapping.ofList_mapValues]
  rfl

end Table

end Worksheet
