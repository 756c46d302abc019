-- SUMMARY: A cell with the position of a shared string displays that string, or its lookup misses.
import Worksheet.Proofs.Digits
import Worksheet.Proofs.Numeral.Integer
import Worksheet.Proofs.Selection

/-!
# Shared Strings

The raw text of a cell may be the position of a shared string. It is a position if it is an integer
numeral, and positions are counted from zero: none of them wraps around at the end of the table.
-/

namespace Worksheet

open Integer (Spelling)

/-- Positions in front of the table and behind it have no entry. -/
theorem Lookups.entryAt?_eq_some_iff {α : Type} {entries : List α} {i : Int} {a : α} :
    entryAt? entries i = some a ↔ ∃ n : Nat, i = n ∧ entries[n]? = some a := by
  unfold entryAt?
  split
  · refine iff_of_false nofun ?_
    rintro ⟨n, rfl, -⟩
    omega
  · constructor
    · intro h
      exact ⟨i.toNat, by omega, h⟩
    · rintro ⟨n, rfl, h⟩
      exact h

theorem Lookups.entryAt?_eq_none_iff {α : Type} {entries : List α} {i : Int} :
    entryAt? entries i = none ↔ i < 0 ∨ (entries.length : Int) ≤ i := by
  unfold entryAt?
  split
  · simp [*]
  · rw [List.getElem?_eq_none_iff]
    omega

namespace Extractor

variable {x : Extractor} {cell : Cell}

theorem display_of_isIn (h : cell.kind = .sharedString) {m : Spelling} (hm : m.IsIn cell.raw) :
    x.display cell = x.lookups.sharedString m.value := by
  unfold display
  simp only [h, Integer.parse?_eq_some_iff.2 ⟨m, hm, rfl⟩]

theorem display_of_not_isIn (h : cell.kind = .sharedString)
    (hnone : ∀ m : Spelling, ¬m.IsIn cell.raw) :
    x.display cell = .error (.missingEntry .sharedStrings (.text cell.raw)) := by
  have hread : Integer.parse? cell.raw.toList = none := by
    apply Option.eq_none_iff_forall_ne_some.2
    intro i hi
    obtain ⟨m, hm, -⟩ := Integer.parse?_eq_some_iff.1 hi
    exact hnone m hm
  unfold display
  simp only [h, hread, Lookups.miss, Fault.naming_text]

/-- An integer that has been read is not too long to be written. -/
theorem miss_value {α : Type} (m : Spelling) : (Lookups.miss .sharedStrings (.integer m.value) :
    Except Fault α) = .error (.missingEntry .sharedStrings (.integer m.value)) := by
  have hcount : Digits.count m.value.natAbs ≤ Digits.limit :=
    (Digits.count_le_iff (by decide)).2 m.natAbs_value_lt
  rw [Lookups.miss, Fault.naming_integer, if_pos hcount]

/-- A cell displays a shared string exactly if its raw text is an integer numeral for a position in
    the table. Otherwise the lookup in the table misses: what is missing is the integer if the raw
    text is a numeral, and else the raw text itself. A text is a numeral for one integer only. -/
theorem display_sharedString (x : Extractor) (cell : Cell) (h : cell.kind = .sharedString) :
    let strings := x.lookups.sharedStrings
    (∀ t, x.display cell = .ok t ↔
      ∃ m : Spelling, m.IsIn cell.raw ∧ ∃ n : Nat, m.value = n ∧ strings[n]? = some t) ∧
    (∀ m : Spelling, m.IsIn cell.raw → m.value < 0 ∨ (strings.length : Int) ≤ m.value →
      x.display cell = .error (.missingEntry .sharedStrings (.integer m.value))) ∧
    ((∀ m : Spelling, ¬m.IsIn cell.raw) →
      x.display cell = .error (.missingEntry .sharedStrings (.text cell.raw))) ∧
    (∀ m m' : Spelling, m.IsIn cell.raw → m'.IsIn cell.raw → m.value = m'.value) := by
  intro strings
  refine ⟨fun t => ?_, fun m hm hrange => ?_, display_of_not_isIn h, fun m m' hm hm' => ?_⟩
  · constructor
    · intro hshown
      by_cases hnone : ∀ m : Spelling, ¬m.IsIn cell.raw
      · rw [display_of_not_isIn h hnone] at hshown
        cases hshown
      · obtain ⟨m, hm⟩ := not_forall_not.1 hnone
        rw [display_of_isIn h hm, Lookups.sharedString] at hshown
        split at hshown
        · rename_i s hentry
          obtain ⟨n, hn, hstring⟩ := Lookups.entryAt?_eq_some_iff.1 hentry
          exact ⟨m, hm, n, hn, Except.ok.inj hshown ▸ hstring⟩
        · rw [miss_value] at hshown
          cases hshown
    · rintro ⟨m, hm, n, hn, hstring⟩
      rw [display_of_isIn h hm, Lookups.sharedString,
        Lookups.entryAt?_eq_some_iff.2 ⟨n, hn, hstring⟩]
  · rw [display_of_isIn h hm, Lookups.sharedString, Lookups.entryAt?_eq_none_iff.2 hrange]
    exact miss_value m
  · have hread := Integer.parse?_eq_some_iff.2 ⟨m, hm, rfl⟩
    rw [Integer.parse?_eq_some_iff.2 ⟨m', hm', rfl⟩] at hread
    exact (Option.some.inj hread).symm

/-- A position in the table, the one in front of it and the one behind it, and a text with two
    underscores in a row. -/
theorem display_sharedString_positions :
    let x : Extractor := ⟨⟨["Widget", "Gadget"], [], []⟩, true, .text ""⟩
    let cell (raw : String) : Cell := ⟨Address.behind 0 1, .sharedString, raw, none⟩
    (cell " +0_١\u00A0").kind = .sharedString ∧
    x.display (cell " +0_١\u00A0") = .ok "Gadget" ∧
    x.display (cell "-1") = .error (.missingEntry .sharedStrings (.integer (-1))) ∧
    x.display (cell "2") = .error (.missingEntry .sharedStrings (.integer 2)) ∧
    x.display (cell "1__0") = .error (.missingEntry .sharedStrings (.text "1__0")) := by
  intro x cell
  have hshown (raw : String) := display_sharedString x (cell raw) rfl
  have hread (raw : String) (i : Int) (h : Integer.parse? raw.toList = some i) :
      ∃ m : Spelling, m.IsIn raw ∧ i = m.value := Integer.parse?_eq_some_iff.1 h
  obtain ⟨one, hone, hvalue⟩ := hread " +0_١\u00A0" 1 (by decide)
  obtain ⟨front, hfront, hminus⟩ := hread "-1" (-1) (by decide)
  obtain ⟨behind, hbehind, htwo⟩ := hread "2" 2 (by decide)
  have hnone : ∀ m : Spelling, ¬m.IsIn "1__0" := by
    intro m hm
    have hsome := Integer.parse?_eq_some_iff.2 ⟨m, hm, rfl⟩
    rw [(by decide : Integer.parse? "1__0".toList = none)] at hsome
    cases hsome
  refine ⟨rfl, ?_, ?_, ?_, ?_⟩
  · exact ((hshown _).1 _).2 ⟨one, hone, 1, hvalue.symm, rfl⟩
  · rw [hminus]
    exact (hshown _).2.1 front hfront (.inl (hminus ▸ by decide))
  · rw [htwo]
    exact (hshown _).2.1 behind hbehind (.inr (htwo ▸ le_rfl))
  · exact (hshown _).2.2.1 hnone

end Extractor

end Worksheet
