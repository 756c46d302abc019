-- SUMMARY: A lenient extraction gives what a strict one does, unless that stops because a section is missing.
import Worksheet.Proofs.Extraction.Stepwise
import Worksheet.Proofs.Selection

/-!
# Strict and Lenient Extractions

Both extractions take the same steps up to the first cell whose format has no section for
its sign. There the strict one stops, and the lenient one goes on with a remark.
-/

namespace Worksheet

/-! ## Runs -/

namespace Traced

variable {α β : Type} {lenient strict : Traced α} {next next' : α → Traced β}

/-- From each trace the lenient run relaxes the strict one, and leaves the same entries
    behind where it has the same result. -/
def Relaxes (lenient strict : Traced α) : Prop :=
  ∀ t, Sectioned (lenient.runFrom t).1 ∧
    (Sectioned (strict.runFrom t).1 → lenient.runFrom t = strict.runFrom t)

theorem relaxes_of_sectioned {work : Traced α} (h : ∀ t, Sectioned (work.runFrom t).1) :
    work.Relaxes work :=
  fun t => ⟨h t, fun _ => rfl⟩

theorem sectioned_of_runFrom_bind {work : Traced α} {t : Log.Trace}
    (h : Sectioned ((work >>= next).runFrom t).1) : Sectioned (work.runFrom t).1 := by
  intro p s he
  have hw : work.runFrom t = (.error (.noSection p s), (work.runFrom t).2) := Prod.ext he rfl
  rw [runFrom_bind_of_error hw] at h
  exact h p s rfl

theorem Relaxes.bind (h : lenient.Relaxes strict) (hn : ∀ a, (next a).Relaxes (next' a)) :
    (lenient >>= next).Relaxes (strict >>= next') := by
  intro t
  obtain ⟨hsec, hagree⟩ := h t
  cases hl : lenient.runFrom t with
  | mk r t' =>
    rw [hl] at hsec hagree
    cases r with
    | error e =>
      rw [runFrom_bind_of_error hl]
      refine ⟨?_, fun hs => ?_⟩
      · intro p s he
        exact hsec p s (congrArg Except.error (Except.error.inj he))
      · have hstrict := hagree (sectioned_of_runFrom_bind hs)
        rw [runFrom_bind_of_error hstrict.symm]
    | ok a =>
      rw [runFrom_bind_of_ok hl]
      obtain ⟨hsec', hagree'⟩ := hn a t'
      refine ⟨hsec', fun hs => ?_⟩
      have hstrict := hagree (sectioned_of_runFrom_bind hs)
      rw [runFrom_bind_of_ok hstrict.symm] at hs ⊢
      exact hagree' hs

theorem stepwise_relaxes : Stepwise fun _ => Relaxes where
  ofResult h := relaxes_of_sectioned fun _ => h
  log _ := relaxes_of_sectioned fun _ => sectioned_ok ()
  bind := Relaxes.bind

end Traced

/-! ## Cells -/

namespace Extractor

variable (lookups : Lookups) (empty : Value)

theorem sectioned_miss {α : Type} (table : Lookup) (key : Value) :
    Sectioned (Lookups.miss table key : Except Fault α) := by
  unfold Lookups.miss Fault.naming
  split
  · exact sectioned_error (by simp)
  · exact sectioned_error (by simp)

theorem sectioned_sharedString (n : Int) : Sectioned (lookups.sharedString n) := by
  unfold Lookups.sharedString
  split
  · exact sectioned_ok _
  · exact sectioned_miss _ _

theorem sectioned_formatOfStyle (n : Int) : Sectioned (lookups.formatOfStyle n) := by
  unfold Lookups.formatOfStyle
  split
  · exact sectioned_ok _
  · exact sectioned_miss _ _

theorem sectioned_pattern (id : Int) : Sectioned (lookups.pattern id) := by
  unfold Lookups.pattern
  split
  · exact sectioned_ok _
  · split
    · exact sectioned_ok _
    · exact sectioned_miss _ _

theorem sectioned_format (x : Extractor) (cell : Cell) : Sectioned (x.format cell) := by
  unfold format
  split
  · exact sectioned_miss _ _
  · refine (sectioned_formatOfStyle _ _).bind fun id => ?_
    exact (sectioned_pattern _ id).bind fun pattern => sectioned_ok _

theorem display_relaxes (cell : Cell) :
    Worksheet.Relaxes (display ⟨lookups, false, empty⟩ cell)
      (display ⟨lookups, true, empty⟩ cell) := by
  unfold display
  split
  · exact (sectioned_ok _).relaxes
  · exact (sectioned_ok _).relaxes
  · split
    · exact (sectioned_sharedString _ _).relaxes
    · exact (sectioned_miss _ _).relaxes
  · have hf : format ⟨lookups, false, empty⟩ cell = format ⟨lookups, true, empty⟩ cell := rfl
    rw [hf]
    cases hr : format ⟨lookups, true, empty⟩ cell with
    | error e =>
      have he := sectioned_format ⟨lookups, true, empty⟩ cell
      rw [hr] at he
      exact (sectioned_error fun p s h => he p s (congrArg Except.error h)).relaxes
    | ok f => exact Format.Display.text_relaxes cell.raw f.1 f.2

theorem remark?_eq_none {cell : Cell}
    (h : Sectioned (display ⟨lookups, true, empty⟩ cell)) (strict : Bool) :
    remark? ⟨lookups, strict, empty⟩ cell = none := by
  have hf : format ⟨lookups, strict, empty⟩ cell = format ⟨lookups, true, empty⟩ cell := rfl
  unfold remark?
  rw [hf]
  unfold display at h
  split
  · rename_i f hk hr
    simp only [hk, hr] at h
    exact Format.Display.remark?_eq_none h strict
  · rfl

theorem runFrom_displayLogged (x : Extractor) (cell : Cell) (t : Log.Trace)
    (h : x.remark? cell = none) : (x.displayLogged cell).runFrom t = (x.display cell, t) := by
  unfold displayLogged
  rw [h]
  rfl

theorem displayLogged_relaxes (cell : Cell) :
    Traced.Relaxes (displayLogged ⟨lookups, false, empty⟩ cell)
      (displayLogged ⟨lookups, true, empty⟩ cell) := by
  intro t
  have hd := display_relaxes lookups empty cell
  have hy (strict : Bool) := yields_displayLogged ⟨lookups, strict, empty⟩ cell t
  rw [hy, hy]
  refine ⟨hd.sectioned, fun hs => ?_⟩
  rw [runFrom_displayLogged _ _ _ (remark?_eq_none lookups empty hs false),
    runFrom_displayLogged _ _ _ (remark?_eq_none lookups empty hs true), hd.agrees hs]

/-! ## Tables -/

theorem extract_relaxes (name : Value) (headers : List Value) (b : Bounds) (rows : List Row) :
    Traced.Relaxes (extract ⟨lookups, false, empty⟩ name headers b rows)
      (extract ⟨lookups, true, empty⟩ name headers b rows) :=
  extract_related Traced.stepwise_relaxes (displayLogged_relaxes lookups empty) rfl name headers b
    rows

/-- Where a strict extraction gives a table, a lenient one gives the same table and logs the
    same entries. It fails in the same way too, except that it never does for want of a
    section. A text that is displayed strictly is displayed leniently as well. -/
theorem extract_lenient (lookups : Lookups) (empty name : Value) (headers : List Value)
    (b : Bounds) (rows : List Row) (t : Log.Trace) :
    let run strict := (extract ⟨lookups, strict, empty⟩ name headers b rows).runFrom t
    (∀ table, (run true).1 = .ok table → run false = run true) ∧
      (∀ e, (∀ pattern sign, e ≠ .noSection pattern sign) → (run true).1 = .error e →
        run false = run true) ∧
      (∀ pattern sign, (run false).1 ≠ .error (.noSection pattern sign)) ∧
      ∀ raw id pattern text, Format.Display.text true raw id pattern = .ok text →
        Format.Display.text false raw id pattern = .ok text := by
  intro run
  obtain ⟨hsec, hagree⟩ := extract_relaxes lookups empty name headers b rows t
  refine ⟨?_, ?_, hsec, ?_⟩
  · intro table htable
    apply hagree
    change Sectioned (run true).1
    rw [htable]
    exact sectioned_ok table
  · intro e he herror
    apply hagree
    change Sectioned (run true).1
    rw [herror]
    exact sectioned_error he
  · intro raw id pattern text htext
    have hd := Format.Display.text_relaxes raw id pattern
    rw [htext] at hd
    exact hd.agrees (sectioned_ok text)

/-- A number that its pattern has a section for, and a zero that it has none for. -/
theorem extract_lenient_sections :
    let lookups : Lookups := ⟨[], [(1, "0;0")], [1]⟩
    let b : Bounds := ⟨.behind 0 0, .behind 0 1⟩
    let rows raw : List Row := [⟨.whole 2, [⟨.behind 0 1, .styled, raw, some 0⟩]⟩]
    let run strict raw := (extract ⟨lookups, strict, .text ""⟩ (.text "T") [.text "a"] b
      (rows raw)).runFrom .start
    ((run true "5").1 = .ok ⟨"T", ["a"], [[("a", "5")]]⟩ ∧ run false "5" = run true "5") ∧
      (run true "0").1 = .error (.noSection "0;0" .zero) ∧
      (run false "0").1 = .ok ⟨"T", ["a"], [[("a", "0")]]⟩ :=
  have h := by decide +kernel
  ⟨⟨h, (extract_lenient _ _ _ _ _ _ _).1 _ h⟩, by with_unfolding_all rfl, by decide +kernel⟩

end Extractor

end Worksheet
