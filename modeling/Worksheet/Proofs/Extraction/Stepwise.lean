-- SUMMARY: A relation between the displays of single cells is one between whole extractions.
import Worksheet.Extraction
import Worksheet.Proofs.Leniency

/-!
# Extractions Step by Step

Extractors with the same empty value take the same steps, except that each displays the
cells in its own way. So a relation between runs that the displays are in goes from them to
rows and tables: `Traced.Stepwise` says which relations do that, and `extract_related` that
they do.
-/

namespace Worksheet

namespace Traced

/-- Each step of an extraction is related to itself, and so are sequences whose steps are.
    Apart from the displays no step fails for want of a section. -/
structure Stepwise (R : ∀ α : Type, Traced α → Traced α → Prop) : Prop where
  ofResult {α : Type} {r : Except Fault α} : Sectioned r → R α (ofResult r) (ofResult r)
  log (message : String) : R Unit (log .debug message) (log .debug message)
  bind {α β : Type} {work work' : Traced α} {next next' : α → Traced β} :
    R α work work' → (∀ a, R β (next a) (next' a)) → R β (work >>= next) (work' >>= next')

variable {R : ∀ α : Type, Traced α → Traced α → Prop}

theorem Stepwise.pure (hR : Stepwise R) {α : Type} (a : α) : R α (pure a) (pure a) :=
  hR.ofResult (sectioned_ok a)

theorem Stepwise.logShown (hR : Stepwise R) {message : Except Fault String}
    (h : Sectioned message) :
    R Unit (Traced.logShown .debug message) (Traced.logShown .debug message) :=
  hR.bind (hR.ofResult h) hR.log

end Traced

/-! ## What messages name -/

theorem Value.sectioned_shown (v : Value) : Sectioned v.shown := by
  unfold shown
  split
  · exact sectioned_ok _
  · exact sectioned_error (by simp)

theorem Address.sectioned_text (a : Address) : Sectioned a.text := by
  unfold text
  split
  · exact sectioned_error (by simp)
  · exact sectioned_ok _

theorem Bounds.sectioned_text (b : Bounds) : Sectioned b.text :=
  b.start.sectioned_text.bind fun _ => b.stop.sectioned_text.bind fun _ => sectioned_ok _

namespace Extractor

variable {R : ∀ α : Type, Traced α → Traced α → Prop} {x y : Extractor}

theorem sectioned_unheaded (name : Value) (cell : Cell) : Sectioned (unheaded name cell) :=
  cell.address.sectioned_text.bind fun _ => name.sectioned_shown.bind fun _ => sectioned_ok _

theorem sectioned_summary (name : Value) (b : Bounds) (rows : Nat) :
    Sectioned (summary name b rows) :=
  name.sectioned_shown.bind fun _ => b.sectioned_text.bind fun _ => sectioned_ok _

theorem fillRow_related (hR : Traced.Stepwise R)
    (hcell : ∀ cell, R String (x.displayLogged cell) (y.displayLogged cell))
    (name : Value) (b : Bounds) (cells : List Cell) (values : List Value) :
    R (List Value) (x.fillRow name b cells values) (y.fillRow name b cells values) := by
  induction cells generalizing values with
  | nil => exact hR.pure values
  | cons cell cells ih =>
    unfold fillRow
    split
    · exact ih values
    · simp only
      split
      · exact hR.bind (hR.logShown (sectioned_unheaded name cell)) fun _ => ih values
      · exact hR.bind (hcell cell) fun s => ih _

theorem sectioned_selects (b : Bounds) (row : Row) : Sectioned (selects b row) := by
  unfold selects
  split
  · exact sectioned_ok _
  · exact sectioned_ok _
  · exact sectioned_ok _
  · exact sectioned_error (by simp)

theorem fillRows_related (hR : Traced.Stepwise R)
    (hcell : ∀ cell, R String (x.displayLogged cell) (y.displayLogged cell))
    (hempty : x.emptyValue = y.emptyValue) (name : Value) (headers : List Value) (b : Bounds)
    (rows : List Row) :
    R (List (List Value)) (x.fillRows name headers b rows) (y.fillRows name headers b rows) := by
  induction rows with
  | nil => exact hR.pure []
  | cons row rows ih =>
    unfold fillRows
    refine hR.bind (hR.ofResult (sectioned_selects b row)) fun selected => ?_
    cases selected with
    | false => exact ih
    | true =>
      simp only [if_true, hempty]
      refine hR.bind (fillRow_related hR hcell name b _ _) fun values => ?_
      have hrest : R (List (List Value))
          (do return values :: (← x.fillRows name headers b rows))
          (do return values :: (← y.fillRows name headers b rows)) :=
        hR.bind ih fun rest => hR.pure (values :: rest)
      split
      · exact hR.bind (hR.ofResult (sectioned_error (by simp))) fun _ => hrest
      · exact hrest

/-- Extractions are related as the displays of the cells are. -/
theorem extract_related (hR : Traced.Stepwise R)
    (hcell : ∀ cell, R String (x.displayLogged cell) (y.displayLogged cell))
    (hempty : x.emptyValue = y.emptyValue) (name : Value) (headers : List Value) (b : Bounds)
    (rows : List Row) :
    R Table (x.extract name headers b rows) (y.extract name headers b rows) := by
  unfold extract
  split
  · exact hR.ofResult (sectioned_error (by simp))
  · refine hR.bind (fillRows_related hR hcell hempty name headers b rows) fun values => ?_
    refine hR.bind (hR.logShown (sectioned_summary name b _)) fun _ => ?_
    exact hR.ofResult (sectioned_mapError (by simp) _)

end Extractor

end Worksheet
