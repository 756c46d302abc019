-- SUMMARY: Nested log scopes show what the innermost open scope of each field says.
import Mathlib.Data.List.Basic
import Worksheet.Log.Scope
import Worksheet.Proofs.Mapping

/-!
# Nested Scopes

The scopes that are entered and not yet left are a stack. A nesting holds the four fields of
the scope at hand and what leaving brings back, and no stack. Yet it is at all times the
nesting that entering the open scopes makes, one in the other: `Nesting.run_around`. So each
field has the value of the innermost open scope of this field.
-/

namespace Worksheet.Log

/-! ## Open scopes -/

/-- A scope is entered, or the scope that was entered last is left. -/
inductive Move where
  | enter (f : Field) (v : Value)
  | leave

namespace Move

/-- The open scopes after a move, innermost first. -/
def stack (opened : List (Field × Value)) : Move → List (Field × Value)
  | .enter f v => (f, v) :: opened
  | .leave => opened.tail

/-- The scopes that are open after some moves, innermost first. -/
def opened (moves : List Move) : List (Field × Value) := moves.foldl stack []

/-- The nesting after a move. -/
def apply (n : Nesting) : Move → Nesting
  | .enter f v => n.enter f v
  | .leave => n.leave

end Move

/-- The value of the innermost open scope of a field. -/
def innermost? (f : Field) (opened : List (Field × Value)) : Option Value :=
  (opened.find? fun p => p.1 = f).map Prod.snd

theorem innermost?_cons (f : Field) (p : Field × Value) (opened : List (Field × Value)) :
    innermost? f (p :: opened) = if p.1 = f then some p.2 else innermost? f opened := by
  unfold innermost?
  by_cases h : p.1 = f
  · simp [h]
  · simp [h]

namespace Nesting

/-- The nesting after some moves. -/
def run (n : Nesting) (moves : List Move) : Nesting := moves.foldl Move.apply n

/-- The nesting of some open scopes in an outermost scope. -/
def around (outer : Scope) : List (Field × Value) → Nesting
  | [] => ⟨outer, []⟩
  | p :: opened => (around outer opened).enter p.1 p.2

/-- A move does to the nesting what it does to the stack of open scopes. -/
theorem apply_around (outer : Scope) (opened : List (Field × Value)) (m : Move) :
    m.apply (around outer opened) = around outer (m.stack opened) := by
  cases m with
  | enter f v => rfl
  | leave => cases opened with
    | nil => rfl
    | cons p opened => exact leave_enter (around outer opened) p.1 p.2

theorem foldl_around (outer : Scope) (moves : List Move) (opened : List (Field × Value)) :
    (around outer opened).run moves = around outer (moves.foldl Move.stack opened) := by
  induction moves generalizing opened with
  | nil => rfl
  | cons m moves ih =>
    change (m.apply (around outer opened)).run moves = _
    rw [apply_around, ih]
    rfl

/-- After any moves the nesting is that of the scopes that are open. -/
theorem run_around (outer : Scope) (moves : List Move) :
    (Nesting.mk outer []).run moves = around outer (Move.opened moves) :=
  foldl_around outer moves []

/-- A field has the value of its innermost open scope, and without one its outermost value. -/
theorem get_around (outer : Scope) (opened : List (Field × Value)) (f : Field) :
    (around outer opened).scope.get f = (innermost? f opened).or (outer.get f) := by
  induction opened with
  | nil => rfl
  | cons p opened ih =>
    change ((around outer opened).scope.set p.1 (some p.2)).get f = _
    rw [innermost?_cons]
    split
    · rename_i h
      rw [h, Scope.get_set_self]
      rfl
    · rename_i h
      rw [Scope.get_set_of_ne h, ih]

end Nesting

/-! ## What a scope shows -/

namespace Scope

variable (s : Scope)

theorem shownValue?_eq_some_iff {f : Field} {v : Value} :
    s.shownValue? f = some v ↔ s.get f = some v ∧ v.isTrue = true :=
  Option.filter_eq_some_iff

theorem mem_shown_iff {f : Field} {v : Value} : (f, v) ∈ s.shown ↔ s.shownValue? f = some v := by
  have hall : f ∈ Field.all := by cases f <;> decide
  unfold shown
  rw [List.mem_filterMap]
  constructor
  · rintro ⟨g, -, hg⟩
    obtain ⟨w, hw, heq⟩ := Option.map_eq_some_iff.1 hg
    cases heq
    exact hw
  · intro h
    exact ⟨f, hall, by rw [h]; rfl⟩

/-- No two of the shown fields have one name. -/
theorem nodup_shown : (s.shown.map fun p => p.1.name).Nodup := by
  have hnames : (Field.all.map Field.name).Nodup := by decide
  have hfields : s.shown.map Prod.fst = Field.all.filter fun f => (s.shownValue? f).isSome := by
    rw [shown, List.map_filterMap, ← List.filterMap_eq_filter]
    refine List.filterMap_congr fun f _ => ?_
    cases hf : s.shownValue? f with
    | none => simp [Option.guard, hf]
    | some v => simp [Option.guard, hf]
  have hsub : (s.shown.map Prod.fst).Sublist Field.all := hfields ▸ List.filter_sublist
  have hmap := hnames.sublist (hsub.map Field.name)
  rwa [List.map_map] at hmap

theorem labels_eq : s.labels =
    Field.all.filterMap fun f => (s.shownValue? f).map fun v => f.name ++ "=" ++ v.plain := by
  rw [labels, shown, List.map_filterMap]
  refine List.filterMap_congr fun f _ => ?_
  cases s.shownValue? f <;> rfl

theorem decorate_eq (message : String) : s.decorate message =
    if s.labels = [] then message else "[" ++ ", ".intercalate s.labels ++ "] " ++ message := by
  simp only [decorate, labels, List.isEmpty_iff, List.map_eq_nil_iff]

end Scope

/-! ## Details of a message -/

section Details

variable {given : Mapping String Value} {ps : List (Field × Value)} {key : String}

theorem get?_details_of_ne (h : ∀ p ∈ ps, p.1.name ≠ key) :
    (ps.foldl (fun m p => Mapping.insert p.1.name p.2 m) given).get? key = given.get? key := by
  induction ps generalizing given with
  | nil => rfl
  | cons p ps ih =>
    obtain ⟨hp, hps⟩ := List.forall_mem_cons.1 h
    rw [List.foldl_cons, ih hps, Mapping.get?_insert_of_ne hp]

theorem get?_details_of_mem {p : Field × Value} (hnodup : (ps.map fun p => p.1.name).Nodup)
    (h : p ∈ ps) :
    (ps.foldl (fun m p => Mapping.insert p.1.name p.2 m) given).get? p.1.name = some p.2 := by
  induction ps generalizing given with
  | nil => cases h
  | cons q ps ih =>
    obtain ⟨hq, hps⟩ := List.nodup_cons.1 hnodup
    rw [List.foldl_cons]
    rcases List.mem_cons.1 h with rfl | h
    · -- No later field has this name.
      rw [get?_details_of_ne fun r hr hname => hq (List.mem_map.2 ⟨r, hr, hname⟩),
        Mapping.get?_insert_self]
    · exact ih hps h

end Details

/-- After any moves a message shows each field as the innermost open scope of this field has it.
    A field is left out if that value does not count as true, whatever the scopes around it
    say. The fields that are shown stand in front of the message in a fixed order, and they
    override the given details. When all scopes are left, the outermost one is back. -/
theorem run_shows_innermost (outer : Scope) (moves : List Move) (message : String)
    (given : Mapping String Value) :
    let scope := ((Nesting.mk outer []).run moves).scope
    let value (f : Field) := (innermost? f (Move.opened moves)).or (outer.get f)
    let labels := [Field.workbook, .sheet, .table, .operation].filterMap fun f =>
      ((value f).filter Value.isTrue).map fun v => f.name ++ "=" ++ v.plain
    (∀ f, scope.get f = value f) ∧
    (outer = Scope.empty → ∀ f, scope.get f = innermost? f (Move.opened moves)) ∧
    scope.decorate message =
      (if labels = [] then message else "[" ++ ", ".intercalate labels ++ "] " ++ message) ∧
    (∀ f v, value f = some v → v.isTrue = true →
      (scope.details given).get? f.name = some v) ∧
    (∀ key, (∀ f v, value f = some v → v.isTrue = true → f.name ≠ key) →
      (scope.details given).get? key = given.get? key) ∧
    (∀ f v w, v.isTrue = false →
      (f, w) ∉ ((Nesting.mk outer []).run (moves ++ [.enter f v])).scope.shown) ∧
    (Move.opened moves = [] → scope = outer) := by
  intro scope value labels
  have hrun := Nesting.run_around outer moves
  have hget (f : Field) : scope.get f = value f := by
    change ((Nesting.mk outer []).run moves).scope.get f = _
    rw [hrun, Nesting.get_around]
  have hshown (f : Field) : scope.shownValue? f = (value f).filter Value.isTrue := by
    rw [Scope.shownValue?, hget]
  have hlabels : scope.labels = labels := by
    rw [Scope.labels_eq]
    exact List.filterMap_congr fun f _ => by rw [hshown]
  have hmem (f : Field) (v : Value) :
      (f, v) ∈ scope.shown ↔ value f = some v ∧ v.isTrue = true := by
    rw [Scope.mem_shown_iff, Scope.shownValue?_eq_some_iff, hget]
  refine ⟨hget, ?_, ?_, ?_, ?_, ?_, ?_⟩
  · intro hempty f
    have hnone : outer.get f = none := by
      rw [hempty]
      cases f <;> rfl
    rw [hget]
    exact (congrArg _ hnone).trans (Option.or_none)
  · rw [Scope.decorate_eq, hlabels]
  · intro f v hv htrue
    exact get?_details_of_mem scope.nodup_shown ((hmem f v).2 ⟨hv, htrue⟩)
  · intro key hkey
    refine get?_details_of_ne ?_
    rintro ⟨f, v⟩ hp
    obtain ⟨hv, htrue⟩ := (hmem f v).1 hp
    exact hkey f v hv htrue
  · intro f v w hfalse hw
    have hinner : (Nesting.mk outer []).run (moves ++ [.enter f v]) =
        ((Nesting.mk outer []).run moves).enter f v := by
      simp [Nesting.run, Move.apply]
    rw [hinner, Scope.mem_shown_iff, Scope.shownValue?_eq_some_iff] at hw
    obtain ⟨hw, htrue⟩ := hw
    rw [Nesting.enter, Scope.get_set_self] at hw
    cases hw
    rw [hfalse] at htrue
    cases htrue
  · intro hclosed
    change ((Nesting.mk outer []).run moves).scope = _
    rw [hrun, hclosed]
    rfl

/-- An empty name hides the name around it until it is left. -/
example :
    let moves := [Move.enter .sheet (.text "a"), .enter .table (.text "t"), .enter .sheet (.text "")]
    (Nesting.start.run moves).scope.decorate "m" = "[table=t] m" ∧
      (Nesting.start.run (moves ++ [.leave])).scope.decorate "m" = "[sheet=a, table=t] m" := by
  decide

end Worksheet.Log
