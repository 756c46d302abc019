-- SUMMARY: Going through a list with a computation that may fail: all results, or the first fault.
import Mathlib.Data.List.Forall2
import Worksheet.Proofs.Traced

/-!
# Traversals

A traversal computes something for each item of a list. It stops at the first item
that has a fault. `mapM_eq_ok_iff` and `mapM_eq_error_iff` say what a traversal
gives; `mapM_flatten_eq_error_iff` says that a list may be cut into parts without
changing which fault comes first.
-/

namespace Worksheet

variable {ε α β : Type} {f : α → Except ε β}

theorem mapM_eq_ok_iff {l : List α} {out : List β} :
    l.mapM f = .ok out ↔ List.Forall₂ (fun a b => f a = .ok b) l out := by
  induction l generalizing out with
  | nil =>
    rw [List.forall₂_nil_left_iff]
    simp [pure, Except.pure, eq_comm]
  | cons a l ih =>
    rw [List.mapM_cons, bind_eq_ok_iff, List.forall₂_cons_left_iff]
    constructor
    · rintro ⟨b, hb, h⟩
      obtain ⟨bs, hbs, h⟩ := bind_eq_ok_iff.1 h
      exact ⟨b, bs, hb, ih.1 hbs, (Except.ok.inj h).symm⟩
    · rintro ⟨b, bs, hb, hbs, rfl⟩
      exact ⟨b, hb, bind_eq_ok_iff.2 ⟨bs, ih.2 hbs, rfl⟩⟩

/-- A traversal fails with the fault of an item if all items before it have results. -/
theorem mapM_eq_error_iff {l : List α} {e : ε} :
    l.mapM f = .error e ↔ ∃ before a after, l = before ++ a :: after ∧
      (∀ c ∈ before, ∃ b, f c = .ok b) ∧ f a = .error e := by
  induction l with
  | nil => simp [pure, Except.pure]
  | cons c l ih =>
    rw [List.mapM_cons, bind_eq_error_iff]
    constructor
    · rintro (hc | ⟨b, hc, h⟩)
      · exact ⟨[], c, l, rfl, by simp, hc⟩
      · rcases bind_eq_error_iff.1 h with h | ⟨bs, -, h⟩
        · obtain ⟨before, a, after, rfl, hb, ha⟩ := ih.1 h
          refine ⟨c :: before, a, after, rfl, ?_, ha⟩
          intro c' hc'
          rcases List.mem_cons.1 hc' with rfl | hc'
          · exact ⟨b, hc⟩
          · exact hb c' hc'
        · cases h
    · rintro ⟨before, a, after, hl, hb, ha⟩
      cases before with
      | nil =>
        obtain ⟨rfl, rfl⟩ := List.cons.inj hl
        exact .inl ha
      | cons c' before =>
        obtain ⟨rfl, rfl⟩ := List.cons.inj hl
        obtain ⟨b, hc⟩ := hb c List.mem_cons_self
        have hrest := ih.2 ⟨before, a, after, rfl, fun d hd => hb d (List.mem_cons_of_mem _ hd), ha⟩
        exact .inr ⟨b, hc, bind_eq_error_iff.2 (.inl hrest)⟩

/-- A traversal fails exactly if an item does. -/
theorem exists_mapM_eq_error_iff {l : List α} :
    (∃ e, l.mapM f = .error e) ↔ ∃ a ∈ l, ∃ e, f a = .error e := by
  induction l with
  | nil => simp [pure, Except.pure]
  | cons a l ih =>
    rw [List.exists_mem_cons_iff, ← ih, List.mapM_cons]
    cases ha : f a with
    | error e => simp [bind, Except.bind]
    | ok b => cases l.mapM f <;> simp [bind, Except.bind, pure, Except.pure]

/-- A traversal has results exactly if each item has one. -/
theorem exists_mapM_eq_ok_iff {l : List α} :
    (∃ out, l.mapM f = .ok out) ↔ ∀ a ∈ l, ∃ b, f a = .ok b := by
  rw [exists_eq_ok_iff, ← not_exists, exists_mapM_eq_error_iff]
  simp only [exists_eq_ok_iff, not_exists, not_and, ne_eq]

theorem mapM_congr {g : α → Except ε β} {l : List α} (h : ∀ a ∈ l, f a = g a) :
    l.mapM f = l.mapM g := by
  induction l with
  | nil => rfl
  | cons a l ih =>
    obtain ⟨ha, hl⟩ := List.forall_mem_cons.1 h
    rw [List.mapM_cons, List.mapM_cons, ha, ih hl]

/-- Traversals fail alike if they do at each item. -/
theorem mapM_eq_error_congr {γ : Type} {g : α → Except ε γ}
    (h : ∀ a e, f a = .error e ↔ g a = .error e) {l : List α} {e : ε} :
    l.mapM f = .error e ↔ l.mapM g = .error e := by
  have hok : ∀ a, (∃ b, f a = .ok b) ↔ ∃ c, g a = .ok c := fun a => exists_eq_ok_congr (h a)
  simp only [mapM_eq_error_iff, h, hok]

/-- Two lists are related item by item over a list between them. -/
theorem forall₂_comp {γ : Type} {R : α → β → Prop} {S : β → γ → Prop} {T : α → γ → Prop}
    {l₁ : List α} {l₂ : List β} {l₃ : List γ} (h₁ : List.Forall₂ R l₁ l₂)
    (h₂ : List.Forall₂ S l₂ l₃) (h : ∀ a b c, R a b → S b c → T a c) : List.Forall₂ T l₁ l₃ := by
  induction h₁ generalizing l₃ with
  | nil =>
    cases h₂
    exact .nil
  | cons hab _ ih =>
    cases h₂ with
    | cons hbc h₂ => exact .cons (h _ _ _ hab hbc) (ih h₂)

/-- The first fault is the same if the items are gone through part by part. -/
theorem mapM_flatten_eq_error_iff {parts : List (List α)} {e : ε} :
    parts.flatten.mapM f = .error e ↔ parts.mapM (fun part => part.mapM f) = .error e := by
  induction parts with
  | nil => simp [pure, Except.pure]
  | cons part parts ih =>
    rw [List.flatten_cons, List.mapM_append, List.mapM_cons, bind_eq_error_iff, bind_eq_error_iff]
    refine or_congr_right (exists_congr fun out => and_congr_right fun _ => ?_)
    rw [bind_eq_error_iff, bind_eq_error_iff, ih]
    simp [pure, Except.pure]

end Worksheet
