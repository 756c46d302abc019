-- SUMMARY: A number that a pattern has a section for is displayed alike whether or not sections may be missing.
import Worksheet.Format.Display
import Worksheet.Proofs.Sections
import Worksheet.Proofs.Traced

/-!
# Strict and Lenient Results

What is strict about sections differs from what is lenient only where a section is
missing: `Relaxes` says this of two results. To display a number in a section that has
been chosen never fails for want of another one.
-/

namespace Worksheet

variable {α β : Type}

/-! ## Faults for want of a section -/

/-- The result is not the fault that a section is missing. -/
def Sectioned (r : Except Fault α) : Prop := ∀ pattern sign, r ≠ .error (.noSection pattern sign)

theorem sectioned_ok (a : α) : Sectioned (.ok a) := by
  intro pattern sign h
  cases h

theorem sectioned_error {e : Fault} (h : ∀ pattern sign, e ≠ .noSection pattern sign) :
    Sectioned (.error e : Except Fault α) := by
  intro pattern sign he
  exact h pattern sign (Except.error.inj he)

theorem Sectioned.bind {r : Except Fault α} {k : α → Except Fault β} (h : Sectioned r)
    (hk : ∀ a, Sectioned (k a)) : Sectioned (r >>= k) := by
  intro pattern sign he
  rcases bind_eq_error_iff.1 he with he | ⟨a, -, he⟩
  · exact h pattern sign he
  · exact hk a pattern sign he

theorem sectioned_mapError {ε : Type} {f : ε → Fault}
    (h : ∀ e pattern sign, f e ≠ .noSection pattern sign) (r : Except ε α) :
    Sectioned (r.mapError f) := by
  cases r with
  | error e => exact sectioned_error (h e)
  | ok a => exact sectioned_ok a

theorem sectioned_lift (r : Except Decimal.Signal α) : Sectioned (Decimal.lift r) :=
  sectioned_mapError (fun _ _ _ => Fault.noConfusion) r

namespace Format

variable (c : Decimal.Context) (d : Decimal)

theorem sectioned_fraction_digits (n : Nat) : Sectioned (Fraction.digits n) := by
  unfold Fraction.digits
  split
  · exact sectioned_error (by simp)
  · exact sectioned_ok _

theorem sectioned_fraction (s : Fraction.Shape) : Sectioned (Fraction.text c d s) := by
  unfold Fraction.text
  refine Sectioned.bind ?_ fun r => ?_
  · unfold Fraction.ratio
    split
    · split
      · exact sectioned_error (by simp)
      · exact (sectioned_lift _).bind fun n => sectioned_ok _
    · exact sectioned_ok _
  · unfold Fraction.layout
    simp only
    split
    · exact (sectioned_fraction_digits _).bind fun ds => sectioned_ok _
    · refine (sectioned_fraction_digits _).bind fun n => ?_
      refine (sectioned_fraction_digits _).bind fun k => ?_
      refine (sectioned_fraction_digits _).bind fun w => ?_
      split
      · exact sectioned_ok _
      · exact sectioned_ok _

theorem sectioned_body (body : List NumberToken) : Sectioned (Number.bodyText c d body) := by
  unfold Number.bodyText
  split
  · exact sectioned_fraction c d _
  · split
    · exact (sectioned_lift _).bind fun r => sectioned_ok _
    · exact (sectioned_lift _).bind fun r => sectioned_ok _

theorem sectioned_general : Sectioned (General.text d) := by
  unfold General.text
  refine (sectioned_lift _).bind fun r => ?_
  split
  · exact sectioned_ok _
  · exact sectioned_ok _

theorem sectioned_number (s : List Char) : Sectioned (Number.text d s) := by
  unfold Number.text inSection
  split
  · exact (sectioned_general d).bind fun g => sectioned_ok _
  · simp only
    split
    · exact (sectioned_lift _).bind fun m => (sectioned_body _ m _).bind fun n => sectioned_ok _
    · split
      · exact (sectioned_general d).bind fun g => sectioned_ok _
      · exact sectioned_ok _

theorem sectioned_moment (x : Binary64) : Sectioned (Serial.moment x) := by
  unfold Serial.moment
  split
  · simp only
    split
    · exact sectioned_ok _
    · exact sectioned_error (by simp)
  · exact sectioned_error (by simp)

theorem sectioned_date (x : Binary64) (s : List Char) : Sectioned (DateText.text x s) := by
  unfold DateText.text
  refine Sectioned.bind ?_ fun micros => (sectioned_moment _).bind fun m => sectioned_ok _
  · unfold DateText.roundedMicros
    split
    · split
      · exact sectioned_error (by simp)
      · exact sectioned_ok _
    · exact sectioned_error (by simp)

theorem sectioned_inChoice (id : Int) (choice : Choice) :
    Sectioned (Display.inChoice d id choice) := by
  rw [Display.inChoice_eq]
  refine Sectioned.bind ?_ fun shown => ?_
  · split
    · exact sectioned_lift _
    · exact sectioned_ok d
  · unfold Display.showIn
    split
    · exact sectioned_date _ _
    · exact sectioned_number shown _

end Format

/-! ## Strict and lenient results -/

/-- The lenient result is never that a section is missing. It is the strict result unless
    that is. -/
structure Relaxes (lenient strict : Except Fault α) : Prop where
  sectioned : Sectioned lenient
  agrees : Sectioned strict → lenient = strict

theorem Sectioned.relaxes {r : Except Fault α} (h : Sectioned r) : Relaxes r r := ⟨h, fun _ => rfl⟩

namespace Format

variable {raw : String} {id : Int} {pattern : String}

theorem relaxes_choose (pattern : String) (sign : Sign) :
    Relaxes (choose false pattern sign) (choose true pattern sign) := by
  rw [choose_eq, choose_eq]
  cases served? pattern sign with
  | some c => exact (sectioned_ok c).relaxes
  | none => exact ⟨sectioned_ok _, fun h => absurd rfl (h pattern sign)⟩

theorem Display.text_relaxes (raw : String) (id : Int) (pattern : String) :
    Relaxes (Display.text false raw id pattern) (Display.text true raw id pattern) := by
  unfold Display.text
  split
  · exact (sectioned_ok raw).relaxes
  · rename_i d _
    have hc := relaxes_choose pattern d.sign
    have hshown (c : Choice) :=
      (sectioned_inChoice d id c).bind fun s => sectioned_ok (String.ofList s)
    refine ⟨hc.sectioned.bind hshown, fun h => ?_⟩
    rw [hc.agrees]
    intro p sign he
    exact h p sign (bind_eq_error_iff.2 (.inl he))

/-- Nothing is remarked if the strict result is not that a section is missing. -/
theorem Display.remark?_eq_none (h : Sectioned (Display.text true raw id pattern)) (strict : Bool) :
    Display.remark? strict raw pattern = none := by
  unfold Display.remark?
  unfold Display.text at h
  split
  · rfl
  · rename_i d hd
    simp only [hd] at h
    rw [choose_eq]
    cases hs : served? pattern d.sign with
    | some c =>
      obtain ⟨text, absolute, isFallback⟩ := c
      obtain rfl : isFallback = false := isFallback_of_served hs
      rfl
    | none =>
      have hstrict : choose true pattern d.sign = .error (.noSection pattern d.sign) := by
        rw [choose_eq, hs]
        rfl
      rw [hstrict] at h
      exact absurd rfl (h pattern d.sign)

end Format

end Worksheet
