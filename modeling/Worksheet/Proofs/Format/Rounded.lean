-- SUMMARY: A layout without slash and mark shows the scaled number rounded half up to its places after the point.
import Worksheet.Proofs.Format.Number

/-!
# Rounded Numbers

Without a slash and without the mark of an exponent a layout shows digits of one number: the
scaled number without its sign, rounded half up to the places after the point,
`Fixed.inLayout_eq_layout`.
-/

namespace Worksheet.Format.Fixed

variable {d : Decimal} {l : Layout}

/-- The number that a layout scales a number to, without its sign. -/
def scaled (d : Decimal) (l : Layout) : Rat :=
  d.magnitude * 10 ^ (2 * l.percents - 3 * l.commas : Int)

/-- The scaled number, rounded half up to the places after the point. -/
def rounded (d : Decimal) (l : Layout) : Decimal where
  negative := false
  coefficient := ⌊scaled d l * 10 ^ (fractionPlaces l.body).length + 1 / 2⌋₊
  exponent := -(fractionPlaces l.body).length

theorem rounded_congr {l' : Layout} (hpercents : l.percents = l'.percents)
    (hcommas : l.commas = l'.commas) (hplaces : fractionPlaces l.body = fractionPlaces l'.body) :
    rounded d l = rounded d l' := by
  simp only [rounded, scaled, hpercents, hcommas, hplaces]

/-- A layout shows the rounded number between its sign and what stands around it. -/
theorem inLayout_eq_layout (hdigits : d.digitCount < 100000)
    (hadjusted : d.adjusted.natAbs < 100000) (hpercents : l.percents ≤ 100000)
    (hcommas : l.commas ≤ 100000) (hlength : l.body.length ≤ 100000)
    (hslash : .slash ∉ l.body) (hmark : ∀ t ∈ l.body, t.isMark = false) :
    Number.inLayout d l = .ok (signText d.value ++ l.beginning ++ layout (rounded d l) l.body ++
      l.ending) := by
  have hmax : Decimal.maxExponent = 999999 := rfl
  have hplaces := length_fractionPlaces_le l.body
  obtain ⟨m, hnegative, hmagnitude, -, hsize, htext⟩ :=
    exists_inLayout_of_size hdigits hadjusted hpercents hcommas
  have hround : (Number.context d).roundHalfUp m (fractionPlaces l.body).length = _ :=
    Decimal.Context.roundHalfUp_eq (Nat.add_pos_left (by decide) _) (by omega)
      fun h0 => (hsize h0).trans (by omega)
  rw [hmagnitude, hnegative] at hround
  rw [htext, bodyText_eq_text hslash hmark, Fixed.text, hround]
  rfl

end Worksheet.Format.Fixed
