-- SUMMARY: Which section of a pattern serves a sign, and what is chosen if none does.
import Worksheet.Format.Display

/-!
# The Section that Serves a Sign

A pattern serves a sign with the section in its place, or with General alone. The choice
of a section depends on how strict it is only if the pattern does not serve the sign.
-/

namespace Worksheet.Format

/-- The section that serves a sign, if the pattern has one. -/
def served? (pattern : String) (sign : Sign) : Option Choice :=
  match (sections pattern.toList)[sign.place]? with
  | some text => some ⟨text, sign = .negative, false⟩
  | none =>
    let first := (sections pattern.toList).headD []
    if (sections pattern.toList).length = 1 ∧ isGeneral first then some ⟨first, false, false⟩
    else none

/-- What takes the place of a section that a pattern does not have. -/
def fallback (pattern : String) : Choice := ⟨(sections pattern.toList).headD [], false, true⟩

variable {strict : Bool} {pattern : String} {sign : Sign}

theorem choose_eq :
    choose strict pattern sign =
      match served? pattern sign with
      | some c => .ok c
      | none => if strict then .error (.noSection pattern sign) else .ok (fallback pattern) := by
  unfold choose served?
  simp only
  cases (sections pattern.toList)[sign.place]? with
  | some text => rfl
  | none =>
    simp only
    split
    · rfl
    · rfl

theorem isFallback_of_served {c : Choice} (h : served? pattern sign = some c) :
    c.isFallback = false := by
  unfold served? at h
  cases hs : (sections pattern.toList)[sign.place]? with
  | some text =>
    rw [hs] at h
    cases h
    rfl
  | none =>
    simp only [hs] at h
    split at h
    · cases h
      rfl
    · cases h

/-- A number with its sign in a section. -/
def Display.showIn (id : Int) (text : List Char) (d : Decimal) : Except Fault (List Char) :=
  if isDate id then DateText.text d.toBinary64 (clean text) else Number.text d (clean text)

theorem Display.inChoice_eq (d : Decimal) (id : Int) (c : Choice) :
    Display.inChoice d id c =
      (if c.absolute then Decimal.lift (Decimal.Context.standard.abs d) else .ok d) >>=
        Display.showIn id c.text := by
  unfold Display.inChoice Display.showIn
  cases c.absolute with
  | true => rfl
  | false => rfl

/-! ## Numbers in their section -/

namespace Display

variable {d B : String} {v : Decimal} {id : Int}

/-- The text of a number, or of what is made of it, in a section. -/
def textIn (id : Int) (B : String) (r : Except Fault Decimal) : Except Fault String :=
  r >>= fun x => showIn id B.toList x >>= fun s => pure (String.ofList s)

theorem text_eq_choose (h : Decimal.parse? d.toList = some v) (pattern : String) :
    text strict d id pattern = choose strict pattern v.sign >>= fun c =>
      inChoice v id c >>= fun s => pure (String.ofList s) := by
  unfold text
  rw [h]

theorem text_of_parse (h : Decimal.parse? d.toList = some v) {c : Choice} {pattern : String}
    (hc : served? pattern v.sign = some c) :
    text strict d id pattern =
      (if c.absolute then Decimal.lift (Decimal.Context.standard.abs v) else .ok v) >>= fun x =>
        showIn id c.text x >>= fun s => pure (String.ofList s) := by
  rw [text_eq_choose h, choose_eq, hc]
  change (inChoice v id c >>= fun s => pure (String.ofList s)) = _
  rw [inChoice_eq, bind_assoc]

theorem text_positive (h : Decimal.parse? d.toList = some v) (hs : v.sign = .positive)
    (hB : ';' ∉ B.toList) : text strict d id B = textIn id B (.ok v) := by
  have hserved : served? B v.sign = some ⟨B.toList, false, false⟩ := by
    unfold served? sections
    rw [Text.pieces_eq_singleton hB, hs]
    rfl
  rw [text_of_parse h hserved]
  rfl

end Display

end Worksheet.Format
