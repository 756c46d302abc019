-- SUMMARY: Digits of every script and the number that they denote, leading signs, and texts with blanks around them.
import Mathlib.Data.List.TakeWhile
import Mathlib.Data.Nat.Digits.Lemmas
import Worksheet.Text.Integer

/-!
# Numbers in Every Script

The digits of a number may be of any script, and what stands around a numeral does not count.
Stripping a text finds exactly the body that stands in it between blanks, if the body has no
blank of its own: `strip_eq_iff`.
-/

namespace Worksheet

/-! ## Digits -/

namespace Text

/-- The characters are decimal digits, each of any script. -/
def AreDecimals (s : List Char) : Prop := ∀ c ∈ s, digitValue? c ≠ none

/-- The values of decimal digits. -/
def digitValues (s : List Char) : List Nat := s.filterMap digitValue?

/-- The number that decimal digits denote: the last one counts the units. -/
def number (s : List Char) : Nat := Nat.ofDigits 10 (digitValues s).reverse

variable {c : Char} {s t : List Char}

theorem areDecimals_append : AreDecimals (s ++ t) ↔ AreDecimals s ∧ AreDecimals t :=
  List.forall_mem_append

theorem areDecimals_cons : AreDecimals (c :: s) ↔ digitValue? c ≠ none ∧ AreDecimals s :=
  List.forall_mem_cons

theorem areDecimals_nil : AreDecimals [] := fun _ hc => nomatch hc

theorem digitValues_append (s t : List Char) :
    digitValues (s ++ t) = digitValues s ++ digitValues t := List.filterMap_append

theorem digitValues_cons {d : Nat} (h : digitValue? c = some d) (s : List Char) :
    digitValues (c :: s) = d :: digitValues s := List.filterMap_cons_some h

theorem length_digitValues (h : AreDecimals s) : (digitValues s).length = s.length := by
  induction s with
  | nil => rfl
  | cons c s ih =>
    obtain ⟨hc, hs⟩ := areDecimals_cons.1 h
    obtain ⟨d, hd⟩ := Option.ne_none_iff_exists'.1 hc
    rw [digitValues_cons hd, List.length_cons, List.length_cons, ih hs]

theorem digitValues_lt {d : Nat} (h : d ∈ digitValues s) : d < 10 := by
  obtain ⟨c, -, hd⟩ := List.mem_filterMap.1 h
  exact digitValue?_lt hd

theorem number_lt (h : AreDecimals s) : number s < 10 ^ s.length := by
  have hlt := Nat.ofDigits_lt_base_pow_length (b := 10) (l := (digitValues s).reverse)
    (by decide) fun d hd => digitValues_lt (List.mem_reverse.1 hd)
  rwa [List.length_reverse, length_digitValues h] at hlt

/-- A decimal digit of some script is no blank. -/
theorem isBlank_eq_false (h : digitValue? c ≠ none) : isBlank c = false := by
  have htables : ∀ z ∈ zeros, ∀ r ∈ (0x1C, 0x1F) :: spaceRanges, z + 9 < r.1 ∨ r.2 < z := by
    decide +kernel
  obtain ⟨d, hd⟩ := Option.ne_none_iff_exists'.1 h
  obtain ⟨z, hz, -⟩ := Option.map_eq_some_iff.1 hd
  have hmem := List.mem_of_find?_eq_some hz
  have hrange : z ≤ c.toNat ∧ c.toNat ≤ z + 9 := by simpa using List.find?_some hz
  have hseparator : 0x1C ≤ c.toNat → 0x1F < c.toNat := by
    have hapart := htables z hmem _ List.mem_cons_self
    omega
  have hspace : isSpace c = false := by
    apply Bool.eq_false_iff.2
    intro hspace
    obtain ⟨r, hr, hlow, hhigh⟩ := inRanges_iff.1 hspace
    have hapart := htables z hmem r (List.mem_cons_of_mem _ hr)
    omega
  simpa [isBlank, hspace] using hseparator

theorem isSpace_eq_false (h : isBlank c = false) : isSpace c = false := by
  unfold isBlank at h
  exact (Bool.or_eq_false_iff.1 h).1

end Text

/-- Reading digits from the left gives each of them the weight of its place. -/
theorem Integer.ofDigits_digitValues (s : List Char) :
    ofDigits (Text.digitValues s) = Text.number s := by
  rw [Text.number, Nat.ofDigits_eq_foldr, List.foldr_reverse]
  unfold ofDigits
  congr 1
  funext n d
  exact Nat.add_comm _ _

namespace Text

variable {p : Char → Bool} {s body : List Char}

/-! ## Texts with blanks around them -/

/-- A text is a body with characters of a class in front of it and behind it, or none. -/
def IsPadded (p : Char → Bool) (body s : List Char) : Prop :=
  ∃ before after, (∀ c ∈ before, p c = true) ∧ (∀ c ∈ after, p c = true) ∧
    s = before ++ body ++ after

theorem exists_dropWhile (p : Char → Bool) (s : List Char) :
    ∃ before, (∀ c ∈ before, p c = true) ∧ s = before ++ s.dropWhile p :=
  ⟨s.takeWhile p, fun _ hc => List.mem_takeWhile_imp hc, List.takeWhile_append_dropWhile.symm⟩

theorem dropWhile_eq_self (h : ∀ c ∈ s, p c = false) : s.dropWhile p = s := by
  cases s with
  | nil => rfl
  | cons c s => exact List.dropWhile_cons_of_neg (by simp [h c List.mem_cons_self])

theorem isPadded_strip (p : Char → Bool) (s : List Char) : IsPadded p (strip p s) s := by
  obtain ⟨before, hbefore, hs⟩ := exists_dropWhile p s
  obtain ⟨after, hafter, hrest⟩ := exists_dropWhile p (s.dropWhile p).reverse
  refine ⟨before, after.reverse, hbefore, fun c hc => hafter c (List.mem_reverse.1 hc), ?_⟩
  have hback := congrArg List.reverse hrest
  rw [List.reverse_reverse, List.reverse_append] at hback
  rw [List.append_assoc, strip, ← hback]
  exact hs

/-- A body without characters of the class is what is left of the text. -/
theorem strip_eq_iff (hbody : ∀ c ∈ body, p c = false) : strip p s = body ↔ IsPadded p body s := by
  constructor
  · rintro rfl
    exact isPadded_strip p s
  · rintro ⟨before, after, hbefore, hafter, rfl⟩
    have hback : ∀ c ∈ after.reverse, p c = true := fun c hc => hafter c (List.mem_reverse.1 hc)
    have hreverse : body.reverse.dropWhile p = body.reverse :=
      dropWhile_eq_self fun c hc => hbody c (List.mem_reverse.1 hc)
    unfold strip
    rw [List.append_assoc, List.dropWhile_append_of_pos hbefore]
    cases body with
    | nil =>
      rw [List.nil_append, List.dropWhile_eq_nil_iff.2 hafter]
      rfl
    | cons c body =>
      rw [List.cons_append, List.dropWhile_cons_of_neg (by simp [hbody c List.mem_cons_self]),
        ← List.cons_append, List.reverse_append, List.dropWhile_append_of_pos hback, hreverse,
        List.reverse_reverse]

/-! ## Signs -/

/-- A sign in front of a numeral, or none. -/
inductive LeadingSign where
  | absent
  | plus
  | minus
deriving DecidableEq, Repr

namespace LeadingSign

def chars : LeadingSign → List Char
  | .absent => []
  | .plus => ['+']
  | .minus => ['-']

/-- The integer with this sign and a magnitude. -/
def apply : LeadingSign → Nat → Int
  | .absent, n => n
  | .plus, n => n
  | .minus, n => -n

theorem natAbs_apply (sign : LeadingSign) (n : Nat) : (sign.apply n).natAbs = n := by
  cases sign <;> simp [apply]

end LeadingSign

theorem map_natCast_eq_some_iff {r : Option Nat} {f : Int → Int} {i : Int} :
    (Option.map f do return ((← r : Nat) : Int)) = some i ↔ ∃ n : Nat, r = some n ∧ f n = i := by
  cases r with
  | none => simp
  | some n => simp

/-- The digits of a numeral start with no sign. -/
theorem head_ne_sign {c : Char} (h : digitValue? c ≠ none) : c ≠ '-' ∧ c ≠ '+' := by
  constructor
  · rintro rfl
    exact h (by decide)
  · rintro rfl
    exact h (by decide)

end Text

end Worksheet
