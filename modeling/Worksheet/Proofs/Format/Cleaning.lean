-- SUMMARY: Cleaning leaves no marker and no quote, keeps all else in order, and pairs the markers of a run from the left.
import Mathlib.Algebra.Ring.Parity
import Mathlib.Data.List.DropRight
import Worksheet.Proofs.Format.Tokens

/-!
# Cleaned Sections

A marker takes the next character with it, even if that is a marker too. So the markers of a run
pair up from the left, and whether the last of them takes what follows depends on how many there
are: `takesNext_iff`. This is all that a text in front of another one has to do with it:
`stripFillers_append_eq`.
-/

namespace Worksheet.Format

variable {c : Char} {s : List Char}

/-! ## What is left -/

theorem isFillerMark_eq_true_iff : isFillerMark c = true ↔ c = '_' ∨ c = '*' := by
  simp [isFillerMark]

theorem forall_isFillerMark_iff : (∀ c ∈ s, isFillerMark c = false) ↔ '_' ∉ s ∧ '*' ∉ s := by
  constructor
  · intro h
    exact ⟨fun hmem => absurd (h _ hmem) (by decide), fun hmem => absurd (h _ hmem) (by decide)⟩
  · rintro ⟨hunderscore, hstar⟩ c hc
    refine Bool.eq_false_iff.2 fun hmark => ?_
    rcases isFillerMark_eq_true_iff.1 hmark with rfl | rfl
    · exact hunderscore hc
    · exact hstar hc

theorem stripFillers_eq_self_iff : stripFillers s = s ↔ '_' ∉ s ∧ '*' ∉ s := by
  rw [← forall_isFillerMark_iff]
  constructor
  · intro h
    exact h ▸ isFillerMark_of_mem s
  · exact stripFillers_eq_self

theorem quote_notMem_clean (s : List Char) : '"' ∉ clean s := by
  intro hmem
  exact absurd rfl (of_decide_eq_true (List.mem_filter.1 hmem).2)

theorem markers_notMem_clean (s : List Char) : '_' ∉ clean s ∧ '*' ∉ clean s := by
  have hstripped := forall_isFillerMark_iff.1 (isFillerMark_of_mem s)
  have hsub : (clean s).Sublist (stripFillers s) := List.filter_sublist
  exact ⟨fun hmem => hstripped.1 (hsub.subset hmem), fun hmem => hstripped.2 (hsub.subset hmem)⟩

/-- A cleaned section has nothing that is cleaned away. -/
theorem clean_clean (s : List Char) : clean (clean s) = clean s := by
  have hstrip : stripFillers (clean s) = clean s :=
    stripFillers_eq_self_iff.2 (markers_notMem_clean s)
  rw [clean, hstrip, stripQuotes, List.filter_eq_self]
  intro c hc
  exact decide_eq_true fun heq => quote_notMem_clean s (heq ▸ hc)

/-! ## Where the scan lands -/

/-- Whether a text ends with a marker that takes the character behind the text. -/
def takesNext : List Char → Bool
  | [] => false
  | [c] => isFillerMark c
  | c :: d :: rest => if isFillerMark c then takesNext rest else takesNext (d :: rest)

/-- A text is stripped behind another one as it is alone, but for a first character that the
    other text takes. -/
theorem stripFillers_append_eq (a b : List Char) :
    stripFillers (a ++ b) = stripFillers a ++ stripFillers (if takesNext a then b.tail else b) := by
  fun_induction takesNext a with
  | case1 => rfl
  | case2 c =>
    cases hc : isFillerMark c with
    | true =>
      cases b with
      | nil => simp [stripFillers, hc]
      | cons d b => simp [stripFillers, hc]
    | false => simp [stripFillers_cons hc, stripFillers, hc]
  | case3 c d rest hc ih => simpa [stripFillers, hc] using ih
  | case4 c d rest hc ih =>
    have hc' : isFillerMark c = false := Bool.eq_false_iff.2 hc
    rw [List.cons_append, stripFillers_cons hc', stripFillers_cons hc', ih, List.cons_append]

/-- A marker at the end takes what follows if it is not taken itself. -/
theorem takesNext_concat (a : List Char) (c : Char) :
    takesNext (a ++ [c]) = (isFillerMark c && !takesNext a) := by
  fun_induction takesNext a with
  | case1 => simp [takesNext]
  | case2 d => cases hd : isFillerMark d <;> simp [takesNext, hd]
  | case3 d e rest hd ih => simpa [takesNext, hd] using ih
  | case4 d e rest hd ih => simpa [takesNext, hd] using ih

/-- The last marker of a run takes what follows if the run has an odd number of markers. -/
theorem takesNext_iff (a : List Char) :
    takesNext a = true ↔ Odd (a.rtakeWhile isFillerMark).length := by
  induction a using List.reverseRecOn with
  | nil => simp [takesNext]
  | append_singleton a c ih =>
    rw [takesNext_concat]
    cases hc : isFillerMark c with
    | true =>
      rw [List.rtakeWhile_concat_pos _ _ _ hc, List.length_append, List.length_singleton,
        Nat.odd_add_one, ← ih]
      simp
    | false =>
      rw [List.rtakeWhile_concat_neg _ _ _ (Bool.eq_false_iff.1 hc)]
      simp

/-- Stripping leaves no marker, keeps the order of what is left and changes only sections with
    markers. Cleaning leaves no quote either, and cleaning again changes nothing. In two texts one
    behind the other, the second is stripped as if it stood alone if the first ends with an even
    number of markers, and without its first character if that number is odd. -/
theorem clean_normalizes (s a b : List Char) :
    ('_' ∉ stripFillers s ∧ '*' ∉ stripFillers s) ∧
    (stripFillers s).Sublist s ∧
    (stripFillers s = s ↔ '_' ∉ s ∧ '*' ∉ s) ∧
    ('_' ∉ clean s ∧ '*' ∉ clean s ∧ '"' ∉ clean s) ∧
    clean (clean s) = clean s ∧
    (Even (a.rtakeWhile isFillerMark).length →
      stripFillers (a ++ b) = stripFillers a ++ stripFillers b) ∧
    (Odd (a.rtakeWhile isFillerMark).length →
      stripFillers (a ++ b) = stripFillers a ++ stripFillers b.tail) := by
  have hmarkers := markers_notMem_clean s
  refine ⟨forall_isFillerMark_iff.1 (isFillerMark_of_mem s), stripFillers_sublist s,
    stripFillers_eq_self_iff, ⟨hmarkers.1, hmarkers.2, quote_notMem_clean s⟩, clean_clean s, ?_, ?_⟩
  · intro heven
    have hnot : ¬takesNext a = true := by rwa [takesNext_iff, Nat.not_odd_iff_even]
    rw [stripFillers_append_eq, if_neg hnot]
  · intro hodd
    rw [stripFillers_append_eq, if_pos ((takesNext_iff a).2 hodd)]

example : clean "_(#,##0_)\"_-\"**0".toList = "#,##00".toList := by decide +kernel

end Worksheet.Format
