-- SUMMARY: The places of a section that its scan reaches, and what is read there when another text follows.
import Mathlib.Data.List.TakeWhile
import Worksheet.Proofs.Format.Tokens

/-!
# Scanning a Section

A section is read from code to code: a bracket and what is in it, an escaped character, the mark
of an exponent, or a single character. A place between two codes is reached by the scan, and what
was read up to there does not depend on what follows, except that a sign behind an `e` would be
part of a mark: `Reads.replace`.
-/

namespace Worksheet.Format

/-! ## Up to a closing bracket -/

section

variable {code : List Char}

theorem forall_ne_closing (h : ']' ∉ code) : ∀ c ∈ code, decide (c ≠ ']') = true :=
  fun _ hc => decide_eq_true fun heq => h (heq ▸ hc)

theorem takeWhile_closed (h : ']' ∉ code) (s : List Char) :
    (code ++ ']' :: s).takeWhile (· ≠ ']') = code := by
  rw [List.takeWhile_append_of_pos (forall_ne_closing h), List.takeWhile_cons_of_neg (by simp),
    List.append_nil]

theorem dropWhile_closed (h : ']' ∉ code) (s : List Char) :
    (code ++ ']' :: s).dropWhile (· ≠ ']') = ']' :: s := by
  rw [List.dropWhile_append_of_pos (forall_ne_closing h), List.dropWhile_cons_of_neg (by simp)]

theorem takeWhile_unclosed (h : ']' ∉ code) : code.takeWhile (· ≠ ']') = code :=
  List.takeWhile_eq_self_iff.2 (forall_ne_closing h)

theorem dropWhile_unclosed (h : ']' ∉ code) : code.dropWhile (· ≠ ']') = [] :=
  List.dropWhile_eq_nil_iff.2 (forall_ne_closing h)

end

namespace NumberToken

/-- The scan of a section outside brackets reads tokens and leaves a rest. -/
inductive Reads : List Char → List NumberToken → List Char → Prop where
  | done (s : List Char) : Reads s [] s
  | bracket {code s ts rest} (hcode : ']' ∉ code) (h : Reads s ts rest) :
      Reads ('[' :: (code ++ ']' :: s)) ts rest
  | unclosed {code} (hcode : ']' ∉ code) : Reads ('[' :: code) [] []
  | escape {c s ts rest} (h : Reads s ts rest) : Reads ('\\' :: c :: s) (.literal c :: ts) rest
  | mark {c d t s ts rest} (hmark : mark? c d = some t) (h : Reads s ts rest) :
      Reads (c :: d :: s) (t :: ts) rest
  | single {c s ts rest} (hbracket : c ≠ '[') (hescape : c = '\\' → s = [])
      (hmark : ∀ d ∈ s.head?, mark? c d = none) (h : Reads s ts rest) :
      Reads (c :: s) (ofChar c :: ts) rest

variable {code s t rest b : List Char} {ts : List NumberToken}

/-! ## Brackets -/

/-- Within brackets nothing is read. -/
theorem scan_true_inside (h : ']' ∉ code) (s : List Char) :
    scan true (code ++ s) = scan true s := by
  induction code with
  | nil => rfl
  | cons c code ih =>
    obtain ⟨hc, hcode⟩ := not_or.1 (mt List.mem_cons.2 h)
    have hinside : decide (c ≠ ']') = true := decide_eq_true (Ne.symm hc)
    rw [List.cons_append, scan, hinside, ih hcode]

theorem scan_true_append (h : ']' ∉ code) (s : List Char) :
    scan true (code ++ ']' :: s) = scan false s :=
  (scan_true_inside h (']' :: s)).trans rfl

theorem scan_true_unclosed (h : ']' ∉ code) : scan true code = [] := by
  have hinside := scan_true_inside h []
  rwa [List.append_nil] at hinside

theorem scan_bracket (s : List Char) : scan false ('[' :: s) = scan true s := by
  cases s with
  | nil => rfl
  | cons c s => rfl

/-! ## Reading -/

namespace Reads

/-- What is read comes first among the tokens of the section. -/
theorem scan_eq (h : Reads s ts rest) : scan false s = ts ++ scan false rest := by
  induction h with
  | done s => rfl
  | bracket hcode _ ih => rw [scan_bracket, scan_true_append hcode, ih]
  | unclosed hcode => rw [scan_bracket, scan_true_unclosed hcode]; rfl
  | escape _ ih => rw [scan, if_neg (by decide), if_pos rfl, ih]; rfl
  | @mark c d t s ts rest hmark _ ih =>
    have hbracket : c ≠ '[' := by
      rintro rfl
      cases hmark
    have hescape : c ≠ '\\' := by
      rintro rfl
      cases hmark
    rw [scan, if_neg hbracket, if_neg hescape, hmark]
    exact congrArg (List.cons t) ih
  | @single c s ts rest hbracket hescape hmark _ ih =>
    cases s with
    | nil =>
      rw [scan, if_neg hbracket, List.cons_append, ← ih]
      rfl
    | cons d s =>
      have hescape' : c ≠ '\\' := fun heq => List.cons_ne_nil d s (hescape heq)
      rw [scan, if_neg hbracket, if_neg hescape', hmark d rfl]
      exact congrArg (List.cons (ofChar c)) ih

/-- A character inside brackets is skipped. -/
theorem skip {x : Char} (hx : x ≠ ']') (h : Reads ('[' :: s) ts []) :
    Reads ('[' :: x :: s) ts [] := by
  generalize hs : '[' :: s = s' at h
  cases h with
  | done => cases hs
  | @bracket code s' _ _ hcode h =>
    obtain rfl := (List.cons.inj hs).2
    have hskip : ']' ∉ x :: code := List.not_mem_cons_of_ne_of_not_mem (Ne.symm hx) hcode
    exact Reads.bracket hskip h
  | unclosed hcode =>
    obtain rfl := (List.cons.inj hs).2
    exact .unclosed (List.not_mem_cons_of_ne_of_not_mem (Ne.symm hx) hcode)
  | escape h => cases hs
  | mark hmark h =>
    obtain rfl := (List.cons.inj hs).1
    cases hmark
  | single hbracket _ _ h => exact absurd (List.cons.inj hs).1.symm hbracket

end Reads

/-- Characters that are tokens of their own are read one by one. -/
theorem Reads.append_left {a : List Char} (h : ∀ c ∈ a, isSingle c = true)
    (hreads : Reads s ts rest) :
    Reads (a ++ s) (a.map ofChar ++ ts) rest := by
  induction a with
  | nil => exact hreads
  | cons c a ih =>
    have hc := h c List.mem_cons_self
    simp only [isSingle, Bool.and_eq_true, decide_eq_true_eq] at hc
    obtain ⟨⟨⟨hbracket, hescape⟩, he⟩, hE⟩ := hc
    apply Reads.single hbracket fun heq => absurd heq hescape
    · intro d _
      exact if_neg fun hmark => hmark.1.elim he hE
    · exact ih fun d hd => h d (List.mem_cons_of_mem c hd)

/-- The scan reaches the end of every section. -/
theorem reads_scan (bracket : Bool) (s : List Char) :
    Reads (if bracket = true then '[' :: s else s) (scan bracket s) [] := by
  fun_induction scan bracket s with
  | case1 bracket =>
    cases bracket with
    | true => exact .unclosed (by simp)
    | false => exact .done []
  | case2 c rest ih =>
    by_cases hc : c = ']'
    · rw [hc] at ih ⊢
      exact Reads.bracket (List.not_mem_nil : ']' ∉ []) ih
    · rw [decide_eq_true hc] at ih ⊢
      exact ih.skip hc
  | case3 => exact .unclosed (by simp)
  | case4 c hbracket =>
    exact .single hbracket (fun _ => rfl) (fun d hd => absurd hd (Option.not_mem_none d)) (.done [])
  | case5 d rest ih => exact ih
  | case6 d rest hbracket ih => exact .escape ih
  | case7 c d rest hbracket hescape t hmark ih => exact .mark hmark ih
  | case8 c d rest hbracket hescape hmark ih =>
    refine .single hbracket (fun heq => absurd heq hescape) ?_ ih
    intro x hx
    obtain rfl := Option.some.inj hx
    exact hmark

theorem reads_nil_iff : Reads s ts [] ↔ ofSection s = ts := by
  constructor
  · intro h
    exact h.scan_eq.trans (List.append_nil ts)
  · rintro rfl
    exact reads_scan false s

namespace Reads

/-- The codes in front of a place that is reached are read alike when another text follows there,
    unless this starts with a sign. -/
theorem replace (h : Reads s ts b) (hb : b ≠ [])
    (hsign : ∀ c ∈ t.head?, (c ≠ '+' ∧ c ≠ '-') ∨ b.head? = some c) :
    ∃ a, s = a ++ b ∧ Reads (a ++ t) ts t := by
  induction h with
  | done s => exact ⟨[], rfl, .done t⟩
  | @bracket code s ts rest hcode _ ih =>
    obtain ⟨a, rfl, h⟩ := ih hb hsign
    refine ⟨'[' :: (code ++ ']' :: a), by simp, ?_⟩
    have hread := Reads.bracket hcode h
    simpa using hread
  | unclosed => exact absurd rfl hb
  | @escape c s ts rest _ ih =>
    obtain ⟨a, rfl, h⟩ := ih hb hsign
    exact ⟨'\\' :: c :: a, rfl, .escape h⟩
  | mark hmark _ ih =>
    obtain ⟨a, rfl, h⟩ := ih hb hsign
    exact ⟨_ :: _ :: a, rfl, .mark hmark h⟩
  | @single c s ts rest hbracket hescape hmark _ ih =>
    obtain ⟨a, rfl, h⟩ := ih hb hsign
    refine ⟨c :: a, rfl, .single hbracket ?_ ?_ h⟩
    · intro heq
      exact absurd (List.append_eq_nil_iff.1 (hescape heq)).2 hb
    · intro d hd
      cases a with
      | cons x a => exact hmark d hd
      | nil =>
        rcases hsign d hd with ⟨hplus, hminus⟩ | hsame
        · exact if_neg fun hchars => hchars.2.elim hplus hminus
        · exact hmark d hsame

end Reads

end NumberToken

end Worksheet.Format
