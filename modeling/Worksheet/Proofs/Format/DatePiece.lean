-- SUMMARY: The pieces that a date section divides into.
import Mathlib.Data.List.Basic
import Worksheet.Format.DateToken

/-!
# Pieces of a Date Section

A date section is read piece by piece: a bracket and what is in it, an escaped character, a mark
of half a day, a run of one letter, decimals of the second, or a single character. What a piece
is depends on the piece itself and on what follows it, and for decimals on the token before:
`DatePiece.Reads`. Marks and codes are written in any case. The upper case of a text need not be
that of its characters one by one, but for the words that pieces are compared with the two agree:
`Text.upperAll_eq_iff`.
-/

namespace Worksheet

variable {c d : Char} {s t code word : List Char}

/-! ## Words in any case -/

namespace Text

/-- Characters whose upper case is not only their own. -/
def specialLower : List Char :=
  ['\u0131', '\u017F', '\u00DF', '\uFB00', '\uFB01', '\uFB02', '\uFB03', '\uFB04', '\uFB05',
    '\uFB06']

/-- The upper case of such a character begins with one of three letters. -/
theorem upper_cases (c : Char) :
    upper c = [c.toUpper] ∨
      (c.toUpper = c ∧ ¬c ≤ 'z' ∧ ∃ d ∈ ['I', 'S', 'F'], upper c = d :: (upper c).tail) := by
  by_cases hc : c ∈ specialLower
  · have hspecial : ∀ c ∈ specialLower, c.toUpper = c ∧ ¬c ≤ 'z' ∧
        ∃ d ∈ ['I', 'S', 'F'], upper c = d :: (upper c).tail := by
      simp [specialLower, upper]
    exact .inr (hspecial c hc)
  · left
    simp only [specialLower, List.mem_cons, List.not_mem_nil, or_false, not_or] at hc
    simp [upper, hc]

theorem upperAll_cons (c : Char) (s : List Char) :
    upperAll (c :: s) = upper c ++ upperAll s := by
  simp [upperAll]

/-- A text has a word as its upper case if it is the word in some case. -/
theorem upperAll_eq_iff (h : ∀ d ∈ word, d ≤ 'z' ∧ d ∉ ['I', 'S', 'F']) :
    upperAll s = word ↔ s.map Char.toUpper = word := by
  induction s generalizing word with
  | nil => rfl
  | cons c s ih =>
    rw [upperAll_cons, List.map_cons]
    obtain hupper | ⟨hupper, hlarge, d, hd, htail⟩ := upper_cases c
    · rw [hupper, List.singleton_append]
      cases word with
      | nil => simp
      | cons d word =>
        have htail := ih fun e he => h e (List.mem_cons_of_mem d he)
        simp [htail]
    · rw [hupper, htail, List.cons_append]
      refine iff_of_false ?_ ?_
      · rintro rfl
        exact (h d List.mem_cons_self).2 hd
      · rintro rfl
        exact hlarge (h c List.mem_cons_self).1

end Text

namespace Format

/-! ## Codes of elapsed time -/

namespace ElapsedUnit

variable {u v : ElapsedUnit}

/-- A bracket code counts elapsed time if it is a run of the letter of a unit, in any case. -/
def IsCode (u : ElapsedUnit) (code : List Char) : Prop :=
  code ≠ [] ∧ ∀ c ∈ code, c.toLower = u.letter

instance (u : ElapsedUnit) (code : List Char) : Decidable (u.IsCode code) :=
  decidable_of_iff (code ≠ [] ∧ code.all (·.toLower = u.letter) = true) (by simp [IsCode])

theorem lower_ne_nil (c : Char) : Text.lower c ≠ [] := by
  unfold Text.lower
  split
  · exact List.cons_ne_nil _ _
  · split <;> exact List.cons_ne_nil _ _

theorem forall_mem_lower_iff : (∀ d ∈ Text.lower c, d = u.letter) ↔ c.toLower = u.letter := by
  unfold Text.lower
  split
  · rename_i hc
    subst hc
    cases u <;> simp [letter]
  · split
    · rename_i hc
      subst hc
      cases u <;> simp [letter]
    · simp

theorem all_lowerAll_iff :
    (!(Text.lowerAll code).isEmpty && (Text.lowerAll code).all (· = u.letter)) = true ↔
      u.IsCode code := by
  have hempty : Text.lowerAll code = [] ↔ code = [] := by
    simp only [Text.lowerAll, List.flatMap_eq_nil_iff, lower_ne_nil, imp_false,
      ← List.eq_nil_iff_forall_not_mem]
  have hall : (∀ d ∈ Text.lowerAll code, d = u.letter) ↔ ∀ c ∈ code, c.toLower = u.letter := by
    simp only [← forall_mem_lower_iff, Text.lowerAll, List.forall_mem_flatMap]
  simp only [Bool.and_eq_true, Bool.not_eq_true', List.isEmpty_eq_false_iff, List.all_eq_true,
    decide_eq_true_eq, hall, ne_eq, hempty, IsCode]

theorem IsCode.unique (hu : u.IsCode code) (hv : v.IsCode code) : u = v := by
  obtain ⟨c, hc⟩ := List.exists_mem_of_ne_nil code hu.1
  have hletter : u.letter = v.letter := (hu.2 c hc).symm.trans (hv.2 c hc)
  cases u <;> cases v <;> first | rfl | exact absurd hletter (by decide)

theorem IsCode.notMem (h : u.IsCode code) : ']' ∉ code := by
  intro hmem
  have hletter := h.2 ']' hmem
  cases u <;> exact absurd hletter (by decide)

theorem isCode_of_ofCode? (h : ofCode? (Text.lowerAll code) = some u) : u.IsCode code := by
  unfold ofCode? at h
  have hcode := List.find?_some h
  exact all_lowerAll_iff.1 hcode

theorem ofCode?_eq_some_iff : ofCode? (Text.lowerAll code) = some u ↔ u.IsCode code := by
  refine ⟨isCode_of_ofCode?, fun h => ?_⟩
  cases hfind : ofCode? (Text.lowerAll code) with
  | some v => rw [h.unique (isCode_of_ofCode? hfind)]
  | none =>
    have hno := List.find?_eq_none.1 hfind u (by cases u <;> decide)
    exact absurd (all_lowerAll_iff.2 h) hno

theorem ofCode?_eq_none_iff : ofCode? (Text.lowerAll code) = none ↔ ∀ u, ¬IsCode u code := by
  simp only [Option.eq_none_iff_forall_ne_some, ne_eq, ofCode?_eq_some_iff]

end ElapsedUnit

/-! ## Pieces -/

/-- The letters of a date in upper and in lower case. -/
def DateLetter.chars : List Char := ['y', 'Y', 'm', 'M', 'd', 'D', 'h', 'H', 's', 'S']

theorem DateLetter.mem_chars {l : DateLetter} (h : ofChar? c = some l) : c ∈ chars := by
  by_contra hc
  simp only [chars, List.mem_cons, List.not_mem_nil, or_false, not_or] at hc
  simp [ofChar?, hc] at h

/-- Whether a text begins with a word in any case. -/
def BeginsWith (word s : List Char) : Prop := (s.take word.length).map Char.toUpper = word

instance (word s : List Char) : Decidable (BeginsWith word s) :=
  inferInstanceAs (Decidable (_ = _))

theorem beginsWith_append (h : t.map Char.toUpper = word) (rest : List Char) :
    BeginsWith word (t ++ rest) := by
  have hlength : t.length = word.length := by rw [← h, List.length_map]
  rwa [BeginsWith, List.take_left' hlength]

theorem head_of_beginsWith (h : BeginsWith (d :: word) (c :: s)) :
    c.toUpper = d :=
  (List.cons.inj h).1

/-- The mark of half a day. -/
def halfDayMark : List Char := "AM/PM".toList

/-- The short mark of half a day. -/
def halfDayLetterMark : List Char := "A/P".toList

/-- A piece of a date section that is read at once. -/
inductive DatePiece where
  /-- A bracket code that counts elapsed time. -/
  | elapsed (unit : ElapsedUnit) (code : List Char)
  /-- Another bracket code. -/
  | code (code : List Char)
  /-- A bracket that is not closed. -/
  | unclosed (code : List Char)
  /-- A character with a backslash before it. -/
  | escape (c : Char)
  | halfDay (text : List Char)
  | halfDayLetter (text : List Char)
  | run (letter : DateLetter) (text : List Char)
  /-- A point and decimals of the second. -/
  | fraction (width : Nat)
  | single (c : Char)
deriving DecidableEq, Repr

namespace DatePiece

/-- What a piece is read from. -/
def source : DatePiece → List Char
  | .elapsed _ code => '[' :: (code ++ [']'])
  | .code code => '[' :: (code ++ [']'])
  | .unclosed code => '[' :: code
  | .escape c => ['\\', c]
  | .halfDay text => text
  | .halfDayLetter text => text
  | .run _ text => text
  | .fraction width => '.' :: List.replicate width '0'
  | .single c => [c]

/-- The token of a piece. -/
def token? : DatePiece → Option (DateToken DateLetter)
  | .elapsed unit code => some (.elapsed unit code.length)
  | .code _ => none
  | .unclosed code => some (.literal ('[' :: code))
  | .escape c => some (.literal [c])
  | .halfDay text => some (.halfDay text)
  | .halfDayLetter text => some (.halfDayLetter text)
  | .run letter text => some (.run letter text)
  | .fraction width => some (.fraction width)
  | .single c => some (.literal [c])

/-- When a piece is read in front of the rest of a section. A run and decimals are as long as
    they can be. The flag says that the token before shows seconds. -/
def Reads (afterSecond : Bool) (rest : List Char) : DatePiece → Prop
  | .elapsed unit code => unit.IsCode code
  | .code code => ']' ∉ code ∧ ∀ u, ¬ElapsedUnit.IsCode u code
  | .unclosed code => ']' ∉ code ∧ rest = []
  | .escape _ => True
  | .halfDay text => text.map Char.toUpper = halfDayMark
  | .halfDayLetter text => text.map Char.toUpper = halfDayLetterMark
  | .run letter text => text ≠ [] ∧ (∀ c ∈ text, DateLetter.ofChar? c = some letter) ∧
      ∀ c ∈ rest.head?, DateLetter.ofChar? c ≠ some letter
  | .fraction width => afterSecond = true ∧ 0 < width ∧ rest.head? ≠ some '0'
  | .single c => c ≠ '[' ∧ (c = '\\' → rest = []) ∧ DateLetter.ofChar? c = none ∧
      ¬BeginsWith halfDayMark (c :: rest) ∧ ¬BeginsWith halfDayLetterMark (c :: rest) ∧
      ¬(c = '.' ∧ afterSecond = true ∧ rest.head? = some '0')

/-- Whether the token before the next piece shows seconds. A piece without a token changes
    nothing. -/
def afterSecond (before : Bool) (p : DatePiece) : Bool :=
  match p.token? with
  | some t => t.isSecond
  | none => before

end DatePiece

/-- A section that is read piece by piece. -/
inductive Divides : Bool → List Char → List DatePiece → Prop where
  | nil (afterSecond : Bool) : Divides afterSecond [] []
  | cons {afterSecond : Bool} {p : DatePiece} {rest : List Char} {ps : List DatePiece}
      (hread : p.Reads afterSecond rest) (h : Divides (p.afterSecond afterSecond) rest ps) :
      Divides afterSecond (p.source ++ rest) (p :: ps)

theorem Divides.source_eq {b : Bool} {ps : List DatePiece} (h : Divides b s ps) :
    s = ps.flatMap DatePiece.source := by
  induction h with
  | nil b => rfl
  | cons _ _ ih => rw [List.flatMap_cons, ← ih]

end Format

end Worksheet
