-- SUMMARY: The tokens of a date section keep all of its text but bracket codes and the backslashes of escapes.
import Mathlib.Data.List.Forall2
import Worksheet.Proofs.Format.DateScan

/-!
# What the Tokens of a Date Section Keep

The tokens of a date section, written one after another, give the section again, without the
backslashes of its escapes and without its bracket codes. Only codes of elapsed time stay, in
lower case: `kept`. The scan has many cases and looks ahead in most of them, but of all pieces
that it reads, only these are changed: `kept_append_source`.
-/

namespace Worksheet.Format

variable {b : Bool} {c : Char} {s t code rest : List Char} {ps qs : List DatePiece}

/-! ## The text that is kept -/

/-- What is kept of a bracket code. -/
def keptCode (code : List Char) : List Char :=
  if ∃ u ∈ [ElapsedUnit.hours, .minutes, .seconds], u.IsCode code then
    '[' :: (code.map Char.toLower ++ [']'])
  else []

/-- What is kept of a section. -/
def kept : List Char → List Char
  | [] => []
  | '\\' :: c :: s => c :: kept s
  | c :: s =>
    if c = '[' then
      if ']' ∈ s then keptCode (s.takeWhile (· ≠ ']')) ++ kept (s.dropWhile (· ≠ ']')).tail
      else c :: s
    else c :: kept s
termination_by s => s.length
decreasing_by
  · simp only [List.length_cons]
    omega
  · have hle := (List.dropWhile_sublist (l := s) fun x => decide (x ≠ ']')).length_le
    rw [List.length_tail, List.length_cons]
    omega
  · exact Nat.lt_succ_self _

/-- The text of a token with the point of decimals and the brackets of elapsed time. -/
def DateToken.restored {κ : Type} (t : DateToken κ) : List Char :=
  match t with
  | .fraction _ => '.' :: t.text
  | .elapsed _ _ => '[' :: (t.text ++ [']'])
  | _ => t.text

theorem kept_escape (c : Char) (s : List Char) : kept ('\\' :: c :: s) = c :: kept s := by
  rw [kept]

theorem kept_cons (hbracket : c ≠ '[') (hescape : c = '\\' → s = []) :
    kept (c :: s) = c :: kept s := by
  rw [kept]
  · exact if_neg hbracket
  · intro d t hc hs
    rw [hescape hc] at hs
    cases hs

theorem kept_append (h : ∀ c ∈ t, c ≠ '[' ∧ c ≠ '\\') (s : List Char) :
    kept (t ++ s) = t ++ kept s := by
  induction t with
  | nil => rfl
  | cons c t ih =>
    obtain ⟨hbracket, hescape⟩ := h c List.mem_cons_self
    rw [List.cons_append, kept_cons hbracket fun heq => absurd heq hescape,
      ih fun d hd => h d (List.mem_cons_of_mem c hd), List.cons_append]

theorem kept_closed (h : ']' ∉ code) (s : List Char) :
    kept ('[' :: (code ++ ']' :: s)) = keptCode code ++ kept s := by
  rw [kept, if_pos rfl, if_pos (by simp), takeWhile_closed h, dropWhile_closed h]
  · rfl
  · intro d t hc
    exact absurd hc (by decide)

theorem kept_unclosed (h : ']' ∉ code) : kept ('[' :: code) = '[' :: code := by
  rw [kept, if_pos rfl, if_neg h]
  intro d t hc
  exact absurd hc (by decide)

theorem keptCode_of_isCode {u : ElapsedUnit} (h : u.IsCode code) :
    keptCode code = '[' :: (List.replicate code.length u.letter ++ [']']) := by
  have hlower : code.map Char.toLower = List.replicate code.length u.letter := by
    rw [List.eq_replicate_iff]
    refine ⟨List.length_map _, ?_⟩
    intro d hd
    obtain ⟨c, hc, rfl⟩ := List.mem_map.1 hd
    exact h.2 c hc
  have hunit : ∃ v ∈ [ElapsedUnit.hours, .minutes, .seconds], v.IsCode code :=
    ⟨u, by cases u <;> simp, h⟩
  rw [keptCode, if_pos hunit, hlower]

/-! ## The pieces of a section -/

/-- No brackets and backslashes are in a text whose upper case is a mark. -/
theorem forall_of_map_toUpper {word : List Char} (h : t.map Char.toUpper = word)
    (hbracket : '[' ∉ word) (hescape : '\\' ∉ word) : ∀ c ∈ t, c ≠ '[' ∧ c ≠ '\\' := by
  intro c hc
  have hmem : c.toUpper ∈ word := h ▸ List.mem_map_of_mem hc
  constructor
  · rintro rfl
    exact hbracket hmem
  · rintro rfl
    exact hescape hmem

theorem forall_of_letter {l : DateLetter} (h : ∀ c ∈ t, DateLetter.ofChar? c = some l) :
    ∀ c ∈ t, c ≠ '[' ∧ c ≠ '\\' := by
  have hchars : ∀ c ∈ DateLetter.chars, c ≠ '[' ∧ c ≠ '\\' := by simp [DateLetter.chars]
  intro c hc
  exact hchars c (DateLetter.mem_chars (h c hc))

/-- What is kept of a piece is its token. -/
theorem kept_append_source {p : DatePiece} (h : p.Reads b rest) :
    kept (p.source ++ rest) = (p.token?.map DateToken.restored).getD [] ++ kept rest := by
  cases p with
  | elapsed u code =>
    rw [DatePiece.source, List.cons_append, List.append_assoc, List.singleton_append,
      kept_closed h.notMem, keptCode_of_isCode h]
    rfl
  | code code =>
    have hno : ¬∃ u ∈ [ElapsedUnit.hours, .minutes, .seconds], u.IsCode code := by
      rintro ⟨u, -, hu⟩
      exact h.2 u hu
    rw [DatePiece.source, List.cons_append, List.append_assoc, List.singleton_append,
      kept_closed h.1, keptCode, if_neg hno]
    rfl
  | unclosed code =>
    obtain ⟨hcode, rfl⟩ := h
    rw [DatePiece.source, List.append_nil, kept_unclosed hcode, kept, List.append_nil]
    rfl
  | escape c => exact kept_escape c rest
  | halfDay text => exact kept_append (forall_of_map_toUpper h (by decide) (by decide)) rest
  | halfDayLetter text => exact kept_append (forall_of_map_toUpper h (by decide) (by decide)) rest
  | run l text => exact kept_append (forall_of_letter h.2.1) rest
  | fraction width =>
    refine kept_append ?_ rest
    intro c hc
    rcases List.mem_cons.1 hc with rfl | hzero
    · decide
    · rw [List.eq_of_mem_replicate hzero]
      decide
  | single c => exact kept_cons h.1 h.2.1

theorem Divides.kept_eq (h : Divides b s ps) :
    kept s = (ps.filterMap DatePiece.token?).flatMap DateToken.restored := by
  induction h with
  | nil b => rw [kept]; rfl
  | @cons b p rest ps hread _ ih =>
    rw [kept_append_source hread, ih]
    cases htoken : p.token? with
    | some t => rw [List.filterMap_cons_some htoken]; rfl
    | none => rw [List.filterMap_cons_none htoken]; rfl

/-! ## The tokens of the pieces -/

/-- The parts of a date that a letter stands for. -/
def DateLetter.parts : DateLetter → List DatePart
  | .y => [.year]
  | .m => [.month, .minute]
  | .d => [.day]
  | .h => [.hour]
  | .s => [.second]

namespace DateToken

theorem partOf_mem_parts (afterHour beforeSecond : Bool) (l : DateLetter) (width : Nat) :
    partOf afterHour beforeSecond l width ∈ l.parts := by
  cases l with
  | m =>
    simp only [partOf]
    split <;> simp [DateLetter.parts]
  | _ => exact List.mem_singleton_self _

@[simp] theorem restored_mapKind {κ μ : Type} (f : κ → List Char → μ) (t : DateToken κ) :
    (t.mapKind f).restored = t.restored := by
  cases t <;> rfl

theorem restored_resolve (afterHour : Bool) (ts : List (DateToken DateLetter)) :
    (resolve afterHour ts).flatMap restored = ts.flatMap restored := by
  induction ts generalizing afterHour with
  | nil => rfl
  | cons t ts ih => rw [resolve, List.flatMap_cons, List.flatMap_cons, ih, restored_mapKind]

end DateToken

/-- Whether a piece leaves no token. -/
def DatePiece.isDropped : DatePiece → Bool
  | .code _ => true
  | _ => false

/-- What a token of a section shows: a run shows a part that its letter stands for. -/
def DatePiece.IsShownBy (t : DateToken DatePart) : DatePiece → Prop
  | .elapsed unit code => t = .elapsed unit code.length
  | .code _ => False
  | .unclosed code => t = .literal ('[' :: code)
  | .escape c => t = .literal [c]
  | .halfDay text => t = .halfDay text
  | .halfDayLetter text => t = .halfDayLetter text
  | .run letter text => ∃ part ∈ letter.parts, t = .run part text
  | .fraction width => t = .fraction width
  | .single c => t = .literal [c]

theorem forall₂_isShownBy (afterHour : Bool) (ps : List DatePiece) :
    List.Forall₂ (fun p t => p.IsShownBy t) (ps.filter (!·.isDropped))
      (DateToken.resolve afterHour (ps.filterMap DatePiece.token?)) := by
  induction ps generalizing afterHour with
  | nil => exact .nil
  | cons p ps ih =>
    cases p with
    | code code => exact ih afterHour
    | run l text => exact .cons ⟨_, DateToken.partOf_mem_parts _ _ l _, rfl⟩ (ih _)
    | _ => exact .cons rfl (ih _)

/-- The texts of the tokens of a section, with points and brackets put back, are the section as
    far as it is kept. The section divides into pieces in one way only, with runs that are as
    long as they can be, and each piece that is not a dropped code has one token: an escaped
    character is literal, and a run of a letter is one run of a part that the letter stands
    for. -/
theorem ofSection_keeps (s : List Char) :
    (DateToken.ofSection s).flatMap DateToken.restored = kept s ∧
      ∃ ps, (∀ qs, Divides false s qs ↔ qs = ps) ∧
        List.Forall₂ (fun p t => p.IsShownBy t) (ps.filter (!·.isDropped))
          (DateToken.ofSection s) := by
  obtain ⟨ps, hps⟩ := exists_divides false s
  have htokens : DateToken.ofSection s =
      DateToken.resolve false (ps.filterMap DatePiece.token?) := by
    rw [DateToken.ofSection, hps.scan_eq]
  rw [htokens]
  refine ⟨?_, ps, fun qs => ⟨fun hqs => hqs.unique hps, fun h => h ▸ hps⟩, forall₂_isShownBy _ _⟩
  rw [DateToken.restored_resolve, hps.kept_eq]

example : kept "[HH]:mm\\h[Red]s.00[".toList = "[hh]:mmhs.00[".toList := by decide +kernel

end Worksheet.Format
