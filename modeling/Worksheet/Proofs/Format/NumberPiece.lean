-- SUMMARY: The tokens of a number section keep its text but brackets and backslashes, and those of two sections come one after the other but at a seam.
import Mathlib.Data.List.Forall2
import Worksheet.Proofs.Format.Scan

/-!
# Pieces of a Number Section

A number section is read piece by piece: a bracket and what is in it, an escaped character, the
mark of an exponent, or a single character. What a piece is depends on the piece itself and on
what follows it: `NumberPiece.Reads`. So a section divides in one way, each piece but those in
brackets has one token, and only the last piece of a section can read on in a text behind it:
`NumberPiece.Divides.append`.
-/

namespace Worksheet.Format

/-- A piece of a number section that is read at once. -/
inductive NumberPiece where
  /-- A code in brackets. -/
  | code (text : List Char)
  /-- A bracket that is not closed, with all that follows. -/
  | unclosed (text : List Char)
  /-- A character with a backslash before it. -/
  | escape (c : Char)
  /-- The letter and the sign of an exponent. -/
  | mark (letter sign : Char)
  | single (c : Char)
deriving DecidableEq, Repr

namespace NumberPiece

open NumberToken (ofChar mark? ofSection texts)

/-- Whether two characters are the mark of an exponent. -/
def IsMark (letter sign : Char) : Prop :=
  (letter = 'e' ∨ letter = 'E') ∧ (sign = '+' ∨ sign = '-')

instance (letter sign : Char) : Decidable (IsMark letter sign) :=
  inferInstanceAs (Decidable (_ ∧ _))

/-- What a piece is read from. -/
def source : NumberPiece → List Char
  | .code text => '[' :: (text ++ [']'])
  | .unclosed text => '[' :: text
  | .escape c => ['\\', c]
  | .mark letter sign => [letter, sign]
  | .single c => [c]

/-- When a piece is read in front of the rest of a section. -/
def Reads (rest : List Char) : NumberPiece → Prop
  | .code text => ']' ∉ text
  | .unclosed text => ']' ∉ text ∧ rest = []
  | .escape _ => True
  | .mark letter sign => IsMark letter sign
  | .single c => c ≠ '[' ∧ (c = '\\' → rest = []) ∧ ∀ d ∈ rest.head?, ¬IsMark c d

/-- A section that is read piece by piece. -/
inductive Divides : List Char → List NumberPiece → Prop where
  | nil : Divides [] []
  | cons {p : NumberPiece} {rest : List Char} {ps : List NumberPiece} (hread : p.Reads rest)
      (h : Divides rest ps) : Divides (p.source ++ rest) (p :: ps)

/-- The token of a piece. -/
def token? : NumberPiece → Option NumberToken
  | .code _ => none
  | .unclosed _ => none
  | .escape c => some (.literal c)
  | .mark letter sign => mark? letter sign
  | .single c => some (ofChar c)

variable {p : NumberPiece} {c : Char} {s t rest : List Char} {ps qs : List NumberPiece}

/-! ## Marks -/

theorem IsMark.ne {letter sign : Char} (h : IsMark letter sign) : letter ≠ '[' ∧ letter ≠ '\\' := by
  obtain ⟨rfl | rfl, -⟩ := h <;> decide

theorem mark?_eq_none_iff {letter sign : Char} :
    mark? letter sign = none ↔ ¬IsMark letter sign := by
  unfold mark? IsMark
  split_ifs with h
  · simp [h]
  · simp [h]

theorem token?_mark {letter sign : Char} (h : IsMark letter sign) :
    (mark letter sign).token? = some (.exponent (letter = 'E') (sign = '+')) := if_pos h

/-! ## One division -/

/-- The piece that a text begins with. -/
def first (c : Char) (s : List Char) : NumberPiece :=
  if c = '[' then if ']' ∈ s then .code (s.takeWhile (· ≠ ']')) else .unclosed s
  else
    match s with
    | [] => .single c
    | d :: _ => if c = '\\' then .escape d else if IsMark c d then .mark c d else .single c

theorem Reads.exists_first (h : p.Reads rest) :
    ∃ c s, p.source ++ rest = c :: s ∧ p = first c s := by
  cases p with
  | code text =>
    refine ⟨'[', text ++ ']' :: rest, by simp [source], ?_⟩
    unfold first
    rw [if_pos rfl, if_pos (by simp), takeWhile_closed h]
  | unclosed text =>
    obtain ⟨htext, rfl⟩ := h
    refine ⟨'[', text, List.append_nil _, ?_⟩
    unfold first
    rw [if_pos rfl, if_neg htext]
  | escape c => exact ⟨'\\', c :: rest, rfl, rfl⟩
  | mark letter sign =>
    obtain ⟨hbracket, hescape⟩ := IsMark.ne h
    refine ⟨letter, sign :: rest, rfl, ?_⟩
    have hmark : IsMark letter sign := h
    simp only [first, hbracket, hescape, hmark, if_true, if_false]
  | single c =>
    obtain ⟨hbracket, hescape, hmark⟩ := h
    refine ⟨c, rest, rfl, ?_⟩
    cases rest with
    | nil => rw [first, if_neg hbracket]
    | cons d rest =>
      have hescape' : c ≠ '\\' := fun heq => List.cons_ne_nil d rest (hescape heq)
      simp only [first, hbracket, hescape', hmark d rfl, if_false]

theorem Divides.eq_nil (h : Divides [] ps) : ps = [] := by
  generalize hs : [] = s at h
  cases h with
  | nil => rfl
  | cons hread _ =>
    obtain ⟨c, t, hsource, -⟩ := hread.exists_first
    rw [hsource] at hs
    cases hs

/-- A section divides into pieces in one way. -/
theorem Divides.unique (hps : Divides s ps) (hqs : Divides s qs) : ps = qs := by
  induction hps generalizing qs with
  | nil => exact hqs.eq_nil.symm
  | @cons p rest ps hp _ ih =>
    obtain ⟨c, t, hsource, hfirst⟩ := hp.exists_first
    generalize hs : p.source ++ rest = s at hqs
    cases hqs with
    | nil =>
      rw [hsource] at hs
      cases hs
    | @cons q rest' qs hq h =>
      obtain ⟨c', t', hsource', hfirst'⟩ := hq.exists_first
      rw [hs, hsource'] at hsource
      obtain ⟨rfl, rfl⟩ := List.cons.inj hsource
      obtain rfl : p = q := hfirst.trans hfirst'.symm
      obtain rfl : rest = rest' := List.append_cancel_left hs
      rw [ih h]

/-- Each section divides into pieces. -/
theorem exists_divides (s : List Char) : ∃ ps, Divides s ps := by
  have hreads := NumberToken.reads_scan false s
  simp only [Bool.false_eq_true, if_false] at hreads
  generalize NumberToken.scan false s = ts at hreads
  generalize hrest : ([] : List Char) = rest at hreads
  induction hreads with
  | done s => exact ⟨[], hrest ▸ .nil⟩
  | @bracket code s ts rest hcode _ ih =>
    obtain ⟨ps, hps⟩ := ih hrest
    have hdivides := Divides.cons (p := .code code) hcode hps
    exact ⟨_, by simpa [source] using hdivides⟩
  | @unclosed code hcode =>
    have hdivides := Divides.cons (p := .unclosed code) ⟨hcode, rfl⟩ .nil
    exact ⟨_, by simpa [source] using hdivides⟩
  | @escape c s ts rest _ ih =>
    obtain ⟨ps, hps⟩ := ih hrest
    exact ⟨_, Divides.cons (p := .escape c) trivial hps⟩
  | @mark c d t s ts rest hmark _ ih =>
    obtain ⟨ps, hps⟩ := ih hrest
    have hread : (NumberPiece.mark c d).Reads s := by
      by_contra hnot
      rw [mark?_eq_none_iff.2 hnot] at hmark
      cases hmark
    exact ⟨_, .cons hread hps⟩
  | @single c s ts rest hbracket hescape hmark _ ih =>
    obtain ⟨ps, hps⟩ := ih hrest
    have hread : (NumberPiece.single c).Reads s :=
      ⟨hbracket, hescape, fun d hd => mark?_eq_none_iff.1 (hmark d hd)⟩
    exact ⟨_, .cons hread hps⟩

/-! ## Tokens of the pieces -/

theorem Divides.reads (h : Divides s ps) : NumberToken.Reads s (ps.filterMap token?) [] := by
  induction h with
  | nil => exact .done []
  | @cons p rest ps hread h ih =>
    cases p with
    | code text =>
      change NumberToken.Reads ('[' :: (text ++ [']']) ++ rest) (ps.filterMap token?) []
      rw [List.cons_append, List.append_assoc]
      exact .bracket hread ih
    | unclosed text =>
      obtain ⟨htext, rfl⟩ := hread
      rw [h.eq_nil, source, List.append_nil]
      exact .unclosed htext
    | escape c => exact .escape ih
    | mark letter sign =>
      rw [List.filterMap_cons_some (token?_mark hread)]
      exact .mark (token?_mark hread) ih
    | single c =>
      obtain ⟨hbracket, hescape, hmark⟩ := hread
      exact .single hbracket hescape (fun d hd => mark?_eq_none_iff.2 (hmark d hd)) ih

/-- The tokens of a section are those of its pieces. -/
theorem Divides.ofSection_eq (h : Divides s ps) : ofSection s = ps.filterMap token? :=
  NumberToken.reads_nil_iff.1 h.reads

/-- Whether a piece has no token. -/
def isDropped : NumberPiece → Bool
  | .code _ => true
  | .unclosed _ => true
  | _ => false

/-- What the token of a piece is: an escaped character is literal, and the token of a single
    character is of the kind that belongs to the character. -/
def IsShownBy (t : NumberToken) : NumberPiece → Prop
  | .code _ => False
  | .unclosed _ => False
  | .escape c => t = .literal c
  | .mark letter sign => t.isMark = true ∧ t.text = [letter, sign]
  | .single c => t.isMark = false ∧ t.text = [c] ∧
      (t.isPlace = true ↔ c = '0' ∨ c = '#' ∨ c = '?') ∧ (t = .point ↔ c = '.') ∧
      (t = .comma ↔ c = ',') ∧ (t = .slash ↔ c = '/') ∧ (t = .percent ↔ c = '%')

theorem isShownBy_ofChar (c : Char) : (single c).IsShownBy (ofChar c) := by
  refine ⟨?_, text_ofChar c, ?_⟩
  · unfold ofChar
    split_ifs <;> rfl
  · unfold ofChar
    split_ifs with h h h h h h h <;> simp_all [NumberToken.isPlace, NumberToken.place?]

theorem forall₂_isShownBy (h : Divides s ps) :
    List.Forall₂ (fun p t => p.IsShownBy t) (ps.filter (!·.isDropped)) (ps.filterMap token?) := by
  induction h with
  | nil => exact .nil
  | @cons p rest ps hread _ ih =>
    cases p with
    | code text => exact ih
    | unclosed text => exact ih
    | escape c => exact .cons rfl ih
    | mark letter sign =>
      rw [List.filterMap_cons_some (token?_mark hread)]
      exact .cons ⟨rfl, NumberToken.text_mark? (token?_mark hread)⟩ ih
    | single c => exact .cons (isShownBy_ofChar c) ih

/-! ## The text that is kept -/

/-- A section without its bracket codes and without the backslashes of its escapes. -/
def kept : List Char → List Char
  | [] => []
  | '\\' :: c :: s => c :: kept s
  | c :: s => if c = '[' then kept (s.dropWhile (· ≠ ']')).tail else c :: kept s
termination_by s => s.length
decreasing_by
  · simp only [List.length_cons]
    omega
  · have hle := (List.dropWhile_sublist (l := s) fun x => decide (x ≠ ']')).length_le
    rw [List.length_tail, List.length_cons]
    omega
  · exact Nat.lt_succ_self _

theorem kept_bracket (s : List Char) :
    kept ('[' :: s) = kept (s.dropWhile (· ≠ ']')).tail := by
  rw [kept]
  · exact if_pos rfl
  · intro d t hc
    exact absurd hc (by decide)

theorem kept_cons (hbracket : c ≠ '[') (hescape : c = '\\' → s = []) :
    kept (c :: s) = c :: kept s := by
  rw [kept]
  · exact if_neg hbracket
  · intro d t hc hs
    rw [hescape hc] at hs
    cases hs

/-- What is kept of a piece is the text of its token. -/
theorem Reads.kept_eq (h : p.Reads rest) :
    kept (p.source ++ rest) = (p.token?.map NumberToken.text).getD [] ++ kept rest := by
  cases p with
  | code text =>
    rw [source, List.cons_append, List.append_assoc, List.singleton_append, kept_bracket,
      dropWhile_closed h]
    rfl
  | unclosed text =>
    obtain ⟨htext, rfl⟩ := h
    rw [source, List.append_nil, kept_bracket, dropWhile_unclosed htext]
    rfl
  | escape c =>
    change kept ('\\' :: c :: rest) = c :: kept rest
    rw [kept]
  | mark letter sign =>
    obtain ⟨hbracket, hescape⟩ := IsMark.ne h
    have hsign : sign ≠ '[' ∧ sign ≠ '\\' := by
      obtain ⟨-, rfl | rfl⟩ := h <;> decide
    change kept (letter :: sign :: rest) = _
    rw [kept_cons hbracket fun heq => absurd heq hescape,
      kept_cons hsign.1 fun heq => absurd heq hsign.2, token?_mark h, Option.map_some,
      Option.getD_some, NumberToken.text_mark? (token?_mark h)]
    rfl
  | single c =>
    change kept (c :: rest) = (ofChar c).text ++ kept rest
    rw [kept_cons h.1 h.2.1, text_ofChar]
    rfl

theorem Divides.texts_eq (h : Divides s ps) : texts (ps.filterMap token?) = kept s := by
  induction h with
  | nil => rw [kept]; rfl
  | @cons p rest ps hread _ ih =>
    rw [hread.kept_eq, ← ih]
    cases htoken : p.token? with
    | some t => rw [List.filterMap_cons_some htoken]; rfl
    | none => rw [List.filterMap_cons_none htoken]; rfl

/-! ## Two sections side by side -/

theorem Reads.append (h : p.Reads rest) (hne : rest ≠ []) (t : List Char) :
    p.Reads (rest ++ t) := by
  obtain ⟨d, rest, rfl⟩ := List.exists_cons_of_ne_nil hne
  cases p with
  | code text => exact h
  | unclosed text => exact absurd h.2 hne
  | escape c => exact trivial
  | mark letter sign => exact h
  | single c => exact ⟨h.1, fun heq => absurd (h.2.1 heq) hne, h.2.2⟩

/-- Only the last piece of a section sees what stands behind the section. -/
theorem Divides.append (hs : Divides s ps) (ht : Divides t qs)
    (hlast : ∀ p ∈ ps.getLast?, p.Reads t) : Divides (s ++ t) (ps ++ qs) := by
  induction hs with
  | nil => exact ht
  | @cons p rest ps hread h ih =>
    rw [List.append_assoc, List.cons_append]
    cases ps with
    | nil =>
      obtain rfl : rest = [] := by
        cases h
        rfl
      exact .cons (hlast p rfl) ht
    | cons q ps =>
      refine .cons (hread.append ?_ t) (ih hlast)
      rintro rfl
      cases h.eq_nil

/-- A piece that takes what stands behind it is the last one. -/
theorem Divides.getLast?_eq (h : Divides s ps) (hp : p ∈ ps)
    (hend : ∀ rest, p.Reads rest → rest = []) : ps.getLast? = some p := by
  induction h with
  | nil => cases hp
  | @cons q rest ps hread h ih =>
    rcases List.mem_cons.1 hp with rfl | hp
    · obtain rfl := hend rest hread
      rw [h.eq_nil]
      rfl
    · obtain ⟨r, ps, rfl⟩ := List.exists_cons_of_ne_nil (List.ne_nil_of_mem hp)
      rw [List.getLast?_cons_cons]
      exact ih hp

/-- The last piece may be a longer one in a longer section. -/
theorem Divides.extend {q : NumberPiece} (h : Divides s (ps ++ [p])) (hq : q.Reads [])
    (hsource : q.source = p.source ++ t) : Divides (s ++ t) (ps ++ [q]) := by
  generalize hlist : ps ++ [p] = ps' at h
  induction h generalizing ps with
  | nil => cases ps <;> cases hlist
  | @cons r rest ps' hread h ih =>
    cases ps with
    | nil =>
      obtain ⟨rfl, rfl⟩ := List.cons.inj hlist
      obtain rfl : rest = [] := by
        cases h
        rfl
      have hsingle := Divides.cons hq .nil
      rw [List.append_nil, hsource] at hsingle
      rwa [List.append_nil]
    | cons r' ps =>
      obtain ⟨rfl, rfl⟩ := List.cons.inj hlist
      rw [List.append_assoc]
      refine .cons (hread.append ?_ t) (ih rfl)
      rintro rfl
      exact absurd h.eq_nil (by simp)

/-- A piece that reads on in some text behind it. -/
def IsOpen : NumberPiece → Prop
  | .unclosed _ => True
  | .single c => c = '\\' ∨ c = 'e' ∨ c = 'E'
  | _ => False

/-- An open piece takes a character that would be a token of its own. -/
theorem Reads.exists_longer (h : p.Reads []) (hopen : p.IsOpen) :
    ∃ (c : Char) (q : NumberPiece), isSingle c = true ∧ q.Reads [] ∧ q.source = p.source ++ [c] ∧
      q.token?.isSome = p.token?.isSome := by
  cases p with
  | unclosed text =>
    have htext : ']' ∉ text ++ ['0'] := by simpa using h.1
    exact ⟨'0', .unclosed (text ++ ['0']), rfl, ⟨htext, rfl⟩, rfl, rfl⟩
  | single c =>
    obtain rfl | hletter := hopen
    · exact ⟨'0', .escape '0', rfl, trivial, rfl, rfl⟩
    · have hmark : IsMark c '+' := ⟨hletter, .inl rfl⟩
      refine ⟨'+', .mark c '+', rfl, hmark, rfl, ?_⟩
      rw [token?_mark hmark]
      rfl
  | code text => cases hopen
  | escape c => cases hopen
  | mark letter sign => cases hopen

/-- Behind an open piece there are not always the tokens of the text that stands there. -/
theorem Divides.exists_append_ne (h : Divides s ps) (hp : ps.getLast? = some p)
    (hread : p.Reads []) (hopen : p.IsOpen) :
    ∃ t, ofSection (s ++ t) ≠ ofSection s ++ ofSection t := by
  obtain ⟨ps, rfl⟩ := List.getLast?_eq_some_iff.1 hp
  obtain ⟨c, q, hc, hq, hsource, hsome⟩ := hread.exists_longer hopen
  refine ⟨[c], fun heq => ?_⟩
  have hsingle : ofSection [c] = [ofChar c] := scan_cons_single hc []
  rw [(h.extend hq hsource).ofSection_eq, h.ofSection_eq, hsingle] at heq
  -- The longer piece has no more tokens.
  have hlength := congrArg List.length heq
  simp only [List.filterMap_append, List.length_append, List.length_singleton] at hlength
  have htokens : ([q].filterMap token?).length = ([p].filterMap token?).length := by
    cases hp : p.token? <;> cases hq : q.token? <;> simp_all
  omega

theorem Divides.reads_of_getLast? (h : Divides s ps) (hp : ps.getLast? = some p) : p.Reads [] := by
  induction h with
  | nil => cases hp
  | @cons q rest ps hread h ih =>
    cases ps with
    | nil =>
      obtain rfl : q = p := Option.some.inj hp
      cases h
      exact hread
    | cons r ps =>
      rw [List.getLast?_cons_cons] at hp
      exact ih hp

/-- The tokens of two sections stand one behind the other if no piece at the seam reads on. -/
theorem Divides.ofSection_append (h : Divides s ps) (hunclosed : ∀ text, .unclosed text ∉ ps)
    (hescape : .single '\\' ∉ ps)
    (hmark : ∀ c d, ps.getLast? = some (.single c) → t.head? = some d → ¬IsMark c d) :
    ofSection (s ++ t) = ofSection s ++ ofSection t := by
  obtain ⟨qs, hqs⟩ := exists_divides t
  have hlast : ∀ p ∈ ps.getLast?, p.Reads t := by
    intro p hp
    have hmem := List.mem_of_getLast? hp
    have hread := h.reads_of_getLast? hp
    cases p with
    | code text => exact hread
    | unclosed text => exact absurd hmem (hunclosed text)
    | escape c => trivial
    | mark letter sign => exact hread
    | single c =>
      exact ⟨hread.1, fun heq => absurd (heq ▸ hmem) hescape, fun d hd => hmark c d hp hd⟩
  rw [(h.append hqs hlast).ofSection_eq, h.ofSection_eq, hqs.ofSection_eq, List.filterMap_append]

/-- Every text may stand behind a section exactly if the last piece of the section is not open. -/
theorem Divides.forall_ofSection_append_iff (h : Divides s ps) :
    (∀ t, ofSection (s ++ t) = ofSection s ++ ofSection t) ↔
      (∀ text, .unclosed text ∉ ps) ∧ .single '\\' ∉ ps ∧
        ps.getLast? ≠ some (.single 'e') ∧ ps.getLast? ≠ some (.single 'E') := by
  constructor
  · intro hall
    have hclosed (p : NumberPiece) (hopen : p.IsOpen) : ps.getLast? ≠ some p := by
      intro hp
      obtain ⟨t, hne⟩ := h.exists_append_ne hp (h.reads_of_getLast? hp) hopen
      exact hne (hall t)
    refine ⟨fun text hmem => ?_, fun hmem => ?_, hclosed _ (.inr (.inl rfl)),
      hclosed _ (.inr (.inr rfl))⟩
    · exact hclosed (.unclosed text) trivial (h.getLast?_eq hmem fun rest hread => hread.2)
    · exact hclosed (.single '\\') (.inl rfl) (h.getLast?_eq hmem fun rest hread => hread.2.1 rfl)
  · rintro ⟨hunclosed, hescape, hlower, hupper⟩ t
    refine h.ofSection_append hunclosed hescape fun c d hlast _ hmark => ?_
    obtain ⟨rfl | rfl, -⟩ := hmark
    · exact hlower hlast
    · exact hupper hlast

/-- The tokens of a section, written one after another, are the section without its bracket codes
    and without the backslashes of its escapes. The section divides into pieces in one way, and
    each piece that is not in brackets has one token: an escaped character is literal, a mark is
    an exponent, and every other character is of its own kind. Behind a section whose brackets are
    closed and that does not end with a lone backslash stand the tokens of the text that follows,
    unless an `e` and a sign meet there; for each other section there is a text behind which this
    fails. -/
theorem ofSection_pieces (s : List Char) :
    texts (ofSection s) = kept s ∧
    ∃ ps, (∀ qs, Divides s qs ↔ qs = ps) ∧
      List.Forall₂ (fun p t => p.IsShownBy t) (ps.filter (!·.isDropped)) (ofSection s) ∧
      (∀ t : List Char, (∀ text, .unclosed text ∉ ps) → .single '\\' ∉ ps →
        (∀ c d, ps.getLast? = some (.single c) → t.head? = some d → ¬IsMark c d) →
        ofSection (s ++ t) = ofSection s ++ ofSection t) ∧
      ((∀ t, ofSection (s ++ t) = ofSection s ++ ofSection t) ↔
        (∀ text, .unclosed text ∉ ps) ∧ .single '\\' ∉ ps ∧
          ps.getLast? ≠ some (.single 'e') ∧ ps.getLast? ≠ some (.single 'E')) := by
  obtain ⟨ps, hps⟩ := exists_divides s
  have hkept : texts (ofSection s) = kept s := by
    rw [hps.ofSection_eq, hps.texts_eq]
  have hshown := forall₂_isShownBy hps
  rw [← hps.ofSection_eq] at hshown
  exact ⟨hkept, ps, fun qs => ⟨fun hqs => hqs.unique hps, fun heq => heq ▸ hps⟩, hshown,
    fun _ => hps.ofSection_append, hps.forall_ofSection_append_iff⟩

example : kept "[Red]0.0\\[E+00[x".toList = "0.0[E+00".toList := by decide +kernel

end NumberPiece

end Worksheet.Format
