-- SUMMARY: The scan of a date section reads the pieces that the section divides into.
import Worksheet.Proofs.Format.DatePiece
import Worksheet.Proofs.Format.Scan

/-!
# Reading a Date Section

At each place of a date section a piece can be read (`exists_reads`), and the scan makes the
token of that piece (`exists_first_eq`). So each section divides into pieces, and its tokens are
those of the pieces: `Divides.scan_eq`.
-/

namespace Worksheet.Format

variable {b : Bool} {c d : Char} {s t code rest : List Char} {ps qs : List DatePiece}

namespace DateToken

variable {l : DateLetter}

/-! ## Up to a character -/

/-- What a text begins with is found again if it stops there. -/
theorem takeWhile_append {p : Char → Bool} (ht : ∀ c ∈ t, p c = true)
    (hrest : ∀ c ∈ rest.head?, p c = false) : (t ++ rest).takeWhile p = t := by
  rw [List.takeWhile_append_of_pos ht]
  cases rest with
  | nil => simp
  | cons c rest => simp [hrest c rfl]

/-! ## Reading one piece -/

theorem begins_mark_iff :
    Text.upperAll (c :: rest.take 4) = "AM/PM".toList ↔ BeginsWith halfDayMark (c :: rest) :=
  Text.upperAll_eq_iff (by simp)

theorem begins_letterMark_iff :
    Text.upperAll (c :: rest.take 2) = "A/P".toList ↔ BeginsWith halfDayLetterMark (c :: rest) :=
  Text.upperAll_eq_iff (by simp)

theorem bracketed_closed (h : ']' ∉ code) (rest : List Char) :
    bracketed (code ++ ']' :: rest) =
      ((ElapsedUnit.ofCode? (Text.lowerAll code)).map (.elapsed · code.length),
        code.length + 1) := by
  unfold bracketed
  simp only [takeWhile_closed h]
  rw [if_neg (by simp)]

theorem bracketed_unclosed (h : ']' ∉ code) :
    bracketed code = (some (.literal ('[' :: code)), code.length) := by
  unfold bracketed
  simp only [takeWhile_unclosed h]
  rw [if_pos trivial]

theorem first_bracket (b : Bool) (rest : List Char) : first b '[' rest = bracketed rest :=
  if_pos rfl

theorem first_escape (b : Bool) (c : Char) (rest : List Char) :
    first b '\\' (c :: rest) = (some (.literal [c]), 1) := by
  unfold first
  rw [if_neg (by decide), if_pos ⟨rfl, List.cons_ne_nil _ _⟩]
  rfl

theorem ne_of_toUpper (h : c.toUpper = 'A') : c ≠ '[' ∧ c ≠ '\\' := by
  constructor
  · rintro rfl
    exact absurd h (by decide)
  · rintro rfl
    exact absurd h (by decide)

theorem first_mark (h : (c :: t).map Char.toUpper = halfDayMark) (b : Bool) (rest : List Char) :
    first b c (t ++ rest) = (some (.halfDay (c :: t)), t.length) := by
  have hbegins : BeginsWith halfDayMark (c :: (t ++ rest)) := beginsWith_append h rest
  obtain ⟨hbracket, hescape⟩ := ne_of_toUpper (head_of_beginsWith hbegins)
  have hlength : t.length = 4 := by simpa [halfDayMark] using congrArg List.length h
  unfold first
  rw [if_neg hbracket, if_neg fun h => hescape h.1, if_pos (begins_mark_iff.2 hbegins),
    List.take_left' hlength, hlength]

theorem first_letterMark (h : (c :: t).map Char.toUpper = halfDayLetterMark) (b : Bool)
    (rest : List Char) : first b c (t ++ rest) = (some (.halfDayLetter (c :: t)), t.length) := by
  have hbegins : BeginsWith halfDayLetterMark (c :: (t ++ rest)) := beginsWith_append h rest
  obtain ⟨hbracket, hescape⟩ := ne_of_toUpper (head_of_beginsWith hbegins)
  have hlength : t.length = 2 := by simpa [halfDayLetterMark] using congrArg List.length h
  -- The second character tells the two marks apart.
  have hmark : ¬BeginsWith halfDayMark (c :: (t ++ rest)) := by
    intro hmark
    cases t with
    | nil => cases hlength
    | cons d t =>
      have hslash : d.toUpper = '/' := (List.cons.inj (List.cons.inj h).2).1
      have hm : d.toUpper = 'M' := (List.cons.inj (List.cons.inj hmark).2).1
      exact absurd (hslash.symm.trans hm) (by decide)
  unfold first
  rw [if_neg hbracket, if_neg fun h => hescape h.1, if_neg (mt begins_mark_iff.1 hmark),
    if_pos (begins_letterMark_iff.2 hbegins), List.take_left' hlength, hlength]

theorem first_run (hc : DateLetter.ofChar? c = some l)
    (ht : ∀ x ∈ t, DateLetter.ofChar? x = some l)
    (hrest : ∀ x ∈ rest.head?, DateLetter.ofChar? x ≠ some l) (b : Bool) :
    first b c (t ++ rest) = (some (.run l (c :: t)), t.length) := by
  have hchars : ∀ c ∈ DateLetter.chars, c ≠ '[' ∧ c ≠ '\\' ∧ c.toUpper ≠ 'A' := by
    simp [DateLetter.chars]
  obtain ⟨hbracket, hescape, hmark⟩ := hchars c (DateLetter.mem_chars hc)
  have htake := takeWhile_append (p := fun x => DateLetter.ofChar? x = some l)
    (fun x hx => decide_eq_true (ht x hx)) fun x hx => decide_eq_false (hrest x hx)
  unfold first
  rw [if_neg hbracket, if_neg fun h => hescape h.1,
    if_neg fun h => hmark (head_of_beginsWith (begins_mark_iff.1 h)),
    if_neg fun h => hmark (head_of_beginsWith (begins_letterMark_iff.1 h)), hc]
  simp only [htake]

theorem first_fraction (width : Nat) (hrest : rest.head? ≠ some '0') :
    first true '.' (List.replicate (width + 1) '0' ++ rest) =
      (some (.fraction (width + 1)), width + 1) := by
  have htake := takeWhile_append (p := fun x => x = '0') (t := List.replicate (width + 1) '0')
    (fun x hx => decide_eq_true (List.eq_of_mem_replicate hx))
    (fun x hx => decide_eq_false fun heq => hrest (heq ▸ hx))
  have hzero : (List.replicate (width + 1) '0' ++ rest).head? = some '0' := rfl
  unfold first
  rw [if_neg (by decide), if_neg fun h => absurd h.1 (by decide),
    if_neg fun h => absurd (head_of_beginsWith (begins_mark_iff.1 h)) (by decide),
    if_neg fun h => absurd (head_of_beginsWith (begins_letterMark_iff.1 h)) (by decide)]
  have hletter : DateLetter.ofChar? '.' = none := by decide
  rw [hletter]
  simp only [hzero, and_self, if_true, htake, List.length_replicate]

theorem first_single (h : (DatePiece.single c).Reads b rest) :
    first b c rest = (some (.literal [c]), 0) := by
  obtain ⟨hbracket, hescape, hletter, hmark, hletterMark, hfraction⟩ := h
  unfold first
  rw [if_neg hbracket, if_neg fun h => h.2 (hescape h.1), if_neg (mt begins_mark_iff.1 hmark),
    if_neg (mt begins_letterMark_iff.1 hletterMark), hletter]
  exact if_neg hfraction

/-- A piece is read as its token. -/
theorem exists_first_eq {p : DatePiece} (h : p.Reads b rest) :
    ∃ c t, p.source = c :: t ∧ first b c (t ++ rest) = (p.token?, t.length) := by
  cases p with
  | elapsed u code =>
    refine ⟨'[', code ++ [']'], rfl, ?_⟩
    rw [first_bracket, List.append_assoc, List.singleton_append, bracketed_closed h.notMem,
      ElapsedUnit.ofCode?_eq_some_iff.2 h, List.length_append]
    rfl
  | code code =>
    refine ⟨'[', code ++ [']'], rfl, ?_⟩
    rw [first_bracket, List.append_assoc, List.singleton_append, bracketed_closed h.1,
      ElapsedUnit.ofCode?_eq_none_iff.2 h.2, List.length_append]
    rfl
  | unclosed code =>
    obtain ⟨hcode, rfl⟩ := h
    refine ⟨'[', code, rfl, ?_⟩
    rw [first_bracket, List.append_nil, bracketed_unclosed hcode]
    rfl
  | escape c => exact ⟨'\\', [c], rfl, first_escape b c rest⟩
  | halfDay text =>
    cases text with
    | nil => cases h
    | cons c t => exact ⟨c, t, rfl, first_mark h b rest⟩
  | halfDayLetter text =>
    cases text with
    | nil => cases h
    | cons c t => exact ⟨c, t, rfl, first_letterMark h b rest⟩
  | run l text =>
    obtain ⟨hne, htext, hrest⟩ := h
    cases text with
    | nil => exact absurd rfl hne
    | cons c t =>
      exact ⟨c, t, rfl, first_run (htext c List.mem_cons_self)
        (fun x hx => htext x (List.mem_cons_of_mem c hx)) hrest b⟩
  | fraction width =>
    obtain ⟨rfl, hpos, hrest⟩ := h
    obtain ⟨width, rfl⟩ := Nat.exists_eq_add_one.2 hpos
    refine ⟨'.', List.replicate (width + 1) '0', rfl, ?_⟩
    rw [first_fraction width hrest, List.length_replicate]
    rfl
  | single c => exact ⟨c, [], rfl, first_single h⟩

/-- At each place a piece can be read. -/
theorem exists_reads (b : Bool) (c : Char) (s : List Char) :
    ∃ (p : DatePiece) (rest : List Char), c :: s = p.source ++ rest ∧ p.Reads b rest := by
  by_cases hbracket : c = '['
  · subst hbracket
    by_cases hclosed : ']' ∈ s
    · obtain ⟨code, rest, rfl, hcode⟩ := List.eq_append_cons_of_mem hclosed
      by_cases hunit : ∃ u, ElapsedUnit.IsCode u code
      · obtain ⟨u, hu⟩ := hunit
        exact ⟨.elapsed u code, rest, by simp [DatePiece.source], hu⟩
      · exact ⟨.code code, rest, by simp [DatePiece.source], hcode, not_exists.1 hunit⟩
    · exact ⟨.unclosed s, [], (List.append_nil _).symm, hclosed, rfl⟩
  by_cases hescape : c = '\\' ∧ s ≠ []
  · obtain ⟨rfl, hne⟩ := hescape
    obtain ⟨d, rest, rfl⟩ := List.exists_cons_of_ne_nil hne
    exact ⟨.escape d, rest, rfl, trivial⟩
  by_cases hmark : BeginsWith halfDayMark (c :: s)
  · exact ⟨.halfDay _, _, (List.take_append_drop _ _).symm, hmark⟩
  by_cases hletterMark : BeginsWith halfDayLetterMark (c :: s)
  · exact ⟨.halfDayLetter _, _, (List.take_append_drop _ _).symm, hletterMark⟩
  cases hletter : DateLetter.ofChar? c with
  | some l =>
    refine ⟨.run l (c :: s.takeWhile (fun x => DateLetter.ofChar? x = some l)),
      s.dropWhile (fun x => DateLetter.ofChar? x = some l), ?_, List.cons_ne_nil _ _, ?_, ?_⟩
    · exact congrArg (List.cons c) List.takeWhile_append_dropWhile.symm
    · intro x hx
      rcases List.mem_cons.1 hx with rfl | hx
      · exact hletter
      · simpa using List.mem_takeWhile_imp hx
    · intro x hx
      have hstop := List.head?_dropWhile_not (fun x => DateLetter.ofChar? x = some l) s
      rw [hx] at hstop
      exact of_decide_eq_false hstop
  | none =>
    by_cases hfraction : c = '.' ∧ b = true ∧ s.head? = some '0'
    · obtain ⟨rfl, hb, hzero⟩ := hfraction
      have hzeros : s.takeWhile (· = '0') = List.replicate (s.takeWhile (· = '0')).length '0' :=
        List.eq_replicate_of_mem fun x hx => by simpa using List.mem_takeWhile_imp hx
      refine ⟨.fraction (s.takeWhile (· = '0')).length, s.dropWhile (· = '0'), ?_, hb, ?_, ?_⟩
      · rw [DatePiece.source, ← hzeros]
        exact congrArg (List.cons '.') List.takeWhile_append_dropWhile.symm
      · cases s with
        | nil => cases hzero
        | cons d s =>
          obtain rfl := Option.some.inj hzero
          exact Nat.succ_pos _
      · intro hstart
        have hstop := List.head?_dropWhile_not (fun x => decide (x = '0')) s
        rw [hstart] at hstop
        exact absurd hstop (by decide)
    · refine ⟨.single c, s, rfl, hbracket, ?_, hletter, hmark, hletterMark, hfraction⟩
      exact fun heq => not_not.1 fun hne => hescape ⟨heq, hne⟩

/-! ## Reading a section -/

theorem scan_used (b : Bool) (t rest : List Char) :
    scan b t.length (t ++ rest) = scan b 0 rest := by
  induction t with
  | nil => rfl
  | cons c t ih => exact ih

end DateToken

/-- Each section can be read to its end. -/
theorem exists_divides (b : Bool) (s : List Char) : ∃ ps, Divides b s ps := by
  induction hlength : s.length using Nat.strong_induction_on generalizing b s with
  | _ n ih =>
    cases s with
    | nil => exact ⟨[], .nil b⟩
    | cons c s =>
      obtain ⟨p, rest, hsplit, hread⟩ := DateToken.exists_reads b c s
      obtain ⟨x, t, hsource, -⟩ := DateToken.exists_first_eq hread
      have hshorter : rest.length < n := by
        rw [← hlength, hsplit, hsource, List.length_append, List.length_cons]
        omega
      obtain ⟨ps, hps⟩ := ih _ hshorter (p.afterSecond b) rest rfl
      exact ⟨p :: ps, hsplit ▸ .cons hread hps⟩

namespace Divides

/-- The tokens of a section are those of the pieces that it divides into. -/
theorem scan_eq (h : Divides b s ps) :
    DateToken.scan b 0 s = ps.filterMap DatePiece.token? := by
  induction h with
  | nil b => rfl
  | @cons b p rest ps hread _ ih =>
    obtain ⟨c, t, hsource, hfirst⟩ := DateToken.exists_first_eq hread
    rw [hsource, List.cons_append, DateToken.scan, hfirst]
    unfold DatePiece.afterSecond at ih
    cases htoken : p.token? with
    | some token =>
      rw [htoken] at ih
      simp only [DateToken.scan_used, List.filterMap_cons_some htoken, ih]
    | none =>
      rw [htoken] at ih
      simp only [DateToken.scan_used, List.filterMap_cons_none htoken, ih]

/-- Two pieces that are read from the same text as the same token are the same. -/
theorem eq_of_source {p q : DatePiece} {rest' : List Char} (hp : p.Reads b rest)
    (hq : q.Reads b rest') (hsource : p.source = q.source) (htoken : p.token? = q.token?) :
    p = q := by
  cases p <;> cases q <;>
    simp_all [DatePiece.source, DatePiece.token?, DatePiece.Reads, @eq_comm Char '[']

/-- A section divides into pieces in one way. -/
theorem unique (hps : Divides b s ps) (hqs : Divides b s qs) : ps = qs := by
  induction hps generalizing qs with
  | nil b =>
    generalize hs : [] = s at hqs
    cases hqs with
    | nil => rfl
    | cons hread _ =>
      obtain ⟨c, t, hsource, -⟩ := DateToken.exists_first_eq hread
      rw [hsource] at hs
      cases hs
  | @cons b p rest ps hp _ ih =>
    obtain ⟨c, t, hsource, hfirst⟩ := DateToken.exists_first_eq hp
    generalize hs : p.source ++ rest = s at hqs
    cases hqs with
    | nil =>
      rw [hsource] at hs
      cases hs
    | @cons _ q rest' qs hq h =>
      obtain ⟨c', t', hsource', hfirst'⟩ := DateToken.exists_first_eq hq
      rw [hsource, hsource', List.cons_append, List.cons_append] at hs
      obtain ⟨rfl, hrest⟩ := List.cons.inj hs
      rw [hrest, hfirst'] at hfirst
      obtain ⟨htoken, hlength⟩ := Prod.mk.inj hfirst
      obtain ⟨rfl, rfl⟩ := List.append_inj hrest hlength.symm
      obtain rfl := eq_of_source hp hq (hsource.trans hsource'.symm) htoken.symm
      rw [ih h]

end Divides

end Worksheet.Format
