-- SUMMARY: Text without codes is shown as it is behind a section.
import Worksheet.Proofs.Format.Layout
import Worksheet.Proofs.Sections

/-!
# Text Behind a Section

The quotes around a text are gone before its characters become tokens, so they protect nothing.
A text is shown as it is behind every section if it has no character that is a code there:
`text_append`.
-/

namespace Worksheet.Format

open NumberToken

variable {S q : List Char} {v : Decimal}

/-! ## Text that is its own tokens -/

namespace NumberToken

theorem chars_of_mark? {c d : Char} {t : NumberToken} (h : mark? c d = some t) :
    (c = 'e' ∨ c = 'E') ∧ (d = '+' ∨ d = '-') := by
  by_contra hnot
  rw [mark?, if_neg hnot] at h
  cases h

/-- The text has no bracket, and no backslash that something follows. -/
structure IsBare (q : List Char) : Prop where
  bracket : '[' ∉ q
  escape : '\\' ∉ q.dropLast

namespace IsBare

theorem tail {c d : Char} (h : IsBare (c :: d :: q)) : IsBare (d :: q) :=
  ⟨fun hmem => h.bracket (List.mem_cons_of_mem c hmem),
    fun hmem => h.escape (List.mem_cons_of_mem c hmem)⟩

theorem tail_tail {c d : Char} (h : IsBare (c :: d :: q)) : IsBare q := by
  cases q with
  | nil => exact ⟨by simp, by simp⟩
  | cons x q => exact h.tail.tail

/-- The first token is a mark, or the first character. -/
theorem scan_cons_cons {c d : Char} (h : IsBare (c :: d :: q)) :
    scan false (c :: d :: q) = match mark? c d with
      | some t => t :: scan false q
      | none => ofChar c :: scan false (d :: q) := by
  have hbracket : c ≠ '[' := fun heq => h.bracket (heq ▸ List.mem_cons_self)
  have hescape : c ≠ '\\' := fun heq => h.escape (heq ▸ List.mem_cons_self)
  rw [scan, if_neg hbracket]
  refine (if_neg hescape).trans ?_
  cases mark? c d with
  | none => rfl
  | some t => rfl

theorem texts_scan (h : IsBare q) : texts (scan false q) = q := by
  induction q using List.twoStepInduction with
  | nil => rfl
  | singleton c =>
    have hbracket : c ≠ '[' := fun heq => h.bracket (heq ▸ List.mem_cons_self)
    rw [scan, if_neg hbracket]
    exact (List.append_nil _).trans (text_ofChar c)
  | cons_cons c d q ihtail ih =>
    rw [h.scan_cons_cons]
    cases hm : mark? c d with
    | some t =>
      simp only [texts_cons, text_mark? hm, ihtail h.tail_tail]
      rfl
    | none =>
      simp only [texts_cons, text_ofChar, ih d h.tail]
      rfl

theorem cons {c : Char} (hbracket : c ≠ '[') (hescape : c ≠ '\\') (h : IsBare q) :
    IsBare (c :: q) := by
  refine ⟨fun hmem => ?_, fun hmem => ?_⟩
  · exact (List.mem_cons.1 hmem).elim (fun heq => hbracket heq.symm) h.bracket
  · cases q with
    | nil => cases hmem
    | cons d q => exact (List.mem_cons.1 hmem).elim (fun heq => hescape heq.symm) h.escape

/-- Brackets and escapes make a text shorter. -/
theorem of_texts_scan (h : texts (scan false q) = q) : IsBare q := by
  have hlength (bracket : Bool) (s : List Char) : (texts (scan bracket s)).length ≤ s.length :=
    (texts_scan_sublist bracket s).length_le
  induction q using List.twoStepInduction with
  | nil => exact ⟨by simp, by simp⟩
  | singleton c =>
    refine ⟨fun hmem => ?_, by simp⟩
    obtain rfl := List.mem_singleton.1 hmem
    cases h
  | cons_cons c d q ihtail ih =>
    unfold scan at h
    split_ifs at h with hbracket hescape
    · have hshort := hlength true (d :: q)
      rw [h] at hshort
      exact absurd hshort (Nat.not_succ_le_self _)
    · have hshort := congrArg List.length h
      have hrest := hlength false q
      simp only [texts_cons, text, List.length_append, List.length_cons, List.length_nil] at hshort
      omega
    · cases hm : mark? c d with
      | some t =>
        simp only [hm, texts_cons, text_mark? hm] at h
        obtain ⟨-, hsign⟩ := chars_of_mark? hm
        have hd : IsBare (d :: q) := by
          refine .cons ?_ ?_ (ihtail (List.cons.inj (List.cons.inj h).2).2)
          · rcases hsign with rfl | rfl <;> decide
          · rcases hsign with rfl | rfl <;> decide
        exact hd.cons hbracket hescape
      | none =>
        simp only [hm, texts_cons, text_ofChar] at h
        exact (ih d (List.cons.inj h).2).cons hbracket hescape

/-- A character that is in no mark is a token of its own. -/
theorem ofChar_mem_scan (h : IsBare q) {x : Char} (hx : x ∈ q)
    (hmark : x ∉ ['e', 'E', '+', '-']) : ofChar x ∈ scan false q := by
  induction q using List.twoStepInduction with
  | nil => cases hx
  | singleton c =>
    obtain rfl := List.mem_singleton.1 hx
    have hbracket : x ≠ '[' := fun heq => h.bracket (heq ▸ List.mem_cons_self)
    rw [scan, if_neg hbracket]
    exact List.mem_cons_self
  | cons_cons c d q ihtail ih =>
    rw [h.scan_cons_cons]
    cases hm : mark? c d with
    | some t =>
      have hboth : c ∈ ['e', 'E', '+', '-'] ∧ d ∈ ['e', 'E', '+', '-'] := by
        obtain ⟨rfl | rfl, rfl | rfl⟩ := chars_of_mark? hm <;> decide
      rcases List.mem_cons.1 hx with rfl | hx
      · exact absurd hboth.1 hmark
      rcases List.mem_cons.1 hx with rfl | hx
      · exact absurd hboth.2 hmark
      exact List.mem_cons_of_mem _ (ihtail h.tail_tail hx)
    | none =>
      rcases List.mem_cons.1 hx with rfl | hx
      · exact List.mem_cons_self
      · exact List.mem_cons_of_mem _ (ih d h.tail hx)

end IsBare

end NumberToken

/-! ## Sections of digits -/

/-- Places, commas and points, with a place at both ends. -/
structure IsDigitSection (S : List Char) : Prop where
  mem : ∀ c ∈ S, c = '0' ∨ c = '#' ∨ c = ',' ∨ c = '.'
  starts : S.head? = some '0' ∨ S.head? = some '#'
  ends : S.getLast? = some '0' ∨ S.getLast? = some '#'

namespace IsDigitSection

theorem forall_mem (h : IsDigitSection S) {P : Char → Prop} (hzero : P '0') (hhash : P '#')
    (hcomma : P ',') (hpoint : P '.') : ∀ c ∈ S, P c := by
  intro c hc
  rcases h.mem c hc with rfl | rfl | rfl | rfl <;> assumption

theorem notMem (h : IsDigitSection S) {c : Char} (hc : c ∉ ['0', '#', ',', '.']) : c ∉ S := by
  intro hmem
  rcases h.mem c hmem with rfl | rfl | rfl | rfl
  all_goals exact hc (by decide)

theorem isCore (h : IsDigitSection S) : Layout.IsCore (S.map ofChar) := by
  obtain ⟨c, hc, p, hp⟩ : ∃ c, S.head? = some c ∧ ∃ p, ofChar c = .digit p :=
    h.starts.elim (fun hs => ⟨_, hs, .zero, rfl⟩) fun hs => ⟨_, hs, .hash, rfl⟩
  obtain ⟨d, hd, q, hq⟩ : ∃ d, S.getLast? = some d ∧ ∃ q, ofChar d = .digit q :=
    h.ends.elim (fun hs => ⟨_, hs, .zero, rfl⟩) fun hs => ⟨_, hs, .hash, rfl⟩
  obtain ⟨rest, hrest⟩ := List.head?_eq_some_iff.1 hc
  obtain ⟨front, hfront⟩ := List.getLast?_eq_some_iff.1 hd
  refine ⟨⟨p, rest.map ofChar, by rw [hrest, List.map_cons, hp]⟩, ⟨front.map ofChar, q, ?_⟩⟩
  rw [hfront, List.map_append, List.map_singleton, hq]

theorem notMem_tokens (h : IsDigitSection S) {t : NumberToken} (hzero : ofChar '0' ≠ t)
    (hhash : ofChar '#' ≠ t) (hcomma : ofChar ',' ≠ t) (hpoint : ofChar '.' ≠ t) :
    t ∉ S.map ofChar := by
  intro hmem
  obtain ⟨c, hc, heq⟩ := List.mem_map.1 hmem
  exact h.forall_mem (P := fun c => ofChar c ≠ t) hzero hhash hcomma hpoint c hc heq

/-- General is found behind the section, as far behind it as without the section. -/
theorem find?_append (h : IsDigitSection S) (q : List Char) :
    Text.find? "general".toList (Text.lowerAll (S ++ q)) =
      (Text.find? "general".toList (Text.lowerAll q)).map (· + S.length) := by
  have hlower : ∀ c ∈ S, Text.lower c = [c] := h.forall_mem rfl rfl rfl rfl
  have hnot : ∀ c ∈ S, c ∉ "general".toList :=
    h.forall_mem (by decide) (by decide) (by decide) (by decide)
  clear h
  induction S with
  | nil => simp
  | cons c S ih =>
    have hrest := ih (fun d hd => hlower d (List.mem_cons_of_mem _ hd))
      fun d hd => hnot d (List.mem_cons_of_mem _ hd)
    have hfirst := Text.find?_append_cons (a := []) (by decide) (hnot c List.mem_cons_self) rfl
      (Text.lowerAll (S ++ q))
    rw [List.cons_append, Text.lowerAll_cons, hlower c List.mem_cons_self]
    refine hfirst.trans ?_
    rw [hrest, Option.map_map]
    rfl

/-- Without General the text behind the section is read for tokens. -/
theorem text_append_eq_inLayout (h : IsDigitSection S)
    (hq : Text.find? "general".toList (Text.lowerAll q) = none) (v : Decimal) :
    Number.text v (S ++ q) =
      Number.inLayout v (Layout.ofTokens (S.map ofChar ++ scan false q)) := by
  have hsection : ofSection (S ++ q) = S.map ofChar ++ scan false q :=
    scan_append (h.forall_mem rfl rfl rfl rfl) q
  have hplace : (S.map ofChar ++ scan false q).any isPlace = true := by
    rw [List.any_append, h.isCore.any_isPlace, Bool.true_or]
  unfold Number.text inSection
  rw [h.find?_append, hq, hsection]
  simp only [Option.map_none, hplace, if_true]

end IsDigitSection

/-! ## Text without codes -/

/-- No character of the text is a code behind a section. -/
structure IsLiteral (q : List Char) : Prop where
  /-- Fillers, brackets, places and percent signs are codes everywhere. -/
  notMem : ∀ c ∈ q, c ∉ ['_', '*', '[', '0', '#', '?', '%']
  escape : '\\' ∉ q.dropLast
  /-- Commas and slashes are codes right behind the last place. -/
  comma : q.head? ≠ some ','
  slash : q.head? ≠ some '/'
  general : Text.find? "general".toList (Text.lowerAll q) = none

namespace IsLiteral

instance : DecidablePred IsLiteral := fun q =>
  decidable_of_iff
    ((q.all fun c => c ∉ ['_', '*', '[', '0', '#', '?', '%']) = true ∧ '\\' ∉ q.dropLast ∧
      q.head? ≠ some ',' ∧ q.head? ≠ some '/' ∧
      Text.find? "general".toList (Text.lowerAll q) = none)
    ⟨fun ⟨hcodes, hescape, hcomma, hslash, hgeneral⟩ =>
      ⟨by simpa using hcodes, hescape, hcomma, hslash, hgeneral⟩,
      fun h => ⟨by simpa using h.notMem, h.escape, h.comma, h.slash, h.general⟩⟩

theorem isBare (h : IsLiteral q) : IsBare q :=
  ⟨fun hmem => h.notMem _ hmem (by decide), h.escape⟩

theorem isFillerMark_eq_false (h : IsLiteral q) : ∀ c ∈ q, isFillerMark c = false := by
  intro c hc
  have hcode := h.notMem c hc
  simp only [List.mem_cons, not_or] at hcode
  simp [isFillerMark, hcode.1, hcode.2.1]

theorem isPlace_eq_false (h : IsLiteral q) : ∀ t ∈ scan false q, t.isPlace = false := by
  intro t ht
  cases t with
  | digit p =>
    have hmem : p.char ∈ texts (scan false q) :=
      List.mem_flatMap.2 ⟨_, ht, List.mem_singleton_self _⟩
    rw [h.isBare.texts_scan] at hmem
    exact absurd (by cases p <;> decide) (h.notMem _ hmem)
  | _ => rfl

theorem percent_notMem_scan (h : IsLiteral q) : .percent ∉ scan false q := by
  intro ht
  have hmem : '%' ∈ texts (scan false q) := List.mem_flatMap.2 ⟨_, ht, List.mem_singleton_self _⟩
  rw [h.isBare.texts_scan] at hmem
  exact h.notMem _ hmem (by decide)

theorem head?_scan (h : IsLiteral q) :
    (scan false q).head? ≠ some .comma ∧ (scan false q).head? ≠ some .slash := by
  have htexts := h.isBare.texts_scan
  have hcomma := h.comma
  have hslash := h.slash
  rw [← htexts] at hcomma hslash
  cases hscan : scan false q with
  | nil => simp
  | cons t ts =>
    rw [hscan] at hcomma hslash
    constructor
    · rintro ⟨⟩
      exact hcomma rfl
    · rintro ⟨⟩
      exact hslash rfl

/-- The tokens of the text are not in the body. -/
theorem ofTokens_append (h : IsLiteral q) (hS : IsDigitSection S) :
    Layout.ofTokens (S.map ofChar ++ scan false q) = ⟨[], S.map ofChar, scan false q⟩ := by
  have hcore : .slash ∉ S.map ofChar :=
    hS.notMem_tokens (by decide) (by decide) (by decide) (by decide)
  have hslash : ¬(S.map ofChar ++ (scan false q).take 1).contains .slash = true := by
    rw [List.contains_iff_mem, List.mem_append, not_or]
    refine ⟨hcore, fun hmem => h.head?_scan.2 ?_⟩
    rw [List.take_one, Option.mem_toList] at hmem
    exact hmem
  have hlayout := Layout.ofTokens_append (List.forall_mem_nil _) hS.isCore h.isPlace_eq_false
  rw [if_neg hslash] at hlayout
  exact hlayout

end IsLiteral

/-- What stands behind the body without scaling the number is shown behind it. -/
theorem inLayout_append {body ts : List NumberToken} (hpercent : .percent ∉ ts)
    (hcomma : ts.head? ≠ some .comma) (v : Decimal) :
    Number.inLayout v ⟨[], body, ts⟩ = (· ++ texts ts) <$> Number.inLayout v ⟨[], body, []⟩ := by
  have hpercents : (⟨[], body, ts⟩ : Layout).percents = (⟨[], body, []⟩ : Layout).percents := by
    simp [Layout.percents, List.count_append, List.count_eq_zero.2 hpercent]
  have hsplit : ts.takeWhile (· = .comma) = [] ∧ ts.dropWhile (· = .comma) = ts := by
    cases ts with
    | nil => exact ⟨rfl, rfl⟩
    | cons t ts =>
      have ht : t ≠ .comma := fun heq => hcomma (congrArg some heq)
      simp [ht]
  have hcommas : (⟨[], body, ts⟩ : Layout).commas = (⟨[], body, []⟩ : Layout).commas := by
    rw [Layout.commas, hsplit.1]
    rfl
  have hmagnitude : Number.magnitude (Number.context v) v ⟨[], body, ts⟩ =
      Number.magnitude (Number.context v) v ⟨[], body, []⟩ := by
    unfold Number.magnitude
    rw [hpercents, hcommas]
  unfold Number.inLayout
  simp only [hmagnitude, Layout.ending, hsplit.2, map_bind, map_pure, List.append_assoc]
  rfl

/-- Text without codes is shown as it is behind a section of digits. -/
theorem text_append (hS : IsDigitSection S) (hq : IsLiteral q) (v : Decimal) :
    Number.text v (S ++ q) = (· ++ q) <$> Number.text v S := by
  have hnone := hS.text_append_eq_inLayout (q := []) rfl v
  have hbody := Layout.ofTokens_of_core hS.isCore (List.forall_mem_nil _)
  rw [scan, hbody, List.append_nil] at hnone
  rw [hS.text_append_eq_inLayout hq.general, hq.ofTokens_append hS,
    inLayout_append hq.percent_notMem_scan hq.head?_scan.1, hq.isBare.texts_scan, hnone]

end Worksheet.Format
