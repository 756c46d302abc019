-- SUMMARY: Whether a run of m is a month or a minute depends only on the parts of a date next to it.
import Worksheet.Proofs.Format.DateScan

/-!
# Months and Minutes

A run of m is a month or a minute by the tokens next to it that are not literal:
`getElem?_resolve`. So it does not matter which literal tokens stand between them
(`filter_resolve`), and an escape may be put between any two pieces of a section, except behind a
bracket or a backslash that waits for more, and in front of decimals or a bracket code:
`filter_ofSection_insert`.
-/

namespace Worksheet.Format

variable {b : Bool} {c : Char} {s t rest : List Char} {ps qs : List DatePiece}

namespace DateToken

variable {κ : Type}

/-! ## Neighbours -/

/-- The nearest token before a place that is not literal. -/
def nearestBefore? (ts : List (DateToken κ)) (i : Nat) : Option (DateToken κ) :=
  (ts.take i).reverse.find? (!·.isLiteral)

/-- The nearest token behind a place that is not literal. -/
def nearestBehind? (ts : List (DateToken κ)) (i : Nat) : Option (DateToken κ) :=
  (ts.drop (i + 1)).find? (!·.isLiteral)

theorem nearestBefore?_cons_succ (t : DateToken κ) (ts : List (DateToken κ)) (i : Nat) :
    nearestBefore? (t :: ts) (i + 1) =
      (nearestBefore? ts i).or (if t.isLiteral then none else some t) := by
  rw [nearestBefore?, List.take_succ_cons, List.reverse_cons, List.find?_append, nearestBefore?,
    List.find?_singleton]
  cases t.isLiteral <;> rfl

@[simp] theorem isLiteral_mapKind {μ : Type} (f : κ → List Char → μ) (t : DateToken κ) :
    (t.mapKind f).isLiteral = t.isLiteral := by
  cases t <;> rfl

/-! ## Resolving -/

theorem length_resolve (afterHour : Bool) (ts : List (DateToken DateLetter)) :
    (resolve afterHour ts).length = ts.length := by
  induction ts generalizing afterHour with
  | nil => rfl
  | cons t ts ih => rw [resolve, List.length_cons, List.length_cons, ih]

theorem map_text_resolve (afterHour : Bool) (ts : List (DateToken DateLetter)) :
    (resolve afterHour ts).map text = ts.map text := by
  induction ts generalizing afterHour with
  | nil => rfl
  | cons t ts ih => rw [resolve, List.map_cons, List.map_cons, text_mapKind, ih]

/-- Each token is resolved by its neighbours, those at the start by the flag. -/
theorem getElem?_resolve (afterHour : Bool) (ts : List (DateToken DateLetter)) (i : Nat) :
    (resolve afterHour ts)[i]? = ts[i]?.map fun t => t.mapKind fun l text =>
      partOf (((nearestBefore? ts i).map isHour).getD afterHour)
        ((nearestBehind? ts i).any isSecond) l text.length := by
  induction ts generalizing afterHour i with
  | nil => rfl
  | cons t ts ih =>
    cases i with
    | zero => rfl
    | succ i =>
      have hbehind : nearestBehind? (t :: ts) (i + 1) = nearestBehind? ts i := rfl
      rw [resolve, List.getElem?_cons_succ, List.getElem?_cons_succ, ih, hbehind,
        nearestBefore?_cons_succ]
      cases nearestBefore? ts i with
      | some t' => rfl
      | none => cases t.isLiteral <;> rfl

theorem beforeSecond_filter (ts : List (DateToken DateLetter)) :
    beforeSecond (ts.filter (!·.isLiteral)) = beforeSecond ts := by
  simp [beforeSecond, List.find?_filter]

theorem filter_resolve (afterHour : Bool) (ts : List (DateToken DateLetter)) :
    (resolve afterHour ts).filter (!·.isLiteral) =
      resolve afterHour (ts.filter (!·.isLiteral)) := by
  induction ts generalizing afterHour with
  | nil => rfl
  | cons t ts ih =>
    rw [resolve]
    cases ht : t.isLiteral with
    | true =>
      rw [List.filter_cons_of_neg (by simp [ht]), List.filter_cons_of_neg (by simp [ht]), ih]
      rfl
    | false =>
      rw [List.filter_cons_of_pos (by simp [ht]), List.filter_cons_of_pos (by simp [ht]), resolve,
        beforeSecond_filter, ih, ht]

end DateToken

/-! ## An escape between two tokens -/

theorem BeginsWith.replace {word : List Char} (hword : '\\' ∉ word)
    (h : BeginsWith word (s ++ '\\' :: t)) (rest : List Char) : BeginsWith word (s ++ rest) := by
  unfold BeginsWith at h ⊢
  by_cases hlength : word.length ≤ s.length
  · rw [List.take_append_of_le_length hlength] at h ⊢
    exact h
  · -- A longer word would hold the backslash.
    obtain ⟨k, hk⟩ := Nat.exists_eq_add_of_lt (not_le.1 hlength)
    have hrest : word.length - s.length = k + 1 := by omega
    rw [List.take_append, hrest, List.take_succ_cons, List.map_append, List.map_cons] at h
    refine absurd ?_ hword
    rw [← h]
    exact List.mem_append_right _ List.mem_cons_self

namespace DatePiece

/-- A piece that does not wait for more is read alike when an escape follows after some more
    characters. -/
theorem Reads.replace {p : DatePiece} (h : p.Reads b (s ++ rest))
    (hopen : ∀ code, p ≠ .unclosed code) (hlone : p ≠ .single '\\') (t : List Char) :
    p.Reads b (s ++ '\\' :: t) := by
  have hhead {P : Char → Prop} (hP : P '\\') (hrest : ∀ c ∈ (s ++ rest).head?, P c) :
      ∀ c ∈ (s ++ '\\' :: t).head?, P c := by
    intro c hc
    cases s with
    | nil =>
      obtain rfl := Option.some.inj hc
      exact hP
    | cons d s => exact hrest c hc
  cases p with
  | unclosed code => exact absurd rfl (hopen code)
  | run l text => exact ⟨h.1, h.2.1, hhead (by cases l <;> decide) h.2.2⟩
  | fraction width =>
    refine ⟨h.1, h.2.1, fun hzero => ?_⟩
    exact hhead (P := (· ≠ '0')) (by decide) (fun c hc heq => h.2.2 (heq ▸ hc)) _ hzero rfl
  | single c =>
    obtain ⟨hbracket, -, hletter, hmark, hletterMark, hfraction⟩ := h
    refine ⟨hbracket, fun heq => absurd (congrArg single heq) hlone, hletter, fun hbegins => ?_,
      fun hbegins => ?_, ?_⟩
    · exact hmark (BeginsWith.replace (s := c :: s) (by decide) hbegins rest)
    · exact hletterMark (BeginsWith.replace (s := c :: s) (by decide) hbegins rest)
    · rintro ⟨hpoint, hsecond, hzero⟩
      exact hhead (P := (· ≠ '0')) (by decide)
        (fun d hd heq => hfraction ⟨hpoint, hsecond, heq ▸ hd⟩) _ hzero rfl
  | _ => exact h

/-- Only decimals depend on the token before. -/
theorem Reads.of_literal {p : DatePiece} (h : p.Reads b rest)
    (hfraction : ∀ width, p ≠ .fraction width) : p.Reads false rest := by
  cases p with
  | fraction width => exact absurd rfl (hfraction width)
  | single c =>
    obtain ⟨hbracket, hescape, hletter, hmark, hletterMark, -⟩ := h
    exact ⟨hbracket, hescape, hletter, hmark, hletterMark, fun h => Bool.false_ne_true h.2.1⟩
  | _ => exact h

end DatePiece

namespace Divides

theorem of_literal (h : Divides b s qs)
    (hhead : ∀ p ∈ qs.head?, (∀ code, p ≠ .code code) ∧ ∀ width, p ≠ .fraction width) :
    Divides false s qs := by
  cases h with
  | nil => exact .nil false
  | @cons _ p rest ps hread h =>
    obtain ⟨hcode, hfraction⟩ := hhead p rfl
    have hafter : p.afterSecond b = p.afterSecond false := by
      cases p with
      | code code => exact absurd rfl (hcode code)
      | _ => rfl
    exact .cons (hread.of_literal hfraction) (hafter ▸ h)

/-- An escape between two pieces is read as such, and the others are read as before. -/
theorem insert (h : Divides b s (ps ++ qs)) (hopen : ∀ code, .unclosed code ∉ ps)
    (hlone : .single '\\' ∉ ps)
    (hhead : ∀ p ∈ qs.head?, (∀ code, p ≠ .code code) ∧ ∀ width, p ≠ .fraction width)
    (c : Char) :
    Divides b (ps.flatMap DatePiece.source ++ '\\' :: c :: qs.flatMap DatePiece.source)
      (ps ++ .escape c :: qs) := by
  induction ps generalizing b s with
  | nil =>
    obtain rfl : s = qs.flatMap DatePiece.source := h.source_eq
    exact .cons (p := .escape c) trivial (h.of_literal hhead)
  | cons p ps ih =>
    rw [List.cons_append] at h
    cases h with
    | @cons _ _ rest _ hread h =>
      have hsource := h.source_eq
      rw [List.flatMap_append] at hsource
      rw [List.flatMap_cons, List.append_assoc, List.cons_append]
      refine .cons ?_ (ih h (fun code hmem => hopen code (List.mem_cons_of_mem p hmem))
        fun hmem => hlone (List.mem_cons_of_mem p hmem))
      refine DatePiece.Reads.replace (hsource ▸ hread) ?_ ?_ _
      · rintro code rfl
        exact hopen code List.mem_cons_self
      · rintro rfl
        exact hlone List.mem_cons_self

end Divides

namespace DateToken

/-- An escape between two pieces changes only the literal tokens. -/
theorem filter_ofSection_insert (h : Divides false s (ps ++ qs))
    (hopen : ∀ code, .unclosed code ∉ ps) (hlone : .single '\\' ∉ ps)
    (hhead : ∀ p ∈ qs.head?, (∀ code, p ≠ .code code) ∧ ∀ width, p ≠ .fraction width)
    (c : Char) :
    (ofSection (ps.flatMap DatePiece.source ++ '\\' :: c :: qs.flatMap DatePiece.source)).filter
        (!·.isLiteral) =
      (ofSection s).filter (!·.isLiteral) := by
  have hinsert := h.insert hopen hlone hhead c
  have htoken : (DatePiece.escape c).token? = some (.literal [c]) := rfl
  rw [ofSection, ofSection, filter_resolve, filter_resolve, hinsert.scan_eq, h.scan_eq,
    List.filterMap_append, List.filterMap_append, List.filterMap_cons_some htoken,
    List.filter_append, List.filter_append, List.filter_cons_of_neg (by simp [isLiteral])]

/-- Resolving keeps the number of tokens and their texts. One or two letters m are a minute if
    the nearest token before that is not literal shows hours or the nearest behind shows seconds,
    and other runs of m are months. So it does not matter when literal tokens are left out, and an
    escape between two pieces of a section without brackets leaves the other tokens as they are,
    but for one in front of decimals or behind a lone backslash. -/
theorem resolve_by_neighbours :
    (∀ ts : List (DateToken DateLetter),
      (resolve false ts).length = ts.length ∧
      (resolve false ts).map text = ts.map text ∧
      (∀ (i : Nat) (text : List Char), ts[i]? = some (.run .m text) →
        (resolve false ts)[i]? = some (.run
          (if text.length ≤ 2 ∧ ((nearestBefore? ts i).any isHour = true ∨
            (nearestBehind? ts i).any isSecond = true) then .minute else .month) text)) ∧
      (resolve false ts).filter (!·.isLiteral) = resolve false (ts.filter (!·.isLiteral))) ∧
    ∀ s ps qs c, '[' ∉ s → Divides false s (ps ++ qs) → .single '\\' ∉ ps →
      (∀ width, qs.head? ≠ some (.fraction width)) →
      (ofSection (ps.flatMap DatePiece.source ++ '\\' :: c :: qs.flatMap DatePiece.source)).filter
          (!·.isLiteral) =
        (ofSection s).filter (!·.isLiteral) := by
  constructor
  · intro ts
    refine ⟨length_resolve false ts, map_text_resolve false ts, fun i text hi => ?_,
      filter_resolve false ts⟩
    rw [getElem?_resolve, hi]
    cases nearestBefore? ts i <;> simp [mapKind, partOf]
  · intro s ps qs c hbracket h hlone hfraction
    -- Without brackets no piece begins with one.
    have hpiece : ∀ p ∈ ps ++ qs, '[' ∉ p.source := by
      intro p hp hmem
      exact hbracket (h.source_eq ▸ List.mem_flatMap_of_mem hp hmem)
    refine filter_ofSection_insert h (fun code hcode => ?_) hlone (fun p hp => ⟨?_, ?_⟩) c
    · exact hpiece _ (List.mem_append_left qs hcode) List.mem_cons_self
    · rintro code rfl
      exact hpiece _ (List.mem_append_right ps (List.mem_of_mem_head? hp)) List.mem_cons_self
    · rintro width rfl
      exact hfraction width hp

theorem resolve_by_neighbours_clock :
    (resolve false [.run .h ['h'], .literal [':'], .run .m ['m', 'm']])[2]? =
        some (.run .minute ['m', 'm']) ∧
      (ofSection ['h', ':', '\\', '[', 'm', 'm']).filter (!·.isLiteral) =
        (ofSection ['h', ':', 'm', 'm']).filter (!·.isLiteral) := by
  have hdivides : Divides false ['h', ':', 'm', 'm']
      ([.run .h ['h'], .single ':'] ++ [.run .m ['m', 'm']]) :=
    .cons (p := .run .h ['h'])
        ⟨by decide, by simp [DateLetter.ofChar?], by simp [DateLetter.ofChar?]⟩ <|
      .cons (p := .single ':')
        ⟨by decide, by decide, by decide, by decide, by decide, by decide⟩ <|
      .cons (p := .run .m ['m', 'm']) ⟨by decide, by simp [DateLetter.ofChar?], by simp⟩
        (.nil false)
  have hmonths := (resolve_by_neighbours.1
    [.run .h ['h'], .literal [':'], .run .m ['m', 'm']]).2.2.1 2 ['m', 'm'] rfl
  rw [if_pos (by decide)] at hmonths
  refine ⟨hmonths, ?_⟩
  exact resolve_by_neighbours.2 _ _ _ '[' (by decide) hdivides (by decide) (by simp)

/-- In front of decimals an escape parts them from the seconds. -/
example : (ofSection "s\\x.00".toList).filter (!·.isLiteral) ≠
    (ofSection "s.00".toList).filter (!·.isLiteral) := by decide +kernel

end DateToken

end Worksheet.Format
