-- SUMMARY: Escaped characters are shown as they are, except for an escaped at sign without places.
import Worksheet.Proofs.Format.Brackets
import Worksheet.Proofs.Format.Rounded
import Worksheet.Proofs.Format.Surroundings

/-!
# Escaped Text

A backslash makes the next character literal, whatever it stands for elsewhere. In front of places
escaped text is shown as it is. A section without places is shown by the texts of its tokens, and
they do not tell a literal at sign from the sign that stands for the number: `text_escaped_iff`.
-/

namespace Worksheet

/-! ## Words and replacements -/

namespace Text

variable {word s new t : List Char} {c : Char}

theorem find?_eq_none_of_length_lt (h : s.length < word.length) : find? word s = none := by
  induction s with
  | nil =>
    have hne : word ≠ [] := List.length_pos_iff.1 h
    simp [find?, hne]
  | cons d s ih =>
    have hnot : ¬word.isPrefixOf (d :: s) = true := by
      intro hprefix
      have hle := (List.isPrefixOf_iff_prefix.1 hprefix).length_le
      exact absurd h (Nat.not_lt.2 hle)
    rw [find?, if_neg hnot, ih ((Nat.lt_succ_self _).trans h)]
    rfl

theorem replaceEach_eq_self (h : c ∉ t) : replaceEach c new t = t := by
  induction t with
  | nil => rfl
  | cons d t ih =>
    obtain ⟨hd, ht⟩ := not_or.1 (mt List.mem_cons.2 h)
    rw [replaceEach, List.flatMap_cons, if_neg (Ne.symm hd)]
    exact congrArg (List.cons d) (ih ht)

/-- A text that does not start with the character shows where it takes its place. -/
theorem replaceEach_ne_self {d : Char} (hd : d ≠ c) (h : c ∈ t) :
    replaceEach c (d :: new) t ≠ t := by
  induction t with
  | nil => exact absurd h List.not_mem_nil
  | cons x t ih =>
    rw [replaceEach, List.flatMap_cons]
    intro heq
    by_cases hx : x = c
    · rw [if_pos hx] at heq
      exact hd ((List.cons.inj heq).1.trans hx)
    · rw [if_neg hx] at heq
      exact ih (List.mem_of_ne_of_mem (Ne.symm hx) h) (List.cons.inj heq).2

end Text

namespace Format

open NumberToken

variable {t s : List Char} {ts ls : List NumberToken} {v : Decimal}

/-! ## Escaped text -/

/-- Each character behind a backslash. -/
def escaped (t : List Char) : List Char := t.flatMap fun c => ['\\', c]

theorem scan_escaped_append (t s : List Char) :
    scan false (escaped t ++ s) = t.map .literal ++ scan false s := by
  induction t with
  | nil => rfl
  | cons c t ih => exact congrArg (List.cons (.literal c)) ih

theorem texts_map_literal (t : List Char) : texts (t.map .literal) = t := by
  induction t with
  | nil => rfl
  | cons c t ih => exact congrArg (List.cons c) ih

theorem forall_map_literal {P : NumberToken → Prop} (hliteral : ∀ c, P (.literal c)) :
    ∀ l ∈ t.map .literal, P l :=
  List.forall_mem_map.2 fun c _ => hliteral c

/-- Backslashes part the letters of General. -/
theorem find?_escaped_append (hs : Text.find? "general".toList (Text.lowerAll s) = none)
    (hhead : ∀ c ∈ s.head?, Text.lower c = [c] ∧ c ∉ "general".toList) (t : List Char) :
    Text.find? "general".toList (Text.lowerAll (escaped t ++ s)) = none := by
  -- What follows a character is empty or starts with a character that is not in the word.
  have hrest (t : List Char) : Text.lowerAll (escaped t ++ s) = [] ∨
      ∃ sep rest, Text.lowerAll (escaped t ++ s) = sep :: rest ∧ sep ∉ "general".toList := by
    cases t with
    | nil =>
      cases s with
      | nil => exact .inl rfl
      | cons d s =>
        obtain ⟨hlower, hd⟩ := hhead d rfl
        refine .inr ⟨d, Text.lowerAll s, ?_, hd⟩
        rw [escaped, List.flatMap_nil, List.nil_append, Text.lowerAll_cons, hlower]
        rfl
    | cons c t => exact .inr ⟨'\\', _, rfl, by decide⟩
  induction t with
  | nil => exact hs
  | cons c t ih =>
    have hshort : Text.find? "general".toList (Text.lower c) = none := by
      apply Text.find?_eq_none_of_length_lt
      rcases Text.lower_cases c with ⟨-, hlower⟩ | ⟨-, d, hlower⟩
      · rw [hlower]; decide
      · rw [hlower]; exact (by decide : 1 < 7)
    have hlower : Text.lowerAll (escaped (c :: t) ++ s) =
        [] ++ '\\' :: (Text.lower c ++ Text.lowerAll (escaped t ++ s)) := rfl
    rw [hlower, Text.find?_append_cons (by decide) (by decide) rfl, Option.map_eq_none_iff]
    rcases hrest t with hnil | ⟨sep, rest, hcons, hsep⟩
    · rw [hnil, List.append_nil, hshort]
    · rw [hcons] at ih ⊢
      have hbehind := Text.find?_append_cons (a := []) (by decide) hsep rfl rest
      rw [Text.find?_append_cons (by decide) hsep hshort, Option.map_eq_none_iff]
      exact Option.map_eq_none_iff.1 (hbehind.symm.trans ih)

/-! ## Without places -/

/-- Escaped text alone is shown as it is, but with the number for each at sign. -/
theorem text_escaped {g : List Char} (hg : General.text v = .ok g) (t : List Char) :
    Number.text v (escaped t) = .ok (Text.replaceEach '@' g t) := by
  have hgeneral := find?_escaped_append (s := []) rfl (fun c hc => nomatch hc) t
  have htokens : ofSection (escaped t) = t.map .literal := by
    have hscan := scan_escaped_append t []
    rwa [List.append_nil, scan, List.append_nil] at hscan
  have hplace : (t.map NumberToken.literal).any isPlace = false := by
    rw [List.any_eq_false]
    exact forall_map_literal fun c => Bool.false_ne_true
  rw [List.append_nil] at hgeneral
  unfold Number.text inSection
  rw [hgeneral, htokens]
  simp only [hplace, texts_map_literal, hg, Bool.false_eq_true, if_false]
  by_cases hat : '@' ∈ t
  · rw [if_pos (List.contains_iff_mem.2 hat)]
    rfl
  · rw [if_neg (mt List.contains_iff_mem.1 hat), Text.replaceEach_eq_self hat]

/-! ## In front of places -/

theorem Layout.ofTokens_append_lead (h : ∀ l ∈ ls, l.isPlace = false) (ts : List NumberToken) :
    ofTokens (ls ++ ts) = ⟨ls ++ (ofTokens ts).lead, (ofTokens ts).body, (ofTokens ts).tail⟩ := by
  have hlead : ∀ l ∈ ls, (!l.isPlace) = true := by simpa using h
  unfold ofTokens
  rw [List.takeWhile_append_of_pos hlead, List.dropWhile_append_of_pos hlead]
  simp only
  split
  · rfl
  · rfl

/-- What stands in front of the body without scaling the number is shown in front of it. -/
theorem inLayout_append_lead (hpercent : .percent ∉ ls) (hv : 0 ≤ v.value) (l : Layout) :
    Number.inLayout v ⟨ls ++ l.lead, l.body, l.tail⟩ =
      (texts ls ++ ·) <$> Number.inLayout v l := by
  have hpercents : (⟨ls ++ l.lead, l.body, l.tail⟩ : Layout).percents = l.percents := by
    simp [Layout.percents, List.count_append, List.count_eq_zero.2 hpercent]
  have hmagnitude : Number.magnitude (Number.context v) v ⟨ls ++ l.lead, l.body, l.tail⟩ =
      Number.magnitude (Number.context v) v l := by
    unfold Number.magnitude
    rw [hpercents]
    rfl
  have hsign : ¬v.isNegative = true := by
    rw [Decimal.isNegative_iff]
    exact not_lt.2 hv
  have hbeginning : (⟨ls ++ l.lead, l.body, l.tail⟩ : Layout).beginning =
      texts ls ++ l.beginning := List.flatMap_append
  unfold Number.inLayout
  simp only [hmagnitude, hbeginning, if_neg hsign, map_bind, map_pure, List.append_assoc,
    List.nil_append]
  rfl

/-- In front of a section with places escaped text is shown as it is. -/
theorem text_escaped_append (hplace : (ofSection s).any isPlace = true)
    (hs : Text.find? "general".toList (Text.lowerAll s) = none)
    (hhead : ∀ c ∈ s.head?, Text.lower c = [c] ∧ c ∉ "general".toList) (hv : 0 ≤ v.value)
    (t : List Char) : Number.text v (escaped t ++ s) = (t ++ ·) <$> Number.text v s := by
  have htokens : ofSection (escaped t ++ s) = t.map .literal ++ ofSection s :=
    scan_escaped_append t s
  have hplace' : (ofSection (escaped t ++ s)).any isPlace = true := by
    rw [htokens, List.any_append, hplace, Bool.or_true]
  have hpercent : NumberToken.percent ∉ t.map .literal := fun hmem =>
    forall_map_literal (P := (· ≠ .percent)) (fun c heq => nomatch heq) _ hmem rfl
  rw [text_of_any_isPlace (find?_escaped_append hs hhead t) hplace', htokens,
    Layout.ofTokens_append_lead (forall_map_literal fun c => rfl),
    inLayout_append_lead hpercent hv, texts_map_literal, text_of_any_isPlace hs hplace]

/-- A number of ordinary size has a text in a section of one place. -/
theorem exists_text_zero (hdigits : v.digitCount < 100000)
    (hadjusted : v.adjusted.natAbs < 100000) : ∃ n, Number.text v ['0'] = .ok n := by
  have hlayout := Fixed.inLayout_eq_layout (l := ⟨[], [.digit .zero], []⟩) hdigits hadjusted
    (by decide) (by decide) (by decide) (by decide) (by decide)
  exact ⟨_, hlayout⟩

/-- In front of a place escaped text is always shown as it is, and on its own exactly if it has no
    at sign. Each at sign is shown as the number. -/
theorem text_escaped_iff (t : List Char) (hv : 0 ≤ v.value) (hdigits : v.digitCount < 100000)
    (hadjusted : v.adjusted.natAbs < 100000) :
    (∃ g, General.text v = .ok g ∧ Number.text v (escaped t) = .ok (Text.replaceEach '@' g t)) ∧
    (Number.text v (escaped t) = .ok t ↔ '@' ∉ t) ∧
    ∃ n, Number.text v ['0'] = .ok n ∧ Number.text v (escaped t ++ ['0']) = .ok (t ++ n) := by
  obtain ⟨c, rest, hg, hc⟩ := General.exists_text_cons hadjusted
  obtain ⟨n, hn⟩ := exists_text_zero hdigits hadjusted
  have htext := text_escaped hg t
  refine ⟨⟨c :: rest, hg, htext⟩, ?_, n, hn, ?_⟩
  · rw [htext, Except.ok.injEq]
    constructor
    · intro heq hat
      refine Text.replaceEach_ne_self ?_ hat heq
      rintro rfl
      exact absurd hc (by decide)
    · exact Text.replaceEach_eq_self
  · rw [text_escaped_append rfl rfl ?_ hv, hn]
    · rfl
    · intro d hd
      obtain rfl := Option.some.inj hd
      exact ⟨rfl, by decide⟩

/-- Codes of all kinds lose their meaning. -/
theorem text_escaped_iff_codes :
    let v : Decimal := ⟨false, 5, 0⟩
    let t := "General[Red]#?.,/%E+\\".toList
    (0 ≤ v.value ∧ v.digitCount < 100000 ∧ v.adjusted.natAbs < 100000) ∧
      Number.text v (escaped t) = .ok t ∧ Number.text v (escaped t ++ ['0']) = .ok (t ++ ['5']) := by
  have hv : 0 ≤ (⟨false, 5, 0⟩ : Decimal).value := by decide +kernel
  have hfive : Number.text ⟨false, 5, 0⟩ ['0'] = .ok ['5'] := by with_unfolding_all rfl
  intro v t
  obtain ⟨-, hiff, n, hn, htext⟩ := text_escaped_iff t hv (by decide) (by decide)
  obtain rfl := Except.ok.inj (hn.symm.trans hfive)
  exact ⟨⟨hv, by decide, by decide⟩, hiff.2 (by decide), htext⟩

/-- An escaped at sign is shown as the number, and as it is in front of a place. -/
theorem text_escaped_at :
    Number.text ⟨false, 5, 0⟩ "\\@".toList = .ok "5".toList ∧
      Number.text ⟨false, 5, 0⟩ "\\@0".toList = .ok "@5".toList := by
  constructor
  · with_unfolding_all rfl
  · with_unfolding_all rfl

end Format

end Worksheet
