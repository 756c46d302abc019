-- SUMMARY: How a section is cleaned and cut into tokens, and which tokens are read back from their texts.
import Mathlib.Data.List.TakeWhile
import Worksheet.Format.NumberToken
import Worksheet.Format.Section
import Worksheet.Text.Digits
import Worksheet.Text.Search

/-!
# Tokens of a Section

Most characters of a section survive its cleaning and are tokens of their own. A section may be
given by its tokens instead, as long as they are read back from their texts. A word like General
does not reach over a character that is not in it.
-/

namespace Worksheet

/-! ## Words in a text -/

namespace Text

variable {word a b : List Char} {sep : Char}

theorem find?_eq_none {c : Char} {s : List Char} (h : c ∉ s) : find? (c :: word) s = none := by
  induction s with
  | nil => rfl
  | cons d s ih =>
    obtain ⟨hd, hs⟩ := not_or.1 (mt List.mem_cons.2 h)
    have hp : (c :: word).isPrefixOf (d :: s) = false := by
      simp [List.isPrefixOf, hd]
    simp only [find?, hp, ih hs]
    rfl

theorem isPrefixOf_append_cons (h : sep ∉ word) (a b : List Char) :
    word.isPrefixOf (a ++ sep :: b) = word.isPrefixOf a := by
  induction word generalizing a with
  | nil => rfl
  | cons w word ih =>
    obtain ⟨hw, hword⟩ := not_or.1 (mt List.mem_cons.2 h)
    cases a with
    | nil => simp [List.isPrefixOf, Ne.symm hw]
    | cons c a => simp [List.isPrefixOf, ih hword a]

/-- A word that is not in front of a separator is looked for behind it. -/
theorem find?_append_cons (hne : word ≠ []) (h : sep ∉ word) (ha : find? word a = none)
    (b : List Char) : find? word (a ++ sep :: b) = (find? word b).map (· + (a.length + 1)) := by
  induction a with
  | nil =>
    have hfirst := isPrefixOf_append_cons h [] b
    have hnil : word.isPrefixOf [] = false := by
      cases word with
      | nil => exact absurd rfl hne
      | cons w word => rfl
    rw [hnil] at hfirst
    exact (if_neg (Bool.eq_false_iff.1 hfirst)).trans rfl
  | cons c a ih =>
    have hfirst := isPrefixOf_append_cons h (c :: a) b
    unfold find? at ha
    split at ha
    · cases ha
    · rename_i hprefix
      rw [Bool.eq_false_iff.2 hprefix] at hfirst
      have hrest := ih (Option.map_eq_none_iff.1 ha)
      refine (if_neg (Bool.eq_false_iff.1 hfirst)).trans ?_
      change (find? word (a ++ sep :: b)).map (· + 1) = _
      rw [hrest, Option.map_map]
      rfl

/-- A word is not completed by characters that are not in it. -/
theorem find?_append_eq_none (hne : word ≠ []) (ha : find? word a = none)
    (hb : ∀ c ∈ b, c ∉ word) : find? word (a ++ b) = none := by
  cases b with
  | nil => rwa [List.append_nil]
  | cons c b =>
    obtain ⟨w, rest, rfl⟩ := List.exists_cons_of_ne_nil hne
    have hrest : find? (w :: rest) b = none :=
      find?_eq_none fun hmem => hb w (List.mem_cons_of_mem c hmem) List.mem_cons_self
    rw [find?_append_cons hne (hb c List.mem_cons_self) ha, hrest]
    rfl

theorem lowerAll_append (a b : List Char) : lowerAll (a ++ b) = lowerAll a ++ lowerAll b :=
  List.flatMap_append

theorem length_le_length_lowerAll (s : List Char) : s.length ≤ (lowerAll s).length := by
  induction s with
  | nil => exact le_rfl
  | cons c s ih =>
    have hc : 1 ≤ (lower c).length := by
      unfold lower
      split_ifs <;> simp
    rw [lowerAll_cons, List.length_append, List.length_cons]
    omega

end Text

namespace Format

/-! ## Cleaning -/

/-- The character survives the cleaning of a section and does not belong to General. -/
def isInert (c : Char) : Bool := !isFillerMark c && c ≠ '"' && !(Text.lower c).contains 'g'

variable {s : List Char}

theorem stripFillers_cons {c : Char} (hc : isFillerMark c = false) (s : List Char) :
    stripFillers (c :: s) = c :: stripFillers s := by
  cases s with
  | nil => simp [stripFillers, hc]
  | cons d s => simp [stripFillers, hc]

theorem stripFillers_append (h : ∀ c ∈ s, isFillerMark c = false) (q : List Char) :
    stripFillers (s ++ q) = s ++ stripFillers q := by
  induction s with
  | nil => rfl
  | cons c s ih =>
    rw [List.cons_append, stripFillers_cons (h c List.mem_cons_self),
      ih fun d hd => h d (List.mem_cons_of_mem _ hd)]
    rfl

theorem stripFillers_eq_self (h : ∀ c ∈ s, isFillerMark c = false) : stripFillers s = s := by
  have happend := stripFillers_append h []
  rwa [List.append_nil, stripFillers, List.append_nil] at happend

theorem stripFillers_sublist (q : List Char) : (stripFillers q).Sublist q := by
  fun_induction stripFillers q with
  | case1 => exact List.Sublist.refl []
  | case2 => exact List.nil_sublist _
  | case3 => exact List.Sublist.refl _
  | case4 c d rest h ih => exact (ih.cons d).cons c
  | case5 c d rest h ih => exact ih.cons_cons c

/-- No marker is left. -/
theorem isFillerMark_of_mem (q : List Char) : ∀ c ∈ stripFillers q, isFillerMark c = false := by
  fun_induction stripFillers q with
  | case1 => exact List.forall_mem_nil _
  | case2 => exact List.forall_mem_nil _
  | case3 c h =>
    intro x hx
    obtain rfl := List.mem_singleton.1 hx
    exact Bool.eq_false_iff.2 h
  | case4 c d rest h ih => exact ih
  | case5 c d rest h ih =>
    intro x hx
    rcases List.mem_cons.1 hx with rfl | hx
    · exact Bool.eq_false_iff.2 h
    · exact ih x hx

theorem clean_sublist (q : List Char) : (clean q).Sublist q :=
  List.filter_sublist.trans (stripFillers_sublist q)

theorem clean_eq_self (h : ∀ c ∈ s, isInert c = true) : clean s = s := by
  have hmark : ∀ c ∈ s, isFillerMark c = false := by
    intro c hc
    have hi := h c hc
    simp only [isInert, Bool.and_eq_true, Bool.not_eq_true'] at hi
    exact hi.1.1
  have hquote : ∀ c ∈ s, decide (c ≠ '"') = true := by
    intro c hc
    have hi := h c hc
    simp only [isInert, Bool.and_eq_true] at hi
    exact hi.1.2
  rw [clean, stripFillers_eq_self hmark, stripQuotes, List.filter_eq_self]
  exact hquote

theorem find?_general_eq_none (h : ∀ c ∈ s, isInert c = true) :
    Text.find? "general".toList (Text.lowerAll s) = none := by
  refine Text.find?_eq_none fun hg => ?_
  obtain ⟨c, hc, hg⟩ := List.mem_flatMap.1 hg
  have hi := h c hc
  simp only [isInert, Bool.and_eq_true, Bool.not_eq_true', List.contains_eq_mem] at hi
  exact absurd hg (of_decide_eq_false hi.2)

/-! ## Tokens -/

/-- The character is a token of its own, whatever follows it. -/
def isSingle (c : Char) : Bool := c ≠ '[' && c ≠ '\\' && c ≠ 'e' && c ≠ 'E'

theorem scan_cons_single {c : Char} (h : isSingle c = true) (rest : List Char) :
    NumberToken.scan false (c :: rest) =
      NumberToken.ofChar c :: NumberToken.scan false rest := by
  simp only [isSingle, Bool.and_eq_true, decide_eq_true_eq] at h
  obtain ⟨⟨⟨hbracket, hescape⟩, he⟩, hE⟩ := h
  cases rest with
  | nil => simp [NumberToken.scan, hbracket]
  | cons d rest =>
    have hm : NumberToken.mark? c d = none := by simp [NumberToken.mark?, he, hE]
    simp only [NumberToken.scan, hm, hbracket, hescape, if_false]

theorem scan_append {a : List Char} (h : ∀ c ∈ a, isSingle c = true) (b : List Char) :
    NumberToken.scan false (a ++ b) = a.map NumberToken.ofChar ++ NumberToken.scan false b := by
  induction a with
  | nil => rfl
  | cons c a ih =>
    rw [List.cons_append, scan_cons_single (h c List.mem_cons_self),
      ih fun d hd => h d (List.mem_cons_of_mem _ hd)]
    rfl

theorem ofSection_eq_map (h : ∀ c ∈ s, isSingle c = true) :
    NumberToken.ofSection s = s.map NumberToken.ofChar := by
  have hs := scan_append h []
  simpa [NumberToken.ofSection, NumberToken.scan] using hs

theorem text_ofChar (c : Char) : (NumberToken.ofChar c).text = [c] := by
  unfold NumberToken.ofChar
  split_ifs with h h h h h h h
  all_goals first | rw [h]; rfl | rfl

theorem texts_map_ofChar (s : List Char) : NumberToken.texts (s.map NumberToken.ofChar) = s := by
  simp [NumberToken.texts, List.flatMap_map, text_ofChar]

theorem isInert_char : ∀ d < 10, isInert (Digits.char d) = true := by decide

theorem isSingle_char : ∀ d < 10, isSingle (Digits.char d) = true := by decide

/-! ## Tokens that are read back from their texts -/

namespace NumberToken

/-- The token is read back from its text, and its text does not belong to General. -/
def isPlain : NumberToken → Bool
  | .literal c => isSingle c && isInert c && ofChar c = .literal c
  | _ => true

variable {t : NumberToken} {ts : List NumberToken}

theorem texts_cons (t : NumberToken) (ts : List NumberToken) :
    texts (t :: ts) = t.text ++ texts ts := rfl

theorem length_le_length_texts (ts : List NumberToken) : ts.length ≤ (texts ts).length := by
  induction ts with
  | nil => exact le_rfl
  | cons t ts ih =>
    have ht : 0 < t.text.length := by cases t <;> exact Nat.succ_pos _
    rw [texts_cons, List.length_append, List.length_cons]
    omega

theorem text_mark? {c d : Char} {t : NumberToken} (h : mark? c d = some t) : t.text = [c, d] := by
  unfold mark? at h
  split at h
  · rename_i hmark
    cases h
    obtain ⟨rfl | rfl, rfl | rfl⟩ := hmark <;> rfl
  · cases h

/-- The tokens of a section keep the order of its characters. -/
theorem texts_scan_sublist (bracket : Bool) (s : List Char) :
    (texts (scan bracket s)).Sublist s := by
  fun_induction scan bracket s with
  | case1 => exact List.Sublist.refl []
  | case2 c rest ih => exact ih.cons c
  | case3 => exact List.nil_sublist _
  | case4 c h =>
    rw [texts_cons, text_ofChar]
    exact List.Sublist.refl [c]
  | case5 d rest ih => exact ih.cons '['
  | case6 d rest h ih =>
    rw [texts_cons]
    exact (ih.cons_cons d).cons '\\'
  | case7 c d rest h h' t ht ih =>
    rw [texts_cons, text_mark? ht]
    exact (ih.cons_cons d).cons_cons c
  | case8 c d rest h h' hm ih =>
    rw [texts_cons, text_ofChar]
    exact ih.cons_cons c

theorem texts_ofSection_sublist (s : List Char) : (texts (ofSection s)).Sublist s :=
  texts_scan_sublist false s

theorem length_ofSection_le (s : List Char) : (ofSection s).length ≤ s.length :=
  (length_le_length_texts _).trans (texts_ofSection_sublist s).length_le

theorem length_places_le (ts : List NumberToken) : (places ts).length ≤ ts.length :=
  List.length_filterMap_le _ _

theorem texts_sublist {as bs : List NumberToken} (h : as.Sublist bs) :
    (texts as).Sublist (texts bs) := by
  induction h with
  | slnil => exact List.Sublist.refl _
  | cons t _ ih => exact ih.trans (List.sublist_append_right _ _)
  | cons_cons t _ ih => exact ih.append_left t.text

/-- What stands behind the first token of some kind. -/
theorem sublist_of_dropWhile {p : NumberToken → Bool} {rest : List NumberToken}
    (h : ts.dropWhile p = t :: rest) : rest.Sublist ts := by
  have hdrop := List.dropWhile_sublist (l := ts) p
  rw [h] at hdrop
  exact (List.sublist_cons_self t rest).trans hdrop

theorem afterPoint?_sublist {ts rest : List NumberToken} (h : afterPoint? ts = some rest) :
    rest.Sublist ts := by
  unfold afterPoint? at h
  split at h
  · cases h
  · rename_i t after heq
    cases h
    exact sublist_of_dropWhile heq

theorem texts_percents (p : Nat) : texts (List.replicate p .percent) = List.replicate p '%' := by
  induction p with
  | zero => rfl
  | succ p ih => exact congrArg (List.cons '%') ih

theorem scan_text_append (h : t.isPlain = true) (rest : List Char) :
    scan false (t.text ++ rest) = t :: scan false rest := by
  cases t with
  | digit p => cases p <;> exact scan_cons_single rfl rest
  | exponent upper signed => cases upper <;> cases signed <;> rfl
  | literal c =>
    simp only [isPlain, Bool.and_eq_true, decide_eq_true_eq] at h
    have hscan := scan_cons_single h.1.1 rest
    rwa [h.2] at hscan
  | point => exact scan_cons_single rfl rest
  | comma => exact scan_cons_single rfl rest
  | slash => exact scan_cons_single rfl rest
  | percent => exact scan_cons_single rfl rest

theorem ofSection_texts (h : ∀ t ∈ ts, t.isPlain = true) : ofSection (texts ts) = ts := by
  induction ts with
  | nil => rfl
  | cons t ts ih =>
    have hts := ih fun t ht => h t (List.mem_cons_of_mem _ ht)
    unfold ofSection at hts ⊢
    rw [texts, List.flatMap_cons, scan_text_append (h t List.mem_cons_self)]
    exact congrArg _ hts

theorem all_isInert_text (h : t.isPlain = true) : t.text.all isInert = true := by
  cases t with
  | digit p => cases p <;> rfl
  | exponent upper signed => cases upper <;> cases signed <;> rfl
  | literal c =>
    simp only [isPlain, Bool.and_eq_true] at h
    rw [text, List.all_cons, h.1.2]
    rfl
  | point => rfl
  | comma => rfl
  | slash => rfl
  | percent => rfl

/-- The point and the places behind it, if there is a point. -/
def pointTokens (fraction? : Option (List Placeholder)) : List NumberToken :=
  match fraction? with
  | none => []
  | some ps => .point :: ps.map .digit

theorem forall_map_digit {P : NumberToken → Prop} (hplace : ∀ p, P (.digit p))
    {ps : List Placeholder} : ∀ t ∈ ps.map .digit, P t :=
  List.forall_mem_map.2 fun p _ => hplace p

theorem forall_pointTokens {P : NumberToken → Prop} (hplace : ∀ p, P (.digit p)) (hpoint : P .point)
    {fraction? : Option (List Placeholder)} : ∀ t ∈ pointTokens fraction?, P t := by
  cases fraction? with
  | none => exact fun t ht => nomatch ht
  | some ps => exact List.forall_mem_cons.2 ⟨hpoint, forall_map_digit hplace⟩

theorem beforePoint_append_left (h : .point ∉ ts) (us : List NumberToken) :
    beforePoint (ts ++ us) = ts ++ beforePoint us :=
  List.takeWhile_append_of_pos fun _ ht => decide_eq_true fun heq => h (heq ▸ ht)

theorem afterPoint?_append_left (h : .point ∉ ts) (us : List NumberToken) :
    afterPoint? (ts ++ us) = afterPoint? us := by
  have hnot : ∀ t ∈ ts, decide (t ≠ .point) = true :=
    fun t ht => decide_eq_true fun heq => h (heq ▸ ht)
  rw [afterPoint?, List.dropWhile_append_of_pos hnot]
  rfl

theorem beforePoint_append (h : .point ∉ ts) (fraction? : Option (List Placeholder)) :
    beforePoint (ts ++ pointTokens fraction?) = ts := by
  rw [beforePoint_append_left h]
  cases fraction? <;> exact List.append_nil _

theorem afterPoint?_append (h : .point ∉ ts) (fraction? : Option (List Placeholder)) :
    afterPoint? (ts ++ pointTokens fraction?) = fraction?.map (·.map .digit) := by
  rw [afterPoint?_append_left h]
  cases fraction? <;> rfl

/-- The tokens are those before the point, the point and those after it. -/
theorem point_cases (ts : List NumberToken) :
    (.point ∉ ts ∧ beforePoint ts = ts ∧ afterPoint? ts = none) ∨
      ∃ whole fraction, ts = whole ++ .point :: fraction ∧ .point ∉ whole ∧
        beforePoint ts = whole ∧ afterPoint? ts = some fraction := by
  by_cases hpoint : .point ∈ ts
  · obtain ⟨whole, fraction, rfl, hwhole⟩ := List.eq_append_cons_of_mem hpoint
    refine .inr ⟨whole, fraction, rfl, hwhole, ?_, ?_⟩
    · rw [beforePoint_append_left hwhole]
      exact List.append_nil whole
    · exact afterPoint?_append_left hwhole _
  · have hbefore := beforePoint_append_left hpoint []
    have hafter := afterPoint?_append_left hpoint []
    rw [List.append_nil] at hbefore hafter
    exact .inl ⟨hpoint, hbefore.trans (List.append_nil ts), hafter⟩

theorem places_map_digit (ps : List Placeholder) : places (ps.map .digit) = ps := by
  rw [places, List.filterMap_map]
  exact List.filterMap_some

theorem places_append (as bs : List NumberToken) : places (as ++ bs) = places as ++ places bs :=
  List.filterMap_append

/-- The places stand before the point or after it. -/
theorem places_eq (ts : List NumberToken) :
    places ts = places (beforePoint ts) ++ places ((afterPoint? ts).getD []) := by
  obtain ⟨-, hbefore, hafter⟩ | ⟨whole, fraction, rfl, -, hbefore, hafter⟩ := point_cases ts
  · rw [hbefore, hafter]
    exact (List.append_nil _).symm
  · rw [hbefore, hafter, places_append]
    rfl

/-- Places for so many zeros. -/
def zeros (n : Nat) : List NumberToken := (List.replicate n Placeholder.zero).map .digit

theorem texts_zeros (n : Nat) : texts (zeros n) = List.replicate n '0' := by
  induction n with
  | zero => rfl
  | succ n ih => exact congrArg (List.cons '0') ih

theorem places_zeros (n : Nat) : places (zeros n) = List.replicate n .zero := places_map_digit _

end NumberToken

end Format

end Worksheet
