-- SUMMARY: General keeps the text around its word exactly if no dotted capital I stands in front of it.
import Worksheet.Proofs.Format.General

/-!
# Text Around General

The word General is looked for in lower case, and the place that is found is used to cut the
section as it is written. The dotted capital I has two characters in lower case, so each one in
front of the word moves the cut by one character, into the word: `text_around_iff`.
-/

namespace Worksheet

/-! ## Words in lower case -/

namespace Text

variable {word w p q s : List Char}

/-- Only the dotted capital I has more than one character in lower case. -/
theorem lower_cases (c : Char) :
    (c = '\u0130' ∧ lower c = ['i', '\u0307']) ∨ (c ≠ '\u0130' ∧ ∃ d, lower c = [d]) := by
  by_cases hdotted : c = '\u0130'
  · exact .inl ⟨hdotted, by rw [hdotted]; rfl⟩
  · refine .inr ⟨hdotted, ?_⟩
    unfold lower
    rw [if_neg hdotted]
    split
    · exact ⟨'k', rfl⟩
    · exact ⟨c.toLower, rfl⟩

theorem length_lowerAll (s : List Char) :
    (lowerAll s).length = s.length + s.count '\u0130' := by
  induction s with
  | nil => rfl
  | cons c s ih =>
    rw [lowerAll_cons, List.length_append, List.length_cons, ih]
    obtain ⟨rfl, hlower⟩ | ⟨hc, d, hlower⟩ := lower_cases c
    · rw [hlower, List.count_cons_self]
      simp only [List.length_cons, List.length_nil]
      omega
    · rw [hlower, List.count_cons_of_ne hc]
      simp only [List.length_cons, List.length_nil]
      omega

/-- What starts like a word in lower case starts with this word in some case. -/
theorem exists_of_isPrefixOf_lowerAll (hi : 'i' ∉ word)
    (h : word.isPrefixOf (lowerAll s) = true) : ∃ u b, s = u ++ b ∧ lowerAll u = word := by
  induction word generalizing s with
  | nil => exact ⟨[], s, rfl, rfl⟩
  | cons c word ih =>
    cases s with
    | nil => cases h
    | cons x s =>
      rw [lowerAll_cons] at h
      obtain ⟨-, hlower⟩ | ⟨-, d, hlower⟩ := lower_cases x
      · rw [hlower] at h
        simp only [List.cons_append, List.isPrefixOf, Bool.and_eq_true, beq_iff_eq] at h
        exact absurd (h.1 ▸ List.mem_cons_self) hi
      · rw [hlower] at h
        simp only [List.cons_append, List.nil_append, List.isPrefixOf, Bool.and_eq_true,
          beq_iff_eq] at h
        obtain ⟨u, b, rfl, hu⟩ := ih (fun hmem => hi (List.mem_cons_of_mem c hmem)) h.2
        refine ⟨x :: u, b, rfl, ?_⟩
        rw [lowerAll_cons, hlower, hu, h.1]
        rfl

theorem find?_append (word b : List Char) : find? word (word ++ b) = some 0 := by
  cases word with
  | nil => cases b <;> rfl
  | cons c word =>
    have hprefix : (c :: word).isPrefixOf (c :: word ++ b) = true :=
      List.isPrefixOf_iff_prefix.2 (List.prefix_append _ b)
    exact if_pos hprefix

theorem find?_cons_of_not {c : Char} (h : word.isPrefixOf (c :: s) = false) :
    find? word (c :: s) = (find? word s).map (· + 1) :=
  if_neg (Bool.eq_false_iff.1 h)

/-- The first occurrence of a word, in whatever case, is found in lower case behind all that
    stands in front of it. -/
theorem find?_lowerAll (hne : word ≠ []) (hi : 'i' ∉ word) (hdot : '\u0307' ∉ word)
    (hw : lowerAll w = word)
    (hfirst : ∀ a u b, p ++ (w ++ q) = a ++ (u ++ b) → lowerAll u = word → p.length ≤ a.length) :
    find? word (lowerAll (p ++ (w ++ q))) = some (lowerAll p).length := by
  induction p with
  | nil =>
    rw [List.nil_append, lowerAll_append, hw]
    exact find?_append word _
  | cons x p ih =>
    have hrest : find? word (lowerAll (p ++ (w ++ q))) = some (lowerAll p).length := by
      apply ih
      intro a u b hsplit hu
      have hle := hfirst (x :: a) u b (congrArg (List.cons x) hsplit) hu
      exact Nat.le_of_succ_le_succ hle
    have hnot : word.isPrefixOf (lowerAll (x :: (p ++ (w ++ q)))) = false := by
      apply Bool.eq_false_iff.2
      intro hprefix
      obtain ⟨u, b, hsplit, hu⟩ := exists_of_isPrefixOf_lowerAll hi hprefix
      exact absurd (hfirst [] u b hsplit hu) (Nat.not_succ_le_zero _)
    rw [List.cons_append, lowerAll_cons, lowerAll_cons]
    rw [lowerAll_cons] at hnot
    obtain ⟨-, hlower⟩ | ⟨-, d, hlower⟩ := lower_cases x
    · rw [hlower] at hnot ⊢
      have hsecond : word.isPrefixOf ('\u0307' :: lowerAll (p ++ (w ++ q))) = false := by
        obtain ⟨c, word, rfl⟩ := List.exists_cons_of_ne_nil hne
        have hc : c ≠ '\u0307' := fun heq => hdot (heq ▸ List.mem_cons_self)
        simp [List.isPrefixOf, hc]
      refine (find?_cons_of_not hnot).trans ?_
      refine (congrArg _ (find?_cons_of_not hsecond)).trans ?_
      refine (congrArg _ (congrArg _ hrest)).trans ?_
      simp only [Option.map_some, List.length_append, List.length_cons, List.length_nil]
      exact congrArg some (by omega)
    · rw [hlower] at hnot ⊢
      refine (find?_cons_of_not hnot).trans ?_
      refine (congrArg _ hrest).trans ?_
      simp only [Option.map_some, List.length_append, List.length_cons, List.length_nil]
      exact congrArg some (by omega)

end Text

namespace Format

variable {p q : List Char} {v : Decimal}

/-! ## The only General of a section -/

/-- A text, the word General, and a text. -/
def around (p q : List Char) : List Char := p ++ ("General".toList ++ q)

/-- General stands between the two texts and nowhere else, in whatever case. -/
def IsOnlyGeneral (p q : List Char) : Prop :=
  ∀ a w b, around p q = a ++ (w ++ b) → Text.lowerAll w = "general".toList → a = p

/-- Texts without the first letter of General hold no part of another one. -/
theorem isOnlyGeneral_of_notMem (hp : 'g' ∉ Text.lowerAll p) (hq : 'g' ∉ Text.lowerAll q) :
    IsOnlyGeneral p q := by
  intro a w b hsplit hw
  obtain ⟨x, w, rfl⟩ : ∃ x u, w = x :: u := by
    apply List.exists_cons_of_ne_nil
    rintro rfl
    cases hw
  have hx : 'g' ∈ Text.lower x := by
    rw [Text.lowerAll_cons] at hw
    obtain ⟨-, hlower⟩ | ⟨-, d, hlower⟩ := Text.lower_cases x
    · rw [hlower] at hw
      cases hw
    · rw [hlower] at hw ⊢
      exact List.mem_singleton.2 (List.cons.inj hw).1.symm
  have hrest : 'g' ∉ Text.lowerAll ("eneral".toList ++ q) := by
    rw [Text.lowerAll_append]
    exact List.not_mem_append (by decide) hq
  change p ++ 'G' :: ("eneral".toList ++ q) = a ++ x :: (w ++ b) at hsplit
  rcases List.append_eq_append_iff.1 hsplit with ⟨front, rfl, hbehind⟩ | ⟨front, rfl, hbehind⟩
  · cases front with
    | nil => exact List.append_nil p
    | cons c front =>
      have hmem : x ∈ "eneral".toList ++ q := by
        rw [(List.cons.inj hbehind).2]
        exact List.mem_append_right _ List.mem_cons_self
      exact absurd (List.mem_flatMap.2 ⟨x, hmem, hx⟩) hrest
  · cases front with
    | nil => exact (List.append_nil a).symm
    | cons c front =>
      obtain rfl := (List.cons.inj hbehind).1
      refine absurd (List.mem_flatMap.2 ⟨_, ?_, hx⟩) hp
      exact List.mem_append_right _ List.mem_cons_self

theorem find?_around (h : IsOnlyGeneral p q) :
    Text.find? "general".toList (Text.lowerAll (around p q)) =
      some (p.length + p.count '\u0130') := by
  rw [← Text.length_lowerAll]
  apply Text.find?_lowerAll (by decide) (by decide) (by decide) (by decide)
  intro a w b hsplit hw
  exact (congrArg List.length (h a w b hsplit hw)).ge

/-- Each dotted capital I in front of the word moves the cut by one character. -/
theorem text_around (h : IsOnlyGeneral p q) {t : List Char} (ht : General.text v = .ok t) :
    Number.text v (around p q) =
      .ok (p ++ ("General".toList ++ q).take (p.count '\u0130') ++ t ++
        q.drop (p.count '\u0130')) := by
  have htake : (around p q).take (p.length + p.count '\u0130') =
      p ++ ("General".toList ++ q).take (p.count '\u0130') := List.take_length_add_append _
  have hdrop : (around p q).drop (p.length + p.count '\u0130' + 7) =
      q.drop (p.count '\u0130') := by
    have hword : "General".toList.length = 7 := rfl
    rw [around, Nat.add_assoc, List.drop_length_add_append, Nat.add_comm, ← hword,
      List.drop_length_add_append]
  unfold Number.text inSection
  rw [find?_around h, ht]
  simp only [htake, hdrop]
  rfl

/-- As many characters of the word are kept in front of the number as are lost behind it. So the
    text around the word is kept exactly if no dotted capital I stands in front of it. -/
theorem text_around_iff (hv : v.adjusted.natAbs < 100000) (h : IsOnlyGeneral p q) :
    ∃ t, General.text v = .ok t ∧
      Number.text v (around p q) =
        .ok (p ++ ("General".toList ++ q).take (p.count '\u0130') ++ t ++
          q.drop (p.count '\u0130')) ∧
      (Number.text v (around p q) = .ok (p ++ t ++ q) ↔ '\u0130' ∉ p) := by
  obtain ⟨c, rest, ht, hc⟩ := General.exists_text_cons hv
  have htext := text_around h ht
  refine ⟨c :: rest, ht, htext, ?_⟩
  rw [htext]
  constructor
  · intro heq hmem
    obtain ⟨n, hn⟩ := Nat.exists_eq_add_one.2 (List.count_pos_iff.2 hmem)
    have hsame := Except.ok.inj heq
    rw [hn, List.append_assoc, List.append_assoc, List.append_assoc] at hsame
    -- Behind `p` stands the first letter of the word, in place of the number.
    have hfirst := (List.cons.inj (List.append_cancel_left hsame)).1
    rcases hc with rfl | hdigit
    · cases hfirst
    · exact absurd hdigit (hfirst ▸ by decide)
  · intro hnot
    rw [List.count_eq_zero.2 hnot]
    simp

/-- A unit stands behind the word. -/
theorem text_around_iff_unit :
    (⟨true, 15, -1⟩ : Decimal).adjusted.natAbs < 100000 ∧
      IsOnlyGeneral "Σ ".toList " m".toList ∧
      Number.text ⟨true, 15, -1⟩ "Σ General m".toList = .ok "Σ -1.5 m".toList := by
  have hv : (⟨true, 15, -1⟩ : Decimal).adjusted.natAbs < 100000 := by decide
  have honly : IsOnlyGeneral "Σ ".toList " m".toList :=
    isOnlyGeneral_of_notMem (by decide) (by decide)
  obtain ⟨t, ht, -, hiff⟩ := text_around_iff hv honly
  obtain rfl : t = "-1.5".toList := Except.ok.inj (ht.symm.trans (by with_unfolding_all rfl))
  exact ⟨hv, honly, hiff.2 (by decide)⟩

/-- The first letter of the word is kept behind a dotted capital I. -/
theorem text_dotted_general :
    IsOnlyGeneral "\u0130".toList [] ∧
      General.text ⟨false, 15, -1⟩ = .ok "1.5".toList ∧
      Number.text ⟨false, 15, -1⟩ "\u0130General".toList = .ok "\u0130G1.5".toList := by
  refine ⟨isOnlyGeneral_of_notMem (by decide) (by decide), ?_, ?_⟩
  · with_unfolding_all rfl
  · with_unfolding_all rfl

end Format

end Worksheet
