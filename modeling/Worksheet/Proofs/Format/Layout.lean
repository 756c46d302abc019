-- SUMMARY: The parts of a section with places, and which number its layout shows.
import Worksheet.Format.Number
import Worksheet.Proofs.Exactness
import Worksheet.Proofs.Format.Tokens
import Worksheet.Proofs.Traced

/-!
# Sections with Places

A section with a place for a digit is a layout, which shows a number exactly as far as its
scaling stays within the range of exponents.
-/

namespace Worksheet.Format

/-! ## Sections with a place -/

variable {s : List Char}

/-- Without General, a section that has a place for a digit shows a number in its layout. -/
theorem text_of_any_isPlace {d : Decimal}
    (hgeneral : Text.find? "general".toList (Text.lowerAll s) = none)
    (hp : (NumberToken.ofSection s).any NumberToken.isPlace = true) :
    Number.text d s = Number.inLayout d (Layout.ofTokens (NumberToken.ofSection s)) := by
  unfold Number.text inSection
  rw [hgeneral]
  simp only [hp, if_true]

/-- A number in a section without General that has a place for a digit. -/
theorem text_eq_inLayout {d : Decimal} (h : ∀ c ∈ s, isInert c = true)
    (hp : (NumberToken.ofSection s).any NumberToken.isPlace = true) :
    Number.text d (clean s) = Number.inLayout d (Layout.ofTokens (NumberToken.ofSection s)) := by
  rw [clean_eq_self h]
  exact text_of_any_isPlace (find?_general_eq_none h) hp

namespace NumberToken

variable {ts : List NumberToken}

/-- A number in a section that is given by its tokens. -/
theorem text_texts {d : Decimal} (h : ∀ t ∈ ts, t.isPlain = true) (hp : ts.any isPlace = true) :
    Number.text d (texts ts) = Number.inLayout d (Layout.ofTokens ts) := by
  have hinert : ∀ c ∈ texts ts, isInert c = true := by
    intro c hc
    obtain ⟨t, ht, hmem⟩ := List.mem_flatMap.1 hc
    exact List.all_eq_true.1 (all_isInert_text (h t ht)) c hmem
  have htext := text_eq_inLayout (d := d) hinert (by rwa [ofSection_texts h])
  rwa [clean_eq_self hinert, ofSection_texts h] at htext

end NumberToken

/-! ## The parts of a section -/

namespace Layout

open NumberToken (zeros)

/-- The tokens start and end with a place for a digit. -/
structure IsCore (ts : List NumberToken) : Prop where
  starts : ∃ p rest, ts = .digit p :: rest
  ends : ∃ front p, ts = front ++ [.digit p]

theorem exists_append_digit (ts : List NumberToken) {ps : List Placeholder} (h : ps ≠ []) :
    ∃ front p, ts ++ ps.map .digit = front ++ [.digit p] := by
  obtain rfl | ⟨ps, p, rfl⟩ := List.eq_nil_or_concat ps
  · exact absurd rfl h
  · exact ⟨ts ++ ps.map .digit, p, by simp⟩

theorem isCore_zeros {n : Nat} (hn : 0 < n) : IsCore (zeros n) := by
  obtain ⟨i, rfl⟩ : ∃ i, n = i + 1 := ⟨n - 1, by omega⟩
  refine ⟨⟨.zero, zeros i, rfl⟩, ⟨zeros i, .zero, ?_⟩⟩
  rw [zeros, List.replicate_succ', List.map_append]
  rfl

theorem IsCore.any_isPlace {ts : List NumberToken} (h : IsCore ts) :
    ts.any NumberToken.isPlace = true := by
  obtain ⟨p, rest, rfl⟩ := h.starts
  rfl

theorem IsCore.append {first last : List NumberToken} (hfirst : IsCore first) (hlast : IsCore last)
    (ts : List NumberToken) : IsCore (first ++ (ts ++ last)) := by
  obtain ⟨p, rest, rfl⟩ := hfirst.starts
  obtain ⟨front, q, rfl⟩ := hlast.ends
  refine ⟨⟨p, rest ++ (ts ++ (front ++ [.digit q])), rfl⟩,
    ⟨.digit p :: rest ++ (ts ++ front), q, ?_⟩⟩
  simp only [List.append_assoc]

/-- The body reaches from the first to the last place, and with a slash in it or right behind
    it over the digits that follow. -/
theorem ofTokens_append {lead core tail : List NumberToken}
    (hlead : ∀ t ∈ lead, t.isPlace = false) (hcore : IsCore core)
    (htail : ∀ t ∈ tail, t.isPlace = false) :
    ofTokens (lead ++ (core ++ tail)) =
      if (core ++ tail.take 1).contains .slash then
        ⟨lead, core ++ tail.takeWhile isDenominator, tail.dropWhile isDenominator⟩
      else ⟨lead, core, tail⟩ := by
  obtain ⟨p, rest, hstarts⟩ := hcore.starts
  obtain ⟨front, q, hends⟩ := hcore.ends
  have hlead' : ∀ t ∈ lead, (!t.isPlace) = true := by simpa using hlead
  have hlast : ∀ t ∈ tail.reverse, (!t.isPlace) = true := by simpa using htail
  have hfirst : (lead ++ (core ++ tail)).takeWhile (!·.isPlace) = lead := by
    rw [List.takeWhile_append_of_pos hlead', hstarts]
    exact List.append_nil _
  have hrest : (lead ++ (core ++ tail)).dropWhile (!·.isPlace) = core ++ tail := by
    rw [List.dropWhile_append_of_pos hlead', hstarts]
    rfl
  have hcore' : core.reverse.dropWhile (!·.isPlace) = core.reverse ∧
      core.reverse.takeWhile (!·.isPlace) = [] := by
    rw [hends, List.reverse_append]
    exact ⟨rfl, rfl⟩
  unfold ofTokens
  simp only [hfirst, hrest]
  rw [List.reverse_append, List.dropWhile_append_of_pos hlast, List.takeWhile_append_of_pos hlast,
    hcore'.1, hcore'.2, List.append_nil, List.reverse_reverse, List.reverse_reverse]

/-- The body has the digits that follow a slash, and what is no digit ends it. -/
theorem ofTokens_eq {lead core behind tail : List NumberToken}
    (hlead : ∀ t ∈ lead, t.isPlace = false) (hcore : IsCore core)
    (hbehind : ∀ t ∈ behind, t.isPlace = false ∧ isDenominator t = true)
    (hslash : behind ≠ [] → .slash ∈ core ++ behind.take 1)
    (htail : ∀ t ∈ tail, t.isPlace = false ∧ isDenominator t = false) :
    ofTokens (lead ++ (core ++ behind ++ tail)) = ⟨lead, core ++ behind, tail⟩ := by
  have hkeep : ∀ t ∈ behind, isDenominator t = true := fun t ht => (hbehind t ht).2
  have hdrop : tail.dropWhile isDenominator = tail ∧ tail.takeWhile isDenominator = [] := by
    cases tail with
    | nil => exact ⟨rfl, rfl⟩
    | cons t tail => simp [(htail t List.mem_cons_self).2]
  have hplaces : ∀ t ∈ behind ++ tail, t.isPlace = false :=
    List.forall_mem_append.2 ⟨fun t ht => (hbehind t ht).1, fun t ht => (htail t ht).1⟩
  rw [List.append_assoc core, ofTokens_append hlead hcore hplaces,
    List.takeWhile_append_of_pos hkeep, List.dropWhile_append_of_pos hkeep, hdrop.1, hdrop.2,
    List.append_nil]
  cases behind with
  | nil => simp
  | cons t behind =>
    refine if_pos (List.contains_iff_mem.2 ?_)
    exact hslash (List.cons_ne_nil _ _)

/-- A section that starts and ends with a place is all body, but for what stands around it. -/
theorem ofTokens_of_core {core tail : List NumberToken} (hcore : IsCore core)
    (htail : ∀ t ∈ tail, t.isPlace = false ∧ isDenominator t = false) :
    ofTokens (core ++ tail) = ⟨[], core, tail⟩ := by
  have h : ofTokens ([] ++ (core ++ [] ++ tail)) = ⟨[], core ++ [], tail⟩ :=
    ofTokens_eq (by simp) hcore (by simp) (by simp) htail
  simpa using h

/-- The tokens up to the last place, and those behind it. -/
theorem exists_upto_last_place (ts : List NumberToken) :
    ∃ upto behind, ts = upto ++ behind ∧ (∀ t ∈ behind, t.isPlace = false) ∧
      (upto = [] ∨ ∃ front q, upto = front ++ [.digit q]) := by
  induction ts with
  | nil => exact ⟨[], [], rfl, (fun t ht => nomatch ht), .inl rfl⟩
  | cons t ts ih =>
    obtain ⟨upto, behind, rfl, hbehind, rfl | ⟨front, q, rfl⟩⟩ := ih
    · cases t with
      | digit q => exact ⟨[.digit q], behind, rfl, hbehind, .inr ⟨[], q, rfl⟩⟩
      | _ => exact ⟨[], _ :: behind, rfl, List.forall_mem_cons.2 ⟨rfl, hbehind⟩, .inl rfl⟩
    · exact ⟨t :: (front ++ [.digit q]), behind, rfl, hbehind, .inr ⟨t :: front, q, rfl⟩⟩

/-- Tokens that end with a place have a core, and no place in front of it. -/
theorem exists_lead (front : List NumberToken) (q : Placeholder) :
    ∃ lead core, front ++ [.digit q] = lead ++ core ∧ (∀ t ∈ lead, t.isPlace = false) ∧
      IsCore core := by
  induction front with
  | nil => exact ⟨[], [.digit q], rfl, List.forall_mem_nil _, ⟨⟨q, [], rfl⟩, ⟨[], q, rfl⟩⟩⟩
  | cons t front ih =>
    cases t with
    | digit p =>
      exact ⟨[], .digit p :: (front ++ [.digit q]), rfl, List.forall_mem_nil _,
        ⟨⟨p, _, rfl⟩, ⟨.digit p :: front, q, rfl⟩⟩⟩
    | _ =>
      obtain ⟨lead, core, hsplit, hlead, hcore⟩ := ih
      exact ⟨_ :: lead, core, congrArg (List.cons _) hsplit,
        List.forall_mem_cons.2 ⟨rfl, hlead⟩, hcore⟩

/-- Tokens with a place have a core, and no place in front of it and behind it. -/
theorem exists_core {ts : List NumberToken} (h : ts.any NumberToken.isPlace = true) :
    ∃ lead core tail, ts = lead ++ (core ++ tail) ∧ (∀ t ∈ lead, t.isPlace = false) ∧
      IsCore core ∧ ∀ t ∈ tail, t.isPlace = false := by
  obtain ⟨upto, behind, rfl, hbehind, rfl | ⟨front, q, rfl⟩⟩ := exists_upto_last_place ts
  · obtain ⟨t, ht, hplace⟩ := List.any_eq_true.1 h
    rw [hbehind t ht] at hplace
    cases hplace
  · obtain ⟨lead, core, hsplit, hlead, hcore⟩ := exists_lead front q
    exact ⟨lead, core, behind, by rw [hsplit, List.append_assoc], hlead, hcore, hbehind⟩

/-- Without a slash the body is the core. -/
theorem ofTokens_of_slash_notMem {lead core tail : List NumberToken}
    (hlead : ∀ t ∈ lead, t.isPlace = false) (hcore : IsCore core)
    (htail : ∀ t ∈ tail, t.isPlace = false) (hslash : .slash ∉ core ++ tail) :
    ofTokens (lead ++ (core ++ tail)) = ⟨lead, core, tail⟩ := by
  rw [ofTokens_append hlead hcore htail, if_neg]
  intro hmem
  rcases List.mem_append.1 (List.contains_iff_mem.1 hmem) with hmem | hmem
  · exact hslash (List.mem_append_left tail hmem)
  · exact hslash (List.mem_append_right core (List.mem_of_mem_take hmem))

/-- Behind a core only the tokens up to the last place are in the body, unless it has a slash. -/
theorem exists_ofTokens {core : List NumberToken} (hcore : IsCore core) (ts : List NumberToken) :
    ∃ w rest, ts = w ++ rest ∧ ofTokens (core ++ ts) = ⟨[], core ++ w, rest⟩ ∧
      (.slash ∉ core ++ w → (w = [] ∨ NumberToken.places w ≠ []) ∧
        (∀ t ∈ rest, t.isPlace = false) ∧ rest.head? ≠ some .slash) := by
  obtain ⟨p, first, hstarts⟩ := hcore.starts
  obtain ⟨upto, behind, rfl, hbehind, hends⟩ := exists_upto_last_place ts
  have hupto : IsCore (core ++ upto) := by
    refine ⟨⟨p, first ++ upto, by rw [hstarts]; rfl⟩, ?_⟩
    rcases hends with rfl | ⟨front, q, rfl⟩
    · simpa using hcore.ends
    · exact ⟨core ++ front, q, by rw [List.append_assoc]⟩
  have hlayout := ofTokens_append (List.forall_mem_nil _) hupto hbehind
  rw [List.nil_append, List.append_assoc core upto behind] at hlayout
  by_cases hslash : .slash ∈ core ++ upto ++ behind.take 1
  · rw [if_pos (List.contains_iff_mem.2 hslash)] at hlayout
    refine ⟨upto ++ behind.takeWhile isDenominator, behind.dropWhile isDenominator, ?_, ?_,
      fun hnot => absurd ?_ hnot⟩
    · rw [List.append_assoc, List.takeWhile_append_dropWhile]
    · rw [hlayout, List.append_assoc]
    · rw [← List.append_assoc]
      rcases List.mem_append.1 hslash with hmem | hmem
      · exact List.mem_append_left _ hmem
      · refine List.mem_append_right _ ?_
        cases behind with
        | nil => cases hmem
        | cons t behind =>
          obtain rfl := List.mem_singleton.1 hmem
          exact List.mem_cons_self
  · rw [if_neg (mt List.contains_iff_mem.1 hslash)] at hlayout
    refine ⟨upto, behind, rfl, hlayout, fun _ => ⟨?_, hbehind, fun hhead => hslash ?_⟩⟩
    · refine hends.imp id ?_
      rintro ⟨front, q, rfl⟩
      rw [NumberToken.places_append]
      exact List.append_ne_nil_of_right_ne_nil _ (List.cons_ne_nil _ _)
    · refine List.mem_append_right _ ?_
      rw [List.take_one, Option.mem_toList]
      exact hhead

/-- The digits behind a slash belong to the body. -/
theorem ofTokens_of_slash {lead front body tail : List NumberToken}
    (hlead : ∀ t ∈ lead, t.isPlace = false) (hfront : IsCore front)
    (hbody : ∀ t ∈ body, t.isPlace = true ∨ isDenominator t = true)
    (htail : ∀ t ∈ tail, t.isPlace = false ∧ isDenominator t = false) :
    ofTokens (lead ++ (front ++ .slash :: body ++ tail)) =
      ⟨lead, front ++ .slash :: body, tail⟩ := by
  obtain ⟨p, rest, hstarts⟩ := hfront.starts
  obtain ⟨upto, behind, hsplit, hbehind, hends⟩ := exists_upto_last_place body
  have hden : ∀ t ∈ behind, t.isPlace = false ∧ isDenominator t = true := by
    intro t ht
    have hplace := hbehind t ht
    refine ⟨hplace, (hbody t (hsplit ▸ List.mem_append_right _ ht)).resolve_left ?_⟩
    rw [hplace]
    exact Bool.false_ne_true
  rcases hends with rfl | ⟨inner, q, rfl⟩
  · -- The last place is in front of the slash.
    obtain rfl : body = behind := hsplit
    refine ofTokens_eq hlead hfront (List.forall_mem_cons.2 ⟨⟨rfl, rfl⟩, hden⟩) ?_ htail
    intro _
    simp
  · have hcore : IsCore (front ++ .slash :: (inner ++ [.digit q])) :=
      ⟨⟨p, rest ++ .slash :: (inner ++ [.digit q]), by rw [hstarts]; rfl⟩,
        ⟨front ++ .slash :: inner, q, by simp⟩⟩
    have h := ofTokens_eq hlead hcore hden (by simp) htail
    simpa [hsplit] using h

/-! Commas and percent signs behind the last place scale the number. -/

/-- So many commas, and so many percent signs behind them. -/
def scaling (k p : Nat) : List NumberToken :=
  List.replicate k .comma ++ List.replicate p .percent

theorem forall_scaling {P : NumberToken → Prop} {k p : Nat} (hcomma : P .comma)
    (hpercent : P .percent) : ∀ t ∈ scaling k p, P t := by
  refine List.forall_mem_append.2 ⟨fun t ht => ?_, fun t ht => ?_⟩
  · exact List.eq_of_mem_replicate ht ▸ hcomma
  · exact List.eq_of_mem_replicate ht ▸ hpercent

theorem count_scaling (k p : Nat) : (scaling k p).count .percent = p := by
  simp [scaling, List.count_append, List.count_replicate]

theorem scaling_split (k p : Nat) :
    (scaling k p).takeWhile (· = .comma) = List.replicate k .comma ∧
      (scaling k p).dropWhile (· = .comma) = List.replicate p .percent := by
  have hcommas : ∀ t ∈ List.replicate k NumberToken.comma, decide (t = .comma) = true := by
    simp
  rw [scaling, List.takeWhile_append_of_pos hcommas, List.dropWhile_append_of_pos hcommas]
  cases p with
  | zero => exact ⟨List.append_nil _, rfl⟩
  | succ p => exact ⟨List.append_nil _, rfl⟩

theorem commas_scaling (lead body : List NumberToken) (k p : Nat) :
    (⟨lead, body, scaling k p⟩ : Layout).commas = k := by
  rw [commas, (scaling_split k p).1, List.length_replicate]

theorem percents_scaling (lead body : List NumberToken) (k p : Nat) :
    (⟨lead, body, scaling k p⟩ : Layout).percents = (lead ++ body).count .percent + p := by
  rw [percents, List.count_append, count_scaling]

theorem ending_scaling (lead body : List NumberToken) (k p : Nat) :
    (⟨lead, body, scaling k p⟩ : Layout).ending = List.replicate p '%' := by
  rw [ending, (scaling_split k p).2, NumberToken.texts_percents]

end Layout

/-! ## The shape of a body -/

theorem Fraction.ofBody?_eq_none {body : List NumberToken} (h : .slash ∉ body) :
    Fraction.Shape.ofBody? body = none := by
  have hdrop : body.dropWhile (· ≠ .slash) = [] :=
    List.dropWhile_eq_nil_iff.2 fun t ht => decide_eq_true fun heq => h (heq ▸ ht)
  unfold Fraction.Shape.ofBody?
  rw [hdrop]

theorem Scientific.ofBody?_eq_none {body : List NumberToken} (h : ∀ t ∈ body, t.isMark = false) :
    Scientific.Shape.ofBody? body = none := by
  have hdrop : body.dropWhile (!·.isMark) = [] :=
    List.dropWhile_eq_nil_iff.2 fun t ht => by rw [h t ht]; rfl
  unfold Scientific.Shape.ofBody?
  rw [hdrop]

theorem Fixed.bodyText_eq_text {body : List NumberToken} (hslash : .slash ∉ body)
    (hmark : ∀ t ∈ body, t.isMark = false) (c : Decimal.Context) (m : Decimal) :
    Number.bodyText c m body = Fixed.text c m body := by
  unfold Number.bodyText
  rw [Fraction.ofBody?_eq_none hslash, Scientific.ofBody?_eq_none hmark]

/-! ## The number of a layout -/

variable {c : Decimal.Context} {d : Decimal} {l : Layout}

/-- The layout shows the number moved by two digits for each percent sign and by three for
    each comma. -/
theorem magnitude_eq_shift (h0 : d.coefficient ≠ 0) (hp : d.digitCount ≤ c.precision)
    (hl : c.least ≤ d.exponent) (hl' : c.least ≤ d.exponent + (2 * l.percents - 3 * l.commas))
    (hpercents : 2 * (l.percents : Int) ≤ Decimal.maxExponent)
    (hcommas : 3 * (l.commas : Int) ≤ Decimal.maxExponent)
    (hm : d.adjusted + 2 * l.percents ≤ Decimal.maxExponent) :
    Number.magnitude c d l =
      .ok ⟨false, d.coefficient, d.exponent + (2 * l.percents - 3 * l.commas)⟩ := by
  have hadj (e : Int) : (⟨false, d.coefficient, e⟩ : Decimal).adjusted = e + d.digitCount - 1 := rfl
  have ha : d.adjusted = d.exponent + d.digitCount - 1 := rfl
  have hfit (e : Int) (he : c.least ≤ e) (hmax : e + d.digitCount - 1 ≤ Decimal.maxExponent) :
      c.fit ⟨false, d.coefficient, e⟩ = .ok ⟨false, d.coefficient, e⟩ :=
    Decimal.Context.fit_eq_self h0 hp he (by rw [hadj]; exact hmax)
  unfold Number.magnitude
  refine bind_eq_ok_iff.2 ⟨_, hfit d.exponent hl (by omega), ?_⟩
  rw [if_neg (not_or.2 ⟨not_lt.2 hpercents, not_lt.2 hcommas⟩)]
  refine bind_eq_ok_iff.2 ⟨_, hfit (d.exponent + 2 * l.percents) (by omega) (by omega), ?_⟩
  have hlast := hfit (d.exponent + (2 * l.percents - 3 * l.commas)) hl' (by omega)
  have he : d.exponent + 2 * (l.percents : Int) + -(3 * (l.commas : Int)) =
      d.exponent + (2 * l.percents - 3 * l.commas) := by omega
  simp only [Decimal.Context.scale, Decimal.shift, he]
  exact hlast

theorem inLayout_eq {m : Decimal} {number : List Char} (hd : d.negative = false)
    (hm : Number.magnitude (Number.context d) d l = .ok m)
    (hn : Number.bodyText (Number.context d) m l.body = .ok number) :
    Number.inLayout d l = .ok (l.beginning ++ number ++ l.ending) := by
  unfold Number.inLayout
  refine bind_eq_ok_iff.2 ⟨m, mapError_eq_ok_iff.2 hm, ?_⟩
  refine bind_eq_ok_iff.2 ⟨number, hn, ?_⟩
  simp [Decimal.isNegative, hd, pure, Except.pure]

/-! ## Exact scaling -/

/-- A scale is a power of ten. -/
theorem scale_factor (x : Rat) (k p : Nat) :
    x * 100 ^ p / 1000 ^ k = x * 10 ^ (2 * p - 3 * k : Int) := by
  have hpercents : (10 : Rat) ^ (2 * p : Int) = 100 ^ p := by
    rw [zpow_mul, zpow_natCast]
    norm_num
  have hcommas : (10 : Rat) ^ (3 * k : Int) = 1000 ^ k := by
    rw [zpow_mul, zpow_natCast]
    norm_num
  rw [zpow_sub₀ (by norm_num), hpercents, hcommas, mul_div_assoc]

/-- Scaling is exact if the number is held before it, between its two steps and after it. -/
theorem exists_magnitude_eq (hp : d.digitCount ≤ c.precision) (h : c.Holds d.magnitude)
    (hmultiplied : c.Holds (d.magnitude * 10 ^ (2 * l.percents : Int)))
    (hscaled : c.Holds (d.magnitude * 10 ^ (2 * l.percents - 3 * l.commas : Int)))
    (hpercents : 2 * (l.percents : Int) ≤ Decimal.maxExponent)
    (hcommas : 3 * (l.commas : Int) ≤ Decimal.maxExponent) :
    ∃ m, Number.magnitude c d l = .ok m ∧ m.negative = false ∧
      m.magnitude = d.magnitude * 10 ^ (2 * l.percents - 3 * l.commas : Int) ∧
      m.digitCount ≤ d.digitCount := by
  obtain ⟨a, ha, hnegative, hmagnitude, hdigits⟩ := Decimal.Context.exists_abs_eq hp h
  rw [← hmagnitude] at hmultiplied hscaled ⊢
  obtain ⟨b, hb, hnegative', hmagnitude', hdigits'⟩ :=
    Decimal.Context.exists_scale_eq (hdigits.trans hp) hmultiplied
  have hsub : a.magnitude * 10 ^ (2 * l.percents - 3 * l.commas : Int) =
      b.magnitude * 10 ^ (-(3 * l.commas) : Int) := by
    rw [hmagnitude', mul_assoc, ← Decimal.ten_zpow_add, ← sub_eq_add_neg]
  rw [hsub] at hscaled ⊢
  obtain ⟨m, hm, hnegative'', hmagnitude'', hdigits''⟩ :=
    Decimal.Context.exists_scale_eq (hdigits'.trans (hdigits.trans hp)) hscaled
  refine ⟨m, ?_, by rw [hnegative'', hnegative', hnegative], hmagnitude'',
    hdigits''.trans (hdigits'.trans hdigits)⟩
  unfold Number.magnitude
  refine bind_eq_ok_iff.2 ⟨a, ha, ?_⟩
  rw [if_neg (not_or.2 ⟨not_lt.2 hpercents, not_lt.2 hcommas⟩)]
  exact bind_eq_ok_iff.2 ⟨b, hb, hm⟩

/-- What is shown in front of a number for its sign. -/
def signText (x : Rat) : List Char := if x < 0 then ['-'] else []

theorem inLayout_of_magnitude {m : Decimal} (hm : Number.magnitude (Number.context d) d l = .ok m) :
    Number.inLayout d l = Number.bodyText (Number.context d) m l.body >>= fun number =>
      .ok (signText d.value ++ l.beginning ++ number ++ l.ending) := by
  unfold Number.inLayout
  simp only [hm, Decimal.isNegative_iff]
  rfl

/-- The text of a number in a layout that scales it exactly. -/
theorem exists_inLayout_eq (h : (Number.context d).Holds d.magnitude)
    (hmultiplied : (Number.context d).Holds (d.magnitude * 10 ^ (2 * l.percents : Int)))
    (hscaled : (Number.context d).Holds
      (d.magnitude * 10 ^ (2 * l.percents - 3 * l.commas : Int)))
    (hpercents : 2 * (l.percents : Int) ≤ Decimal.maxExponent)
    (hcommas : 3 * (l.commas : Int) ≤ Decimal.maxExponent) :
    ∃ m, m.negative = false ∧
      m.magnitude = d.magnitude * 10 ^ (2 * l.percents - 3 * l.commas : Int) ∧
      m.digitCount ≤ d.digitCount ∧
      Number.inLayout d l = Number.bodyText (Number.context d) m l.body >>= fun number =>
        .ok (signText d.value ++ l.beginning ++ number ++ l.ending) := by
  obtain ⟨m, hm, hnegative, hmagnitude, hdigits⟩ := exists_magnitude_eq
    (c := Number.context d) (Nat.le_add_left _ _) h hmultiplied hscaled hpercents hcommas
  exact ⟨m, hnegative, hmagnitude, hdigits, inLayout_of_magnitude hm⟩

/-- The text of a number in a layout, both of ordinary size. -/
theorem exists_inLayout_of_size (hdigits : d.digitCount < 100000)
    (hadjusted : d.adjusted.natAbs < 100000) (hpercents : l.percents ≤ 100000)
    (hcommas : l.commas ≤ 100000) :
    ∃ m, m.negative = false ∧
      m.magnitude = d.magnitude * 10 ^ (2 * l.percents - 3 * l.commas : Int) ∧
      m.digitCount ≤ (Number.context d).precision ∧
      (m.coefficient ≠ 0 → m.adjusted < 300000) ∧
      Number.inLayout d l = Number.bodyText (Number.context d) m l.body >>= fun number =>
        .ok (signText d.value ++ l.beginning ++ number ++ l.ending) := by
  have hmax : Decimal.maxExponent = 999999 := rfl
  have hmin : Decimal.minExponent = -999999 := rfl
  have hexponent : d.adjusted = d.exponent + d.digitCount - 1 := rfl
  have hleast := Decimal.Context.least_le (c := Number.context d) (Nat.add_pos_left (by decide) _)
  obtain ⟨m, hnegative, hmagnitude, hle, htext⟩ := exists_inLayout_eq (d := d) (l := l)
    (Decimal.Context.holds_of_exponent (by omega) (by omega))
    (Decimal.Context.holds_shift (by omega) (by omega))
    (Decimal.Context.holds_shift (by omega) (by omega)) (by omega) (by omega)
  refine ⟨m, hnegative, hmagnitude, hle.trans (Nat.le_add_left _ _), ?_, htext⟩
  intro h0
  have hshift := Decimal.magnitude_shift d (2 * l.percents - 3 * l.commas)
  rw [← hmagnitude] at hshift
  rw [Decimal.adjusted_eq_of_magnitude_eq h0 hshift.symm, Decimal.adjusted_shift]
  omega

/-- The arithmetic of a section without commas and percent signs only drops the sign. -/
theorem magnitude_eq_abs {m : Decimal} (hpercents : l.percents = 0) (hcommas : l.commas = 0)
    (hp : 0 < c.precision) (hm : c.abs d = .ok m) : Number.magnitude c d l = .ok m := by
  have hself : c.scale m 0 = .ok m := by
    have hshift : m.shift 0 = m := by simp [Decimal.shift]
    rw [Decimal.Context.scale, hshift, (Decimal.Context.fits_of_fit hp hm).fit_eq]
  unfold Number.magnitude
  refine bind_eq_ok_iff.2 ⟨m, hm, ?_⟩
  rw [hpercents, hcommas, if_neg (by decide)]
  exact bind_eq_ok_iff.2 ⟨m, hself, hself⟩

variable {ts : List NumberToken}

/-- The text of a number in a section that does not scale it. -/
theorem text_eq {m : Decimal} (hplain : ∀ t ∈ ts, t.isPlain = true) (hl : Layout.ofTokens ts = l)
    (hplace : ts.any NumberToken.isPlace = true) (hpercents : l.percents = 0)
    (hcommas : l.commas = 0) (hm : (Number.context d).abs d = .ok m) :
    Number.text d (NumberToken.texts ts) =
      Number.bodyText (Number.context d) m l.body >>= fun number =>
        .ok (signText d.value ++ l.beginning ++ number ++ l.ending) := by
  have hmagnitude := magnitude_eq_abs hpercents hcommas (Nat.add_pos_left (by decide) _) hm
  rw [NumberToken.text_texts hplain hplace, hl, inLayout_of_magnitude hmagnitude]

theorem exists_text_eq (hplain : ∀ t ∈ ts, t.isPlain = true) (hl : Layout.ofTokens ts = l)
    (hplace : ts.any NumberToken.isPlace = true) (hpercents : l.percents = 0)
    (hcommas : l.commas = 0) (h : (Number.context d).Holds d.magnitude) :
    ∃ m, m.negative = false ∧ m.magnitude = d.magnitude ∧ m.digitCount ≤ d.digitCount ∧
      Number.text d (NumberToken.texts ts) =
        Number.bodyText (Number.context d) m l.body >>= fun number =>
          .ok (signText d.value ++ l.beginning ++ number ++ l.ending) := by
  obtain ⟨m, hm, hnegative, hmagnitude, hdigits⟩ :=
    Decimal.Context.exists_abs_eq (c := Number.context d) (Nat.le_add_left _ _) h
  exact ⟨m, hnegative, hmagnitude, hdigits, text_eq hplain hl hplace hpercents hcommas hm⟩

/-- The text of a number in a section that is all body. -/
theorem text_eq_of_core {m : Decimal} (hplain : ∀ t ∈ ts, t.isPlain = true)
    (hcore : Layout.ofTokens ts = ⟨[], ts, []⟩) (hplace : ts.any NumberToken.isPlace = true)
    (hpercent : .percent ∉ ts) (hm : (Number.context d).abs d = .ok m) :
    Number.text d (NumberToken.texts ts) =
      Number.bodyText (Number.context d) m ts >>= fun number =>
        .ok (signText d.value ++ number) := by
  have hpercents : (⟨[], ts, []⟩ : Layout).percents = 0 := by
    simpa [Layout.percents] using List.count_eq_zero.2 hpercent
  rw [text_eq hplain hcore hplace hpercents rfl hm]
  simp [Layout.beginning, Layout.ending, NumberToken.texts]

theorem exists_text_eq_of_core (hplain : ∀ t ∈ ts, t.isPlain = true)
    (hcore : Layout.ofTokens ts = ⟨[], ts, []⟩) (hplace : ts.any NumberToken.isPlace = true)
    (hpercent : .percent ∉ ts) (h : (Number.context d).Holds d.magnitude) :
    ∃ m, m.negative = false ∧ m.magnitude = d.magnitude ∧ m.digitCount ≤ d.digitCount ∧
      Number.text d (NumberToken.texts ts) =
        Number.bodyText (Number.context d) m ts >>= fun number =>
          .ok (signText d.value ++ number) := by
  obtain ⟨m, hm, hnegative, hmagnitude, hdigits⟩ :=
    Decimal.Context.exists_abs_eq (c := Number.context d) (Nat.le_add_left _ _) h
  exact ⟨m, hnegative, hmagnitude, hdigits, text_eq_of_core hplain hcore hplace hpercent hm⟩

end Worksheet.Format
