-- SUMMARY: Written digits denote the number that they were written for, and how many there are.
import Mathlib.Algebra.Order.Ring.Nat
import Mathlib.Tactic.Ring
import Worksheet.Fault

/-!
# Written Digits

A number is read back from its digits as it was written: `value_ofNat`. So a number has
`n` digits if it lies between two powers of ten: `count_le_iff`. Digits that are read are
written back without their leading zeros: `ofNat_value`.
-/

namespace Worksheet.Digits

/-! ## Reading digits -/

theorem charValue_char : ∀ d < 10, charValue (char d) = d := by decide

theorem char_ne_zero : ∀ d < 10, 0 < d → char d ≠ '0' := by decide

theorem foldl_value (ds : List Char) (n : Nat) :
    ds.foldl (fun n c => 10 * n + charValue c) n = n * 10 ^ ds.length + value ds := by
  induction ds generalizing n with
  | nil => simp [value]
  | cons c ds ih =>
    have hv : value (c :: ds) = charValue c * 10 ^ ds.length + value ds := by
      simp only [value, List.foldl_cons, Nat.mul_zero, Nat.zero_add]
      exact ih (charValue c)
    rw [List.foldl_cons, ih, hv, List.length_cons]
    ring

theorem value_append (a b : List Char) : value (a ++ b) = value a * 10 ^ b.length + value b := by
  rw [value, List.foldl_append, foldl_value]
  rfl

theorem value_cons (c : Char) (ds : List Char) :
    value (c :: ds) = charValue c * 10 ^ ds.length + value ds := by
  have h := value_append [c] ds
  rwa [show value [c] = charValue c by simp [value]] at h

theorem value_replicate_zero (k : Nat) : value (List.replicate k '0') = 0 := by
  induction k with
  | zero => rfl
  | succ k ih =>
    rw [List.replicate_succ, value_cons, ih]
    simp [charValue]

theorem value_dropWhile_zero (ds : List Char) : value (ds.dropWhile (· = '0')) = value ds := by
  induction ds with
  | nil => rfl
  | cons c ds ih =>
    by_cases hc : c = '0'
    · subst hc
      rw [List.dropWhile_cons_of_pos (by simp), ih, value_cons]
      simp [charValue]
    · rw [List.dropWhile_cons_of_neg (by simpa using hc)]

/-- The characters are ASCII digits. -/
def AreDigits (ds : List Char) : Prop := ∀ c ∈ ds, ∃ d < 10, c = char d

theorem areDigits_append {as bs : List Char} :
    AreDigits (as ++ bs) ↔ AreDigits as ∧ AreDigits bs := List.forall_mem_append

theorem AreDigits.sublist {as bs : List Char} (h : AreDigits bs) (hsub : as.Sublist bs) :
    AreDigits as := fun c hc => h c (hsub.subset hc)

theorem areDigits_take {ds : List Char} (h : AreDigits ds) (k : Nat) : AreDigits (ds.take k) :=
  h.sublist (List.take_sublist k ds)

theorem areDigits_replicate_zero (k : Nat) : AreDigits (List.replicate k '0') := by
  intro c hc
  exact ⟨0, by decide, List.eq_of_mem_replicate hc⟩

theorem value_lt {ds : List Char} (h : AreDigits ds) : value ds < 10 ^ ds.length := by
  induction ds with
  | nil => simp [value]
  | cons c ds ih =>
    obtain ⟨d, hd, rfl⟩ := h c List.mem_cons_self
    have hds := ih fun c hc => h c (List.mem_cons_of_mem _ hc)
    rw [value_cons, charValue_char d hd, List.length_cons, Nat.pow_succ]
    have hmul : d * 10 ^ ds.length ≤ 9 * 10 ^ ds.length := Nat.mul_le_mul_right _ (by omega)
    omega

theorem isDigit_char : ∀ d < 10, (char d).isDigit = true := by decide

theorem areDigits_iff {ds : List Char} : AreDigits ds ↔ ds.all Char.isDigit = true := by
  rw [List.all_eq_true]
  refine forall₂_congr fun c _ => ?_
  constructor
  · rintro ⟨d, hd, rfl⟩
    exact isDigit_char d hd
  · intro h
    simp only [Char.isDigit, Bool.and_eq_true, decide_eq_true_eq, ge_iff_le,
      UInt32.le_iff_toNat_le] at h
    obtain ⟨hlow, hhigh⟩ : 48 ≤ c.toNat ∧ c.toNat ≤ 57 := h
    refine ⟨c.toNat - 48, by omega, ?_⟩
    rw [char, show 48 + (c.toNat - 48) = c.toNat by omega, Char.ofNat_toNat]

theorem areDigits_cons {c : Char} {ds : List Char} :
    AreDigits (c :: ds) ↔ c.isDigit = true ∧ AreDigits ds := by
  rw [areDigits_iff, areDigits_iff, List.all_cons, Bool.and_eq_true]

/-! ## Writing digits -/

theorem areDigits_block (k n : Nat) : AreDigits (block k n) := by
  induction k generalizing n with
  | zero =>
    intro c hc
    exact ⟨n % 10, Nat.mod_lt _ (by decide), List.mem_singleton.1 hc⟩
  | succ k ih =>
    intro c hc
    rcases List.mem_append.1 hc with hc | hc
    · exact ih _ c hc
    · exact ih _ c hc

theorem value_block (k n : Nat) : value (block k n) = n % 10 ^ 2 ^ k := by
  induction k generalizing n with
  | zero =>
    have hd : n % 10 < 10 := Nat.mod_lt _ (by decide)
    simp [block, value, charValue_char _ hd]
  | succ k ih =>
    have hp : (10 : Nat) ^ 2 ^ (k + 1) = 10 ^ 2 ^ k * 10 ^ 2 ^ k := by
      rw [Nat.pow_succ, Nat.mul_two, Nat.pow_add]
    rw [block, value_append, ih, ih, length_block, hp, Nat.mod_mul]
    simp only [Nat.pow_eq, Nat.mod_mod]
    ring

theorem lt_pow_level (n : Nat) : n < 10 ^ 2 ^ level n := by
  have hb : n < 2 ^ (n.log2 + 1) := Nat.lt_log2_self
  have hq : (n.log2 + 1) / 3 < 2 ^ level n := Nat.lt_log2_self
  have hr : n.log2 + 1 ≤ 3 * ((n.log2 + 1) / 3) + 2 := by omega
  calc n < 2 ^ (n.log2 + 1) := hb
    _ ≤ 2 ^ (3 * ((n.log2 + 1) / 3) + 2) := Nat.pow_le_pow_right (by decide) hr
    _ = 8 ^ ((n.log2 + 1) / 3) * 4 := by rw [Nat.pow_add, Nat.pow_mul]
    _ ≤ 10 ^ ((n.log2 + 1) / 3) * 10 :=
      Nat.mul_le_mul (Nat.pow_le_pow_left (by decide) _) (by decide)
    _ = 10 ^ ((n.log2 + 1) / 3 + 1) := (Nat.pow_succ ..).symm
    _ ≤ 10 ^ 2 ^ level n := Nat.pow_le_pow_right (by decide) hq

theorem areDigits_ofNat (n : Nat) : AreDigits (ofNat n) := by
  unfold ofNat
  split
  · intro c hc
    exact ⟨0, by decide, List.mem_singleton.1 hc⟩
  · exact (areDigits_block _ _).sublist (List.dropWhile_sublist _)

/-- A number is read back from its digits. -/
theorem value_ofNat (n : Nat) : value (ofNat n) = n := by
  have hv : value ((block (level n) n).dropWhile (· = '0')) = n := by
    rw [value_dropWhile_zero, value_block, Nat.mod_eq_of_lt (lt_pow_level n)]
  unfold ofNat
  split
  · rename_i h
    rw [h] at hv
    exact hv
  · exact hv

theorem ofNat_injective : Function.Injective ofNat :=
  fun m n h => by rw [← value_ofNat m, h, value_ofNat]

/-! ## Counting digits -/

theorem ten_pow_pos (k : Nat) : 0 < 10 ^ k := Nat.pow_pos (by decide)

theorem mul_ten_pow_pos {n : Nat} (hn : 0 < n) (k : Nat) : 0 < n * 10 ^ k :=
  Nat.mul_pos hn (ten_pow_pos k)

theorem lt_pow_count (n : Nat) : n < 10 ^ count n := by
  have h := value_lt (areDigits_ofNat n)
  rwa [value_ofNat] at h

theorem lt_ten_pow_of_count_le {n k : Nat} (h : count n ≤ k) : n < 10 ^ k :=
  (lt_pow_count n).trans_le (Nat.pow_le_pow_right (by decide) h)

theorem count_pos (n : Nat) : 0 < count n := by
  unfold count ofNat
  split
  · exact Nat.one_pos
  · rename_i h
    exact List.length_pos_iff.2 h

theorem head_ofNat {n : Nat} (hn : 0 < n) : ∃ d ds, 0 < d ∧ d < 10 ∧ ofNat n = char d :: ds := by
  have hdigits := areDigits_ofNat n
  have hv := value_ofNat n
  have hhead := List.head?_dropWhile_not (· = '0') (block (level n) n)
  unfold ofNat at hdigits hv ⊢
  cases hs : (block (level n) n).dropWhile (· = '0') with
  | nil =>
    rw [hs] at hv
    exact absurd hv hn.ne
  | cons c ds =>
    rw [hs] at hdigits hhead
    obtain ⟨d, hd, rfl⟩ := hdigits c List.mem_cons_self
    refine ⟨d, ds, ?_, hd, rfl⟩
    rcases Nat.eq_zero_or_pos d with rfl | hpos
    · exact absurd rfl (of_decide_eq_false hhead)
    · exact hpos

theorem pow_count_le {n : Nat} (hn : 0 < n) : 10 ^ (count n - 1) ≤ n := by
  obtain ⟨d, ds, hpos, hd, hs⟩ := head_ofNat hn
  have hv := value_ofNat n
  rw [hs, value_cons, charValue_char d hd] at hv
  have hmul : 1 * 10 ^ ds.length ≤ d * 10 ^ ds.length := Nat.mul_le_mul_right _ hpos
  rw [count, hs, List.length_cons, Nat.add_sub_cancel]
  omega

/-- A number has at most `k` digits if it is below the power of ten that has more. -/
theorem count_le_iff {n k : Nat} (hk : 0 < k) : count n ≤ k ↔ n < 10 ^ k := by
  constructor
  · exact lt_ten_pow_of_count_le
  · intro h
    rcases Nat.eq_zero_or_pos n with rfl | hn
    · exact hk
    · have hlt := (pow_count_le hn).trans_lt h
      have := (Nat.pow_lt_pow_iff_right (by decide : 1 < 10)).1 hlt
      omega

theorem count_le_count {m n : Nat} (h : m ≤ n) : count m ≤ count n :=
  (count_le_iff (count_pos n)).2 (h.trans_lt (lt_pow_count n))

theorem count_le_succ {n k : Nat} (h : n ≤ 10 ^ k) : count n ≤ k + 1 := by
  rw [count_le_iff (Nat.succ_pos k)]
  exact h.trans_lt (Nat.pow_lt_pow_right (by decide) (Nat.lt_succ_self k))

theorem exceedsLimit_eq_false_iff {n : Nat} : exceedsLimit n = false ↔ count n ≤ limit := by
  have hlimit : 0 < limit := by decide
  rw [exceedsLimit, decide_eq_false_iff_not, Nat.pow_eq, count_le_iff hlimit, Nat.not_le]

theorem lt_count_iff {n k : Nat} (hk : 0 < k) : k < count n ↔ 10 ^ k ≤ n := by
  rw [← Nat.not_le, count_le_iff hk, Nat.not_lt]

theorem count_eq_succ {n k : Nat} (hlow : 10 ^ k ≤ n) (hhigh : n < 10 ^ (k + 1)) :
    count n = k + 1 := by
  have hle := (count_le_iff (Nat.succ_pos k)).2 hhigh
  have hpos := count_pos n
  rcases Nat.eq_zero_or_pos k with rfl | hk
  · omega
  · have hlt := (lt_count_iff hk).2 hlow
    omega

theorem count_mul_pow {n : Nat} (hn : 0 < n) (k : Nat) : count (n * 10 ^ k) = count n + k := by
  obtain ⟨c, hc⟩ : ∃ c, count n = c + 1 := ⟨count n - 1, by have := count_pos n; omega⟩
  have hlow := pow_count_le hn
  have hhigh := lt_pow_count n
  rw [hc, Nat.add_sub_cancel] at hlow
  rw [hc] at hhigh ⊢
  rw [Nat.add_right_comm]
  apply count_eq_succ
  · rw [Nat.pow_add]
    exact Nat.mul_le_mul_right _ hlow
  · rw [Nat.add_right_comm, Nat.pow_add]
    exact Nat.mul_lt_mul_of_pos_right hhigh (ten_pow_pos k)

/-! ## Digits without leading zeros -/

/-- Digits of one length are told apart by their value. -/
theorem eq_of_value_eq {as bs : List Char} (ha : AreDigits as) (hb : AreDigits bs)
    (hlen : as.length = bs.length) (h : value as = value bs) : as = bs := by
  induction as generalizing bs with
  | nil => exact (List.length_eq_zero_iff.1 hlen.symm).symm
  | cons c as ih =>
    cases bs with
    | nil => cases hlen
    | cons c' bs =>
      obtain ⟨d, hd, rfl⟩ := ha c List.mem_cons_self
      obtain ⟨d', hd', rfl⟩ := hb c' List.mem_cons_self
      have ha' := (areDigits_cons.1 ha).2
      have hb' := (areDigits_cons.1 hb).2
      have hlen' : as.length = bs.length := Nat.succ.inj hlen
      have hrest := value_lt ha'
      have hrest' := value_lt hb'
      rw [value_cons, value_cons, charValue_char d hd, charValue_char d' hd', ← hlen'] at h
      rw [← hlen'] at hrest'
      -- The first digit is the quotient by the power of ten, and the rest is the remainder.
      have hpos := ten_pow_pos as.length
      have hd : d = d' := by
        have hq := congrArg (· / 10 ^ as.length) h
        simpa only [Nat.mul_comm _ (10 ^ as.length), Nat.mul_add_div hpos,
          Nat.div_eq_of_lt hrest, Nat.div_eq_of_lt hrest', Nat.add_zero] using hq
      subst hd
      rw [ih ha' hb' hlen' (Nat.add_left_cancel h)]

/-- Digits without a leading zero are how their value is written. -/
theorem ofNat_value_cons {c : Char} {ds : List Char} (h : AreDigits (c :: ds)) (hc : c ≠ '0') :
    ofNat (value (c :: ds)) = c :: ds := by
  have hv := value_lt h
  have hcount : count (value (c :: ds)) = ds.length + 1 := by
    obtain ⟨d, hd, rfl⟩ := h c List.mem_cons_self
    have hpos : 0 < d := by
      rcases Nat.eq_zero_or_pos d with rfl | hpos
      · exact absurd rfl hc
      · exact hpos
    refine count_eq_succ ?_ hv
    rw [value_cons, charValue_char d hd]
    have := Nat.mul_le_mul_right (10 ^ ds.length) hpos
    omega
  exact eq_of_value_eq (areDigits_ofNat _) h hcount (value_ofNat _)

/-- A number is written like its digits without leading zeros. -/
theorem ofNat_value {ds : List Char} (h : AreDigits ds) (hpos : 0 < value ds) :
    ofNat (value ds) = ds.dropWhile (· = '0') := by
  have hhead := List.head?_dropWhile_not (· = '0') ds
  rw [← value_dropWhile_zero] at hpos ⊢
  have hdigits : AreDigits (ds.dropWhile (· = '0')) := h.sublist (List.dropWhile_sublist _)
  cases hs : ds.dropWhile (· = '0') with
  | nil =>
    rw [hs] at hpos
    exact absurd hpos (Nat.lt_irrefl 0)
  | cons c rest =>
    rw [hs] at hhead hdigits
    exact ofNat_value_cons hdigits (of_decide_eq_false hhead)

/-! ## Digits in a width -/

theorem value_padded (width n : Nat) : value (padded width n) = n := by
  simp only [padded, value_append, value_replicate_zero, value_ofNat]
  omega

theorem length_padded {width n : Nat} (h : count n ≤ width) : (padded width n).length = width := by
  unfold count at h
  simp only [padded, List.length_append, List.length_replicate]
  omega

theorem areDigits_padded (width n : Nat) : AreDigits (padded width n) :=
  areDigits_append.2 ⟨areDigits_replicate_zero _, areDigits_ofNat n⟩

theorem le_length_padded (width n : Nat) : width ≤ (padded width n).length := by
  simp only [padded, List.length_append, List.length_replicate]
  omega

theorem length_fraction (width n : Nat) : (fraction width n).length = width := by
  unfold fraction
  split
  · rename_i h
    exact h.symm
  · rename_i h
    apply length_padded
    rw [count_le_iff (Nat.pos_of_ne_zero h)]
    exact Nat.mod_lt _ (ten_pow_pos width)

theorem value_fraction (width n : Nat) : value (fraction width n) = n % 10 ^ width := by
  unfold fraction
  split
  · rename_i h
    simp [h, value, Nat.mod_one]
  · exact value_padded width _

theorem areDigits_fraction (width n : Nat) : AreDigits (fraction width n) := by
  unfold fraction
  split
  · exact fun c hc => nomatch hc
  · exact areDigits_padded width _

end Worksheet.Digits

namespace Worksheet

/-- A fault that names an integer arises unless the integer is too long to be written. -/
theorem Fault.naming_integer (n : Int) (fault : Fault) : naming (.integer n) fault =
    if Digits.count n.natAbs ≤ Digits.limit then fault else .unreadableNumeral := by
  simp only [naming, Value.isWritable_integer, Bool.not_eq_true', Digits.exceedsLimit_eq_false_iff]

end Worksheet
