import Mathlib.Algebra.Group.Int.Defs
import Mathlib.Algebra.Group.Nat.Defs

/-!
Decimal numerals of integers, as lists of characters. Two numerals written one after the other are
a numeral again when the first is not nought and the second has no sign, and whatever numeral has a
numeral at its front was made like this.
-/

namespace SporkNode.Text

def numeral (x : Int) : List Char := (toString x).toList

/-- The number of a numeral; of any other text it is what comes out. -/
def ofNumeral : List Char → Int
  | '-' :: digits => -(Nat.ofDigitChars 10 digits 0 : Nat)
  | digits => (Nat.ofDigitChars 10 digits 0 : Nat)

/-- The number whose numeral is that of `x` and then that of `n`, unless `x` is nought. -/
def juxtapose (x : Int) (n : Nat) : Int :=
  let shift : Nat := 10 ^ (Nat.toDigits 10 n).length
  if 0 ≤ x then x * shift + n else x * shift - n

theorem numeral_natCast (n : Nat) : numeral n = Nat.toDigits 10 n := by
  have hn : (0 : Int) ≤ n := Int.natCast_nonneg n
  unfold numeral
  rw [Int.toString_eq_repr, Int.repr_eq_if, if_pos hn, Int.toNat_natCast, Nat.toList_repr]

theorem numeral_of_neg {x : Int} (h : x < 0) :
    numeral x = '-' :: Nat.toDigits 10 (-x).toNat := by
  have hn : ¬ 0 ≤ x := Int.not_le.2 h
  unfold numeral
  rw [Int.toString_eq_repr, Int.repr_eq_if, if_neg hn, String.toList_append, Nat.toList_repr]
  rfl

theorem numeral_ne_nil (x : Int) : numeral x ≠ [] := by
  by_cases h : x < 0
  · rw [numeral_of_neg h]
    exact List.cons_ne_nil _ _
  · obtain ⟨n, rfl⟩ := Int.eq_ofNat_of_zero_le (Int.not_lt.1 h)
    rw [numeral_natCast]
    exact Nat.toDigits_ne_nil

theorem isDigit_of_mem_toDigits {n : Nat} {c : Char} (h : c ∈ Nat.toDigits 10 n) :
    c.isDigit = true := Nat.isDigit_of_mem_toDigits (by decide) (by decide) h

theorem ofNumeral_numeral (x : Int) : ofNumeral (numeral x) = x := by
  by_cases h : x < 0
  · rw [numeral_of_neg h, ofNumeral, Nat.ofDigitChars_ten_toDigits]
    omega
  · obtain ⟨n, rfl⟩ := Int.eq_ofNat_of_zero_le (Int.not_lt.1 h)
    rw [numeral_natCast]
    unfold ofNumeral
    split
    · rename_i digits heq
      have hsign : ('-' : Char) ∈ Nat.toDigits 10 n := by
        rw [heq]
        exact List.mem_cons_self
      exact absurd (isDigit_of_mem_toDigits hsign) (by decide)
    · rw [Nat.ofDigitChars_ten_toDigits]

theorem numeral_injective {x y : Int} (h : numeral x = numeral y) : x = y := by
  rw [← ofNumeral_numeral x, h, ofNumeral_numeral]

/-- Only the first character of a numeral can be a sign. -/
theorem isDigit_of_numeral_eq_append {x : Int} {front back : List Char}
    (h : numeral x = front ++ back) (hf : front ≠ []) {c : Char} (hc : c ∈ back) :
    c.isDigit = true := by
  by_cases hx : x < 0
  · rw [numeral_of_neg hx] at h
    cases front with
    | nil => exact absurd rfl hf
    | cons sign front =>
      rw [List.cons_append, List.cons.injEq] at h
      apply isDigit_of_mem_toDigits (n := (-x).toNat)
      rw [h.2]
      exact List.mem_append_right front hc
  · obtain ⟨n, rfl⟩ := Int.eq_ofNat_of_zero_le (Int.not_lt.1 hx)
    rw [numeral_natCast] at h
    apply isDigit_of_mem_toDigits (n := n)
    rw [h]
    exact List.mem_append_right front hc

theorem nonneg_of_numeral_digits {x : Int} (h : ∀ c ∈ numeral x, c.isDigit = true) : 0 ≤ x := by
  apply Int.not_lt.1
  intro hx
  have hsign : ('-' : Char) ∈ numeral x := by
    rw [numeral_of_neg hx]
    exact List.mem_cons_self
  exact absurd (h _ hsign) (by decide)

/-! ## Digits of natural numbers -/

theorem toDigits_juxtapose {n : Nat} (hn : 0 < n) (r : Nat) :
    Nat.toDigits 10 n ++ Nat.toDigits 10 r =
      Nat.toDigits 10 (n * 10 ^ (Nat.toDigits 10 r).length + r) := by
  induction r using Nat.strongRecOn with
  | ind r ih =>
    by_cases hr : r < 10
    · rw [Nat.toDigits_append_toDigits (by decide) hn hr, Nat.toDigits_of_lt_base hr]
      simp only [List.length_singleton, Nat.pow_one, Nat.mul_comm]
    · have hsplit := Nat.toDigits_of_base_le (b := 10) (n := r) (by decide) (Nat.not_lt.1 hr)
      have hlast : r % 10 < 10 := Nat.mod_lt r (by decide)
      have hpos : 0 < n * 10 ^ (Nat.toDigits 10 (r / 10)).length + r / 10 :=
        Nat.add_pos_left (Nat.mul_pos hn (Nat.pow_pos (by decide))) _
      rw [hsplit, ← List.append_assoc, ih (r / 10) (by omega), ← Nat.toDigits_of_lt_base hlast,
        Nat.toDigits_append_toDigits (by decide) hpos hlast]
      congr 1
      simp only [Nat.toDigits_of_lt_base hlast, List.length_append, List.length_singleton,
        Nat.pow_succ, Nat.mul_add, Nat.mul_left_comm 10]
      have hdiv := Nat.div_add_mod r 10
      have hcomm : n * (10 * 10 ^ (Nat.toDigits 10 (r / 10)).length) =
          n * (10 ^ (Nat.toDigits 10 (r / 10)).length * 10) := by rw [Nat.mul_comm 10]
      omega

/-- The last `k` digits stand behind the numeral of what is left without them. -/
theorem toDigits_eq_append {n k : Nat} (h : 10 ^ k ≤ n) :
    ∃ back, back.length = k ∧ Nat.toDigits 10 n = Nat.toDigits 10 (n / 10 ^ k) ++ back := by
  induction k with
  | zero => exact ⟨[], rfl, by simp⟩
  | succ k ih =>
    have hk : 10 ^ k ≤ n := Nat.le_trans (Nat.pow_le_pow_right (by decide) (Nat.le_succ k)) h
    obtain ⟨back, hlength, heq⟩ := ih hk
    have hbase : 10 ≤ n / 10 ^ k := by
      rw [Nat.le_div_iff_mul_le (Nat.pow_pos (by decide)), Nat.mul_comm, ← Nat.pow_succ]
      exact h
    refine ⟨(n / 10 ^ k % 10).digitChar :: back, by simp [hlength], ?_⟩
    rw [heq, Nat.toDigits_of_base_le (by decide) hbase, Nat.div_div_eq_div_mul, ← Nat.pow_succ,
      List.append_assoc, List.singleton_append]

/-- A front part of a numeral is a numeral, and not that of nought. -/
theorem front_of_toDigits {n : Nat} {front back : List Char}
    (h : Nat.toDigits 10 n = front ++ back) (hf : front ≠ []) (hb : back ≠ []) :
    ∃ r, 0 < r ∧ front = Nat.toDigits 10 r := by
  have hlength := congrArg List.length h
  rw [List.length_append] at hlength
  have hflen := List.length_pos_iff.2 hf
  have hblen := List.length_pos_iff.2 hb
  have hlarge : 10 ^ back.length ≤ n := by
    apply Nat.not_lt.1
    intro hsmall
    have hle := (Nat.length_toDigits_le_iff (by decide) hblen).2 hsmall
    omega
  obtain ⟨back', hback, heq⟩ := toDigits_eq_append hlarge
  have hpos : 0 < n / 10 ^ back.length := Nat.div_pos hlarge (Nat.pow_pos (by decide))
  exact ⟨_, hpos, (List.append_inj' (h.symm.trans heq) hback.symm).1⟩

/-! ## Numerals of integers -/

theorem numeral_juxtapose {x : Int} (hx : x ≠ 0) (n : Nat) :
    numeral (juxtapose x n) = numeral x ++ numeral n := by
  rw [numeral_natCast]
  unfold juxtapose
  have hshift : (0 : Int) < (10 ^ (Nat.toDigits 10 n).length : Nat) :=
    Int.natCast_pos.2 (Nat.pow_pos (by decide))
  by_cases hneg : x < 0
  · obtain ⟨m, rfl⟩ := Int.exists_eq_neg_ofNat (Int.le_of_lt hneg)
    have hm : 0 < m := by omega
    have hall : (-(m : Int)) * (10 ^ (Nat.toDigits 10 n).length : Nat) - n =
        -((m * 10 ^ (Nat.toDigits 10 n).length + n : Nat) : Int) := by
      rw [Int.natCast_add, Int.natCast_mul, Int.neg_mul, Int.neg_add, Int.sub_eq_add_neg]
    have hpos : 0 < m * 10 ^ (Nat.toDigits 10 n).length := Nat.mul_pos hm (Nat.pow_pos (by decide))
    simp only [if_neg (Int.not_le.2 hneg)]
    rw [hall, numeral_of_neg hneg, numeral_of_neg (by omega), Int.neg_neg, Int.neg_neg,
      Int.toNat_natCast, Int.toNat_natCast, List.cons_append, toDigits_juxtapose hm]
  · obtain ⟨m, rfl⟩ := Int.eq_ofNat_of_zero_le (Int.not_lt.1 hneg)
    have hm : 0 < m := by omega
    simp only [if_pos (Int.not_lt.1 hneg)]
    rw [← Int.natCast_mul, ← Int.natCast_add, numeral_natCast, numeral_natCast,
      toDigits_juxtapose hm]

/-- No numeral goes on after a nought at its front. -/
theorem ne_zero_of_numeral_eq_append {x y : Int} {back : List Char}
    (h : numeral x = numeral y ++ back) (hb : back ≠ []) : y ≠ 0 := by
  rintro rfl
  have hzero : numeral 0 = Nat.toDigits 10 0 := numeral_natCast 0
  by_cases hx : x < 0
  · rw [numeral_of_neg hx, hzero, Nat.toDigits_zero, List.singleton_append, List.cons.injEq] at h
    exact absurd h.1 (by decide)
  · obtain ⟨n, rfl⟩ := Int.eq_ofNat_of_zero_le (Int.not_lt.1 hx)
    rw [numeral_natCast, hzero] at h
    obtain ⟨r, hr, heq⟩ := front_of_toDigits h Nat.toDigits_ne_nil hb
    have hvalue := congrArg (fun digits => Nat.ofDigitChars 10 digits 0) heq
    simp only [Nat.ofDigitChars_ten_toDigits] at hvalue
    omega

/-- Some digits have gone from the end of `x` to the front of `y`, and `x'` and `y'` are what they
are now. -/
def DigitsMove (x y x' y' : Int) : Prop :=
  ∃ moved : Nat, 0 < moved ∧ x' ≠ 0 ∧ 0 ≤ y ∧
    x = juxtapose x' moved ∧ y' = juxtapose moved y.toNat

theorem DigitsMove.numerals {x y x' y' : Int} (h : DigitsMove x y x' y') :
    numeral x ++ numeral y = numeral x' ++ numeral y' := by
  obtain ⟨moved, hmoved, hx', hy, rfl, rfl⟩ := h
  obtain ⟨n, rfl⟩ := Int.eq_ofNat_of_zero_le hy
  have hne : (moved : Int) ≠ 0 := by omega
  rw [numeral_juxtapose hx', Int.toNat_natCast, numeral_juxtapose hne, List.append_assoc]

theorem digitsMove_of_numerals {x y x' y' : Int} {front : List Char} (hf : front ≠ [])
    (hx : numeral x = numeral x' ++ front) (hy : numeral y' = front ++ numeral y) :
    DigitsMove x y x' y' := by
  have hdigits : ∀ c ∈ numeral y', c.isDigit = true := by
    intro c hc
    rw [hy] at hc
    rcases List.mem_append.1 hc with hc | hc
    · exact isDigit_of_numeral_eq_append hx (numeral_ne_nil x') hc
    · exact isDigit_of_numeral_eq_append hy hf hc
  have hnonneg : 0 ≤ y := by
    apply nonneg_of_numeral_digits
    intro c hc
    exact isDigit_of_numeral_eq_append hy hf hc
  obtain ⟨n, hn⟩ := Int.eq_ofNat_of_zero_le (nonneg_of_numeral_digits hdigits)
  have hn' := hy
  rw [hn, numeral_natCast] at hn'
  obtain ⟨moved, hmoved, hfront⟩ := front_of_toDigits hn' hf (numeral_ne_nil y)
  have hne : (moved : Int) ≠ 0 := by omega
  have hx' := ne_zero_of_numeral_eq_append hx hf
  rw [hfront, ← numeral_natCast] at hx hy
  refine ⟨moved, hmoved, hx', hnonneg, ?_, ?_⟩
  · rw [← numeral_juxtapose hx'] at hx
    exact numeral_injective hx
  · rw [← Int.toNat_of_nonneg hnonneg, ← numeral_juxtapose hne] at hy
    exact numeral_injective hy

/-- Two pairs of numerals read the same only if they are the same or digits have moved. -/
theorem numerals_eq_iff {x y x' y' : Int} :
    numeral x ++ numeral y = numeral x' ++ numeral y' ↔
      (x = x' ∧ y = y') ∨ DigitsMove x y x' y' ∨ DigitsMove x' y' x y := by
  constructor
  · intro h
    rcases List.append_eq_append_iff.1 h with ⟨front, hx', hy⟩ | ⟨front, hx, hy'⟩
    · by_cases hf : front = []
      · rw [hf, List.append_nil] at hx'
        rw [hf, List.nil_append] at hy
        exact .inl ⟨(numeral_injective hx').symm, numeral_injective hy⟩
      · exact .inr (.inr (digitsMove_of_numerals hf hx' hy))
    · by_cases hf : front = []
      · rw [hf, List.append_nil] at hx
        rw [hf, List.nil_append] at hy'
        exact .inl ⟨numeral_injective hx, (numeral_injective hy').symm⟩
      · exact .inr (.inl (digitsMove_of_numerals hf hx hy'))
  · rintro (⟨rfl, rfl⟩ | h | h)
    · rfl
    · exact h.numerals
    · exact h.numerals.symm

end SporkNode.Text
