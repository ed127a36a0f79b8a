import Mathlib.NumberTheory.LucasPrimality
import Mathlib.Tactic.NormNum.Prime
import SporkNode.Curve.Field

/-!
Both moduli of the curve are prime. A number is prime if it has a base whose powers reach one at the
exponent one less than the number, and at none that lacks one of the prime factors of that exponent.
So larger primes are shown from the smaller ones among these factors.
-/

namespace SporkNode.Curve

/-- The remainder of a power by squaring, for exponents of `width` bits. -/
def powMod (m : ℕ) : ℕ → ℕ → ℕ → ℕ
  | 0, _, _ => 1 % m
  | width + 1, a, n =>
    let half := powMod m width (a * a % m) (n / 2)
    if n % 2 = 1 then half * a % m else half

theorem powMod_eq (m : ℕ) {width n : ℕ} (h : n < 2 ^ width) (a : ℕ) :
    powMod m width a n = a ^ n % m := by
  induction width generalizing a n with
  | zero =>
    obtain rfl : n = 0 := by omega
    rfl
  | succ width ih =>
    have hhalf : powMod m width (a * a % m) (n / 2) = a ^ (2 * (n / 2)) % m := by
      rw [ih (by rw [pow_succ] at h; omega), ← Nat.pow_mod, pow_mul, sq]
    rw [powMod, hhalf]
    split
    · rw [Nat.mod_mul_mod, ← pow_succ]
      congr 2
      omega
    · congr 2
      omega

/-- The base `a` has its order divided by no proper part of the product of the factors. -/
def FullOrder (a : ℕ) (factors : List ℕ) (p : ℕ) : Prop :=
  factors.prod + 1 = p ∧ 1 < p ∧ p < 2 ^ 256 ∧ powMod p 256 a (p - 1) = 1 ∧
    ∀ q ∈ factors, powMod p 256 a ((p - 1) / q) ≠ 1

instance (a : ℕ) (factors : List ℕ) (p : ℕ) : Decidable (FullOrder a factors p) :=
  inferInstanceAs (Decidable (_ ∧ _))

theorem pow_eq_one_iff {p : ℕ} (hp : 1 < p) (a n : ℕ) : (a : ZMod p) ^ n = 1 ↔ a ^ n % p = 1 := by
  rw [← Nat.cast_pow, ← Nat.cast_one, ZMod.natCast_eq_natCast_iff', Nat.mod_eq_of_lt hp]

theorem FullOrder.prime {a : ℕ} {factors : List ℕ} {p : ℕ} (h : FullOrder a factors p)
    (hfactors : ∀ q ∈ factors, q.Prime) : p.Prime := by
  obtain ⟨hprod, hp, hwidth, hone, hne⟩ := h
  have hbits : ∀ n ≤ p - 1, n < 2 ^ 256 := fun n hn => by omega
  refine lucas_primality p (a : ZMod p) ?_ ?_
  · rw [pow_eq_one_iff hp, ← powMod_eq p (hbits _ le_rfl)]
    exact hone
  · intro q hq hdvd
    rw [← hprod, Nat.add_sub_cancel] at hdvd
    obtain ⟨q', hq', hdvd⟩ := (Prime.dvd_prod_iff hq.prime).1 hdvd
    obtain rfl := (Nat.prime_dvd_prime_iff_eq hq (hfactors q' hq')).1 hdvd
    rw [ne_eq, pow_eq_one_iff hp, ← powMod_eq p (hbits _ (Nat.div_le_self _ _))]
    exact hne q hq'

theorem prime_of_fullOrder (a : ℕ) (small large : List ℕ) {p : ℕ} (hsmall : ∀ q ∈ small, q.Prime)
    (hlarge : ∀ q ∈ large, q.Prime) (h : FullOrder a (small ++ large) p) : p.Prime :=
  h.prime (List.forall_mem_append.2 ⟨hsmall, hlarge⟩)

theorem prime_fieldPrime : fieldPrime.Prime := by
  have h₁ : Nat.Prime 107590001 :=
    prime_of_fullOrder 3 [2, 2, 2, 2, 5, 5, 5, 5, 7, 29, 53] [] (by norm_num) nofun
      (by decide +kernel)
  have h₂ : Nat.Prime 255515944373312847190720520512484175977 :=
    prime_of_fullOrder 3 [2, 2, 2, 7, 7, 11, 1627, 2657, 4423, 41201, 96557, 7240687] [107590001]
      (by norm_num) (by simpa using h₁) (by decide +kernel)
  have h₃ : Nat.Prime 173378833005251801 :=
    prime_of_fullOrder 6 [2, 2, 2, 5, 5, 2621, 24809, 13331831] [] (by norm_num) nofun
      (by decide +kernel)
  have h₄ : Nat.Prime 22149492674086928081353 :=
    prime_of_fullOrder 5 [2, 2, 2, 3, 5323] [173378833005251801] (by norm_num) (by simpa using h₃)
      (by decide +kernel)
  have h₅ : Nat.Prime 132896956044521568488119 :=
    prime_of_fullOrder 6 [2, 3] [22149492674086928081353] (by norm_num) (by simpa using h₄)
      (by decide +kernel)
  have h₆ : Nat.Prime
      205115282021455665897114700593932402728804164701536103180137503955397371 :=
    prime_of_fullOrder 10 [2, 3, 5, 29, 29, 31, 7723]
      [132896956044521568488119, 255515944373312847190720520512484175977] (by norm_num)
      (by simpa using ⟨h₅, h₂⟩) (by decide +kernel)
  exact prime_of_fullOrder 3 [2, 3, 7, 13441]
    [205115282021455665897114700593932402728804164701536103180137503955397371] (by norm_num)
    (by simpa using h₆) (by decide +kernel)

theorem prime_order : order.Prime := by
  have h₁ : Nat.Prime 545358713 :=
    prime_of_fullOrder 5 [2, 2, 2, 41, 59, 28181] [] (by norm_num) nofun (by decide +kernel)
  have h₂ : Nat.Prime 297159362677 :=
    prime_of_fullOrder 2 [2, 2, 3, 3, 11, 461, 1627771] [] (by norm_num) nofun (by decide +kernel)
  have h₃ : Nat.Prime 29047611873442575647497758179 :=
    prime_of_fullOrder 2 [2, 293, 305873] [545358713, 297159362677] (by norm_num)
      (by simpa using ⟨h₁, h₂⟩) (by decide +kernel)
  have h₄ : Nat.Prime 341948486974166000522343609283189 :=
    prime_of_fullOrder 2 [2, 2, 3, 3, 3, 109] [29047611873442575647497758179] (by norm_num)
      (by simpa using h₃) (by decide +kernel)
  have h₅ : Nat.Prime 44706919 :=
    prime_of_fullOrder 6 [2, 3, 797, 9349] [] (by norm_num) nofun (by decide +kernel)
  have h₆ : Nat.Prime 174723607534414371449 :=
    prime_of_fullOrder 3 [2, 2, 2, 17, 59, 4051, 120233] [44706919] (by norm_num)
      (by simpa using h₅) (by decide +kernel)
  have h₇ : Nat.Prime 107361793816595537 :=
    prime_of_fullOrder 3 [2, 2, 2, 2, 16699, 85831, 4681609] [] (by norm_num) nofun
      (by decide +kernel)
  exact prime_of_fullOrder 7 [2, 2, 2, 2, 2, 2, 3, 149, 631]
    [107361793816595537, 174723607534414371449, 341948486974166000522343609283189] (by norm_num)
    (by simpa using ⟨h₇, h₆, h₄⟩) (by decide +kernel)

end SporkNode.Curve
