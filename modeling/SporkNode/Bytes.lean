/-!
Byte strings and the numerals written in them. A fixed-width numeral drops what does not fit, and
every string of the width is one (`ofNat_toNat`).
-/

namespace SporkNode

abbrev Bytes := List UInt8

namespace Bytes

/-- The `width` low bytes of a number, least significant first. -/
def ofNat : Nat → Nat → Bytes
  | 0, _ => []
  | width + 1, n => UInt8.ofNat (n % 256) :: ofNat width (n / 256)

/-- The number with these digits, least significant first. -/
def toNat : Bytes → Nat
  | [] => 0
  | b :: rest => b.toNat + 256 * toNat rest

/-- As `ofNat`, most significant byte first. -/
def ofNatBig (width n : Nat) : Bytes := (ofNat width n).reverse

/-- As `toNat`, most significant byte first. -/
def toNatBig (b : Bytes) : Nat := toNat b.reverse

@[simp] theorem length_ofNat (width n : Nat) : (ofNat width n).length = width := by
  induction width generalizing n with
  | zero => rfl
  | succ width ih => simp only [ofNat, List.length_cons, ih]

@[simp] theorem length_ofNatBig (width n : Nat) : (ofNatBig width n).length = width := by
  simp [ofNatBig]

theorem ofNat_toNat (b : Bytes) : ofNat b.length (toNat b) = b := by
  induction b with
  | nil => rfl
  | cons x rest ih =>
    have hx : x.toNat < 256 := x.toNat_lt
    rw [List.length_cons, ofNat, toNat, Nat.add_mul_mod_self_left, Nat.mod_eq_of_lt hx,
      UInt8.ofNat_toNat, Nat.add_mul_div_left _ _ (by decide), Nat.div_eq_of_lt hx, Nat.zero_add,
      ih]

/-- The UTF-8 bytes of a text. -/
def ofString (s : String) : Bytes := s.toUTF8.toList

end Bytes

end SporkNode
