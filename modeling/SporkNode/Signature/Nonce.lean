import SporkNode.Digest.Hmac
import SporkNode.Signature.Scheme

/-!
Nonces drawn from the secret and the digest alone, so that signing twice gives one signature. A
keyed digest feeds itself until it yields a number that is a scalar.
-/

namespace SporkNode.Signature

open Curve Digest

private structure Generator where
  key : Bytes
  value : Bytes

private def Generator.mix (g : Generator) (input : Bytes) : Generator :=
  let key := hmac g.key (g.value ++ input)
  ⟨key, hmac key g.value⟩

private def Generator.seeded (seed : Bytes) : Generator :=
  let start : Generator := ⟨List.replicate 32 0, List.replicate 32 1⟩
  (start.mix (0x00 :: seed)).mix (0x01 :: seed)

private def Generator.draw : Nat → Generator → Option Nat
  | 0, _ => none
  | attempts + 1, g =>
    let value := hmac g.key g.value
    let n := Bytes.toNatBig value
    if 0 < n ∧ n < order then some n
    else Generator.draw attempts (Generator.mix ⟨g.key, value⟩ [0x00])

private theorem Generator.draw_bounds {attempts : Nat} {g : Generator} {n : Nat}
    (h : g.draw attempts = some n) : 0 < n ∧ n < order := by
  induction attempts generalizing g with
  | zero => cases h
  | succ attempts ih =>
    rw [Generator.draw] at h
    split at h
    · rename_i hbounds
      exact Option.some.inj h ▸ hbounds
    · exact ih h

/-- An attempt fails about once in 2¹²⁸, so the bound is never met. -/
def nonce? (k : Secret) (digest : Hash) : Option Nat :=
  (Generator.seeded (k.toBytes ++ digest.bytes)).draw 64

theorem nonce?_bounds {k : Secret} {digest : Hash} {n : Nat} (h : nonce? k digest = some n) :
    0 < n ∧ n < order :=
  Generator.draw_bounds h

end SporkNode.Signature
