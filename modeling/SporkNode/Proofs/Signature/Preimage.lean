import SporkNode.Proofs.Text.Utf8
import SporkNode.Proofs.Wire.Script
import SporkNode.Signature.Message
import SporkNode.Spork.Message

/-!
What is hashed. A size tells by its first byte how long it is, so the two texts that a signature is
given for can be told apart again, whatever their lengths; and the identity of a spork has its
three numbers at fixed places. Hence two digests agree only if the same was hashed, or if the
digest has a collision.
-/

namespace SporkNode

/-- Two byte strings with one digest. -/
def Digest.Collide (b b' : Bytes) : Prop := b ≠ b' ∧ sha256d b = sha256d b'

/-- If hashing starts from `preimage`, the digest tells all that the preimage tells. -/
theorem Digest.sha256d_eq_iff {b b' : Bytes} {same : Prop} (h : b = b' ↔ same) :
    sha256d b = sha256d b' ↔ same ∨ Collide b b' := by
  rw [← h]
  constructor
  · intro hdigest
    by_cases hb : b = b'
    · exact .inl hb
    · exact .inr ⟨hb, hdigest⟩
  · rintro (rfl | ⟨-, hdigest⟩)
    · rfl
    · exact hdigest

namespace Wire

/-! ## Sizes -/

/-- The number in a size. -/
def announced (size : Bytes) : Nat :=
  if size.tail = [] then (size.headD 0).toNat else Bytes.toNat size.tail

/-- The widest sizes hold 64 bits. -/
theorem announced_encodeSize (n : Nat) : announced (encodeSize n) = n % 2 ^ 64 := by
  have hwide : ∀ (marker : UInt8) (width : Nat), width ≠ 0 →
      announced (marker :: Bytes.ofNat width n) = n % 256 ^ width := by
    intro marker width hwidth
    have hne : Bytes.ofNat width n ≠ [] := by
      rw [← List.length_pos_iff, Bytes.length_ofNat]
      omega
    rw [announced, List.tail_cons, if_neg hne, Bytes.toNat_ofNat]
  by_cases h : n < 0xfd
  · rw [Parse.encodeSize_of_small h, announced, List.tail_cons, if_pos rfl, List.headD_cons,
      Parse.toNat_ofNat_small h]
    omega
  · unfold encodeSize
    rw [if_neg h]
    split
    · rw [hwide _ 2 (by decide)]
      omega
    · split
      · rw [hwide _ 4 (by decide)]
        omega
      · rw [hwide _ 8 (by decide)]
        rfl

theorem headD_encodeSize_of_large {n : Nat} (h : 0xffffffff < n) :
    (encodeSize n).headD 0 = 0xff := by
  unfold encodeSize
  rw [if_neg (by omega), if_neg (by omega), if_neg (by omega)]
  rfl

/-! ## Texts behind their lengths -/

theorem encodeVar_injective {b b' : Bytes} (h : encodeVar b = encodeVar b') : b = b' :=
  (encodeSize_append_inj h).2

/-- Lengths with one size differ by 2⁶⁴ or more. What the longer of two texts has more would then
hold the size of what comes next, and that would begin with a byte that is in no text. -/
theorem excess_eq_nil {b excess next rest : Bytes}
    (hsize : encodeSize b.length = encodeSize (b ++ excess).length)
    (hexcess : ∀ x ∈ excess, x.toNat < 255) (hnext : encodeVar next = excess ++ rest) :
    excess = [] := by
  cases excess with
  | nil => rfl
  | cons first more =>
    have hmod := congrArg announced hsize
    rw [announced_encodeSize, announced_encodeSize, List.length_append] at hmod
    have hlong : 2 ^ 64 ≤ (first :: more).length := by
      rw [List.length_cons] at *
      omega
    have hlength := congrArg List.length hnext
    have hwidth := sizeWidth_le ((encodeSize next.length).headD 0)
    rw [encodeVar, List.length_append, List.length_append, length_encodeSize] at hlength
    have hfirst : first = 0xff := by
      rw [← headD_encodeSize_of_large (n := next.length) (by omega),
        ← headD_encodeSize_append _ next]
      exact (congrArg (fun b : Bytes => b.headD 0) hnext).symm
    exact absurd (hexcess first List.mem_cons_self) (by rw [hfirst]; decide)

/-- Two texts back to back, each behind its length, can be told apart. -/
theorem encodeVar_append_inj {b b' next next' : Bytes} (hb : ∀ x ∈ b, x.toNat < 255)
    (hb' : ∀ x ∈ b', x.toNat < 255)
    (h : encodeVar b ++ encodeVar next = encodeVar b' ++ encodeVar next') :
    b = b' ∧ next = next' := by
  rw [encodeVar.eq_1 b, encodeVar.eq_1 b', List.append_assoc, List.append_assoc] at h
  obtain ⟨hsize, hrest⟩ := encodeSize_append_inj h
  have hsame : b = b' := by
    rcases List.append_eq_append_iff.1 hrest with ⟨excess, rfl, hnext⟩ | ⟨excess, rfl, hnext⟩
    · have hnil := excess_eq_nil hsize (fun x hx => hb' x (List.mem_append_right b hx)) hnext
      rw [hnil, List.append_nil]
    · have hnil := excess_eq_nil hsize.symm (fun x hx => hb x (List.mem_append_right b' hx)) hnext
      rw [hnil, List.append_nil]
  subst hsame
  exact ⟨rfl, encodeVar_injective (List.append_cancel_left hrest)⟩

end Wire

namespace Signature

theorem messagePreimage_eq_iff {magic text magic' text' : String} :
    messagePreimage magic text = messagePreimage magic' text' ↔
      magic = magic' ∧ text = text' := by
  constructor
  · intro h
    obtain ⟨hmagic, htext⟩ := Wire.encodeVar_append_inj
      (fun _ => Bytes.lt_255_of_mem_ofString) (fun _ => Bytes.lt_255_of_mem_ofString) h
    exact ⟨Bytes.ofString_injective hmagic, Bytes.ofString_injective htext⟩
  · rintro ⟨rfl, rfl⟩
    rfl

end Signature

namespace Spork

open Signature Wire

theorem Message.identity_eq_iff {a b : Message} :
    a.identity = b.identity ↔ a.id = b.id ∧ a.value = b.value ∧ a.time = b.time := by
  have hscript : ∀ m : Message,
      Script [.i32, .i64, .i64] [.i32 m.id, .i64 m.value, .i64 m.time] := by
    intro m
    exact ⟨rfl, by simp [Item.Fits]⟩
  constructor
  · intro h
    have hitems := (Parse.reads_script _).injective (hscript a) (hscript b) h
    simpa using hitems
  · rintro ⟨hid, hvalue, htime⟩
    rw [identity, identity, hid, hvalue, htime]

/-- What is hashed for a signed text is told by magic and text and tells both, of whatever lengths,
and what is hashed for a spork tells its number, value and time and nothing else. So digests
separate magics, texts and sporks as far as the digest has no collisions. -/
theorem preimages_separate :
    (∀ magic text magic' text' : String,
      messagePreimage magic text = messagePreimage magic' text' ↔
        magic = magic' ∧ text = text') ∧
    (∀ a b : Message, a.identity = b.identity ↔
      a.id = b.id ∧ a.value = b.value ∧ a.time = b.time) ∧
    (∀ magic text magic' text' : String,
      messageDigest magic text = messageDigest magic' text' ↔
        (magic = magic' ∧ text = text') ∨
          Digest.Collide (messagePreimage magic text) (messagePreimage magic' text')) ∧
    ∀ a b : Message, a.hash = b.hash ↔
      (a.id = b.id ∧ a.value = b.value ∧ a.time = b.time) ∨
        Digest.Collide a.identity b.identity := by
  refine ⟨fun _ _ _ _ => messagePreimage_eq_iff, fun _ _ => Message.identity_eq_iff, ?_, ?_⟩
  · exact fun _ _ _ _ => Digest.sha256d_eq_iff messagePreimage_eq_iff
  · exact fun _ _ => Digest.sha256d_eq_iff Message.identity_eq_iff

end Spork

end SporkNode
