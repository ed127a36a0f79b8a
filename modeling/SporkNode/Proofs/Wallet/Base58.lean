import Mathlib.Data.List.GetD
import Mathlib.Data.List.TakeWhile
import Mathlib.Data.Nat.Digits.Lemmas
import SporkNode.Proofs.Results
import SporkNode.Proofs.Text.Utf8
import SporkNode.Wallet.Base58

/-!
Base 58 as a change of base. A list of digits is some zeros and then the digits of a number, and
both the number and the count of the zeros are kept, so going to another base and back changes
nothing. Hence a byte string has one text, and no other text is read as it.
-/

namespace SporkNode

theorem Bytes.toNat_eq_ofDigits (b : Bytes) : toNat b = Nat.ofDigits 256 (b.map UInt8.toNat) := by
  induction b with
  | nil => rfl
  | cons x rest ih => rw [toNat, ih, List.map_cons, Nat.ofDigits_cons]

theorem Bytes.toNatBig_eq_ofDigits (b : Bytes) :
    toNatBig b = Nat.ofDigits 256 (b.map UInt8.toNat).reverse := by
  rw [toNatBig, toNat_eq_ofDigits, List.map_reverse]

theorem Bytes.map_ofNat_map_toNat (b : Bytes) : (b.map UInt8.toNat).map UInt8.ofNat = b := by
  rw [List.map_map]
  exact List.map_id'' (fun x => UInt8.ofNat_toNat) b

theorem Bytes.map_toNat_map_ofNat {ns : List Nat} (h : ∀ n ∈ ns, n < 256) :
    (ns.map UInt8.ofNat).map UInt8.toNat = ns := by
  rw [List.map_map]
  exact (List.map_congr_left fun n hn => UInt8.toNat_ofNat_of_lt' (h n hn)).trans (List.map_id ns)

namespace Wallet.Base58

theorem digits_eq {base : Nat} (hbase : 1 < base) (n : Nat) :
    digits base n = Nat.digits base n := by
  induction n using Nat.strongRecOn with
  | ind n ih =>
    rw [digits]
    by_cases hn : n = 0
    · rw [dif_pos (.inr hn), hn, Nat.digits_zero]
    · have hpos : 0 < n := Nat.pos_of_ne_zero hn
      rw [dif_neg (by omega), ih _ (Nat.div_lt_self hpos hbase), Nat.digits_def' hbase hpos]

/-! ## Changing the base -/

/-- Digits, most significant first, taken to another base. Zeros in front stay as they are. -/
def rebase (base base' : Nat) (ds : List Nat) : List Nat :=
  ds.takeWhile (· = 0) ++ (Nat.digits base' (Nat.ofDigits base ds.reverse)).reverse

section

variable {base base' : Nat}

/-- Digits are some zeros and then those of a number. -/
theorem exists_zeros_append (hbase : 1 < base) {ds : List Nat} (hds : ∀ d ∈ ds, d < base) :
    ∃ zeros n, ds = List.replicate zeros 0 ++ (Nat.digits base n).reverse := by
  induction ds with
  | nil => exact ⟨0, 0, by simp⟩
  | cons d ds ih =>
    by_cases hd : d = 0
    · obtain ⟨zeros, n, heq⟩ := ih fun d' hd' => hds d' (List.mem_cons_of_mem d hd')
      exact ⟨zeros + 1, n, by rw [hd, heq, List.replicate_succ, List.cons_append]⟩
    · refine ⟨0, Nat.ofDigits base (d :: ds).reverse, ?_⟩
      have hlast : ∀ h : (d :: ds).reverse ≠ [], (d :: ds).reverse.getLast h ≠ 0 := by
        intro h
        rw [List.getLast_reverse, List.head_cons]
        exact hd
      rw [Nat.digits_ofDigits base hbase _ (fun l hl => hds l (List.mem_reverse.1 hl)) hlast,
        List.reverse_reverse]
      rfl

theorem rebase_zeros_append (zeros n : Nat) :
    rebase base base' (List.replicate zeros 0 ++ (Nat.digits base n).reverse) =
      List.replicate zeros 0 ++ (Nat.digits base' n).reverse := by
  -- the first digit of a number is not zero
  have hfirst : (Nat.digits base n).reverse.takeWhile (· = 0) = [] := by
    by_cases hn : n = 0
    · simp [hn]
    · have hlast := Nat.getLast_digit_ne_zero base hn
      rw [List.takeWhile_eq_nil_iff]
      intro hlength
      rw [List.get_eq_getElem, List.getElem_reverse]
      simpa [List.getLast_eq_getElem] using hlast
  have hvalue : Nat.ofDigits base
      (List.replicate zeros 0 ++ (Nat.digits base n).reverse).reverse = n := by
    rw [List.reverse_append, List.reverse_reverse, List.reverse_replicate,
      Nat.ofDigits_append_replicate_zero, Nat.ofDigits_digits]
  rw [rebase, hvalue, List.takeWhile_append_of_pos (by simp), hfirst, List.append_nil]

/-- There and back again. -/
theorem rebase_rebase (hbase : 1 < base) {ds : List Nat}
    (hds : ∀ d ∈ ds, d < base) : rebase base' base (rebase base base' ds) = ds := by
  obtain ⟨zeros, n, rfl⟩ := exists_zeros_append hbase hds
  rw [rebase_zeros_append, rebase_zeros_append]

theorem lt_of_mem_rebase (hbase : 1 < base) (hbase' : 1 < base') {ds : List Nat}
    (hds : ∀ d ∈ ds, d < base) : ∀ d ∈ rebase base base' ds, d < base' := by
  obtain ⟨zeros, n, rfl⟩ := exists_zeros_append hbase hds
  intro d hd
  rw [rebase_zeros_append, List.mem_append, List.mem_replicate, List.mem_reverse] at hd
  rcases hd with ⟨-, rfl⟩ | hd
  · omega
  · exact Nat.digits_lt_base hbase' hd

end

/-! ## Letters -/

def letter (d : Nat) : Char := alphabet.getD d '1'

/-- Letter by letter, as the text is slow to evaluate. -/
theorem alphabet_eq :
    alphabet =
    ['1', '2', '3', '4', '5', '6', '7', '8', '9', 'A', 'B', 'C', 'D', 'E', 'F', 'G', 'H', 'J',
     'K', 'L', 'M', 'N', 'P', 'Q', 'R', 'S', 'T', 'U', 'V', 'W', 'X', 'Y', 'Z', 'a', 'b', 'c',
     'd', 'e', 'f', 'g', 'h', 'i', 'j', 'k', 'm', 'n', 'o', 'p', 'q', 'r', 's', 't', 'u', 'v',
     'w', 'x', 'y', 'z'] :=
  String.toList_ofList

theorem length_alphabet : alphabet.length = 58 := by
  rw [alphabet_eq]
  rfl

theorem letter_ascii {d : Nat} (h : d < 58) : (letter d).toNat < 128 := by
  rw [letter, alphabet_eq]
  revert d
  decide +kernel

theorem findIdx?_alphabet {c : Char} {d : Nat} :
    alphabet.findIdx? (· = c) = some d ↔ d < 58 ∧ letter d = c := by
  constructor
  · intro h
    obtain ⟨hd, hc, -⟩ := List.findIdx?_eq_some_iff_getElem.1 h
    have hletter : letter d = alphabet[d] := List.getD_eq_getElem _ _ hd
    exact ⟨length_alphabet ▸ hd, hletter.trans (of_decide_eq_true hc)⟩
  · rintro ⟨hd, rfl⟩
    rw [letter, alphabet_eq]
    revert d
    decide +kernel

/-- The byte of a letter. -/
def symbol (d : Nat) : UInt8 := UInt8.ofNat (letter d).toNat

theorem toNat_symbol {d : Nat} (h : d < 58) : (symbol d).toNat = (letter d).toNat :=
  UInt8.toNat_ofNat_of_lt' (Nat.lt_trans (letter_ascii h) (by decide))

theorem letter_eq_iff {d : Nat} (hd : d < 58) {x : UInt8} (hx : x.toNat < 128) :
    letter d = Char.ofNat x.toNat ↔ x = symbol d := by
  have hchar : (Char.ofNat x.toNat).toNat = x.toNat := by
    rw [Char.ofNat, dif_pos (.inl (by omega))]
    rfl
  constructor
  · intro h
    rw [symbol, h, hchar, UInt8.ofNat_toNat]
  · rintro rfl
    rw [toNat_symbol hd, Char.ofNat_toNat]

theorem readDigits_cons_eq_ok {index : Nat} {x : UInt8} {rest : Bytes} {ds : List Nat} :
    readDigits index (x :: rest) = .ok ds ↔
      ∃ d ds', ds = d :: ds' ∧ (d < 58 ∧ x = symbol d) ∧
        readDigits (index + 1) rest = .ok ds' := by
  rw [readDigits]
  by_cases hx : 128 ≤ x.toNat
  · rw [if_pos hx]
    refine iff_of_false nofun ?_
    rintro ⟨d, -, -, ⟨hd, rfl⟩, -⟩
    have hascii := letter_ascii hd
    rw [toNat_symbol hd] at hx
    omega
  · rw [if_neg hx, Nat.not_le] at *
    dsimp only
    split
    · rename_i hnone
      refine iff_of_false nofun ?_
      rintro ⟨d, -, -, ⟨hd, hsymbol⟩, -⟩
      have hsome := findIdx?_alphabet.2 ⟨hd, (letter_eq_iff hd hx).2 hsymbol⟩
      rw [hnone] at hsome
      cases hsome
    · rename_i d hsome
      obtain ⟨hd, hletter⟩ := findIdx?_alphabet.1 hsome
      rw [bind_eq_ok]
      constructor
      · rintro ⟨ds', hread, h⟩
        cases h
        exact ⟨d, ds', rfl, ⟨hd, (letter_eq_iff hd hx).1 hletter⟩, hread⟩
      · rintro ⟨d', ds', rfl, ⟨hd', hsymbol⟩, hread⟩
        have hsame := findIdx?_alphabet.2 ⟨hd', (letter_eq_iff hd' hx).2 hsymbol⟩
        rw [hsome, Option.some.injEq] at hsame
        exact ⟨ds', hread, by rw [hsame]; rfl⟩

/-- A text is read letter by letter, and only the letters can be read. -/
theorem readDigits_eq_ok {index : Nat} {b : Bytes} {ds : List Nat} :
    readDigits index b = .ok ds ↔
      (∀ d ∈ ds, d < 58) ∧ b = ds.map symbol := by
  induction b generalizing index ds with
  | nil =>
    rw [readDigits, Except.ok.injEq, eq_comm (a := []), eq_comm (a := []), List.map_eq_nil_iff]
    constructor
    · rintro rfl
      exact ⟨by simp, rfl⟩
    · exact fun h => h.2
  | cons x rest ih =>
    rw [readDigits_cons_eq_ok]
    constructor
    · rintro ⟨d, ds', rfl, ⟨hd, rfl⟩, hrest⟩
      obtain ⟨hds', rfl⟩ := ih.1 hrest
      exact ⟨List.forall_mem_cons.2 ⟨hd, hds'⟩, rfl⟩
    · rintro ⟨hds, hb⟩
      cases ds with
      | nil => cases hb
      | cons d ds' =>
        rw [List.forall_mem_cons] at hds
        rw [List.map_cons, List.cons.injEq] at hb
        exact ⟨d, ds', rfl, ⟨hds.1, hb.1⟩, ih.2 ⟨hds.2, hb.2⟩⟩

/-! ## Texts -/

theorem foldl_eq_ofDigits (ds : List Nat) :
    ds.foldl (fun n d => 58 * n + d) 0 = Nat.ofDigits 58 ds.reverse := by
  rw [Nat.ofDigits_eq_foldr, List.foldr_reverse]
  simp only [Nat.cast_id, Nat.add_comm]

theorem encode_eq (b : Bytes) :
    encode b = String.ofList ((rebase 256 58 (b.map UInt8.toNat)).map letter) := by
  have hzeros : (b.map UInt8.toNat).takeWhile (· = 0) = (b.takeWhile (· = 0)).map UInt8.toNat := by
    rw [List.takeWhile_map]
    congr 2
    funext x
    simp [← UInt8.toNat_inj]
  have hletters : (b.takeWhile (· = 0)).map (fun _ => '1') =
      ((b.takeWhile (· = 0)).map UInt8.toNat).map letter := by
    rw [List.map_map]
    apply List.map_congr_left
    intro x hx
    have hzero := List.mem_takeWhile_imp hx
    rw [decide_eq_true_eq] at hzero
    rw [hzero]
    rfl
  rw [rebase, hzeros, List.map_append, ← hletters, ← Bytes.toNatBig_eq_ofDigits,
    ← digits_eq (by decide)]
  rfl

theorem decode_of_readDigits {s : String} {ds : List Nat}
    (h : readDigits 0 (Bytes.ofString s) = .ok ds) :
    decode s = .ok ((rebase 58 256 ds).map UInt8.ofNat) := by
  have hzeros : (ds.takeWhile (· = 0)).map (fun _ => (0 : UInt8)) =
      (ds.takeWhile (· = 0)).map UInt8.ofNat := by
    apply List.map_congr_left
    intro d hd
    have hzero := List.mem_takeWhile_imp hd
    rw [decide_eq_true_eq] at hzero
    rw [hzero]
    rfl
  rw [rebase, List.map_append, ← hzeros, ← foldl_eq_ofDigits, ← digits_eq (by decide)]
  unfold decode
  rw [h]
  rfl

/-- A byte string is read from its own text and from no other. -/
theorem decode_eq_ok_iff {s : String} {b : Bytes} : decode s = .ok b ↔ s = encode b := by
  have hascii : ∀ ds : List Nat, (∀ d ∈ ds, d < 58) →
      Bytes.ofString (String.ofList (ds.map letter)) = ds.map symbol := by
    intro ds hds
    rw [Bytes.ofString_ofList_of_ascii, List.map_map]
    · rfl
    · intro c hc
      obtain ⟨d, hd, rfl⟩ := List.mem_map.1 hc
      exact letter_ascii (hds d hd)
  rw [encode_eq]
  constructor
  · intro h
    obtain ⟨ds, hread, -⟩ := bind_eq_ok.1 h
    rw [decode_of_readDigits hread, Except.ok.injEq] at h
    obtain ⟨hds, hs⟩ := readDigits_eq_ok.1 hread
    have hbytes : b.map UInt8.toNat = rebase 58 256 ds := by
      rw [← h]
      exact Bytes.map_toNat_map_ofNat (lt_of_mem_rebase (by decide) (by decide) hds)
    rw [hbytes, rebase_rebase (by decide) hds]
    exact Bytes.ofString_injective (hs.trans (hascii ds hds).symm)
  · rintro rfl
    have hb : ∀ d ∈ b.map UInt8.toNat, d < 256 := by
      intro d hd
      obtain ⟨x, -, rfl⟩ := List.mem_map.1 hd
      exact x.toNat_lt
    have hds := lt_of_mem_rebase (by decide : 1 < 256) (by decide : 1 < 58) hb
    rw [decode_of_readDigits (readDigits_eq_ok.2 ⟨hds, hascii _ hds⟩),
      rebase_rebase (by decide) hb, Bytes.map_ofNat_map_toNat]

end Wallet.Base58

end SporkNode
