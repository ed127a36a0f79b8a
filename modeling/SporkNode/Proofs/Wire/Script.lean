import SporkNode.Proofs.Wire.RoundTrip

/-!
Scripts. A script is written item after item and read kind after kind, each item telling by itself
where it ends. So reading a script that was written gives its items and leaves what follows it,
and whatever can be read as a script was written as one, in one way only.
-/

namespace SporkNode.Wire

/-- A size, be it of the byte string after it, is small enough to be read. -/
def Item.Fits : Item → Prop
  | .size v => v ≤ maxSize
  | .var v => v.length ≤ maxSize
  | .u8 _ | .i32 _ | .u32 _ | .i64 _ => True

instance Item.decidableFits : DecidablePred Item.Fits
  | .size v => inferInstanceAs (Decidable (v ≤ maxSize))
  | .var v => inferInstanceAs (Decidable (v.length ≤ maxSize))
  | .u8 _ | .i32 _ | .u32 _ | .i64 _ => inferInstanceAs (Decidable True)

theorem encodeAll_cons (item : Item) (items : List Item) :
    encodeAll (item :: items) = item.encode ++ encodeAll items := List.flatMap_cons

namespace Parse

/-- What is read becomes an item of its kind. -/
theorem Reads.item {p : Parse α} {write : α → Bytes} {allowed : α → Prop}
    (hp : Reads p write allowed) {tag : α → Item} {k : Kind}
    (htag : ∀ a, (tag a).kind = k ∧ (tag a).encode = write a ∧ ((tag a).Fits ↔ allowed a))
    (hkind : ∀ i : Item, i.kind = k → ∃ a, i = tag a) :
    Reads (p >>= fun a => return tag a) Item.encode (fun i => i.kind = k ∧ i.Fits) where
  whole := by
    rintro i ⟨hi, hfits⟩ rest
    obtain ⟨a, rfl⟩ := hkind i hi
    obtain ⟨-, hencode, hallowed⟩ := htag a
    rw [hencode, on_bind_of_ok (hp.whole (hallowed.1 hfits) rest), on_pure]
  only := by
    intro b i rest h
    obtain ⟨a, mid, hread, hpure⟩ := on_bind_eq_ok.1 h
    cases hpure
    obtain ⟨ha, rfl⟩ := hp.only hread
    obtain ⟨hi, hencode, hallowed⟩ := htag a
    exact ⟨⟨hi, hallowed.2 ha⟩, by rw [hencode]⟩
  short := by
    rintro i ⟨hi, hfits⟩
    obtain ⟨a, rfl⟩ := hkind i hi
    obtain ⟨-, hencode, hallowed⟩ := htag a
    rw [hencode]
    exact (hp.short (hallowed.1 hfits)).bind_left _

theorem reads_u32 : Reads u32 (fun v => (Item.u32 v).encode) (fun _ => True) := by
  apply (reads_numeral 4).map
  · intro n hn
    exact ⟨trivial, UInt32.toNat_ofNat_of_lt' hn⟩
  · intro v _
    exact ⟨v.toNat_lt, UInt32.ofNat_toNat⟩

theorem reads_kind (k : Kind) : Reads k.parse Item.encode (fun i => i.kind = k ∧ i.Fits) := by
  cases k with
  | u8 => exact reads_u8.item (fun _ => ⟨rfl, rfl, Iff.rfl⟩) fun | .u8 v, _ => ⟨v, rfl⟩
  | i32 => exact reads_i32.item (fun _ => ⟨rfl, rfl, Iff.rfl⟩) fun | .i32 v, _ => ⟨v, rfl⟩
  | u32 => exact reads_u32.item (fun _ => ⟨rfl, rfl, Iff.rfl⟩) fun | .u32 v, _ => ⟨v, rfl⟩
  | i64 => exact reads_i64.item (fun _ => ⟨rfl, rfl, Iff.rfl⟩) fun | .i64 v, _ => ⟨v, rfl⟩
  | size => exact reads_size.item (fun _ => ⟨rfl, rfl, Iff.rfl⟩) fun | .size v, _ => ⟨v, rfl⟩
  | var => exact reads_var.item (fun _ => ⟨rfl, rfl, Iff.rfl⟩) fun | .var v, _ => ⟨v, rfl⟩

end Parse

/-- The items are of the kinds, in order, and each fits. -/
def Script (kinds : List Kind) (items : List Item) : Prop :=
  items.map Item.kind = kinds ∧ ∀ i ∈ items, i.Fits

theorem script_nil {items : List Item} : Script [] items ↔ items = [] := by
  constructor
  · rintro ⟨hkinds, -⟩
    exact List.map_eq_nil_iff.1 hkinds
  · rintro rfl
    exact ⟨rfl, fun _ h => absurd h List.not_mem_nil⟩

theorem script_cons {k : Kind} {kinds : List Kind} {items : List Item} :
    Script (k :: kinds) items ↔
      ∃ item rest, items = item :: rest ∧ (item.kind = k ∧ item.Fits) ∧ Script kinds rest := by
  constructor
  · rintro ⟨hkinds, hfits⟩
    obtain ⟨item, rest, rfl, hk, hrest⟩ := List.map_eq_cons_iff.1 hkinds
    rw [List.forall_mem_cons] at hfits
    exact ⟨item, rest, rfl, ⟨hk, hfits.1⟩, hrest, hfits.2⟩
  · rintro ⟨item, rest, rfl, ⟨hk, hfits⟩, hrest, hall⟩
    refine ⟨?_, List.forall_mem_cons.2 ⟨hfits, hall⟩⟩
    rw [List.map_cons, hk, hrest]

namespace Parse

theorem parseAll_cons (k : Kind) (kinds : List Kind) :
    parseAll (k :: kinds) =
      k.parse >>= fun item => parseAll kinds >>= fun rest => return item :: rest := rfl

/-- Items read one after the other, by induction on the kinds that are still to come. -/
theorem reads_script (kinds : List Kind) : Reads (parseAll kinds) encodeAll (Script kinds) := by
  induction kinds with
  | nil => exact (Reads.pure []).congr (fun _ => script_nil) fun _ h => by rw [h]; rfl
  | cons k kinds ih =>
    have hfirst : ∀ items, Script (k :: kinds) items →
        (items.headD (.u8 0)).kind = k ∧ (items.headD (.u8 0)).Fits := by
      intro items h
      obtain ⟨item, rest, rfl, hitem, -⟩ := script_cons.1 h
      exact hitem
    have hrest : ∀ item : Item, item.kind = k ∧ item.Fits →
        Reads (parseAll kinds >>= fun rest => return item :: rest)
          (fun items => encodeAll items.tail)
          (fun items => Script (k :: kinds) items ∧ items.headD (.u8 0) = item) := by
      intro item hitem
      apply ih.map
      · intro rest h
        exact ⟨⟨script_cons.2 ⟨item, rest, rfl, hitem, h⟩, rfl⟩, rfl⟩
      · rintro items ⟨h, rfl⟩
        obtain ⟨item, rest, rfl, -, hrest⟩ := script_cons.1 h
        exact ⟨hrest, rfl⟩
    rw [parseAll_cons]
    apply ((reads_kind k).bind hfirst hrest).congr (fun _ => Iff.rfl)
    intro items h
    obtain ⟨item, rest, rfl, -⟩ := script_cons.1 h
    exact encodeAll_cons item rest

end Parse

/-- A byte string reads as a script exactly if it is the writing of the items, all of them of the
kinds asked for and small enough, and then what follows the writing is left. So what is consumed
tells the items and is told by them. -/
theorem parseAll_canonical (kinds : List Kind) :
    (∀ b items rest, (parseAll kinds).on b = (.ok items, rest) ↔
      (items.map Item.kind = kinds ∧ ∀ i ∈ items, i.Fits) ∧ b = encodeAll items ++ rest) ∧
    ∀ b b' items rest rest', (parseAll kinds).on b = (.ok items, rest) →
      (parseAll kinds).on b' = (.ok items, rest') →
      ∃ consumed, b = consumed ++ rest ∧ b' = consumed ++ rest' := by
  have hreads := Parse.reads_script kinds
  refine ⟨?_, ?_⟩
  · intro b items rest
    constructor
    · exact hreads.only
    · rintro ⟨hitems, rfl⟩
      exact hreads.whole hitems rest
  · intro b b' items rest rest' h h'
    exact ⟨encodeAll items, (hreads.only h).2, (hreads.only h').2⟩

/-- Sizes of three widths, a byte string and negative numbers, with three bytes left over. -/
theorem parseAll_canonical_mixed :
    let items : List Item := [.u8 7, .size 0xfc, .size 0xfd, .size 0x10000, .i32 (-1), .var [1, 2],
      .u32 4070908800, .i64 (-5), .size maxSize]
    let kinds := [.u8, .size, .size, .size, .i32, .var, .u32, .i64, .size]
    (items.map Item.kind = kinds ∧ ∀ i ∈ items, i.Fits) ∧
    (parseAll kinds).on (encodeAll items ++ [0, 1, 2]) = (.ok items, [0, 1, 2]) := by
  intro items kinds
  have hitems : items.map Item.kind = kinds ∧ ∀ i ∈ items, i.Fits := ⟨rfl, by decide⟩
  exact ⟨hitems, ((parseAll_canonical kinds).1 _ _ _).2 ⟨hitems, rfl⟩⟩

end SporkNode.Wire
