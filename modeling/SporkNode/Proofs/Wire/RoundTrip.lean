import SporkNode.Proofs.Numerals
import SporkNode.Wire.Item

/-!
Writing and reading, with bytes left over so that the fields of a record can be chained. A reader
gives back what was written, succeeds on nothing else, and on a writing that was cut short finds
that the input ends. Readers keep these properties when they are run one after the other, so a
format has them from its fields.
-/

namespace SporkNode.Wire

namespace Parse

@[simp] theorem on_pure (a : α) (b : Bytes) : (pure a : Parse α).on b = (.ok a, b) := rfl

theorem on_bind (p : Parse α) (f : α → Parse β) (b : Bytes) :
    (p >>= f).on b =
      match p.on b with
      | (.ok a, rest) => (f a).on rest
      | (.error e, rest) => (.error e, rest) := by
  change (match p b with | (x, rest) => ExceptT.bindCont f x rest) = _
  unfold on
  cases p b with
  | mk x rest => cases x <;> rfl

theorem on_bind_of_ok {p : Parse α} {f : α → Parse β} {a : α} {b rest : Bytes}
    (h : p.on b = (.ok a, rest)) : (p >>= f).on b = (f a).on rest := by
  rw [on_bind, h]

theorem on_bind_of_error {p : Parse α} {f : α → Parse β} {e : WireError} {b rest : Bytes}
    (h : p.on b = (.error e, rest)) : (p >>= f).on b = (.error e, rest) := by
  rw [on_bind, h]

theorem on_bind_eq_ok {p : Parse α} {f : α → Parse β} {c : β} {b rest : Bytes} :
    (p >>= f).on b = (.ok c, rest) ↔
      ∃ a mid, p.on b = (.ok a, mid) ∧ (f a).on mid = (.ok c, rest) := by
  rw [on_bind]
  constructor
  · intro h
    split at h
    · exact ⟨_, _, by assumption, h⟩
    · cases h
  · rintro ⟨a, mid, hp, hf⟩
    rw [hp]
    exact hf

theorem on_bind_eq_error {p : Parse α} {f : α → Parse β} {e : WireError} {b rest : Bytes} :
    (p >>= f).on b = (.error e, rest) ↔
      p.on b = (.error e, rest) ∨
        ∃ a mid, p.on b = (.ok a, mid) ∧ (f a).on mid = (.error e, rest) := by
  rw [on_bind]
  constructor
  · intro h
    split at h
    · exact .inr ⟨_, _, by assumption, h⟩
    · cases h
      exact .inl (by assumption)
  · rintro (hp | ⟨a, mid, hp, hf⟩)
    · rw [hp]
    · rw [hp]
      exact hf

theorem on_take (n : Nat) (b : Bytes) :
    (take n).on b =
      if b.length < n then (.error (.unexpectedEnd n b.length), b)
      else (.ok (b.take n), b.drop n) := by
  change (if b.length < n then (throw (.unexpectedEnd n b.length) : Parse Bytes)
    else (do set (b.drop n); return b.take n)).on b = _
  split <;> rfl

theorem on_finish_nil : finish.on [] = (.ok (), []) := rfl

theorem on_finish_of_ne_nil {b : Bytes} (h : b ≠ []) :
    finish.on b = (.error (.trailingBytes b.length), b) := by
  cases b with
  | nil => exact absurd rfl h
  | cons _ _ => rfl

/-- Wherever `b` is cut short, `p` comes to a place with less left than it needs there. -/
def EndsWithin (p : Parse α) (b : Bytes) : Prop :=
  ∀ cut more, b = cut ++ more → more ≠ [] → ∃ needed left, left <:+ cut ∧
    left.length < needed ∧ p.on cut = (.error (.unexpectedEnd needed left.length), left)

/-- `p` reads what `write` makes of the values that are allowed, and nothing else. -/
structure Reads (p : Parse α) (write : α → Bytes) (allowed : α → Prop) : Prop where
  whole : ∀ {a}, allowed a → ∀ rest, p.on (write a ++ rest) = (.ok a, rest)
  only : ∀ {b a rest}, p.on b = (.ok a, rest) → allowed a ∧ b = write a ++ rest
  short : ∀ {a}, allowed a → p.EndsWithin (write a)

/-! ## One after the other -/

theorem EndsWithin.nil (p : Parse α) : p.EndsWithin [] := by
  intro cut more h hmore
  exact absurd (List.append_eq_nil_iff.1 h.symm).2 hmore

theorem EndsWithin.bind_left {p : Parse α} {b : Bytes} (h : p.EndsWithin b) (f : α → Parse β) :
    (p >>= f).EndsWithin b := by
  intro cut more hb hmore
  obtain ⟨needed, left, hleft, hlt, hp⟩ := h cut more hb hmore
  exact ⟨needed, left, hleft, hlt, on_bind_of_error hp⟩

namespace Reads

variable {p : Parse α} {write : α → Bytes} {allowed : α → Prop}

/-- The input ends within what the first reader takes or, that being whole, within the rest. -/
theorem endsWithin_bind (hp : Reads p write allowed) {a : α} (ha : allowed a) {f : α → Parse β}
    {rest : Bytes} (hf : (f a).EndsWithin rest) : (p >>= f).EndsWithin (write a ++ rest) := by
  intro cut more hb hmore
  have hsplit : (∃ as, as ≠ [] ∧ write a = cut ++ as) ∨
      ∃ bs, cut = write a ++ bs ∧ rest = bs ++ more := by
    rcases List.append_eq_append_iff.1 hb with ⟨bs, hcut, hrest⟩ | ⟨as, hwrite, hmore'⟩
    · exact .inr ⟨bs, hcut, hrest⟩
    · by_cases has : as = []
      · subst has
        exact .inr ⟨[], by simpa using hwrite.symm, by simpa using hmore'.symm⟩
      · exact .inl ⟨as, has, hwrite⟩
  rcases hsplit with ⟨as, has, hwrite⟩ | ⟨bs, rfl, hrest⟩
  · exact (hp.short ha).bind_left f cut as hwrite has
  · obtain ⟨needed, left, hleft, hlt, herror⟩ := hf bs more hrest hmore
    refine ⟨needed, left, hleft.trans (List.suffix_append _ _), hlt, ?_⟩
    rw [on_bind_of_ok (hp.whole ha bs), herror]

/-- One reader after another, if the value of both tells that of the first. -/
theorem bind (hp : Reads p write allowed) {f : α → Parse β} {first : β → α} {write' : β → Bytes}
    {allowed' : β → Prop} (hfirst : ∀ b, allowed' b → allowed (first b))
    (hf : ∀ a, allowed a → Reads (f a) write' fun b => allowed' b ∧ first b = a) :
    Reads (p >>= f) (fun b => write (first b) ++ write' b) allowed' where
  whole := by
    intro b hb rest
    have ha := hfirst b hb
    rw [List.append_assoc, on_bind_of_ok (hp.whole ha _), (hf _ ha).whole ⟨hb, rfl⟩]
  only := by
    intro bytes b rest h
    obtain ⟨a, mid, hread, hrest⟩ := on_bind_eq_ok.1 h
    obtain ⟨ha, rfl⟩ := hp.only hread
    obtain ⟨⟨hb, rfl⟩, rfl⟩ := (hf a ha).only hrest
    exact ⟨hb, (List.append_assoc _ _ _).symm⟩
  short := by
    intro b hb
    have ha := hfirst b hb
    exact hp.endsWithin_bind ha ((hf _ ha).short ⟨hb, rfl⟩)

/-- Two values have two writings. -/
theorem injective (hp : Reads p write allowed) {a b : α} (ha : allowed a) (hb : allowed b)
    (h : write a = write b) : a = b := by
  have hread := hp.whole ha []
  rw [h, hp.whole hb []] at hread
  cases hread
  rfl

theorem pure (a : α) : Reads (pure a) (fun _ => []) (· = a) where
  whole := by
    rintro b rfl rest
    rfl
  only := by
    rintro b c rest ⟨⟩
    exact ⟨rfl, rfl⟩
  short := fun _ => .nil _

/-- What a reader gives may be turned into something that says the same. -/
theorem map (hp : Reads p write allowed) {f : α → β} {g : β → α} {allowed' : β → Prop}
    (hf : ∀ a, allowed a → allowed' (f a) ∧ g (f a) = a)
    (hg : ∀ b, allowed' b → allowed (g b) ∧ f (g b) = b) :
    Reads (p >>= fun a => return f a) (fun b => write (g b)) allowed' where
  whole := by
    intro b hb rest
    obtain ⟨ha, hfg⟩ := hg b hb
    rw [on_bind_of_ok (hp.whole ha rest), on_pure, hfg]
  only := by
    intro b c rest h
    obtain ⟨a, mid, hread, hpure⟩ := on_bind_eq_ok.1 h
    cases hpure
    obtain ⟨ha, hb⟩ := hp.only hread
    obtain ⟨hc, hgf⟩ := hf a ha
    exact ⟨hc, by rw [hgf, hb]⟩
  short := by
    intro b hb
    exact (hp.short (hg b hb).1).bind_left _

/-- A reader may go on to refuse some of what it has read. -/
theorem guard (hp : Reads p write allowed) (refuse : α → Prop) [DecidablePred refuse]
    (e : α → WireError) :
    Reads (p >>= fun a => if refuse a then throw (e a) else return a) write
      (fun a => allowed a ∧ ¬ refuse a) where
  whole := by
    rintro a ⟨ha, hkeep⟩ rest
    rw [on_bind_of_ok (hp.whole ha rest), if_neg hkeep, on_pure]
  only := by
    intro b c rest h
    obtain ⟨a, mid, hread, hguard⟩ := on_bind_eq_ok.1 h
    split at hguard
    · cases hguard
    · rename_i hkeep
      cases hguard
      obtain ⟨ha, hb⟩ := hp.only hread
      exact ⟨⟨ha, hkeep⟩, hb⟩
  short := by
    rintro a ⟨ha, -⟩
    exact (hp.short ha).bind_left _

theorem congr (hp : Reads p write allowed) {write' : α → Bytes} {allowed' : α → Prop}
    (hallowed : ∀ a, allowed' a ↔ allowed a) (hwrite : ∀ a, allowed a → write' a = write a) :
    Reads p write' allowed' where
  whole := by
    intro a ha rest
    rw [hwrite a ((hallowed a).1 ha), hp.whole ((hallowed a).1 ha)]
  only := by
    intro b a rest h
    obtain ⟨ha, hb⟩ := hp.only h
    exact ⟨(hallowed a).2 ha, by rw [hwrite a ha, hb]⟩
  short := by
    intro a ha
    rw [hwrite a ((hallowed a).1 ha)]
    exact hp.short ((hallowed a).1 ha)

end Reads

/-! ## Numerals -/

theorem reads_take (n : Nat) : Reads (take n) id (·.length = n) where
  whole := by
    rintro b rfl rest
    show (take b.length).on (b ++ rest) = _
    rw [on_take, if_neg (by simp), List.take_left, List.drop_left]
  only := by
    intro b a rest h
    rw [on_take] at h
    split at h
    · cases h
    · cases h
      exact ⟨by rw [List.length_take]; omega, (List.take_append_drop n b).symm⟩
  short := by
    rintro b rfl cut more (hb : b = cut ++ more) hmore
    have hlen : cut.length < b.length := by
      have := List.length_pos_iff.2 hmore
      rw [hb, List.length_append]
      omega
    refine ⟨b.length, cut, List.suffix_rfl, hlen, ?_⟩
    rw [on_take, if_pos hlen]

theorem reads_numeral (width : Nat) :
    Reads (numeral width) (Bytes.ofNat width) (· < 256 ^ width) := by
  apply (reads_take width).map
  · rintro b rfl
    exact ⟨Bytes.toNat_lt b, Bytes.ofNat_toNat b⟩
  · intro n hn
    exact ⟨Bytes.length_ofNat width n, Bytes.toNat_ofNat_of_lt hn⟩

theorem reads_u8 : Reads u8 (fun v => [v]) (fun _ => True) := by
  have h : Reads u8 (fun v => Bytes.ofNat 1 v.toNat) (fun _ => True) := by
    apply (reads_numeral 1).map
    · intro n hn
      exact ⟨trivial, UInt8.toNat_ofNat_of_lt' hn⟩
    · intro v _
      exact ⟨v.toNat_lt, UInt8.ofNat_toNat⟩
  exact h.congr (fun _ => Iff.rfl) fun v _ => (Bytes.ofNat_toNat [v]).symm

theorem reads_i32 : Reads i32 (fun v => (Item.i32 v).encode) (fun _ => True) := by
  apply (reads_numeral 4).map
  · intro n hn
    exact ⟨trivial, UInt32.toNat_ofNat_of_lt' hn⟩
  · intro v _
    refine ⟨v.toUInt32.toNat_lt, ?_⟩
    rw [UInt32.ofNat_toNat, Int32.toInt32_toUInt32]

theorem reads_i64 : Reads i64 (fun v => (Item.i64 v).encode) (fun _ => True) := by
  apply (reads_numeral 8).map
  · intro n hn
    exact ⟨trivial, UInt64.toNat_ofNat_of_lt' hn⟩
  · intro v _
    refine ⟨v.toUInt64.toNat_lt, ?_⟩
    rw [UInt64.ofNat_toNat, Int64.toInt64_toUInt64]

/-! ## Sizes -/

/-- What is left to read of a size once its marker is known. -/
def afterMarker (marker : UInt8) : Parse Nat :=
  if marker = 0xfd then wideSize 2 0xfd
  else if marker = 0xfe then wideSize 4 0x10000
  else if marker = 0xff then wideSize 8 0x100000000
  else pure marker.toNat

theorem size_eq :
    size = (u8 >>= afterMarker) >>= fun n =>
      if maxSize < n then throw (.oversizedLength n) else return n := by
  rw [bind_assoc, size]
  congr 1
  funext marker
  unfold afterMarker
  dsimp only
  split
  · rfl
  · split
    · rfl
    · split <;> rfl

/-- The markers with the width of the numeral after each and the least that it holds. -/
def wideForms : List (UInt8 × Nat × Nat) :=
  [(0xfd, 2, 0xfd), (0xfe, 4, 0x10000), (0xff, 8, 0x100000000)]

theorem afterMarker_cases (marker : UInt8) :
    (∃ width least, (marker, width, least) ∈ wideForms ∧ width ≤ 8 ∧
      afterMarker marker = wideSize width least) ∨
    marker.toNat < 0xfd ∧ afterMarker marker = pure marker.toNat := by
  unfold afterMarker
  split
  · rename_i h
    exact .inl ⟨2, 0xfd, by simp [h, wideForms], by decide, rfl⟩
  · split
    · rename_i h
      exact .inl ⟨4, 0x10000, by simp [h, wideForms], by decide, rfl⟩
    · split
      · rename_i h
        exact .inl ⟨8, 0x100000000, by simp [h, wideForms], by decide, rfl⟩
      · rename_i hfd hfe hff
        have hlt := marker.toNat_lt
        simp only [← UInt8.toNat_inj, UInt8.reduceToNat] at hfd hfe hff
        exact .inr ⟨by omega, rfl⟩

theorem encodeSize_of_small {n : Nat} (h : n < 0xfd) : encodeSize n = [UInt8.ofNat n] := if_pos h

theorem toNat_ofNat_small {n : Nat} (h : n < 0xfd) : (UInt8.ofNat n).toNat = n :=
  UInt8.toNat_ofNat_of_lt' (Nat.lt_trans h (by decide))

/-- A size has a marker just if its numeral has the width and is not too small for it. -/
theorem head_encodeSize_wide {n : Nat} (hn : n < 256 ^ 8) {marker : UInt8} {width least : Nat}
    (h : (marker, width, least) ∈ wideForms) :
    (encodeSize n).headD 0 = marker ↔ n < 256 ^ width ∧ ¬ n < least := by
  have hsmall : ∀ v : UInt8, 0xfd ≤ v.toNat → n < 0xfd → UInt8.ofNat n ≠ v := by
    rintro v hv hlt rfl
    rw [toNat_ofNat_small hlt] at hv
    omega
  have hfd := hsmall 0xfd (by decide)
  have hfe := hsmall 0xfe (by decide)
  have hff := hsmall 0xff (by decide)
  simp only [wideForms, List.mem_cons, Prod.mk.injEq, List.not_mem_nil, or_false] at h
  unfold encodeSize
  rcases h with ⟨rfl, rfl, rfl⟩ | ⟨rfl, rfl, rfl⟩ | ⟨rfl, rfl, rfl⟩ <;> grind

theorem encodeSize_of_wide {n : Nat} {marker : UInt8} {width least : Nat}
    (h : (marker, width, least) ∈ wideForms) (hn : n < 256 ^ width) (hleast : ¬ n < least) :
    encodeSize n = marker :: Bytes.ofNat width n := by
  simp only [wideForms, List.mem_cons, Prod.mk.injEq, List.not_mem_nil, or_false] at h
  unfold encodeSize
  rcases h with ⟨rfl, rfl, rfl⟩ | ⟨rfl, rfl, rfl⟩ | ⟨rfl, rfl, rfl⟩ <;> grind

theorem head_encodeSize_small {n : Nat} {marker : UInt8} (h : marker.toNat < 0xfd) :
    (encodeSize n).headD 0 = marker ↔ n = marker.toNat := by
  constructor
  · intro hhead
    by_cases hn : n < 0xfd
    · rw [encodeSize_of_small hn] at hhead
      rw [← hhead]
      exact (toNat_ofNat_small hn).symm
    · -- the markers of wide sizes are no small numbers
      have hwide : (encodeSize n).headD 0 ∈ ([0xfd, 0xfe, 0xff] : List UInt8) := by
        unfold encodeSize
        rw [if_neg hn]
        split
        · simp
        · split <;> simp
      rw [hhead] at hwide
      simp only [List.mem_cons, List.not_mem_nil, or_false] at hwide
      rcases hwide with rfl | rfl | rfl <;> exact absurd h (by decide)
  · rintro rfl
    rw [encodeSize_of_small h]
    exact UInt8.ofNat_toNat

theorem encodeSize_ne_nil (n : Nat) : encodeSize n ≠ [] := by
  unfold encodeSize
  split
  · simp
  · split
    · simp
    · split <;> simp

/-- After a marker comes the rest of the sizes whose writing begins with it. -/
theorem reads_afterMarker (marker : UInt8) :
    Reads (afterMarker marker) (fun n => (encodeSize n).tail)
      (fun n => n < 256 ^ 8 ∧ (encodeSize n).headD 0 = marker) := by
  rcases afterMarker_cases marker with ⟨width, least, hform, hle, heq⟩ | ⟨hlt, heq⟩
  · rw [heq]
    apply ((reads_numeral width).guard (· < least) fun _ => .nonCanonicalSize).congr
    · intro n
      constructor
      · rintro ⟨hn, hhead⟩
        exact (head_encodeSize_wide hn hform).1 hhead
      · intro h
        have hn : n < 256 ^ 8 := Nat.lt_of_lt_of_le h.1 (Nat.pow_le_pow_right (by decide) hle)
        exact ⟨hn, (head_encodeSize_wide hn hform).2 h⟩
    · rintro n ⟨hn, hleast⟩
      rw [encodeSize_of_wide hform hn hleast, List.tail_cons]
  · rw [heq]
    apply (Reads.pure marker.toNat).congr
    · intro n
      rw [head_encodeSize_small hlt, and_iff_right_iff_imp]
      rintro rfl
      exact Nat.lt_trans hlt (by decide)
    · rintro n rfl
      rw [encodeSize_of_small hlt, List.tail_cons]

/-- Any size can be read; the bound on sizes comes after that. -/
theorem reads_anySize : Reads (u8 >>= afterMarker) encodeSize (· < 256 ^ 8) := by
  apply (reads_u8.bind (fun _ _ => trivial) fun marker _ => reads_afterMarker marker).congr
  · exact fun _ => Iff.rfl
  · intro n _
    cases h : encodeSize n with
    | nil => exact absurd h (encodeSize_ne_nil n)
    | cons marker tail => rfl

/-- A size is read in full before it is found too large. -/
theorem on_size_oversized {n : Nat} (hn : n < 256 ^ 8) (hmax : maxSize < n) (rest : Bytes) :
    size.on (encodeSize n ++ rest) = (.error (.oversizedLength n), rest) := by
  rw [size_eq, on_bind_of_ok (reads_anySize.whole hn rest), if_pos hmax]
  rfl

theorem endsWithin_encodeSize {n : Nat} (hn : n < 256 ^ 8) : size.EndsWithin (encodeSize n) := by
  rw [size_eq]
  exact (reads_anySize.short hn).bind_left _

theorem reads_size : Reads size encodeSize (· ≤ maxSize) := by
  rw [size_eq]
  apply (reads_anySize.guard (maxSize < ·) .oversizedLength).congr
  · intro n
    have hmax : maxSize = 0x02000000 := rfl
    omega
  · exact fun _ _ => rfl

theorem reads_var : Reads var encodeVar (·.length ≤ maxSize) := by
  apply reads_size.bind (fun _ hb => hb)
  intro n hn
  apply (reads_take n).congr
  · intro b
    rw [and_iff_right_iff_imp]
    rintro rfl
    exact hn
  · exact fun _ _ => rfl

end Parse

/-! ## Where a size ends -/

/-- The length of a size with this first byte. -/
def sizeWidth (marker : UInt8) : Nat :=
  if marker = 0xfd then 3 else if marker = 0xfe then 5 else if marker = 0xff then 9 else 1

theorem sizeWidth_le (marker : UInt8) : sizeWidth marker ≤ 9 := by
  simp only [sizeWidth]
  grind

theorem length_encodeSize (n : Nat) :
    (encodeSize n).length = sizeWidth ((encodeSize n).headD 0) := by
  by_cases h : n < 0xfd
  · have hne : ∀ marker : UInt8, 0xfd ≤ marker.toNat → UInt8.ofNat n ≠ marker := by
      rintro marker hmarker rfl
      rw [Parse.toNat_ofNat_small h] at hmarker
      omega
    rw [Parse.encodeSize_of_small h, List.headD_cons, sizeWidth, if_neg (hne 0xfd (by decide)),
      if_neg (hne 0xfe (by decide)), if_neg (hne 0xff (by decide))]
    rfl
  · unfold encodeSize
    rw [if_neg h]
    split
    · simp [sizeWidth]
    · split <;> simp [sizeWidth]

theorem headD_encodeSize_append (n : Nat) (rest : Bytes) :
    (encodeSize n ++ rest).headD 0 = (encodeSize n).headD 0 := by
  cases h : encodeSize n with
  | nil => exact absurd h (Parse.encodeSize_ne_nil n)
  | cons marker tail => rfl

/-- Where a size ends can be seen from its bytes alone. -/
theorem encodeSize_append_inj {n n' : Nat} {rest rest' : Bytes}
    (h : encodeSize n ++ rest = encodeSize n' ++ rest') :
    encodeSize n = encodeSize n' ∧ rest = rest' := by
  have hhead : (encodeSize n).headD 0 = (encodeSize n').headD 0 := by
    rw [← headD_encodeSize_append n rest, h, headD_encodeSize_append]
  exact List.append_inj h (by rw [length_encodeSize, length_encodeSize, hhead])

end SporkNode.Wire
