import SporkNode.Proofs.Wire.Cursor

/-!
Where failed reads end. A read of fixed width takes all of its bytes or none. A size takes its
marker before it looks for the numeral, and the numeral before it is judged, and a byte string
takes its size and then all of its bytes or none. An end that comes too early reports what is left
where it was met.
-/

namespace SporkNode.Wire

/-- How much of the bytes a size takes, whether or not it can be read: the marker, if there is one,
and what comes after the marker, if that is complete. -/
def sizeTaken : Bytes → Nat
  | [] => 0
  | marker :: rest => if (marker :: rest).length < sizeWidth marker then 1 else sizeWidth marker

theorem sizeTaken_le (b : Bytes) : sizeTaken b ≤ b.length := by
  cases b with
  | nil => exact Nat.le_refl _
  | cons marker rest =>
    rw [sizeTaken]
    split
    · exact Nat.le_add_left _ _
    · omega

/-- The bytes that a read takes if its kind alone tells how many. -/
def Kind.width? : Kind → Option Nat
  | .u8 => some 1
  | .i32 => some 4
  | .u32 => some 4
  | .i64 => some 8
  | .size | .var => none

namespace Parse

/-! ## All or nothing -/

/-- `p` fails for want of `width` bytes only, and takes none of those it finds. -/
def FailsWhole (p : Parse α) (width : Nat) : Prop :=
  ∀ b e rest, p.on b = (.error e, rest) →
    e = .unexpectedEnd width b.length ∧ b.length < width ∧ rest = b

theorem failsWhole_take (n : Nat) : (take n).FailsWhole n := by
  intro b e rest h
  rw [on_take] at h
  split at h
  · rename_i hfew
    cases h
    exact ⟨rfl, hfew, rfl⟩
  · cases h

theorem FailsWhole.map {p : Parse α} {width : Nat} (h : p.FailsWhole width) (f : α → β) :
    (p >>= fun a => return f a).FailsWhole width := by
  intro b e rest hb
  rcases on_bind_eq_error.1 hb with hp | ⟨a, mid, -, hpure⟩
  · exact h b e rest hp
  · cases hpure

theorem failsWhole_numeral (width : Nat) : (numeral width).FailsWhole width :=
  (failsWhole_take width).map Bytes.toNat

theorem failsWhole_parse {k : Kind} {width : Nat} (h : k.width? = some width) :
    k.parse.FailsWhole width := by
  cases k with
  | u8 | i32 | u32 | i64 =>
    cases h
    exact ((failsWhole_numeral _).map _).map _
  | size | var => cases h

/-! ## What an early end reports -/

/-- What `p` reports as remaining is what it leaves, and less than it needed. -/
def ReportsLeft (p : Parse α) : Prop :=
  ∀ b needed remaining rest, p.on b = (.error (.unexpectedEnd needed remaining), rest) →
    remaining = rest.length ∧ remaining < needed

theorem FailsWhole.reportsLeft {p : Parse α} {width : Nat} (h : p.FailsWhole width) :
    p.ReportsLeft := by
  intro b needed remaining rest hb
  obtain ⟨heq, hlt, rfl⟩ := h _ _ _ hb
  cases heq
  exact ⟨rfl, hlt⟩

theorem ReportsLeft.bind {p : Parse α} {f : α → Parse β} (hp : p.ReportsLeft)
    (hf : ∀ a, (f a).ReportsLeft) : (p >>= f).ReportsLeft := by
  intro b needed remaining rest h
  rcases on_bind_eq_error.1 h with hfirst | ⟨a, mid, -, hrest⟩
  · exact hp _ _ _ _ hfirst
  · exact hf a _ _ _ _ hrest

/-- A verdict on a number that has been read is no report of an early end. -/
theorem reportsLeft_verdict (refuse : Prop) [Decidable refuse] {e : WireError}
    (he : ∀ needed remaining, e ≠ .unexpectedEnd needed remaining) (a : α) :
    (if refuse then throw e else return a : Parse α).ReportsLeft := by
  intro b needed remaining rest h
  split at h
  · cases h
    exact absurd rfl (he _ _)
  · cases h

theorem reportsLeft_pure (a : α) : (pure a : Parse α).ReportsLeft := by
  intro b needed remaining rest h
  cases h

theorem reportsLeft_size : size.ReportsLeft := by
  rw [size_eq]
  refine ReportsLeft.bind (.bind ((failsWhole_numeral 1).map _).reportsLeft fun marker => ?_)
    fun n => reportsLeft_verdict _ (by nofun) n
  rcases afterMarker_cases marker with ⟨width, least, -, -, heq⟩ | ⟨-, heq⟩
  · rw [heq]
    exact (failsWhole_numeral width).reportsLeft.bind fun n => reportsLeft_verdict _ (by nofun) n
  · rw [heq]
    exact reportsLeft_pure _

theorem reportsLeft_parse (k : Kind) : k.parse.ReportsLeft := by
  cases k with
  | u8 | i32 | u32 | i64 => exact (failsWhole_parse rfl).reportsLeft
  | size => exact reportsLeft_size.bind fun n => reportsLeft_pure _
  | var =>
    refine ReportsLeft.bind (reportsLeft_size.bind fun n => ?_) fun b => reportsLeft_pure _
    exact (failsWhole_take n).reportsLeft

/-! ## Sizes -/

/-- A step that reads nothing leaves what it was given. -/
theorem on_bind_snd (p : Parse α) {f : α → Parse β} (hf : ∀ a b, ((f a).on b).2 = b) (b : Bytes) :
    ((p >>= f).on b).2 = (p.on b).2 := by
  rw [on_bind]
  rcases p.on b with ⟨e | a, rest⟩
  · rfl
  · exact hf a rest

theorem on_map_snd (p : Parse α) (f : α → β) (b : Bytes) :
    ((p >>= fun a => return f a).on b).2 = (p.on b).2 :=
  on_bind_snd p (fun _ _ => rfl) b

theorem on_verdict_snd (refuse : Prop) [Decidable refuse] (e : WireError) (a : α) (b : Bytes) :
    ((if refuse then throw e else return a : Parse α).on b).2 = b := by
  split <;> rfl

theorem on_wideSize_snd (width least : Nat) (b : Bytes) :
    ((wideSize width least).on b).2 = if b.length < width then b else b.drop width := by
  have hnumeral : ((wideSize width least).on b).2 = ((take width).on b).2 := by
    rw [wideSize, on_bind_snd _ fun n => on_verdict_snd _ _ n, numeral, on_map_snd]
  rw [hnumeral, on_take]
  split <;> rfl

theorem sizeWidth_of_wide {marker : UInt8} {width least : Nat}
    (h : (marker, width, least) ∈ wideForms) : sizeWidth marker = width + 1 := by
  simp only [wideForms, List.mem_cons, Prod.mk.injEq, List.not_mem_nil, or_false] at h
  rcases h with ⟨rfl, rfl, rfl⟩ | ⟨rfl, rfl, rfl⟩ | ⟨rfl, rfl, rfl⟩ <;> rfl

theorem sizeWidth_of_small {marker : UInt8} (h : marker.toNat < 0xfd) : sizeWidth marker = 1 := by
  have hne : ∀ wide : UInt8, 0xfd ≤ wide.toNat → marker ≠ wide := by
    rintro wide hwide rfl
    omega
  rw [sizeWidth, if_neg (hne 0xfd (by decide)), if_neg (hne 0xfe (by decide)),
    if_neg (hne 0xff (by decide))]

/-- Whatever becomes of a size, this much of the bytes is taken. -/
theorem on_size_snd (b : Bytes) : (size.on b).2 = b.drop (sizeTaken b) := by
  rw [size_eq, on_bind_snd _ fun n => on_verdict_snd _ _ n]
  cases b with
  | nil => rfl
  | cons marker rest =>
    have hmarker : u8.on (marker :: rest) = (.ok marker, rest) := reads_u8.whole trivial rest
    rw [on_bind_of_ok hmarker, sizeTaken, List.length_cons]
    rcases afterMarker_cases marker with ⟨width, least, hform, -, heq⟩ | ⟨hlt, heq⟩
    · rw [heq, on_wideSize_snd, sizeWidth_of_wide hform]
      by_cases hfew : rest.length < width
      · rw [if_pos hfew, if_pos (Nat.succ_lt_succ hfew)]
        rfl
      · rw [if_neg hfew, if_neg (by omega)]
        rfl
    · rw [heq, sizeWidth_of_small hlt, if_neg (by omega)]
      rfl

/-- A byte string that cannot be read takes what its size takes, and fails as that does or for want
of bytes. -/
theorem on_var_eq_error {b rest : Bytes} {e : WireError} (h : var.on b = (.error e, rest)) :
    ∃ answer, size.on b = (answer, rest) ∧
      (answer = .error e ∨ ∃ n, answer = .ok n ∧ e = .unexpectedEnd n rest.length) := by
  rcases on_bind_eq_error.1 h with hsize | ⟨n, mid, hsize, htake⟩
  · exact ⟨_, hsize, .inl rfl⟩
  · obtain ⟨rfl, -, rfl⟩ := failsWhole_take n _ _ _ htake
    exact ⟨_, hsize, .inr ⟨n, rfl, rfl⟩⟩

end Parse

/-! ## Reads by place -/

/-- A read of `data` from `pos` on that failed with `e`, and then stands at `pos'`. -/
structure FailedRead (data : Bytes) (k : Kind) (pos : Nat) (e : WireError) (pos' : Nat) :
    Prop where
  /-- A read of fixed width stays where it is. -/
  fixed : ∀ width, k.width? = some width →
    pos' = pos ∧ e = .unexpectedEnd width (data.length - pos)
  /-- A size is past its marker, if there is one, and past a numeral that is complete. -/
  size : k = .size → pos' = pos + sizeTaken (data.drop pos)
  /-- A byte string is where its size ends, and has failed as that did or for want of bytes. -/
  var : k = .var → ∃ answer, CursorM.size.on ⟨data, pos⟩ = .ok (answer, ⟨data, pos'⟩) ∧
    (answer = .error e ∨ ∃ n, answer = .ok n ∧ e = .unexpectedEnd n (data.length - pos'))
  /-- An early end reports what remains, which is less than was needed. -/
  early : ∀ needed remaining, e = .unexpectedEnd needed remaining →
    remaining = data.length - pos' ∧ remaining < needed

theorem pos_eq_of_drop_eq {data : Bytes} {p q : Nat} (hp : p ≤ data.length) (hq : q ≤ data.length)
    (h : data.drop p = data.drop q) : p = q := by
  have hlength := congrArg List.length h
  rw [List.length_drop, List.length_drop] at hlength
  omega

theorem failedRead_of_parse {data : Bytes} {k : Kind} {pos pos' : Nat} {e : WireError}
    (hpos : pos ≤ data.length) (hpos' : pos' ≤ data.length)
    (h : k.parse.on (data.drop pos) = (.error e, data.drop pos')) :
    FailedRead data k pos e pos' where
  fixed := by
    intro width hwidth
    obtain ⟨rfl, -, hrest⟩ := Parse.failsWhole_parse hwidth _ _ _ h
    rw [List.length_drop]
    exact ⟨pos_eq_of_drop_eq hpos' hpos hrest, rfl⟩
  size := by
    rintro rfl
    have htaken := sizeTaken_le (data.drop pos)
    rw [List.length_drop] at htaken
    have hrest : data.drop pos' = data.drop (pos + sizeTaken (data.drop pos)) := by
      rw [← List.drop_drop, ← Parse.on_size_snd, ← Parse.on_map_snd Parse.size Item.size]
      exact (congrArg Prod.snd h).symm
    exact pos_eq_of_drop_eq hpos' (by omega) hrest
  var := by
    rintro rfl
    have hvar : Parse.var.on (data.drop pos) = (.error e, data.drop pos') := by
      rcases Parse.on_bind_eq_error.1 h with hvar | ⟨b, mid, -, hpure⟩
      · exact hvar
      · cases hpure
    obtain ⟨answer, hsize, hwhy⟩ := Parse.on_var_eq_error hvar
    -- the size by itself ends where the byte string failed, whether it can be read or not
    obtain ⟨answer', last, -, hlast, hread, hparse⟩ := CursorM.tracks_size data pos hpos
    obtain ⟨rfl, hrest⟩ := Prod.ext_iff.1 (hparse.symm.trans hsize)
    obtain rfl := pos_eq_of_drop_eq hlast hpos' hrest
    rw [List.length_drop] at hwhy
    exact ⟨_, hread, hwhy⟩
  early := by
    rintro needed remaining rfl
    have hleft := Parse.reportsLeft_parse k _ _ _ _ h
    rw [List.length_drop] at hleft
    exact hleft

/-- By induction on the reads, each of which begins within the bytes because the one before it
ended there. -/
theorem Cursor.readAll_within {data : Bytes} {pos : Nat} (hpos : pos ≤ data.length)
    (kinds : List Kind) :
    ∃ pos', pos ≤ pos' ∧ pos' ≤ data.length ∧
      (⟨data, pos⟩ : Cursor).readAll kinds = .ok ⟨data, pos'⟩ := by
  induction kinds generalizing pos with
  | nil => exact ⟨pos, Nat.le_refl _, hpos, rfl⟩
  | cons k rest ih =>
    obtain ⟨answer, mid, hle, hmid, hread, -⟩ := CursorM.tracks_read k data pos hpos
    obtain ⟨pos', hle', hpos', hrest⟩ := ih hmid
    refine ⟨pos', Nat.le_trans hle hle', hpos', ?_⟩
    rw [readAll, hread]
    exact hrest

/-- After any reads of any bytes, whether they failed or not, the place is within the bytes, so
what remains is no difference below zero, and the next read, whatever its kind, takes no slice
beyond the end. It answers as the bytes from the place on are read, does not move back, and stands
where a failed read of its kind has to if it fails. -/
theorem reads_stay_within (data : Bytes) (before : List Kind) (k : Kind) :
    ∃ pos answer pos', (Cursor.start data).readAll before = .ok ⟨data, pos⟩ ∧
      (⟨data, pos⟩ : Cursor).remaining = .ok (data.length - pos) ∧
      CursorM.finish.on ⟨data, pos⟩ = .ok ((Parse.finish.on (data.drop pos)).1, ⟨data, pos⟩) ∧
      k.read.on ⟨data, pos⟩ = .ok (answer, ⟨data, pos'⟩) ∧
      k.parse.on (data.drop pos) = (answer, data.drop pos') ∧
      pos ≤ pos' ∧ pos' ≤ data.length ∧
      ∀ e, answer = .error e → FailedRead data k pos e pos' := by
  obtain ⟨pos, -, hpos, hbefore⟩ := Cursor.readAll_within (Nat.zero_le data.length) before
  obtain ⟨answer, pos', hle, hpos', hread, hparse⟩ := CursorM.tracks_read k data pos hpos
  refine ⟨pos, answer, pos', hbefore, Cursor.remaining_of_le hpos, CursorM.on_finish hpos, hread,
    hparse, hle, hpos', ?_⟩
  rintro e rfl
  exact failedRead_of_parse hpos hpos' hparse

/-- Too few bytes for a wide number, then a size that is not the shortest, then a byte string of
two bytes that has one, which is left for the read after it. -/
example :
    let data : Bytes := [0xfd, 0x10, 0x00, 2, 7]
    Kind.i64.read.on ⟨data, 0⟩ = .ok (.error (.unexpectedEnd 8 5), ⟨data, 0⟩) ∧
    Kind.size.read.on ⟨data, 0⟩ = .ok (.error .nonCanonicalSize, ⟨data, 3⟩) ∧
    Kind.var.read.on ⟨data, 3⟩ = .ok (.error (.unexpectedEnd 2 1), ⟨data, 4⟩) ∧
    (Cursor.start data).readAll [.i64, .size, .var, .u8] = .ok ⟨data, 5⟩ :=
  ⟨rfl, rfl, rfl, rfl⟩

end SporkNode.Wire
