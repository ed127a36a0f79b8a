import SporkNode.Proofs.Wire.RoundTrip

/-!
Reading by place. Reading is done once more on a byte string that stays whole, with the place up to
which it has been read. What a machine would refuse on the way, a difference below zero or a slice
beyond the end, is a fault. No reader comes to one: from a place within the bytes it answers as the
bytes from there on are read, whether it fails or not, and ends within the bytes, no earlier than it
began.
-/

namespace SporkNode.Wire

inductive Fault
  | underflow
  | outOfBounds
  deriving DecidableEq, Repr

/-- A byte string and the place up to which it has been read. -/
structure Cursor where
  data : Bytes
  pos : Nat
  deriving DecidableEq, Repr

namespace Cursor

def start (data : Bytes) : Cursor := ⟨data, 0⟩

def remaining (c : Cursor) : Except Fault Nat :=
  if c.data.length < c.pos then .error .underflow else .ok (c.data.length - c.pos)

theorem remaining_of_le {data : Bytes} {pos : Nat} (h : pos ≤ data.length) :
    (⟨data, pos⟩ : Cursor).remaining = .ok (data.length - pos) := by
  simp [remaining, h]

/-- The bytes from one place up to another. -/
def slice (c : Cursor) (first last : Nat) : Except Fault Bytes :=
  if last < first ∨ c.data.length < last then .error .outOfBounds
  else .ok ((c.data.drop first).take (last - first))

theorem slice_of_le {data : Bytes} {pos n : Nat} (h : pos + n ≤ data.length) :
    (⟨data, pos⟩ : Cursor).slice pos (pos + n) = .ok ((data.drop pos).take n) := by
  simp [slice, h]

end Cursor

abbrev CursorM (α : Type) : Type := ExceptT WireError (StateT Cursor (Except Fault)) α

/-! ## The readers -/

namespace CursorM

/-- Run from a cursor on, with the cursor at the end. -/
def on (x : CursorM α) (c : Cursor) : Except Fault (Except WireError α × Cursor) := x c

def take (n : Nat) : CursorM Bytes := do
  let c ← get
  if (← c.remaining) < n then
    throw (.unexpectedEnd n (← c.remaining))
  else
    let taken ← c.slice c.pos (c.pos + n)
    set { c with pos := c.pos + n }
    return taken

def numeral (width : Nat) : CursorM Nat := return Bytes.toNat (← take width)

def u8 : CursorM UInt8 := return UInt8.ofNat (← numeral 1)

def u32 : CursorM UInt32 := return UInt32.ofNat (← numeral 4)

def i32 : CursorM Int32 := return (UInt32.ofNat (← numeral 4)).toInt32

def i64 : CursorM Int64 := return (UInt64.ofNat (← numeral 8)).toInt64

def wideSize (width least : Nat) : CursorM Nat := do
  let n ← numeral width
  if n < least then throw .nonCanonicalSize else return n

def size : CursorM Nat := do
  let marker ← u8
  let n ←
    if marker = 0xfd then wideSize 2 0xfd
    else if marker = 0xfe then wideSize 4 0x10000
    else if marker = 0xff then wideSize 8 0x100000000
    else pure marker.toNat
  if maxSize < n then throw (.oversizedLength n) else return n

def var : CursorM Bytes := do take (← size)

def finish : CursorM Unit := do
  match ← (← get).remaining with
  | 0 => return ()
  | n => throw (.trailingBytes n)

end CursorM

def Kind.read : Kind → CursorM Item
  | .u8 => return .u8 (← CursorM.u8)
  | .i32 => return .i32 (← CursorM.i32)
  | .u32 => return .u32 (← CursorM.u32)
  | .i64 => return .i64 (← CursorM.i64)
  | .size => return .size (← CursorM.size)
  | .var => return .var (← CursorM.var)

/-- Reads one after the other, each from where the one before it stopped, be it that it failed. -/
def Cursor.readAll : List Kind → Cursor → Except Fault Cursor
  | [], c => .ok c
  | k :: rest, c => do
    let (_, c) ← k.read.on c
    readAll rest c

/-! ## Runs -/

namespace CursorM

theorem on_bind (x : CursorM α) (f : α → CursorM β) (c : Cursor) :
    (x >>= f).on c =
      match x.on c with
      | .ok (.ok a, c') => (f a).on c'
      | .ok (.error e, c') => .ok (.error e, c')
      | .error fault => .error fault := by
  change (do let (r, c) ← x c; ExceptT.bindCont f r c) = _
  unfold on
  rcases x c with fault | ⟨e | a, c'⟩ <;> rfl

theorem on_bind_of_ok {x : CursorM α} {f : α → CursorM β} {a : α} {c c' : Cursor}
    (h : x.on c = .ok (.ok a, c')) : (x >>= f).on c = (f a).on c' := by
  rw [on_bind, h]

theorem on_bind_of_error {x : CursorM α} {f : α → CursorM β} {e : WireError} {c c' : Cursor}
    (h : x.on c = .ok (.error e, c')) : (x >>= f).on c = .ok (.error e, c') := by
  rw [on_bind, h]

theorem on_get (c : Cursor) : (get : CursorM Cursor).on c = .ok (.ok c, c) := rfl

theorem on_lift {y : Except Fault α} {a : α} (h : y = .ok a) (c : Cursor) :
    (liftM y : CursorM α).on c = .ok (.ok a, c) := by
  subst h
  rfl

/-- The one place where bytes are taken, so the one where faults are possible: the check that
enough remains keeps the slice within the bytes. -/
theorem on_take {data : Bytes} {pos : Nat} (hpos : pos ≤ data.length) (n : Nat) :
    (take n).on ⟨data, pos⟩ =
      if data.length - pos < n then
        .ok (.error (.unexpectedEnd n (data.length - pos)), ⟨data, pos⟩)
      else .ok (.ok ((data.drop pos).take n), ⟨data, pos + n⟩) := by
  have hremaining := Cursor.remaining_of_le hpos
  rw [take, on_bind_of_ok (on_get _), on_bind_of_ok (on_lift hremaining _)]
  split
  · rw [on_bind_of_ok (on_lift hremaining _)]
    rfl
  · have hslice : (⟨data, pos⟩ : Cursor).slice pos (pos + n) = .ok ((data.drop pos).take n) :=
      Cursor.slice_of_le (by omega)
    rw [on_bind_of_ok (on_lift hslice _)]
    rfl

theorem on_finish {data : Bytes} {pos : Nat} (hpos : pos ≤ data.length) :
    finish.on ⟨data, pos⟩ = .ok ((Parse.finish.on (data.drop pos)).1, ⟨data, pos⟩) := by
  rw [finish, on_bind_of_ok (on_get _), on_bind_of_ok (on_lift (Cursor.remaining_of_le hpos) _),
    ← List.length_drop]
  cases data.drop pos with
  | nil => rfl
  | cons first rest => rfl

/-! ## Agreement -/

/-- From a place within the bytes `x` comes to no fault. It answers as `p` does to the bytes from
there on, and ends at a later place, or the same, within the bytes still. -/
def Tracks (x : CursorM α) (p : Parse α) : Prop :=
  ∀ data pos, pos ≤ data.length → ∃ answer pos', pos ≤ pos' ∧ pos' ≤ data.length ∧
    x.on ⟨data, pos⟩ = .ok (answer, ⟨data, pos'⟩) ∧
    p.on (data.drop pos) = (answer, data.drop pos')

theorem tracks_pure (a : α) : Tracks (pure a) (pure a) :=
  fun _ pos hpos => ⟨.ok a, pos, Nat.le_refl _, hpos, rfl, rfl⟩

theorem tracks_throw (e : WireError) : Tracks (throw e : CursorM α) (throw e) :=
  fun _ pos hpos => ⟨.error e, pos, Nat.le_refl _, hpos, rfl, rfl⟩

theorem Tracks.bind {x : CursorM α} {p : Parse α} {f : α → CursorM β} {g : α → Parse β}
    (h : Tracks x p) (hf : ∀ a, Tracks (f a) (g a)) : Tracks (x >>= f) (p >>= g) := by
  intro data pos hpos
  obtain ⟨answer, mid, hle, hmid, hx, hp⟩ := h data pos hpos
  cases answer with
  | error e =>
    exact ⟨.error e, mid, hle, hmid, on_bind_of_error hx, Parse.on_bind_of_error hp⟩
  | ok a =>
    obtain ⟨answer, pos', hle', hpos', hx', hp'⟩ := hf a data mid hmid
    refine ⟨answer, pos', Nat.le_trans hle hle', hpos', ?_, ?_⟩
    · rw [on_bind_of_ok hx, hx']
    · rw [Parse.on_bind_of_ok hp, hp']

theorem Tracks.map {x : CursorM α} {p : Parse α} (h : Tracks x p) (f : α → β) :
    Tracks (x >>= fun a => return f a) (p >>= fun a => return f a) :=
  h.bind fun a => tracks_pure (f a)

theorem Tracks.ite {x y : CursorM α} {p q : Parse α} (c : Prop) [Decidable c]
    (hx : Tracks x p) (hy : Tracks y q) : Tracks (if c then x else y) (if c then p else q) := by
  split
  · exact hx
  · exact hy

theorem tracks_take (n : Nat) : Tracks (take n) (Parse.take n) := by
  intro data pos hpos
  have hx := on_take hpos n
  have hp := Parse.on_take n (data.drop pos)
  rw [List.length_drop] at hp
  split at hx
  · rename_i hfew
    rw [if_pos hfew] at hp
    exact ⟨_, pos, Nat.le_refl _, hpos, hx, hp⟩
  · rename_i henough
    rw [if_neg henough, List.drop_drop] at hp
    exact ⟨_, pos + n, Nat.le_add_right _ _, by omega, hx, hp⟩

theorem tracks_numeral (width : Nat) : Tracks (numeral width) (Parse.numeral width) :=
  (tracks_take width).map Bytes.toNat

theorem tracks_wideSize (width least : Nat) :
    Tracks (wideSize width least) (Parse.wideSize width least) :=
  (tracks_numeral width).bind fun n => (tracks_throw _).ite (n < least) (tracks_pure n)

theorem tracks_size : Tracks size Parse.size := by
  have hbounded : ∀ n, Tracks (if maxSize < n then throw (.oversizedLength n) else return n)
      (if maxSize < n then throw (.oversizedLength n) else return n) :=
    fun n => (tracks_throw _).ite _ (tracks_pure n)
  have hmarker : Tracks u8 Parse.u8 := (tracks_numeral 1).map _
  refine hmarker.bind fun marker => .ite (marker = 0xfd) ?_ (.ite (marker = 0xfe) ?_
    (.ite (marker = 0xff) ?_ ?_))
  · exact (tracks_wideSize 2 0xfd).bind hbounded
  · exact (tracks_wideSize 4 0x10000).bind hbounded
  · exact (tracks_wideSize 8 0x100000000).bind hbounded
  · exact (tracks_pure _).bind hbounded

theorem tracks_var : Tracks var Parse.var := tracks_size.bind tracks_take

theorem tracks_read (k : Kind) : Tracks k.read k.parse := by
  cases k with
  | u8 => exact ((tracks_numeral 1).map _).map _
  | i32 => exact ((tracks_numeral 4).map _).map _
  | u32 => exact ((tracks_numeral 4).map _).map _
  | i64 => exact ((tracks_numeral 8).map _).map _
  | size => exact tracks_size.map _
  | var => exact tracks_var.map _

end CursorM

end SporkNode.Wire
