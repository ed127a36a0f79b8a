import SporkNode.Wire.CompactSize

/-!
Scripts of typed items: what a message writes field after field, and the kinds by which it is
read back.
-/

namespace SporkNode.Wire

inductive Item
  | u8 (v : UInt8)
  | i32 (v : Int32)
  | u32 (v : UInt32)
  | i64 (v : Int64)
  | size (v : Nat)
  | var (v : Bytes)
  deriving DecidableEq, Repr

inductive Kind
  | u8 | i32 | u32 | i64 | size | var
  deriving DecidableEq, Repr

def Item.kind : Item → Kind
  | .u8 _ => .u8
  | .i32 _ => .i32
  | .u32 _ => .u32
  | .i64 _ => .i64
  | .size _ => .size
  | .var _ => .var

def Item.encode : Item → Bytes
  | .u8 v => [v]
  | .i32 v => Bytes.ofNat 4 v.toUInt32.toNat
  | .u32 v => Bytes.ofNat 4 v.toNat
  | .i64 v => Bytes.ofNat 8 v.toUInt64.toNat
  | .size v => encodeSize v
  | .var v => encodeVar v

def encodeAll (items : List Item) : Bytes := items.flatMap Item.encode

def Kind.parse : Kind → Parse Item
  | .u8 => return .u8 (← Parse.u8)
  | .i32 => return .i32 (← Parse.i32)
  | .u32 => return .u32 (← Parse.u32)
  | .i64 => return .i64 (← Parse.i64)
  | .size => return .size (← Parse.size)
  | .var => return .var (← Parse.var)

def parseAll : List Kind → Parse (List Item)
  | [] => return []
  | k :: rest => return (← k.parse) :: (← parseAll rest)

end SporkNode.Wire
