import Mathlib.Algebra.Group.Int.Defs
import Mathlib.Algebra.Ring.Nat
import Mathlib.Data.List.Basic

/-! The MessagePack format, by a decoder for all of it. A value is a byte that says what follows,
for some of them a number of bytes or of values, and what that number counts. -/
namespace SentryCocoa.Library.MessagePack

abbrev Bytes := List UInt8

inductive Value where
  | nil
  | bool (value : Bool)
  | int (value : Int)
  /-- The bytes of a number of IEEE 754. -/
  | float (bytes : Bytes)
  | str (bytes : Bytes)
  | bin (bytes : Bytes)
  | array (values : List Value)
  | map (entries : List (Value × Value))
  | ext (type : UInt8) (data : Bytes)

/-- A number that is in the first byte, or one in the bytes behind it. -/
inductive Count where
  | fixed (count : Nat)
  | behind (size : Nat)

/-- What the first byte says. -/
inductive Format where
  | constant (value : Value)
  | unsigned (size : Nat)
  | signed (size : Nat)
  | float (size : Nat)
  | str (count : Count)
  | bin (count : Count)
  | array (count : Count)
  | map (count : Count)
  | ext (count : Count)

def format (byte : UInt8) : Option Format :=
  let code := byte.toNat
  if code ≤ 0x7f then some (.constant (.int code))
  else if code ≤ 0x8f then some (.map (.fixed (code - 0x80)))
  else if code ≤ 0x9f then some (.array (.fixed (code - 0x90)))
  else if code ≤ 0xbf then some (.str (.fixed (code - 0xa0)))
  else if 0xe0 ≤ code then some (.constant (.int ((code : Int) - 0x100)))
  else
    match code with
    | 0xc0 => some (.constant .nil)
    | 0xc2 => some (.constant (.bool false))
    | 0xc3 => some (.constant (.bool true))
    | 0xc4 => some (.bin (.behind 1))
    | 0xc5 => some (.bin (.behind 2))
    | 0xc6 => some (.bin (.behind 4))
    | 0xc7 => some (.ext (.behind 1))
    | 0xc8 => some (.ext (.behind 2))
    | 0xc9 => some (.ext (.behind 4))
    | 0xca => some (.float 4)
    | 0xcb => some (.float 8)
    | 0xcc => some (.unsigned 1)
    | 0xcd => some (.unsigned 2)
    | 0xce => some (.unsigned 4)
    | 0xcf => some (.unsigned 8)
    | 0xd0 => some (.signed 1)
    | 0xd1 => some (.signed 2)
    | 0xd2 => some (.signed 4)
    | 0xd3 => some (.signed 8)
    | 0xd4 => some (.ext (.fixed 1))
    | 0xd5 => some (.ext (.fixed 2))
    | 0xd6 => some (.ext (.fixed 4))
    | 0xd7 => some (.ext (.fixed 8))
    | 0xd8 => some (.ext (.fixed 16))
    | 0xd9 => some (.str (.behind 1))
    | 0xda => some (.str (.behind 2))
    | 0xdb => some (.str (.behind 4))
    | 0xdc => some (.array (.behind 2))
    | 0xdd => some (.array (.behind 4))
    | 0xde => some (.map (.behind 2))
    | 0xdf => some (.map (.behind 4))
    | _ => none

/-! ## Parts -/

/-- A parser gives what it read and the bytes behind it. -/
abbrev Parser (α : Type) := Bytes → Option (α × Bytes)

def takeBytes (count : Nat) : Parser Bytes := fun bytes =>
  if count ≤ bytes.length then some (bytes.take count, bytes.drop count) else none

/-- The number that bytes stand for, the most significant one first. -/
def bigEndian (bytes : Bytes) : Nat := bytes.foldl (fun value byte => value * 256 + byte.toNat) 0

def twosComplement (size value : Nat) : Int :=
  if value < 2 ^ (8 * size - 1) then value else (value : Int) - 2 ^ (8 * size)

def number (size : Nat) : Parser Nat := fun bytes =>
  (takeBytes size bytes).map fun taken => (bigEndian taken.1, taken.2)

def Count.read : Count → Parser Nat
  | .fixed count => fun bytes => some (count, bytes)
  | .behind size => number size

variable {α β : Type}

def times (parser : Parser α) : Nat → Parser (List α)
  | 0 => fun bytes => some ([], bytes)
  | count + 1 => fun bytes => do
    let first ← parser bytes
    let rest ← times parser count first.2
    some (first.1 :: rest.1, rest.2)

def pair (first : Parser α) (second : Parser β) : Parser (α × β) := fun bytes => do
  let key ← first bytes
  let value ← second key.2
  some ((key.1, value.1), value.2)

/-- As many bytes as a number says. -/
def counted (count : Count) : Parser Bytes := fun bytes => do
  let size ← count.read bytes
  takeBytes size.1 size.2

/-! ## Values -/

/-- The value at the start of the bytes; values in it may be so deep. -/
def decode : (depth : Nat) → Parser Value
  | 0, _ => none
  | _, [] => none
  | depth + 1, byte :: rest =>
    match format byte with
    | none => none
    | some (.constant value) => some (value, rest)
    | some (.unsigned size) => (number size rest).map fun read => (.int read.1, read.2)
    | some (.signed size) =>
      (number size rest).map fun read => (.int (twosComplement size read.1), read.2)
    | some (.float size) => (takeBytes size rest).map fun read => (.float read.1, read.2)
    | some (.str count) => (counted count rest).map fun read => (.str read.1, read.2)
    | some (.bin count) => (counted count rest).map fun read => (.bin read.1, read.2)
    | some (.array count) => do
      let size ← count.read rest
      let values ← times (decode depth) size.1 size.2
      some (.array values.1, values.2)
    | some (.map count) => do
      let size ← count.read rest
      let entries ← times (pair (decode depth) (decode depth)) size.1 size.2
      some (.map entries.1, entries.2)
    | some (.ext count) => do
      let size ← count.read rest
      let type ← takeBytes 1 size.2
      let data ← takeBytes size.1 type.2
      some (.ext (type.1.headD 0) data.1, data.2)

/-- The value that bytes are. Each value has a byte of its own, so their number is enough for
the depth. -/
def ofBytes (bytes : Bytes) : Option Value :=
  match decode bytes.length bytes with
  | some (value, []) => some value
  | _ => none

/-! ## Steps of the decoder -/

theorem takeBytes_append (taken rest : Bytes) :
    takeBytes taken.length (taken ++ rest) = some (taken, rest) := by
  unfold takeBytes
  rw [if_pos (by rw [List.length_append]; omega), List.take_left, List.drop_left]

theorem takeBytes_eq_some {count : Nat} {bytes taken rest : Bytes}
    (h : takeBytes count bytes = some (taken, rest)) :
    bytes = taken ++ rest ∧ taken.length = count := by
  unfold takeBytes at h
  split at h
  · rename_i hle
    cases h
    exact ⟨(List.take_append_drop _ _).symm, List.length_take_of_le hle⟩
  · cases h

theorem times_succ_eq_some {parser : Parser α} {count : Nat} {bytes : Bytes}
    {result : List α × Bytes} :
    times parser (count + 1) bytes = some result ↔
      ∃ first middle others, parser bytes = some (first, middle) ∧
        times parser count middle = some (others, result.2) ∧ result.1 = first :: others := by
  rw [times]
  simp only [Option.bind_eq_bind, Option.bind_eq_some_iff]
  constructor
  · rintro ⟨⟨first, middle⟩, hfirst, ⟨others, behind⟩, hothers, heq⟩
    cases heq
    exact ⟨first, middle, others, hfirst, hothers, rfl⟩
  · obtain ⟨values, behind⟩ := result
    rintro ⟨first, middle, others, hfirst, hothers, rfl⟩
    exact ⟨(first, middle), hfirst, (others, behind), hothers, rfl⟩

/-- A text of less than 256 bytes. -/
theorem decode_str8 (depth : Nat) {text : Bytes} (h : text.length < 256) (rest : Bytes) :
    decode (depth + 1) (0xd9 :: UInt8.ofNat text.length :: (text ++ rest)) =
      some (.str text, rest) := by
  have hformat : format 0xd9 = some (.str (.behind 1)) := rfl
  have hcounted : counted (.behind 1) (UInt8.ofNat text.length :: (text ++ rest)) =
      some (text, rest) := by
    have hlength : (UInt8.ofNat text.length).toNat = text.length := by
      rw [UInt8.toNat_ofNat']
      omega
    have hread : (Count.behind 1).read (UInt8.ofNat text.length :: (text ++ rest)) =
        some (text.length, text ++ rest) := by
      unfold Count.read number
      dsimp only
      rw [show takeBytes 1 (UInt8.ofNat text.length :: (text ++ rest)) =
        some ([UInt8.ofNat text.length], text ++ rest) from takeBytes_append [_] _]
      simp [bigEndian, hlength]
    unfold counted
    rw [hread]
    exact takeBytes_append text rest
  rw [decode, hformat]
  dsimp only
  rw [hcounted]
  rfl

/-- A number in four bytes, the most significant one first. -/
def uint32 (value : UInt32) : Bytes :=
  [(value >>> 24).toUInt8, (value >>> 16).toUInt8, (value >>> 8).toUInt8, value.toUInt8]

theorem bigEndian_uint32 (value : UInt32) : bigEndian (uint32 value) = value.toNat := by
  have hvalue := value.toNat_lt
  simp only [bigEndian, uint32, List.foldl_cons, List.foldl_nil, UInt32.toNat_toUInt8,
    UInt32.toNat_shiftRight, UInt32.reduceToNat, Nat.shiftRight_eq_div_pow, Nat.reduceMod,
    Nat.reducePow]
  omega

/-- The bytes behind a length of four bytes. -/
theorem decode_bin32 (depth : Nat) (size : UInt32) (rest : Bytes) :
    decode (depth + 1) (0xc6 :: (uint32 size ++ rest)) =
      (takeBytes size.toNat rest).map fun read => (.bin read.1, read.2) := by
  have hformat : format 0xc6 = some (.bin (.behind 4)) := rfl
  have hcounted : counted (.behind 4) (uint32 size ++ rest) = takeBytes size.toNat rest := by
    have hread : (Count.behind 4).read (uint32 size ++ rest) = some (size.toNat, rest) := by
      unfold Count.read number
      dsimp only
      rw [show takeBytes 4 (uint32 size ++ rest) = some (uint32 size, rest) from
        takeBytes_append (uint32 size) rest, Option.map_some, bigEndian_uint32]
    unfold counted
    rw [hread]
    rfl
  rw [decode, hformat]
  dsimp only
  rw [hcounted]

/-- A map of less than 16 entries. -/
theorem decode_fixmap (depth : Nat) {count : Nat} (h : count < 16) (rest : Bytes) :
    decode (depth + 1) (UInt8.ofNat (0x80 + count) :: rest) =
      (times (pair (decode depth) (decode depth)) count rest).map fun read =>
        (.map read.1, read.2) := by
  have hformat : format (UInt8.ofNat (0x80 + count)) = some (.map (.fixed count)) := by
    have hcode : (UInt8.ofNat (0x80 + count)).toNat = 0x80 + count := by
      rw [UInt8.toNat_ofNat']
      omega
    unfold format
    rw [hcode]
    dsimp only
    rw [if_neg (by omega), if_pos (by omega), Nat.add_sub_cancel_left]
  rw [decode, hformat]
  dsimp only
  rw [Count.read, Option.bind_eq_bind, Option.bind_some, Option.map_eq_bind]
  rfl

end SentryCocoa.Library.MessagePack
