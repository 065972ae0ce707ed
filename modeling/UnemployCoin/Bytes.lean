import Mathlib.Data.List.Basic
/-!
# Byte strings and deserialization

`std::string`, `CScript` and the other byte vectors are lists of bytes.  A `CDataStream` is what
is left to read of one; a read takes its bytes from the front or throws, and then the whole
deserialization fails.
-/

namespace UnemployCoin

abbrev Bytes := List UInt8

instance (priority := 1100) : LawfulBEq Bytes := inferInstance

def ascii (s : String) : Bytes := s.toList.map fun c => UInt8.ofNat c.toNat

theorem ascii_ofList (l : List Char) :
    ascii (String.ofList l) = l.map fun c => UInt8.ofNat c.toNat := by
  rw [ascii, String.toList_ofList]

def readLE : Bytes → ℕ
  | [] => 0
  | b :: bs => b.toNat + 256 * readLE bs

/-- The `n` low bytes of a number, little-endian. -/
def writeLE : ℕ → ℕ → Bytes
  | 0, _ => []
  | n + 1, v => UInt8.ofNat (v % 256) :: writeLE n (v / 256)

def Bytes.at (s : Bytes) (i : ℕ) : UInt8 := s.getD i 0

/-- The `count` bytes from `pos` on, as `substr` takes them. -/
def Bytes.substr (s : Bytes) (pos count : ℕ) : Bytes := (s.drop pos).take count

/-- The index of the last `c` in a string. -/
def Bytes.findLast (s : Bytes) (c : UInt8) : Option ℕ :=
  match s.reverse.findIdx? fun b => b == c with
  | some i => some (s.length - 1 - i)
  | none => none

/-- `boost::split` at every occurrence of one character; the result is never empty. -/
def Bytes.split (s : Bytes) (c : UInt8) : List Bytes :=
  s.foldr (fun b parts => if b == c then [] :: parts else
    match parts with
    | p :: ps => (b :: p) :: ps
    | [] => [[b]]) [[]]

/-- A read from the front of a stream, which throws when the bytes do not suffice. -/
abbrev CDataStream := StateT Bytes Option

namespace CDataStream

def readBytes (n : ℕ) : CDataStream Bytes := fun s =>
  if s.length < n then none else some (s.take n, s.drop n)

def remaining : CDataStream ℕ := fun s => some (s.length, s)

def throw {α : Type} : CDataStream α := fun _ => none

def readUInt8 : CDataStream UInt8 := do
  let b ← readBytes 1
  return b.at 0

def readInt8 : CDataStream Int8 := do
  let b ← readUInt8
  return b.toInt8

def readInt64 : CDataStream Int64 := do
  let b ← readBytes 8
  return Int64.ofNat (readLE b)

def MAX_SIZE : ℕ := 0x02000000

/-- `ReadCompactSize`: a length in one, three, five or nine bytes, **shortest form only**. -/
def readCompactSize : CDataStream ℕ := do
  let chSize ← readUInt8
  let nSizeRet ←
    if chSize.toNat < 253 then pure chSize.toNat
    else if chSize.toNat = 253 then do
      let n := readLE (← readBytes 2)
      if n < 253 then throw else pure n
    else if chSize.toNat = 254 then do
      let n := readLE (← readBytes 4)
      if n < 0x10000 then throw else pure n
    else do
      let n := readLE (← readBytes 8)
      if n < 0x100000000 then throw else pure n
  if nSizeRet > MAX_SIZE then throw else return nSizeRet

def readString : CDataStream Bytes := do
  let n ← readCompactSize
  readBytes n

/-- Deserialization from the front of `s`; bytes left over do not matter. -/
def read {α : Type} (r : CDataStream α) (s : Bytes) : Option α := (r s).map Prod.fst

end CDataStream

def writeCompactSize (n : ℕ) : Bytes :=
  if n < 253 then [UInt8.ofNat n]
  else if n ≤ 0xffff then 253 :: writeLE 2 n
  else if n ≤ 0xffffffff then 254 :: writeLE 4 n
  else 255 :: writeLE 8 n

def writeString (s : Bytes) : Bytes := writeCompactSize s.length ++ s

def writeInt8 (v : Int8) : Bytes := [v.toUInt8]

def writeInt64 (v : Int64) : Bytes := writeLE 8 v.toUInt64.toNat

end UnemployCoin
