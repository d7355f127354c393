import Floppy.Geometry

/-!
# Group code recording

A sector is split into 342 six-bit symbols: the upper six bits of each byte (*primary*) and the low
two bits, three bytes to a symbol (*secondary*). Each symbol is written as one of 64 disk bytes, which
all have the top bit set and at most one pair of adjacent zero bits.
-/
namespace Floppy.Gcr

abbrev secondaryCount : Nat := 86
abbrev symbolCount : Nat := sectorSize + secondaryCount

abbrev Symbols := Vector UInt8 symbolCount

/-- The disk byte of each symbol. -/
def diskBytes : Vector UInt8 64 := #v[
  0x96, 0x97, 0x9A, 0x9B, 0x9D, 0x9E, 0x9F, 0xA6, 0xA7, 0xAB, 0xAC, 0xAD, 0xAE, 0xAF, 0xB2, 0xB3,
  0xB4, 0xB5, 0xB6, 0xB7, 0xB9, 0xBA, 0xBB, 0xBC, 0xBD, 0xBE, 0xBF, 0xCB, 0xCD, 0xCE, 0xCF, 0xD3,
  0xD6, 0xD7, 0xD9, 0xDA, 0xDB, 0xDC, 0xDD, 0xDE, 0xDF, 0xE5, 0xE6, 0xE7, 0xE9, 0xEA, 0xEB, 0xEC,
  0xED, 0xEE, 0xEF, 0xF2, 0xF3, 0xF4, 0xF5, 0xF6, 0xF7, 0xF9, 0xFA, 0xFB, 0xFC, 0xFD, 0xFE, 0xFF]

/-- Only the low six bits of the symbol count. -/
def translate (symbol : UInt8) : UInt8 :=
  diskBytes.get ⟨symbol.toNat % 64, Nat.mod_lt _ (by decide)⟩

/-- The symbol of each of the 256 bytes, none for a byte that is not a disk byte. -/
def symbolTable : Vector (Option UInt8) 256 :=
  Vector.ofFn fun b => (diskBytes.toList.idxOf? (UInt8.ofNat b)).map UInt8.ofNat

def untranslate? (byte : UInt8) : Option UInt8 :=
  symbolTable.get byte.toFin

/-- The odd bits of a header value, then its even bits, with ones between them. -/
def oddEvenEncode (value : UInt8) : UInt8 × UInt8 := ((value >>> 1) ||| 0xAA, value ||| 0xAA)

def oddEvenDecode (odd even : UInt8) : UInt8 := ((odd <<< 1) ||| 1) &&& even

/-- The two low bits, exchanged. -/
def swapLowBits (value : UInt8) : UInt8 := ((value &&& 2) >>> 1) ||| ((value &&& 1) <<< 1)

/-- A sector as six-bit values and the bit pairs that are left over. -/
structure Nibbles where
  primary : Vector UInt8 sectorSize
  secondary : Vector UInt8 secondaryCount
deriving DecidableEq

/-- The bytes are visited downward from index 257, modulo 256, so bytes 1 and 0 come first and last;
their first visits fill bits 4 and 5 of the secondary values 0 and 1, and are never read back. -/
def Nibbles.ofSector (sector : Sector) : Nibbles where
  primary := sector.map fun a : UInt8 => a >>> (2 : UInt8)
  secondary := Vector.ofFn fun x =>
    let low (i : Nat) := swapLowBits (sector.get ⟨i % 256, Nat.mod_lt _ (by decide)⟩)
    (low (257 - x) <<< 4) ||| (low (171 - x) <<< 2) ||| low (85 - x)

/-- Each visit to a secondary value takes its two low bits and shifts them out. -/
def Nibbles.toSector (nibbles : Nibbles) : Sector :=
  Vector.ofFn fun y =>
    (nibbles.primary[y] <<< 2) |||
      swapLowBits (nibbles.secondary.get ⟨85 - y.val % 86, by show _ < 86; omega⟩ >>> UInt8.ofNat (2 * (y.val / 86)))

/-- The order on disk: secondary values from the last to the first, then the primary values. -/
def Nibbles.symbols (nibbles : Nibbles) : Symbols :=
  nibbles.secondary.reverse ++ nibbles.primary |>.cast (by decide)

/-- Only the low six bits of each symbol count. -/
def Nibbles.ofSymbols (symbols : Symbols) : Nibbles where
  primary := Vector.ofFn fun i => symbols.get (i.natAdd 86 |>.cast (by decide)) &&& 0x3F
  secondary := Vector.ofFn fun i => symbols.get ⟨85 - i.val, by show _ < 342; omega⟩ &&& 0x3F

def encode (sector : Sector) : Symbols := (Nibbles.ofSector sector).symbols

def decode (symbols : Symbols) : Sector := (Nibbles.ofSymbols symbols).toSector

end Floppy.Gcr
