/-!
# CRC-32

The reflected CRC with polynomial `0xEDB88320`, started and finished by inverting all bits. The bytes
are taken through a table of the 256 one-byte remainders.
-/
namespace Floppy.Crc32

def shiftOnce (r : UInt32) : UInt32 :=
  if r &&& 1 = 1 then (r >>> 1) ^^^ 0xEDB88320 else r >>> 1

def remainder (b : UInt8) : UInt32 :=
  Nat.repeat shiftOnce 8 b.toUInt32

def table : Vector UInt32 256 := Vector.ofFn fun i => remainder (UInt8.ofNat i)

def push (r : UInt32) (b : UInt8) : UInt32 :=
  table.get (r.toUInt8 ^^^ b).toFin ^^^ (r >>> 8)

def start : UInt32 := 0xFFFFFFFF

def finish (r : UInt32) : UInt32 := r ^^^ 0xFFFFFFFF

def ofList (bytes : List UInt8) : UInt32 := finish (bytes.foldl push start)

def ofArray (bytes : Array UInt8) : UInt32 := finish (bytes.foldl push start)

theorem ofArray_eq (bytes : Array UInt8) : ofArray bytes = ofList bytes.toList := by
  simp [ofArray, ofList]

end Floppy.Crc32
