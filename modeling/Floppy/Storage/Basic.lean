import Floppy.Text.Field

/-!
# Storage

A storage device takes a write a page at a time and is busy for a while afterwards. `Flash` keeps its
contents in memory.
-/
namespace Floppy

inductive StorageError where
  | busy
  | outOfRange (offset length : Nat)
  | shortWrite (accepted requested : Nat)
  | interrupted
deriving DecidableEq, Repr

def StorageError.message : StorageError → String
  | busy => "Storage engine is busy"
  | outOfRange offset length =>
    "Storage range 0x" ++ Text.hexUpper 1 offset ++ "+0x" ++ Text.hexUpper 1 length ++ " is out of bounds"
  | shortWrite accepted requested =>
    "Storage accepted " ++ toString accepted ++ " of " ++ toString requested ++ " bytes"
  | interrupted => "Storage operation interrupted by reboot"

/-- The name of the fault, without its particulars. -/
def StorageError.kind : StorageError → String
  | busy => "Busy"
  | outOfRange .. => "OutOfRange"
  | shortWrite .. => "ShortWrite"
  | interrupted => "Interrupted"

class StorageDevice (δ : Type) where
  size : δ → Nat
  busy : δ → Bool
  /-- How many bytes were taken, none while the device is busy. -/
  write : δ → (offset : Nat) → List UInt8 → Nat × δ
  /-- At most the given number of bytes, none while the device is busy. -/
  read : δ → (offset length : Nat) → Array UInt8
  /-- Time passes for an operation in progress. -/
  service : δ → δ

/-- Where a range ends. The sum has to be a number of a machine word; what computes it panics otherwise. -/
def rangeEnd? (offset length : Nat) : Option Nat :=
  if offset + length < UInt64.size then some (offset + length) else none

theorem rangeEnd?_of_lt {offset length : Nat} (fits : offset + length < UInt64.size) :
    rangeEnd? offset length = some (offset + length) := if_pos fits

theorem rangeEnd?_of_le {offset length : Nat} (overflows : UInt64.size ≤ offset + length) :
    rangeEnd? offset length = none := if_neg (Nat.not_lt.mpr overflows)

/-- The bytes with others in the place of those from an offset on, as far as they reach. -/
def overlay (bytes : Array UInt8) (offset : Nat) : List UInt8 → Array UInt8
  | [] => bytes
  | b :: rest => overlay (bytes.setIfInBounds offset b) (offset + 1) rest

theorem size_overlay (bytes : Array UInt8) (offset : Nat) (src : List UInt8) :
    (overlay bytes offset src).size = bytes.size := by
  induction src generalizing bytes offset with
  | nil => rfl
  | cons b rest ih => simp [overlay, ih]

structure Flash where
  bytes : Array UInt8
  /-- No write crosses a multiple of it. -/
  pageSize : Nat
  /-- How long a write keeps the device busy. -/
  busyPasses : UInt32
  busyLeft : UInt32 := 0
  writes : Nat := 0

namespace Flash

/-- Erased memory; a page has at least one byte. -/
def erased (size pageSize : Nat) (busyPasses : UInt32) : Flash where
  bytes := Array.replicate size 0xFF
  pageSize := max 1 pageSize
  busyPasses

/-- Nothing if the end of the contents overflows. -/
def withContents (flash : Flash) (offset : Nat) (contents : Array UInt8) : Option (Except StorageError Flash) :=
  (rangeEnd? offset contents.size).map fun stop =>
    if flash.bytes.size < stop then .error (.outOfRange offset contents.size)
    else .ok { flash with bytes := overlay flash.bytes offset contents.toList }

def isBusy (flash : Flash) : Bool := flash.busyLeft ≠ 0

/-- How much a write at an offset can take: up to the end of the page and of the memory. -/
def accepted (flash : Flash) (offset length : Nat) : Nat :=
  min length (min (flash.pageSize - offset % flash.pageSize) (flash.bytes.size - offset))

def write (flash : Flash) (offset : Nat) (src : List UInt8) : Nat × Flash :=
  if flash.isBusy || flash.bytes.size ≤ offset then (0, flash)
  else
    let count := flash.accepted offset src.length
    (count,
      { flash with
        bytes := overlay flash.bytes offset (src.take count)
        busyLeft := flash.busyPasses
        writes := flash.writes + 1 })

def read (flash : Flash) (offset length : Nat) : Array UInt8 :=
  if flash.isBusy then #[] else flash.bytes.extract offset (offset + length)

def service (flash : Flash) : Flash :=
  if flash.isBusy then { flash with busyLeft := flash.busyLeft - 1 } else flash

instance : StorageDevice Flash where
  size flash := flash.bytes.size
  busy := isBusy
  write := write
  read := read
  service := service

end Flash
end Floppy
