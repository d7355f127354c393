import Floppy.Geometry
import Floppy.Log

/-!
# The controller's status register

One byte: the four stepper phase lines, the motor, the drive select, whether a byte is wanted, and whether
the last one is still pending.
-/
namespace Floppy

structure Status where
  /-- One bit for each phase line, four in all. -/
  phase : UInt8
  motor : Bool
  drive : DriveSlot
  wanted : Bool
  pending : Bool
deriving DecidableEq, Repr

namespace Status

def ofByte (byte : UInt8) : Status where
  phase := byte &&& 0x0F
  motor := byte &&& 0x10 ≠ 0
  drive := .ofSelect (byte >>> 5)
  wanted := byte &&& 0x40 ≠ 0
  pending := byte &&& 0x80 ≠ 0

def toByte (status : Status) : UInt8 :=
  (status.phase &&& 0x0F) ||| (if status.motor then 0x10 else 0) |||
    (if status.drive = .internal then 0x20 else 0) ||| (if status.wanted then 0x40 else 0) |||
    (if status.pending then 0x80 else 0)

def phaseLines (status : Status) : String :=
  String.ofList <| [8, 4, 2, 1].map fun line : UInt8 => if status.phase &&& line = 0 then '0' else '1'

def text (status : Status) : String :=
  "ph:" ++ status.phaseLines ++ " m:" ++ Text.bit status.motor ++ " d:" ++ toString status.drive.index ++
    " w:" ++ Text.bit status.wanted ++ " p:" ++ Text.bit status.pending

end Status

/-- What one read of the status register gives: the lines, the registers afterwards, the timer ticks that
pass meanwhile, and what the registers report. -/
structure Poll (ρ : Type) where
  status : Status
  registers : ρ
  ticks : Nat := 0
  log : Log := []

/-- The controller's registers, whatever stands behind them. -/
class Registers (ρ : Type) where
  poll : ρ → Poll ρ
  /-- Puts a byte into the data register. -/
  write : ρ → UInt8 → ρ × Log
  /-- Where the host's last operation was to take place, if that can be observed. -/
  hint : ρ → Option Position

end Floppy
