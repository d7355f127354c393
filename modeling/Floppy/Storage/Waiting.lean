import Floppy.Schedule.Program
import Floppy.Storage.Basic

/-!
# Writing while others run

A task that writes more than storage takes at once yields for as long as storage is busy.
-/
namespace Floppy
open Schedule

/-- A context with a storage device in it. -/
class StorageContext (C : Type) (δ : outParam Type) where
  storage : C → δ
  setStorage : C → δ → C

variable {C δ : Type} [StorageDevice δ] [StorageContext C δ]

/-- How many yields in a row may find storage busy. No device is busy for so long. -/
def storagePatience : Nat := 1 <<< 40

/-- Yields until storage is idle; gives up if the system reboots. -/
def awaitStorage (next : Except StorageError Unit → Program C) : Nat → Program C
  | 0 => next (.error .busy)
  | patience + 1 =>
    .inspect (fun c : C => StorageDevice.busy (StorageContext.storage c)) fun busy =>
      if busy then
        .yield fun same =>
          if same then awaitStorage next patience else next (.error .interrupted)
      else next (.ok ())

/-- One write to the device: how many bytes it took, and whether it is busy then. -/
def writeOnce (offset : Nat) (data : List UInt8) (c : C) : (Nat × Bool) × Effect C :=
  let (count, device) := StorageDevice.write (StorageContext.storage c) offset data
  ((count, StorageDevice.busy device), { context := StorageContext.setStorage c device })

/-- Writes the data piece by piece; of `requested` bytes `written` are done. Each turn writes a byte at
least, or was refused. -/
def writeRest (offset requested : Nat) (next : Except StorageError Unit → Program C) :
    (fuel : Nat) → (written : Nat) → List UInt8 → Program C
  | 0, _, _ => next (.error .busy)
  | _ + 1, _, [] => next (.ok ())
  | fuel + 1, written, b :: rest =>
    awaitStorage (fun
      | .error e => next (.error e)
      | .ok () =>
        .perform (writeOnce (offset + written) (b :: rest)) fun (count, busy) =>
          if count = 0 ∧ !busy then next (.error (.shortWrite written requested))
          else writeRest offset requested next fuel (written + count) ((b :: rest).drop count))
      storagePatience

/-- Writes all of the data at an offset, unless it does not fit. If its end overflows, the program panics. -/
def writeWaiting (offset : Nat) (data : List UInt8) (panic : Program C)
    (next : Except StorageError Unit → Program C) : Program C :=
  match rangeEnd? offset data.length with
  | none => panic
  | some stop =>
    .inspect (fun c : C => StorageDevice.size (StorageContext.storage c)) fun size =>
      if size < stop then next (.error (.outOfRange offset data.length))
      else writeRest offset data.length next (storagePatience + data.length) 0 data

end Floppy
