import Floppy.Storage.Basic

/-!
# Fenced storage

Storage that refuses writes from some offset on, without being busy.
-/
namespace Floppy.Bench

structure Fenced where
  flash : Flash
  limit : Option Nat := none

namespace Fenced

def write (device : Fenced) (offset : Nat) (src : List UInt8) : Nat × Fenced :=
  if device.limit.any (· ≤ offset) then (0, device)
  else
    let (count, flash) := device.flash.write offset src
    (count, { device with flash })

def service (device : Fenced) : Fenced := { device with flash := device.flash.service }

instance : StorageDevice Fenced where
  size device := device.flash.bytes.size
  busy device := device.flash.isBusy
  write := write
  read device := device.flash.read
  service := service

end Fenced
end Floppy.Bench
