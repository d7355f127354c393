/-!
# Byte transports

A channel to the source of the external disk that never blocks. Reading takes at most what has come; bytes
that are sent beyond the room are lost.
-/
namespace Floppy

class Transport (τ : Type) where
  connected : τ → Bool
  /-- How many bytes can be sent now. -/
  room : τ → Nat
  /-- Takes at most the given number of bytes. -/
  read : τ → Nat → List UInt8 × τ
  send : τ → List UInt8 → τ

end Floppy
