/-!
# Text of single-byte characters

All texts on the wire are plain ASCII; bytes of it are shown as a string.
-/
namespace Floppy.Ascii

def text (bytes : List UInt8) : String :=
  String.ofList (bytes.map fun b => Char.ofNat b.toNat)

end Floppy.Ascii
