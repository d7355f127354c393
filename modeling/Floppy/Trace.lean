import Floppy.Ascii
import Floppy.Hex

/-!
# Traces

A record, line by line, of what goes over the wire. Bytes that cannot be printed are escaped.
-/
namespace Floppy

inductive TraceTarget where
  | off
  | console
  | file
deriving DecidableEq, Repr

structure Trace where
  target : TraceTarget := .off
  lines : Array String := #[]
deriving Repr

namespace Trace

def isOn (trace : Trace) : Bool := trace.target ≠ .off

def escape (b : UInt8) : List UInt8 :=
  if b = 9 then [92, 116]
  else if b = 10 then [92, 110]
  else if b = 13 then [92, 114]
  else if b = 34 ∨ b = 39 ∨ b = 92 then [92, b]
  else if 32 ≤ b ∧ b ≤ 126 then [b]
  else [92, 120] ++ Hex.pair b

def println (trace : Trace) (text : String) : Trace :=
  if trace.isOn then { trace with lines := trace.lines.push text } else trace

def bytes (trace : Trace) (lead : String) (bytes : List UInt8) : Trace :=
  if trace.isOn then trace.println (lead ++ Ascii.text (bytes.flatMap escape)) else trace

def text (trace : Trace) : String := trace.lines.foldl (fun s l => s ++ l ++ "\n") ""

end Trace
end Floppy
