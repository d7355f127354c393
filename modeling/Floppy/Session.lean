import Floppy.Host
import Floppy.ImageSource
import Floppy.System.Tasks
import Floppy.Transport.Link

/-!
# Sessions

A disk system together with what surrounds it: a simulated host at its registers, and the source of an image
at the other end of its link. In each timer tick the link exchanges bytes, the source answers, and the tasks
run a number of times.
-/
namespace Floppy
open Schedule

structure SessionPlan where
  passesPerTick : Nat := 8
  /-- Every so many answers one is spoiled, if this is not zero. -/
  corruptEvery : Nat := 0
  /-- The tick at which the timer runs ahead, and how far. -/
  stallAt : Nat := 0
  stall : Nat := 0

structure Session where
  plan : SessionPlan
  machine : Machine (DiskSystem Host Rings Flash)
  link : Link := {}
  source : ImageSource
  tick : Nat := 0
  linked : Bool := true
  /-- Answers sent so far. -/
  answers : Nat := 0

namespace Session

def host (s : Session) : Host := s.machine.context.registers

/-- Another digit in the place of the one at the front of the payload or close by. -/
def spoil (bytes : List UInt8) : List UInt8 :=
  bytes.modify 10 fun b => if b = 48 then 49 else 48

def sendAnswer (s : Session) (answer : List Fetch.Message) : Session :=
  let bytes := answer.flatMap (·.encode)
  let answers := s.answers + 1
  let bytes := if s.plan.corruptEvery ≠ 0 ∧ answers % s.plan.corruptEvery = 0 then spoil bytes else bytes
  { s with link := s.link.deliver bytes, answers }

def serveMessage (s : Session) (message : List UInt8) : Session :=
  let (answers, source, log) := s.source.feed message
  answers.foldl sendAnswer { s with source, machine.log := s.machine.log ++ log }

def serve (s : Session) : Session :=
  let (messages, link) := s.link.collectAll
  messages.foldl serveMessage { s with link }

def pump (s : Session) : Session :=
  let (linked, link, rings) := s.link.pump s.machine.context.transport
  { s with link, linked, machine.context.transport := rings }

def passes : Nat → Machine (DiskSystem Host Rings Flash) → Machine (DiskSystem Host Rings Flash)
  | 0, m => m
  | k + 1, m => passes k m.pass

/-- One timer tick and all that belongs to it. -/
def advance (s : Session) : Session :=
  let tick := s.tick + 1
  let machine := s.machine.tick (if tick = s.plan.stallAt then 1 + s.plan.stall else 1)
  let s := { s with tick, machine }.pump.serve
  { s with machine := passes s.plan.passesPerTick s.machine }

/-- Runs until the host is done, but for so many ticks at most. -/
def finish : Nat → Session → Session
  | 0, s => s
  | left + 1, s =>
    let s := s.advance
    if s.host.report.done then s else finish left s

/-- A look at a session in the middle of its run. -/
structure Mark where
  tick : Nat
  linked : Bool
  report : Host.Report
  status : List String
  source : SourceStats
  log : Log

/-- Makes a mark; the log starts anew. -/
def mark (s : Session) : Mark × Session :=
  (⟨s.tick, s.linked, s.host.report, s.machine.context.status, s.source.stats, s.machine.log.toList⟩,
    { s with machine.log := #[] })

/-- Runs until the host is done, but for so many ticks at most, with a mark after every so many of them and
one at the end. -/
def run (every : Nat) : Nat → Session → List Mark × Session
  | 0, s => ([], s)
  | left + 1, s =>
    let s := s.advance
    let finished : Bool := s.host.report.done || left = 0
    let (marks, s) := if s.tick % every = 0 || finished then
        let (m, s) := s.mark
        ([m], s)
      else ([], s)
    if finished then (marks, s)
    else
      let (later, s) := run every left s
      (marks ++ later, s)

end Session
end Floppy
