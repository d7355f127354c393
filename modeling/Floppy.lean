import Floppy.Bench.Chore
import Floppy.Bench.Reception
import Floppy.Bench.Rig
import Floppy.Main
import Floppy.Bench.Reads
import Floppy.Proofs.Gcr.Redundancy
import Floppy.Proofs.Controller.Frames
import Floppy.Proofs.Fetch.Provenance
import Floppy.Proofs.System.FirstFrame
import Floppy.Proofs.Head.Readback
import Floppy.Proofs.Fetch.Validated
import Floppy.Proofs.Fetch.Grammar
import Floppy.Proofs.Fetch.Resync
import Floppy.Proofs.Schedule.ActiveSlots
import Floppy.Proofs.Schedule.Reentry
import Floppy.Proofs.Schedule.Rounds
import Floppy.Proofs.Schedule.Moves
import Floppy.Proofs.Schedule.Watchdog
import Floppy.Proofs.Schedule.Unwinding
import Floppy.Proofs.System.Reboot
import Floppy.Proofs.Schedule.RelyGuarantee
import Floppy.Proofs.Controller.Arm
import Floppy.Proofs.Fetch.Confirmed
import Floppy.Proofs.Storage
import Floppy.Proofs.Storage.Waiting
import Floppy.Proofs.System.Mirror
import Floppy.Proofs.System.Wire
import Floppy.Proofs.Transport.Loopback
import Floppy.Proofs.System.Isolation
import Floppy.Proofs.Host.Arms
import Floppy.Proofs.Gcr.Header
import Floppy.Proofs.Gcr.Damage
import Floppy.Proofs.Head.Genuine
import Floppy.Proofs.Head.Rotation
import Floppy.Proofs.Head.Accounts
import Floppy.Proofs.Host.FieldReading
import Floppy.Proofs.Host.Verdicts
import Floppy.Proofs.Fetch.Lifecycle
import Floppy.Proofs.Controller.Pace
import Floppy.Proofs.Cache.Recall
import Floppy.Proofs.ImageSource.Serving
import Floppy.Proofs.Fetch.Stall
import Floppy.Proofs.Fetch.Faults
import Floppy.Proofs.Fetch.Spelling
import Floppy.Proofs.Host.JobQueue
import Floppy.Proofs.Controller.Framing
import Floppy.Proofs.Schedule.Overdue
