import AmlService.Lib.Calendar
import AmlService.Lib.Json
import AmlService.Aml.ParserStream
import AmlService.Core.State

/-!
# AmlService.World

What the service finds outside itself: two clocks, the time zone, and what each
system call on the Bluetooth link will give. A `World` is one such future; a theorem
about every world is a theorem about every behaviour of the AML, of the link and of
the clocks. Each source of outcomes is consumed in order; one that has run dry
behaves as said at its field.

The `journal` is not read by the code. It keeps what happened, in order: the bytes and
frames of the link, the values that get recorded, and the events sent to the clients.
-/

namespace AmlService

/-- The `AML_ERR_*` codes. -/
inductive AmlErr
  | generic
  | timeout
  | disconnected
  | io
  | protocol
  deriving Repr, DecidableEq

/-- What `errno_means_disconnected` makes of a failed system call. -/
inductive LinkError
  | disconnected
  | io
  deriving Repr, DecidableEq

def LinkError.code : LinkError → AmlErr
  | .disconnected => .disconnected
  | .io => .io

/-- How `aml_connect` ends once its configuration is accepted. -/
inductive ConnectOutcome
  | socketFailed
  | bltMacInvalid
  | bindFailed
  | amlMacInvalid
  | connectFailed
  | established (fd : Nat)
  deriving Repr, DecidableEq

/-- What one `send` does. -/
inductive SendOutcome
  | wrote (count : Nat)
  | interrupted
  | failed (error : LinkError)
  deriving Repr, DecidableEq

/-- What one turn of the wait of `aml_receive` gives: bytes, a failure or the end of
the link, or nothing (`poll` ran out of time, or a call was interrupted). -/
inductive Reception
  | bytes (chunk : Chunk)
  | quiet
  | failed (error : LinkError)
  deriving DecidableEq

/-- What the journal keeps. -/
inductive Obs
  | opened
  | closed
  | sent (request : List UInt8)
  | received (bytes : List UInt8)
  | frame (bytes : List UInt8)
  | event (code : UInt8) (data : List UInt8)
  | settingsRead (settings : AmlState)
  | settingsWritten (settings : AmlState)
  | clockNoted (offsetS syncedMs : Int)
  | broadcast (name : String) (data : JsonValue)

structure World where
  /-- The monotonic clock, in milliseconds, at each of its readings. -/
  clock : Nat → Int
  clockReads : Nat
  /-- `time(NULL)`, at each of its readings. -/
  wall : Nat → Int
  wallReads : Nat
  zone : Zone
  /-- Run dry: the connection fails. -/
  connects : List ConnectOutcome
  /-- Run dry: all is written at once. -/
  sends : List SendOutcome
  /-- Run dry: the AML has closed the link. -/
  receptions : List Reception
  journal : List Obs

namespace World

/-- Appends to the journal. -/
def log (world : World) (o : Obs) : World := { world with journal := world.journal ++ [o] }

/-- `monotonic_ms` -/
def monotonicMs (world : World) : Int × World :=
  (world.clock world.clockReads, { world with clockReads := world.clockReads + 1 })

/-- `time(NULL)` -/
def time (world : World) : Int × World :=
  (world.wall world.wallReads, { world with wallReads := world.wallReads + 1 })

section Lemmas

variable (world : World) (o : Obs)

@[simp] theorem log_journal : (world.log o).journal = world.journal ++ [o] := rfl
@[simp] theorem log_receptions : (world.log o).receptions = world.receptions := rfl

end Lemmas

end World

/-- Bytes arriving in one piece, if they fit in one. -/
def Reception.ofBytes (bytes : List UInt8) : Reception :=
  if h : 0 < bytes.length ∧ bytes.length ≤ 256 then .bytes ⟨bytes, h.1, h.2⟩ else .quiet

/-- A response of the AML. -/
def Reception.reply (code : UInt8) (data : List UInt8) : Reception :=
  .ofBytes (responseFrame code data)

/-- A world where clocks stand still: one connection, then the given receptions. -/
def World.scripted (receptions : List Reception) : World where
  clock _ := 0
  clockReads := 0
  wall _ := 0
  wallReads := 0
  zone := Zone.fixed 0
  connects := [.established 3]
  sends := []
  receptions := receptions
  journal := []

/-- The answers to a reading of the settings, in the time mode `mode`. -/
def releve (mode : UInt8) : List Reception :=
  [.quiet, .reply amlRspStatus [0x16], .quiet, .reply amlRspReadSettings [0, 0, mode, 0, 0]]

/-- An AML that accepts one connection, answers the first reading of its settings with
the time mode `mode`, then sends the given receptions; the monotonic clock advances by
`stepMs` at each reading, the system clock stands still in October 2026. -/
def World.answering (mode : UInt8) (stepMs : Int) (receptions : List Reception) : World :=
  { World.scripted (releve mode ++ receptions) with
    clock := fun k => stepMs * k
    wall := fun _ => 1791781200 }

/-- Bytes that a list of receptions still holds. -/
def receptionBytes : List Reception → Nat
  | [] => 0
  | .bytes chunk :: rest => chunk.bytes.length + receptionBytes rest
  | _ :: rest => receptionBytes rest

end AmlService
