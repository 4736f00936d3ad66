import AmlService.World

/-!
# AmlService.Aml.Transport

The Bluetooth link (`aml/transport.c`): opening it, writing a whole request, waiting
for one frame, closing it. System calls are outcomes taken from the `World`.
-/

namespace AmlService

/-- An entry of the configuration, as far as the link uses it. -/
structure AmlConfig where
  name : String
  bltMac : String
  amlMac : String
  amlChn : Int
  deriving Repr, DecidableEq

/-- The configuration of a scripted AML. -/
def amlScripted : AmlConfig := { name := "AML", bltMac := "B", amlMac := "A", amlChn := 1 }

/-- `socketFd` is -1 when there is no link. -/
structure AmlConnection where
  socketFd : Int
  parser : ProtocolParser

/-! ### Opening and closing -/

/-- What `aml_connect` returns for an outcome: a descriptor, or a code. -/
def ConnectOutcome.result : ConnectOutcome → Except AmlErr Nat
  | .socketFailed => .error .io
  | .bltMacInvalid => .error .generic
  | .bindFailed => .error .io
  | .amlMacInvalid => .error .generic
  | .connectFailed => .error .io
  | .established fd => .ok fd

/-- `aml_connect` -/
def amlConnect (_connection : AmlConnection) (config : AmlConfig) (world : World) :
    Except AmlErr Unit × AmlConnection × World :=
  let fresh : AmlConnection := { socketFd := -1, parser := protocolParserInit }
  if config.bltMac = "" ∨ config.amlMac = "" ∨ config.amlChn < 1 ∨ config.amlChn > 30 then
    (.error .generic, fresh, world)
  else
    match world.connects with
    | [] => (.error .io, fresh, world)
    | outcome :: rest =>
      match outcome.result with
      | .error code => (.error code, fresh, { world with connects := rest })
      | .ok fd =>
        (.ok (), { fresh with socketFd := fd }, ({ world with connects := rest }).log .opened)

/-- `aml_disconnect` -/
def amlDisconnect (connection : AmlConnection) (world : World) : AmlConnection × World :=
  ({ socketFd := -1, parser := protocolParserInit },
    if 0 ≤ connection.socketFd then world.log .closed else world)

/-! ### Sending -/

/-- The loop of `aml_send`: `remaining` bytes are still to be written. -/
def sendLoop (remaining : Nat) (outcomes : List SendOutcome) :
    Except AmlErr Unit × List SendOutcome :=
  if remaining = 0 then (.ok (), outcomes)
  else
    match outcomes with
    | [] => (.ok (), [])
    | .interrupted :: rest => sendLoop remaining rest
    | .failed error :: rest => (.error error.code, rest)
    | .wrote count :: rest =>
      -- nothing written: the other end is gone
      if count = 0 then (.error .disconnected, rest)
      else sendLoop (remaining - count) rest
termination_by structural outcomes

/-- `aml_send` -/
def amlSend (connection : AmlConnection) (data : List UInt8) (world : World) :
    Except AmlErr Unit × World :=
  if connection.socketFd < 0 then (.error .generic, world)
  else
    match sendLoop data.length world.sends with
    | (.error code, sends) => (.error code, { world with sends })
    | (.ok (), sends) => (.ok (), ({ world with sends }).log (.sent data))

/-! ### Receiving -/

/-- Whether the deadline of a wait has passed; without one the clock is not read. -/
def World.expired (world : World) : Option Int → Bool × World
  | none => (false, world)
  | some deadlineMs =>
    let (now, world) := world.monotonicMs
    (decide (deadlineMs - now ≤ 0), world)

/-- The loop of `aml_receive`. `polled`: the socket has been looked at. -/
def receiveLoop (outputCapacity : Nat) (deadlineMs : Option Int) (receptions : List Reception)
    (polled : Bool) (parser : ProtocolParser) (world : World) :
    Except AmlErr (List UInt8) × ProtocolParser × World :=
  match protocolParserNext parser outputCapacity with
  | (.frame f, parser) => (.ok f, parser, ({ world with receptions }).log (.frame f))
  | (.error, _) => (.error .protocol, protocolParserInit, { world with receptions })
  | (.incomplete, parser) =>
    let (expired, world) := world.expired deadlineMs
    -- a deadline already past still lets the socket be looked at once
    if expired && polled then (.error .timeout, parser, { world with receptions })
    else
      match receptions with
      | [] => (.error .disconnected, parser, { world with receptions := [] })
      | .quiet :: rest => receiveLoop outputCapacity deadlineMs rest true parser world
      | .failed error :: rest => (.error error.code, parser, { world with receptions := rest })
      | .bytes chunk :: rest =>
        let world := world.log (.received chunk.bytes)
        match protocolParserFeed parser chunk.bytes with
        | none => (.error .protocol, protocolParserInit, { world with receptions := rest })
        | some parser => receiveLoop outputCapacity deadlineMs rest true parser world
termination_by structural receptions

/-- `aml_receive`; a negative `timeoutMs` waits without limit. -/
def amlReceive (connection : AmlConnection) (outputCapacity : Nat) (timeoutMs : Int)
    (world : World) : Except AmlErr (List UInt8) × AmlConnection × World :=
  if connection.socketFd < 0 then (.error .generic, connection, world)
  else
    let (deadlineMs, world) : Option Int × World :=
      if 0 ≤ timeoutMs then
        let (now, world) := world.monotonicMs
        (some (now + timeoutMs), world)
      else (none, world)
    let (result, parser, world) :=
      receiveLoop outputCapacity deadlineMs world.receptions false connection.parser world
    (result, { connection with parser }, world)

end AmlService
