import AmlService.Lib.Effect
import AmlService.Lib.Json
import AmlService.Lib.Lines
import AmlService.Lib.Text
import Mathlib.Data.List.FinRange
import Mathlib.Logic.Function.Basic

/-!
# AmlService.Ipc.Server

The local server (`ipc/ipc_server.c`): one loop around `poll`, and for each client a
buffer of bytes not yet worked off and a buffer of bytes not yet sent. The messages
are JSON, one a line (`ipc/ipc_protocol.c`).

What the kernel answers is taken from a `Noyau`, in the order of the calls, as in
`World`; the `journal` is not read by the code. The application is a parameter: the
periodic task may broadcast events, while the requests broadcast none.
-/

namespace AmlService

open Effect

/-! ### Sizes -/

abbrev ipcServerMaxClients : Nat := 16
/-- Bytes of a message, the newline apart. -/
abbrev ipcServerMaxMessage : Nat := 4096
abbrev ipcReadSize : Nat := 1024
abbrev ipcMaxPendingOutput : Nat := 256 * 1024

abbrev newline : UInt8 := 0x0A
abbrev carriageReturn : UInt8 := 0x0D

abbrev Slot : Type := Fin ipcServerMaxClients

/-! ### Messages -/

/-- What the server takes from json-c. -/
structure JsonC where
  /-- `json_tokener_parse_ex`, strict, when it reads the whole message. -/
  parse : List UInt8 → Option JsonValue
  /-- `json_object_to_json_string_ext`, plain. -/
  print : JsonValue → List UInt8
  /-- Control characters are escaped: a printed value is one line. -/
  print_line : ∀ value, newline ∉ print value

/-- Printed values are lines. -/
theorem JsonC.print_lines (json : JsonC) (values : List JsonValue) :
    ∀ printed ∈ values.map json.print, newline ∉ printed := by
  intro printed hmem
  obtain ⟨value, -, rfl⟩ := List.mem_map.mp hmem
  exact json.print_line value

/-- `ipc_protocol_parse`: the root is to be an object. -/
def ipcProtocolParse (json : JsonC) (message : List UInt8) : Option JsonValue :=
  if message.length = 0 then none
  else
    match json.parse message with
    | some (.obj fields) => some (.obj fields)
    | _ => none

/-- An error of a request: a code and a text. -/
structure IpcError where
  code : String
  message : String
  deriving Repr, DecidableEq

/-- `ipc_protocol_response`. A result that is null is answered as an empty object. -/
def ipcProtocolResponse (request : Option JsonValue) (answer : Except IpcError JsonValue) : JsonValue :=
  let id := (request.bind fun request => request.get? "id").getD .null
  match answer with
  | .ok result =>
    let result := match result with
      | .null => .obj []
      | value => value
    .obj [("type", .str "response"), ("id", id), ("ok", .bool true), ("result", result)]
  | .error e =>
    .obj [("type", .str "response"), ("id", id), ("ok", .bool false),
      ("error", .obj [("code", .str e.code), ("message", .str e.message)])]

/-- What a message asks for. -/
inductive Demande
  | refusee (error : IpcError)
  | subscribe
  | command (command : String) (args : List JsonValue)

/-- The fields of the envelope, checked in the order of `process_message`. -/
def lireEnveloppe (request : JsonValue) : Demande :=
  let invalide message := Demande.refusee ⟨"INVALID_REQUEST", message⟩
  match request.get? "type" with
  | some (.str type) =>
    if Text.cString type ≠ "request" then
      .refusee ⟨"UNSUPPORTED_TYPE", "Seuls les messages request sont acceptes"⟩
    else
      match request.get? "id" with
      | some (.int _) | some (.str _) =>
        match request.get? "command" with
        | some (.str command) =>
          if command = "" then invalide "Le champ command doit etre une chaine non vide"
          else
            match request.get? "args" with
            | some (.arr args) =>
              if Text.cString command = "subscribe" then .subscribe else .command (Text.cString command) args
            | _ => invalide "Le champ args doit etre un tableau JSON"
        | _ => invalide "Le champ command doit etre une chaine non vide"
      | _ => invalide "Le champ id doit etre un entier ou une chaine"
  | _ => invalide "Le champ type doit etre une chaine"

/-- A message: the request read, if it is JSON, and what it asks for. -/
def lireMessage (json : JsonC) (message : List UInt8) : Option JsonValue × Demande :=
  match ipcProtocolParse json message with
  | none => (none, .refusee ⟨"INVALID_JSON", "Le message JSON est invalide"⟩)
  | some request => (some request, lireEnveloppe request)

/-- A final carriage return is not part of the message. -/
def sansRetour (line : List UInt8) : List UInt8 :=
  if line.getLast? = some carriageReturn then line.dropLast else line

/-! ### Clients -/

/-- A client, or a free slot. The bytes of `output` before `outputOffset` are gone. -/
structure IpcClient where
  fd : Option Nat
  subscribed : Bool
  input : List UInt8
  output : List UInt8
  outputOffset : Nat
  fits : input.length ≤ ipcServerMaxMessage
  started : outputOffset ≤ output.length

namespace IpcClient

/-- A free slot, all zeros. -/
def libre : IpcClient := ⟨none, false, [], [], 0, Nat.zero_le _, Nat.zero_le _⟩

/-- A line added to the bytes to send. -/
def append (client : IpcClient) (text : List UInt8) : IpcClient :=
  { client with
    output := client.output ++ text ++ [newline]
    started := by
      have := client.started
      simp only [List.length_append]; omega }

/-- The first bytes of the input, dropped. -/
def consume (client : IpcClient) (count : Nat) : IpcClient :=
  { client with
    input := client.input.drop count
    fits := by
      have := client.fits
      simp only [List.length_drop]; omega }

/-- Room for the next bytes. -/
def capacity (client : IpcClient) : Nat :=
  min (ipcServerMaxMessage - client.input.length) ipcReadSize

/-- Bytes received, as many as there is room for. -/
def receive (client : IpcClient) (bytes : List UInt8) : IpcClient :=
  { client with
    input := client.input ++ bytes.take client.capacity
    fits := by
      have := client.fits
      simp only [capacity, List.length_append, List.length_take]; omega }

/-- What is still to send. -/
def pending (client : IpcClient) : List UInt8 := client.output.drop client.outputOffset

/-- Bytes sent, as many as there were. -/
def advance (client : IpcClient) (count : Nat) : IpcClient :=
  { client with
    outputOffset := client.outputOffset + min count (client.output.length - client.outputOffset)
    started := by
      have := client.started
      omega }

/-- Everything is sent. -/
def flushed (client : IpcClient) : IpcClient :=
  { client with output := [], outputOffset := 0, started := Nat.zero_le _ }

end IpcClient

/-! ### The kernel -/

/-- What `poll` reports on a descriptor. -/
structure Revents where
  pollin : Bool
  pollout : Bool
  pollerr : Bool
  pollhup : Bool
  pollnval : Bool
  deriving Repr, DecidableEq

/-- How `poll` ends: on the listening socket, and on each descriptor. -/
inductive IpcPoll
  | failed
  | interrupted
  | timeout
  | ready (listen : Bool) (revents : Nat → Revents)

/-- What one `accept` gives. A connection may refuse to be made non-blocking. -/
inductive IpcAccept
  | connection (fd : Nat) (nonblocking : Bool)
  | interrupted
  | wouldBlock
  | failed
  deriving Repr, DecidableEq

/-- What one `recv` gives: no byte at all is the end of the stream. -/
inductive IpcRecv
  | bytes (chunk : List UInt8)
  | wouldBlock
  | failed
  deriving Repr, DecidableEq

/-- What one `send` does. -/
inductive IpcSend
  | wrote (count : Nat)
  | interrupted
  | wouldBlock
  | failed
  deriving Repr, DecidableEq

/-- What the kernel and the allocator will answer. Run dry: no signal, memory, nothing
ready, and calls that would block. -/
structure Noyau where
  /-- Whether a stop was asked for by a signal, at each look at it. -/
  signals : List Bool
  allocations : List Bool
  polls : List IpcPoll
  accepts : List IpcAccept
  recvs : List IpcRecv
  sends : List IpcSend

/-! ### The server -/

/-- Why a client is disconnected. -/
inductive Fermeture
  | raccroche
  | erreurSocket
  | memoire
  | retard
  | tamponPlein
  | arret
  deriving Repr, DecidableEq

/-- What the journal of the server keeps. A line is kept as it was received. -/
inductive IpcObs
  | accepted (slot : Slot) (fd : Nat)
  | received (slot : Slot) (bytes : List UInt8)
  | processed (slot : Slot) (line : List UInt8) (response : JsonValue)
  | broadcast (event : JsonValue)
  | sent (slot : Slot) (bytes : List UInt8)
  | closed (slot : Slot) (reason : Fermeture)

/-- The server, with the state of its application. -/
structure IpcServer (σ : Type) where
  running : Bool
  clients : Slot → IpcClient
  context : σ
  noyau : Noyau
  journal : List IpcObs

/-- What a periodic task leaves. -/
structure Tick (σ : Type) where
  events : List JsonValue
  stop : Bool
  context : σ

/-- The application: the periodic task and the handler of the commands, if there are. A
handler that fails may leave its error unsaid. -/
structure Application (σ : Type) where
  tick : Option (σ → Tick σ)
  handler : Option (σ → String → List JsonValue → Except (Option String × Option String) JsonValue × σ)

/-- Code that serves a client and may give it up. -/
abbrev IpcM (σ α : Type) := Fallible Fermeture (IpcServer σ) α

variable {σ : Type}

namespace IpcServer

def log (server : IpcServer σ) (o : IpcObs) : IpcServer σ :=
  { server with journal := server.journal ++ [o] }

/-- The next calls of `send`. -/
def sending (server : IpcServer σ) (sends : List IpcSend) : IpcServer σ :=
  { server with noyau := { server.noyau with sends } }

/-- One client changed. -/
def modify (server : IpcServer σ) (slot : Slot) (f : IpcClient → IpcClient) : IpcServer σ :=
  { server with clients := Function.update server.clients slot (f (server.clients slot)) }

section Lemmas

variable (server : IpcServer σ) (o : IpcObs) (slot : Slot) (f : IpcClient → IpcClient)

@[simp] theorem log_journal : (server.log o).journal = server.journal ++ [o] := rfl
@[simp] theorem log_clients : (server.log o).clients = server.clients := rfl
@[simp] theorem modify_journal : (server.modify slot f).journal = server.journal := rfl

@[simp] theorem modify_same : (server.modify slot f).clients slot = f (server.clients slot) :=
  Function.update_self ..

theorem modify_other {s : Slot} (h : s ≠ slot) : (server.modify slot f).clients s = server.clients s :=
  Function.update_of_ne h ..

end Lemmas

end IpcServer

/-- The server when its loop starts. -/
def ipcServerInit (context : σ) (noyau : Noyau) : IpcServer σ where
  running := true
  clients _ := .libre
  context := context
  noyau := noyau
  journal := []

/-- `client_reset` -/
def clientReset (slot : Slot) (reason : Fermeture) (server : IpcServer σ) : IpcServer σ :=
  (server.modify slot fun _ => .libre).log (.closed slot reason)

/-- A client given up is disconnected. -/
def ouFermer {α : Type} (slot : Slot) (m : IpcM σ α) (server : IpcServer σ) : IpcServer σ :=
  match m server with
  | (.ok _, server) => server
  | (.error reason, server) => clientReset slot reason server

/-! ### Responses -/

/-- Memory, if there is some. -/
def allouer : IpcM σ Unit := fun server =>
  match server.noyau.allocations with
  | [] => (.ok (), server)
  | granted :: rest =>
    (if granted then .ok () else .error .memoire,
      { server with noyau := { server.noyau with allocations := rest } })

/-- `client_append` -/
def clientAppend (slot : Slot) (text : List UInt8) : IpcM σ Unit := do
  let server ← get
  if (server.clients slot).output.length + text.length + 1 > ipcMaxPendingOutput then throw .retard
  else do
    allouer
    Fallible.act fun server => server.modify slot fun client => client.append text

/-- `queue_response`, once the response is known: it is built and printed, then queued. -/
def queueResponse (json : JsonC) (slot : Slot) (response : JsonValue) : IpcM σ Unit := do
  allouer
  clientAppend slot (json.print response)

/-- What `process_message` has the application do, and what is to be answered. -/
def traiterDemande (app : Application σ) (slot : Slot) :
    Demande → IpcM σ (Except IpcError JsonValue)
  | .refusee error => return .error error
  | .subscribe => do
    Fallible.act fun server => server.modify slot fun client => { client with subscribed := true }
    return .ok (.obj [("subscribed", .bool true)])
  | .command command args =>
    match app.handler with
    | none =>
      return .error ⟨"COMMAND_NOT_IMPLEMENTED", "Aucun gestionnaire de commandes n'est configure"⟩
    | some handler => Fallible.lift fun server =>
      let (answer, context) := handler server.context command args
      (answer.mapError fun (code, message) =>
        ⟨code.getD "COMMAND_FAILED", message.getD "La commande a echoue"⟩, { server with context })

/-- `process_message`: the response it has queued. -/
def processMessage (json : JsonC) (app : Application σ) (slot : Slot) (message : List UInt8) :
    IpcM σ JsonValue := do
  let (request, demande) := lireMessage json message
  let answer ← traiterDemande app slot demande
  let response := ipcProtocolResponse request answer
  queueResponse json slot response
  return response

/-- `process_buffered_message`: whether there was a line. -/
def processBufferedMessage (json : JsonC) (app : Application σ) (slot : Slot) : IpcM σ Bool := do
  let server ← get
  match Lines.cut newline (server.clients slot).input with
  | none => return false
  | some (line, _) => do
    Fallible.act fun server => server.modify slot fun client => client.consume (line.length + 1)
    let response ← processMessage json app slot (sansRetour line)
    Fallible.act fun server => server.log (.processed slot line response)
    return true

/-! ### Reading and writing -/

/-- `read_client` -/
def readClient (slot : Slot) : IpcM σ Unit := fun server =>
  let client := server.clients slot
  if client.input.length ≥ ipcServerMaxMessage then (.error .tamponPlein, server)
  else
    match server.noyau.recvs with
    | [] => (.ok (), server)
    | outcome :: recvs =>
      let server := { server with noyau := { server.noyau with recvs } }
      match outcome with
      | .bytes [] => (.error .raccroche, server)
      | .bytes chunk =>
        (.ok (), (server.modify slot fun client => client.receive chunk).log
          (.received slot (chunk.take client.capacity)))
      | .wouldBlock => (.ok (), server)
      | .failed => (.error .erreurSocket, server)

/-- The loop of `write_client`, `sends` being what the next calls of `send` do. -/
def writeLoop (slot : Slot) (sends : List IpcSend) (server : IpcServer σ) :
    Except Fermeture Unit × IpcServer σ :=
  let client := server.clients slot
  if client.outputOffset < client.output.length then
    match sends with
    | [] => (.ok (), server.sending [])
    | .interrupted :: sends => writeLoop slot sends server
    | .wouldBlock :: sends => (.ok (), server.sending sends)
    | .failed :: sends | .wrote 0 :: sends => (.error .erreurSocket, server.sending sends)
    | .wrote count :: sends =>
      writeLoop slot sends ((server.modify slot fun client => client.advance count).log
        (.sent slot (client.pending.take count)))
  else (.ok (), (server.sending sends).modify slot IpcClient.flushed)

/-- `write_client` -/
def writeClient (slot : Slot) : IpcM σ Unit := fun server => writeLoop slot server.noyau.sends server

/-! ### The loop -/

/-- An event queued for a client that has subscribed. -/
def mettreEnFile (json : JsonC) (event : JsonValue) (server : IpcServer σ) (slot : Slot) : IpcServer σ :=
  if (server.clients slot).fd.isSome ∧ (server.clients slot).subscribed then
    ouFermer slot (clientAppend slot (json.print event)) server
  else server

/-- `ipc_server_broadcast`: nothing, if there is no memory to print the event. -/
def ipcServerBroadcast (json : JsonC) (server : IpcServer σ) (event : JsonValue) : IpcServer σ :=
  match allouer server with
  | (.error _, server) => server
  | (.ok (), server) =>
    (List.finRange ipcServerMaxClients).foldl (mettreEnFile json event) (server.log (.broadcast event))

/-- The periodic task. It may ask for the loop to stop. -/
def appelerTick (json : JsonC) (app : Application σ) (server : IpcServer σ) : IpcServer σ :=
  match app.tick with
  | none => server
  | some tick =>
    let task := tick server.context
    let server := task.events.foldl (ipcServerBroadcast json) { server with context := task.context }
    { server with running := server.running && !task.stop }

/-- A look at `stop_requested`. -/
def arretDemandeLu (server : IpcServer σ) : Bool × IpcServer σ :=
  match server.noyau.signals with
  | [] => (false, server)
  | stop :: signals => (stop, { server with noyau := { server.noyau with signals } })

/-- A line of a client that has nothing to be sent. -/
def traiterLigne (json : JsonC) (app : Application σ) (server : IpcServer σ) (slot : Slot) :
    IpcServer σ :=
  if (server.clients slot).fd.isSome ∧ (server.clients slot).output.length = 0 then
    ouFermer slot (processBufferedMessage json app slot) server
  else server

/-- One line of each such client. -/
def traiterLignes (json : JsonC) (app : Application σ) (server : IpcServer σ) : IpcServer σ :=
  (List.finRange ipcServerMaxClients).foldl (traiterLigne json app) server

/-- The descriptors polled, and whether for writing (`POLLOUT`) instead of reading. -/
def pollFds (server : IpcServer σ) : List (Nat × Bool) :=
  (List.finRange ipcServerMaxClients).filterMap fun slot =>
    (server.clients slot).fd.map fun fd => (fd, decide (0 < (server.clients slot).output.length))

/-- `POLLIN` and `POLLOUT` are reported only where they were asked for. -/
def Revents.asked (revents : Revents) (output : Bool) : Revents :=
  { revents with pollin := revents.pollin && !output, pollout := revents.pollout && output }

/-- The first free slot, for a new client. -/
def placer (fd : Nat) (server : IpcServer σ) : IpcServer σ :=
  match (List.finRange ipcServerMaxClients).find? fun slot => (server.clients slot).fd.isNone with
  | none => server
  | some slot => (server.modify slot fun client => { client with fd := some fd }).log (.accepted slot fd)

/-- The loop of `accept`, `accepts` being what its next calls give. A descriptor that is
open is never given again: such an outcome is passed over. -/
def acceptLoop : List IpcAccept → IpcServer σ → IpcServer σ
  | [], server => { server with noyau := { server.noyau with accepts := [] } }
  | .interrupted :: accepts, server => acceptLoop accepts server
  | .wouldBlock :: accepts, server => { server with noyau := { server.noyau with accepts } }
  | .failed :: accepts, server => { server with running := false, noyau := { server.noyau with accepts } }
  | .connection fd nonblocking :: accepts, server =>
    if nonblocking ∧ ∀ slot, (server.clients slot).fd ≠ some fd then
      acceptLoop accepts (placer fd server)
    else acceptLoop accepts server

/-- Reading is for a client that has nothing to be sent. -/
def lireSiPret (slot : Slot) (events : Revents) : IpcM σ Unit := do
  let server ← get
  if events.pollin ∧ (server.clients slot).output.length = 0 then readClient slot else return ()

/-- Writing is for a client that has something to be sent. -/
def ecrireSiPret (slot : Slot) (events : Revents) : IpcM σ Unit := do
  let server ← get
  if events.pollout ∧ 0 < (server.clients slot).output.length then writeClient slot else return ()

/-- What is done for a client that `poll` reports. -/
def servirClient (slot : Slot) (events : Revents) : IpcM σ Unit :=
  if events.pollerr || events.pollnval then throw .erreurSocket
  else do
    lireSiPret slot events
    ecrireSiPret slot events
    -- the client has hung up, and there is nothing left to read
    if events.pollhup && !events.pollin then throw .raccroche else return ()

/-- What is done for a descriptor: its client, if there still is one, is served. -/
def servirFd (revents : Nat → Revents) (server : IpcServer σ) (polled : Nat × Bool) : IpcServer σ :=
  match (List.finRange ipcServerMaxClients).find? fun slot =>
    (server.clients slot).fd = some polled.1 with
  | none => server
  | some slot => ouFermer slot (servirClient slot ((revents polled.1).asked polled.2)) server

/-- The call of `poll`, and what comes of it. -/
def attendre (server : IpcServer σ) : IpcServer σ :=
  match server.noyau.polls with
  | [] => server
  | outcome :: polls =>
    let polled := pollFds server
    let server := { server with noyau := { server.noyau with polls } }
    match outcome with
    | .failed => { server with running := false }
    | .interrupted | .timeout => server
    | .ready listen revents =>
      let server := if listen then acceptLoop server.noyau.accepts server else server
      polled.foldl (servirFd revents) server

/-- The end of the loop: every client is disconnected. -/
def arreter (server : IpcServer σ) : IpcServer σ :=
  (List.finRange ipcServerMaxClients).foldl (fun server slot =>
    if (server.clients slot).fd.isSome then clientReset slot .arret server else server)
    { server with running := false }

/-- One turn of the loop of `ipc_server_run`. Once it has ended, nothing happens. -/
def tour (json : JsonC) (app : Application σ) (server : IpcServer σ) : IpcServer σ :=
  let (stop, server) := arretDemandeLu server
  if !server.running || stop then arreter server
  else
    let server := appelerTick json app server
    let (stop, server) := if app.tick.isSome then arretDemandeLu server else (false, server)
    if !server.running || stop then arreter server
    else attendre (traiterLignes json app server)

/-- `ipc_server_run`, for so many turns. -/
def ipcServerRun (json : JsonC) (app : Application σ) (server : IpcServer σ) (turns : Nat) : IpcServer σ :=
  turns.iterate (tour json app) server

end AmlService
