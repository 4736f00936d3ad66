import AmlService.App.Programme
import AmlService.Lib.PyJson
import AmlService.Mqtt.Channels
import AmlService.Mqtt.Messages

/-!
# AmlService.Mqtt.Service

How the bridge talks to the service (`mqtt/sweetdawn_mqtt.py`): a connection for each request
(`Service.request`), and one that stays for the events (`listen_events`). With the server at the
other end, a request fails as the bridge expects it to, or gives the answer of the application
(`request_answered`); and the events that are queued are the first of those broadcast since the
subscription (`listen_follows`).

As for `Ctl`, the two programs are joined by what a stream socket promises. `json.loads` is a
parameter, `loads`.
-/

namespace AmlService

open Effect Channels

namespace PyService

/-- What one `recv` gives; no byte at all is the end of the stream. -/
inductive Recv
  | bytes (chunk : List UInt8)
  | failed (message : String)
  deriving Repr, DecidableEq

/-- What one connection will do. `sendall` fails after some bytes, or sends everything. -/
structure Connection where
  connected : Bool
  sendFails : Option Nat
  recvs : List Recv

/-- What passed on a connection. -/
structure Exchange where
  sent : List UInt8
  received : List UInt8
  deriving Repr, DecidableEq

end PyService

/-- The client of the service. The code does not read `exchanges`. -/
structure PyService where
  nextId : Nat
  connections : List PyService.Connection
  exchanges : List PyService.Exchange

namespace PyService

/-! ### A request -/

/-- What is sent for a command. -/
def requestMessage (id : Nat) (command : String) (value : Option String) : JsonValue :=
  .obj [("type", .str "request"), ("id", .int id), ("command", .str command),
    ("args", .arr (value.toList.map .str))]

/-- `json.dumps(message).encode()`: what `json.dumps` gives is ASCII. -/
def encode (message : JsonValue) : List UInt8 := octets (PyJson.dumps message)

/-- The loop that reads the response, with all that was received. -/
def receiveLine (data : List UInt8) : List Recv → Except String (List UInt8) × List UInt8
  | [] => (.error "timed out", data)
  | .failed message :: _ => (.error message, data)
  | .bytes [] :: _ => (.error "le service a fermé la connexion", data)
  | .bytes chunk :: recvs =>
    let data := data ++ chunk.take 65536
    if data.getLast? = some newline then (.ok data, data) else receiveLine data recvs

/-- The connection of a request. -/
def exchange (message : List UInt8) (connection : Connection) : Except String (List UInt8) × Exchange :=
  if !connection.connected then (.error "Connection refused", ⟨[], []⟩)
  else
    match connection.sendFails with
    | some count => (.error "timed out", ⟨message.take count, []⟩)
    | none =>
      let (data, received) := receiveLine [] connection.recvs
      (data, ⟨message, received⟩)

/-- What the response says. -/
def readResponse (py : PyValues) (response : JsonValue) : Except PyError JsonValue :=
  match response with
  | .obj _ =>
    if truthy ((response.get? "ok").getD .null) then .ok ((response.get? "result").getD (.obj []))
    else
      match (response.get? "error").getD (.obj []) with
      | .obj error =>
        .error (.serviceError (py.text (((JsonValue.obj error).get? "code").getD (.str "?")))
          (py.text (((JsonValue.obj error).get? "message").getD (.str ""))))
      | _ => .error .attributeError
  | _ => .error .attributeError

/-- `Service.request`. There is a connection for each request; run dry, it is refused. -/
def request (py : PyValues) (loads : List UInt8 → Except String JsonValue) : ServiceRequest PyService :=
  fun command value s =>
    let id := s.nextId + 1
    let connection := s.connections.headD ⟨false, none, []⟩
    let (data, passed) := exchange (encode (requestMessage id command value) ++ [newline]) connection
    let answer : Except PyError JsonValue :=
      match data with
      | .error message => .error (.osError message)
      | .ok data =>
        match loads data with
        | .error message => .error (.valueError message)
        | .ok response => readResponse py response
    (answer, { nextId := id, connections := s.connections.tail, exchanges := s.exchanges ++ [passed] })

/-! ### The events -/

/-- How a connection for the events ends; or they are still waited for. `died` is an exception that
`listen_events` does not catch: it ends the thread. -/
inductive Ending
  | lost
  | unreadable
  | died
  | waiting
  deriving Repr, DecidableEq

/-- Whether a message is an event. -/
def isEvent (message : JsonValue) : Bool :=
  match message.get? "type" with
  | some (.str type) => type == "event"
  | _ => false

/-- The lines that are complete: what is queued, and whether something is raised. -/
def takeLines (loads : List UInt8 → Except String JsonValue) : List (List UInt8) → List JsonValue × Option Ending
  | [] => ([], none)
  | line :: lines =>
    match loads line with
    | .error _ => ([], some .unreadable)
    | .ok (.obj fields) =>
      let (events, ending) := takeLines loads lines
      (if isEvent (.obj fields) then .obj fields :: events else events, ending)
    | .ok _ => ([], some .died)

/-- What a connection for the events gives. -/
structure Listening where
  events : List JsonValue
  received : List UInt8
  ending : Ending

/-- The inner loop of `listen_events`, once it has subscribed. -/
def listen (loads : List UInt8 → Except String JsonValue) (buffer : List UInt8) : List Recv → Listening
  | [] => ⟨[], [], .waiting⟩
  | .failed _ :: _ | .bytes [] :: _ => ⟨[], [], .lost⟩
  | .bytes chunk :: recvs =>
    let chunk := chunk.take 65536
    let (lines, rest) := Lines.split newline (buffer ++ chunk)
    match takeLines loads lines with
    | (events, some ending) => ⟨events, chunk, ending⟩
    | (events, none) =>
      let later := listen loads rest recvs
      ⟨events ++ later.events, chunk ++ later.received, later.ending⟩

/-- What `listen_events` sends. -/
def subscribeMessage : JsonValue :=
  .obj [("type", .str "request"), ("id", .int 0), ("command", .str "subscribe"), ("args", .arr [])]

/-- One turn of the outer loop of `listen_events`, with what passed on its connection. -/
def listenOnce (loads : List UInt8 → Except String JsonValue) (connection : Connection) : Listening × Exchange :=
  if !connection.connected then (⟨[], [], .lost⟩, ⟨[], []⟩)
  else
    let message := encode subscribeMessage ++ [newline]
    match connection.sendFails with
    | some count => (⟨[], [], .lost⟩, ⟨message.take count, []⟩)
    | none =>
      let listening := listen loads [] connection.recvs
      (listening, ⟨message, listening.received⟩)

/-! ### What is sent and read -/

section Streams

variable {py : PyValues} {loads : List UInt8 → Except String JsonValue} {message data received buffer : List UInt8}

theorem requestMessage_printable (id : Nat) (command : String) (value : Option String) :
    PyJson.Printable (PyJson.dumpValue (requestMessage id command value)) := by
  have hid : PyJson.Printable (Int.repr id).toList := PyJson.natToString_printable id
  have hargs : PyJson.Printable (PyJson.dumpItems true (value.toList.map .str)) := by
    cases value with
    | none => exact PyJson.printable_nil
    | some text =>
      simp [PyJson.dumpItems, PyJson.separate, PyJson.dumpValue, PyJson.dumpText_printable]
  simp [requestMessage, PyJson.dumpValue, PyJson.dumpFields, PyJson.separate, PyJson.dumpText_printable, hid, hargs]

/-- A text of printable characters is one line. -/
theorem newline_not_mem_octets {text : String} (h : PyJson.Printable text.toList) : newline ∉ octets text := by
  intro hmem
  obtain ⟨c, hc, heq⟩ := List.mem_map.mp hmem
  have hlow : 32 ≤ c.toNat := (h c hc).1
  have hhigh : c.toNat ≤ 126 := (h c hc).2
  have hval : c.toNat % 256 = 10 := congrArg UInt8.toNat heq
  omega

theorem newline_not_mem_encode (id : Nat) (command : String) (value : Option String) :
    newline ∉ encode (requestMessage id command value) := by
  refine newline_not_mem_octets ?_
  rw [PyJson.dumps, String.toList_ofList]
  exact requestMessage_printable id command value

/-- The text of a `dict` ends with its brace. -/
theorem getLast_encode (fields : List (String × JsonValue)) : (encode (.obj fields)).getLast? = some 0x7D := by
  unfold encode octets PyJson.dumps
  rw [String.toList_ofList, PyJson.dumpValue, List.map_cons, List.map_append, List.getLast?_cons, List.getLast?_append]
  rfl

/-- What was received ends with a newline, or there is no response. -/
theorem receiveLine_spec (recvs : List Recv) : (receiveLine data recvs).1 = .ok message →
    (receiveLine data recvs).2 = message ∧ message.getLast? = some newline := by
  fun_induction receiveLine data recvs with
  | case1 | case2 | case3 => exact fun h => by cases h
  | case4 data chunk recvs hchunk later hlast =>
    intro h
    obtain rfl := Except.ok.inj h
    exact ⟨rfl, hlast⟩
  | case5 data chunk recvs hchunk later hlast ih => exact ih

/-- What was sent is the beginning of the message; of a response, there is all that was received. -/
theorem exchange_spec (message : List UInt8) (connection : Connection) :
    (exchange message connection).2.sent <+: message ∧ ∀ data, (exchange message connection).1 = .ok data →
      (exchange message connection).2.received = data ∧ data.getLast? = some newline := by
  unfold exchange
  split
  · exact ⟨List.nil_prefix, fun data h => by cases h⟩
  split
  · exact ⟨List.take_prefix _ _, fun data h => by cases h⟩
  · exact ⟨List.prefix_rfl, fun data h => receiveLine_spec connection.recvs h⟩

theorem takeLines_append (lines more : List (List UInt8)) : takeLines loads (lines ++ more) =
    match takeLines loads lines with
    | (events, some ending) => (events, some ending)
    | (events, none) => (events ++ (takeLines loads more).1, (takeLines loads more).2) := by
  induction lines with
  | nil => rfl
  | cons line lines ih =>
    rw [List.cons_append, takeLines, takeLines, ih]
    cases loads line with
    | error _ => rfl
    | ok message =>
      cases message with
      | obj fields =>
        rcases takeLines loads lines with ⟨events, _ | ending⟩
        · by_cases hevent : isEvent (.obj fields) = true <;> simp [hevent]
        · rfl
      | _ => rfl

/-- **What is queued does not depend on how the bytes come**; and the connection ends by itself only if
a line is not read. -/
theorem listen_spec (recvs : List Recv) : newline ∉ buffer →
    (takeLines loads (Lines.split newline (buffer ++ (listen loads buffer recvs).received)).1).1 =
        (listen loads buffer recvs).events ∧
      ((takeLines loads (Lines.split newline (buffer ++ (listen loads buffer recvs).received)).1).2 = none →
        (listen loads buffer recvs).ending = .lost ∨ (listen loads buffer recvs).ending = .waiting) := by
  fun_induction listen loads buffer recvs with
  | case1 buffer =>
    intro hbuffer
    simp [Lines.split_of_not_mem hbuffer, takeLines]
  | case2 buffer | case3 buffer =>
    intro hbuffer
    simp [Lines.split_of_not_mem hbuffer, takeLines]
  | case4 buffer piece recvs _ chunk lines rest hsplit events ending htake =>
    intro _
    rw [hsplit, htake]
    exact ⟨rfl, fun h => by cases h⟩
  | case5 buffer piece recvs _ chunk lines rest hsplit events htake later ih =>
    intro _
    have hrest : rest = (Lines.split newline (buffer ++ chunk)).2 := by rw [hsplit]
    obtain ⟨hevents, hending⟩ := ih (hrest ▸ Lines.split_tail _)
    show (takeLines loads (Lines.split newline (buffer ++ (chunk ++ later.received))).1).1 = events ++ later.events ∧ _
    rw [← List.append_assoc, Lines.split_append, hsplit, takeLines_append, htake]
    exact ⟨congrArg (events ++ ·) hevents, hending⟩

/-- Some values, each printed on a line that is read back. -/
theorem takeLines_values {print : JsonValue → List UInt8} {values : List JsonValue}
    (hvalues : ∀ v ∈ values, loads (print v) = .ok v ∧ ∃ fields, v = .obj fields) :
    takeLines loads (values.map print) = (values.filter isEvent, none) := by
  induction values with
  | nil => rfl
  | cons v values ih =>
    obtain ⟨⟨hloads, fields, rfl⟩, hrest⟩ := List.forall_mem_cons.mp hvalues
    rw [List.map_cons, takeLines, hloads, List.filter_cons]
    dsimp only
    rw [ih hrest]

theorem listenOnce_spec (connection : Connection) :
    (listenOnce loads connection).2.sent <+: encode subscribeMessage ++ [newline] ∧
      (takeLines loads (Lines.split newline (listenOnce loads connection).2.received).1).1 =
        (listenOnce loads connection).1.events ∧
      ((takeLines loads (Lines.split newline (listenOnce loads connection).2.received).1).2 = none →
        (listenOnce loads connection).1.ending = .lost ∨ (listenOnce loads connection).1.ending = .waiting) := by
  unfold listenOnce
  split
  · exact ⟨List.nil_prefix, rfl, fun _ => .inl rfl⟩
  dsimp only
  split
  · exact ⟨List.take_prefix _ _, rfl, fun _ => .inl rfl⟩
  · exact ⟨List.prefix_rfl, listen_spec connection.recvs List.not_mem_nil⟩

end Streams

/-! ### With the server at the other end -/

/-- What each side has received on a connection is the beginning of what the other has sent, and the
bridge reads back what the server has queued for it. -/
structure Served (json : JsonC) (loads : List UInt8 → Except String JsonValue) (l : Liaison) (passed : Exchange) :
    Prop where
  requests : l.received <+: passed.sent
  responses : passed.received <+: l.sent
  readable : ∀ v ∈ l.queued, loads (json.print v) = .ok v ∧ loads (json.print v ++ [newline]) = .ok v

/-- What a request gives, from what the service answers. -/
def ofAnswer : Except IpcError JsonValue → Except PyError JsonValue
  | .ok .null => .ok (.obj [])
  | .ok result => .ok result
  | .error e => .error (.serviceError e.code e.message)

section Service

variable {σ : Type} {json : JsonC} {app : Application σ} {context : σ} {noyau : Noyau} {turns : Nat} {slot : Slot}
  {py : PyValues} {loads : List UInt8 → Except String JsonValue} {command : String} {value : Option String}

/-- What the bridge reads in a response is the answer. -/
theorem readResponse_answer (py : PyValues) (request : Option JsonValue) (answer : Except IpcError JsonValue) :
    readResponse py (ipcProtocolResponse request answer) = ofAnswer answer := by
  cases answer with
  | error e => rfl
  | ok result => cases result <;> rfl

theorem ofAnswer_reported {answer : Except IpcError JsonValue} {e : PyError} (h : ofAnswer answer = .error e) :
    Reported e := by
  cases answer with
  | error error =>
    obtain rfl := Except.error.inj h
    trivial
  | ok result => cases result <;> cases h

/-- The server reads the request that was sent. -/
theorem lireMessage_request {id : Nat}
    (hread : json.parse (encode (requestMessage id command value)) = some (requestMessage id command value)) :
    lireMessage json (sansRetour (encode (requestMessage id command value))) =
      (some (requestMessage id command value), lireEnveloppe (requestMessage id command value)) :=
  lireMessage_objet (getLast_encode _) hread

/-- A request that does not subscribe is no subscription for the server. -/
theorem demandeAbonnement_request {id : Nat} (hcommand : Text.cString command ≠ "subscribe")
    (hread : json.parse (encode (requestMessage id command value)) = some (requestMessage id command value)) :
    demandeAbonnement json (encode (requestMessage id command value)) = false := by
  have htype : Text.cString "request" = "request" := by decide
  unfold demandeAbonnement
  rw [lireMessage_request hread]
  simp only [lireEnveloppe, requestMessage, JsonValue.get?]
  by_cases hempty : command = "" <;> simp [hempty, hcommand, htype, Demande.abonne]

/-- **A request, from one end to the other.** The server has worked off the request once at most; and
what the bridge gets is that the service could not be reached, or the answer that the application
gave to this request in the state that it was in when the loop came to it. Nothing is raised but what
the bridge reports. -/
theorem request_answered (s : PyService) (hcommand : Text.cString command ≠ "subscribe")
    (hread : json.parse (encode (requestMessage (s.nextId + 1) command value)) =
      some (requestMessage (s.nextId + 1) command value))
    {passed : Exchange} (hpassed : (request py loads command value s).2.exchanges = s.exchanges ++ [passed])
    (hserved : Served json loads (liaisonApres json app context noyau turns slot) passed) :
    ((liaisonApres json app context noyau turns slot).lines = [] ∨
        (liaisonApres json app context noyau turns slot).lines =
          [encode (requestMessage (s.nextId + 1) command value)]) ∧
      ((∃ message, (request py loads command value s).1 = .error (.osError message)) ∨
        ∃ response server,
          Traitee json app (ipcServerInit context noyau) turns slot
            (encode (requestMessage (s.nextId + 1) command value)) response server ∧
          (request py loads command value s).1 =
            ofAnswer (repondre app server.context (lireEnveloppe (requestMessage (s.nextId + 1) command value))).1) ∧
      ∀ e, (request py loads command value s).1 = .error e → Reported e := by
  have htient : Tient json (liaisonApres json app context noyau turns slot) := liaisonApres_tient
  have hline := newline_not_mem_encode (s.nextId + 1) command value
  have hnot := demandeAbonnement_request hcommand hread
  have hmessage := lireMessage_request hread
  unfold request at hpassed ⊢
  dsimp only at hpassed ⊢
  generalize requestMessage (s.nextId + 1) command value = message at *
  generalize s.connections.headD ⟨false, none, []⟩ = connection at *
  obtain ⟨hsent, hreceived⟩ := exchange_spec (encode message ++ [newline]) connection
  rcases hexchange : exchange (encode message ++ [newline]) connection with ⟨data, passed'⟩
  rw [hexchange] at hpassed hsent hreceived
  obtain rfl : passed' = passed := by simpa using hpassed
  have hone := une_ligne_seule htient hline (hserved.requests.trans hsent) hnot
  refine ⟨hone.imp And.left And.left, ?_⟩
  cases data with
  | error reason =>
    refine ⟨.inl ⟨reason, rfl⟩, fun e he => ?_⟩
    obtain rfl := Except.error.inj he
    trivial
  | ok data =>
    obtain ⟨hdata, hlast⟩ := hreceived data rfl
    dsimp only at hdata
    subst hdata
    have hbegin := hserved.responses.trans htient.sent
    rcases hone with ⟨-, hempty⟩ | ⟨-, before, response, after, hjournal, hqueued⟩
    · -- nothing was sent to the bridge
      rw [show (liaisonApres json app context noyau turns slot).queued = [] from hempty] at hbegin
      rw [List.prefix_nil.mp hbegin] at hlast
      cases hlast
    · -- all of the response was received
      replace hqueued : (liaisonApres json app context noyau turns slot).queued = [response] := hqueued
      obtain ⟨server, hworked, -⟩ := ipcServerRun_traitee (ipcServerInit context noyau) rfl hjournal
      rw [hqueued, List.map_singleton, Lines.join_cons, Lines.join_nil] at hbegin
      have hall := Lines.eq_of_prefix_line hbegin (json.print_line response) hlast
      obtain ⟨-, hloads⟩ := hserved.readable response (by rw [hqueued]; exact List.mem_singleton.mpr rfl)
      have hanswered : readResponse py response = ofAnswer (repondre app server.context (lireEnveloppe message)).1 := by
        rw [hworked.reponse, reponseA, hmessage]
        exact readResponse_answer py _ _
      rw [hall]
      dsimp only
      rw [hloads]
      dsimp only
      rw [hanswered]
      exact ⟨.inr ⟨response, server, hworked, rfl⟩, fun e he => ofAnswer_reported he⟩

end Service

/-! ### A bridge that reads what was queued -/

/-- Reads back the values printed on a line, with or without its newline. -/
def readerOf (json : JsonC) (values : List JsonValue) (line : List UInt8) : Except String JsonValue :=
  let line := if line.getLast? = some newline then line.dropLast else line
  match values.find? fun v => json.print v = line with
  | some v => .ok v
  | none => .error "Expecting value"

theorem readerOf_readable {json : JsonC} {values : List JsonValue} (hnodup : (values.map json.print).Nodup) :
    ∀ v ∈ values, readerOf json values (json.print v) = .ok v ∧
      readerOf json values (json.print v ++ [newline]) = .ok v := by
  intro v hv
  have hfind : values.find? (fun v' => json.print v' = json.print v) = some v := by
    cases h : values.find? fun v' => json.print v' = json.print v with
    | none => simpa using List.find?_eq_none.mp h v hv
    | some found =>
      have hprint : json.print found = json.print v := by simpa using List.find?_some h
      exact congrArg some (List.inj_on_of_nodup_map hnodup (List.mem_of_find?_eq_some h) hv hprint)
  have hlast : (json.print v).getLast? ≠ some newline := fun h => json.print_line v (List.mem_of_getLast? h)
  constructor
  · unfold readerOf
    rw [if_neg hlast]
    dsimp only
    rw [hfind]
  · unfold readerOf
    rw [List.getLast?_concat, if_pos rfl, List.dropLast_concat]
    dsimp only
    rw [hfind]

/-- json-c, on what the bridge sends; what it prints is abridged. -/
def jsonPont : JsonC where
  parse message :=
    if message = encode (requestMessage 1 "status" none) then some (requestMessage 1 "status" none)
    else if message = encode subscribeMessage then some subscribeMessage
    else none
  print value :=
    if isEvent value then octets "\x7b\"type\":\"event\"\x7d" else octets "\x7b\"type\":\"response\"\x7d"
  print_line value := by
    split <;> decide

/-- The kernel, for a client that sends one line and reads what it is sent. -/
def noyauPont (line : List UInt8) : Noyau where
  signals := []
  allocations := [true]
  polls :=
    let lisible := fun _ => ⟨true, false, false, false, false⟩
    let inscriptible := fun _ => ⟨false, true, false, false, false⟩
    [.ready true lisible, .ready false lisible, .ready false inscriptible, .ready false inscriptible,
      .ready false inscriptible]
  accepts := [.connection 5 true]
  recvs := [.bytes (line ++ [newline])]
  sends := [.wrote 5, .wrote 100, .wrote 100]

/-- What the service has queued for that client, while the AML rings. -/
def liaisonPont (line : List UInt8) : Liaison :=
  liaisonApres jsonPont (serviceApplication sansTexte) (serviceInit amlScripted mondeSonnerie) (noyauPont line) 5
    ⟨0, by decide⟩

/-- The request for the status. -/
def demandeStatut : List UInt8 := encode (requestMessage 1 "status" none)

/-- The response comes in two pieces. -/
def pontStatut : PyService where
  nextId := 0
  connections := [⟨true, none, [.bytes ((liaisonPont demandeStatut).sent.take 4),
    .bytes ((liaisonPont demandeStatut).sent.drop 4)]⟩]
  exchanges := []

/-- Neither comparisons nor clocks. -/
def sansPython : PyValues := ⟨fun _ => "", fun _ _ => .error .typeError, fun _ _ => .ok ""⟩

/-- What the bridge gets there. -/
def statutRecu : Except PyError JsonValue × PyService :=
  request sansPython (readerOf jsonPont (liaisonPont demandeStatut).queued) "status" none pontStatut

theorem request_answered_status : statutRecu.1.isOk = true ∧ ∃ response server,
    Traitee jsonPont (serviceApplication sansTexte) (serviceStart amlScripted mondeSonnerie (noyauPont demandeStatut)) 5
        ⟨0, by decide⟩ demandeStatut response server ∧
      statutRecu.1 = ofAnswer (repondre (serviceApplication sansTexte) server.context
        (lireEnveloppe (requestMessage 1 "status" none))).1 := by
  have hok : statutRecu.1.isOk = true := by decide +kernel
  have hserved : Served jsonPont (readerOf jsonPont (liaisonPont demandeStatut).queued) (liaisonPont demandeStatut)
      ⟨demandeStatut ++ [newline], (liaisonPont demandeStatut).sent⟩ :=
    ⟨by decide +kernel, List.prefix_rfl, readerOf_readable (by decide +kernel)⟩
  have hpassed : statutRecu.2.exchanges = [] ++ [⟨demandeStatut ++ [newline], (liaisonPont demandeStatut).sent⟩] := by
    decide +kernel
  have hread : jsonPont.parse demandeStatut = some (requestMessage 1 "status" none) := by
    simp [jsonPont, demandeStatut]
  obtain ⟨-, hanswer, -⟩ := request_answered pontStatut (by decide) hread hpassed hserved
  refine ⟨hok, hanswer.resolve_left ?_⟩
  intro hfailed
  obtain ⟨message, hmessage⟩ := hfailed
  rw [show statutRecu.1 = _ from hmessage] at hok
  cases hok

/-! ### The events of the service -/

section Events

variable {json : JsonC} {textes : Textes} {device : AmlConfig} {world : World} {noyau : Noyau} {turns : Nat}
  {slot : Slot} {loads : List UInt8 → Except String JsonValue}

/-- What the service broadcasts are events. -/
theorem diffuses_events : ToutDiffuse (fun event => isEvent event = true ∧ ∃ fields, event = .obj fields)
    (serviceRun json textes device world noyau turns) := by
  refine ipcServerRun_broadcasts rfl (fun task context htask event hevent => ?_) turns
  obtain rfl := Option.some.inj htask
  obtain ⟨o, -, ho⟩ := List.mem_filterMap.mp hevent
  cases o with
  | broadcast name data =>
    obtain rfl := Option.some.inj ho
    exact ⟨rfl, _, rfl⟩
  | _ => cases ho

theorem demandeAbonnement_subscribe (hread : json.parse (encode subscribeMessage) = some subscribeMessage) :
    demandeAbonnement json (encode subscribeMessage) = true := by
  unfold demandeAbonnement
  rw [show lireMessage json (sansRetour (encode subscribeMessage)) = (some subscribeMessage,
    lireEnveloppe subscribeMessage) from lireMessage_objet (getLast_encode _) hread]
  decide +kernel

/-- A response is read, and it is no event. -/
theorem isEvent_response (request : Option JsonValue) (answer : Except IpcError JsonValue) :
    isEvent (ipcProtocolResponse request answer) = false ∧
      ∃ fields, ipcProtocolResponse request answer = .obj fields := by
  cases answer <;> exact ⟨rfl, _, rfl⟩

/-- **The events, from one end to the other.** The thread that listens never raises anything, but for a
connection that is lost; and unless nothing is queued, the subscription was worked off, and the
events queued are the first of those broadcast since then, in their order. They are all of them,
if all that was queued for the bridge was received. -/
theorem listen_follows (hread : json.parse (encode subscribeMessage) = some subscribeMessage)
    {connection : Connection}
    (hserved : Served json loads
      (liaisonApres json (serviceApplication textes) (serviceInit device world) noyau turns slot)
      (listenOnce loads connection).2) :
    ((listenOnce loads connection).1.ending = .lost ∨ (listenOnce loads connection).1.ending = .waiting) ∧
      ((listenOnce loads connection).1.events = [] ∨ ∃ before response after,
        (serviceRun json textes device world noyau turns).journal =
            before ++ .processed slot (encode subscribeMessage) response :: after ∧
          (listenOnce loads connection).1.events <+: diffuses after ∧
          ((listenOnce loads connection).2.received = Lines.join newline
              ((liaisonApres json (serviceApplication textes) (serviceInit device world) noyau turns slot).queued.map
                json.print) →
            (listenOnce loads connection).1.events = diffuses after)) := by
  have htient : Tient json
      (liaisonApres json (serviceApplication textes) (serviceInit device world) noyau turns slot) :=
    liaisonApres_tient
  have hbroadcast := @diffuses_events json textes device world noyau turns
  obtain ⟨hsent, hevents, hending⟩ := @listenOnce_spec loads connection
  have hline : newline ∉ encode subscribeMessage := newline_not_mem_encode 0 "subscribe" none
  obtain ⟨values, hvalues, hlines, hcomplete⟩ := htient.recues hserved.responses
  rw [hlines] at hevents hending
  rcases une_ligne htient hline (hserved.requests.trans hsent) with
    ⟨-, hempty⟩ | ⟨hone, -⟩
  · rw [show (liaisonApres json (serviceApplication textes) (serviceInit device world) noyau turns slot).queued = []
      from hempty] at hvalues
    rw [List.prefix_nil.mp hvalues] at hevents hending
    exact ⟨hending rfl, .inl hevents.symm⟩
  obtain ⟨-, before, response, after, hjournal, hqueued⟩ :=
    liaison_abonnee (demandeAbonnement_subscribe hread) _ hone
  replace hqueued : (liaisonApres json (serviceApplication textes) (serviceInit device world) noyau turns slot).queued =
    response :: diffuses after := hqueued
  obtain ⟨server, hworked, -⟩ := ipcServerRun_traitee (serviceStart device world noyau) rfl hjournal
  obtain ⟨hnot, hfields⟩ := isEvent_response (lireMessage json (sansRetour (encode subscribeMessage))).1
    (repondre (serviceApplication textes) server.context (lireMessage json (sansRetour (encode subscribeMessage))).2).1
  have hanswer := hworked.reponse
  have hafter : ∀ event ∈ diffuses after, isEvent event = true ∧ ∃ fields, event = .obj fields := by
    intro event hevent
    refine hbroadcast event ?_
    rw [show (serviceRun json textes device world noyau turns).journal = _ from hjournal, diffuses_append]
    exact List.mem_append_right _ hevent
  -- of what is queued, the events are those broadcast since
  have hfilter : (response :: diffuses after).filter isEvent = diffuses after := by
    rw [hanswer, List.filter_cons_of_neg (by rw [reponseA, hnot]; simp)]
    exact List.filter_eq_self.mpr fun event hevent => (hafter event hevent).1
  rw [hqueued] at hvalues hcomplete ⊢
  have hreads : takeLines loads (values.map json.print) = (values.filter isEvent, none) := by
    refine takeLines_values fun v hv => ?_
    have hmem := hvalues.subset hv
    refine ⟨(hserved.readable v (hqueued ▸ hmem)).1, ?_⟩
    rcases List.mem_cons.mp hmem with rfl | hmem
    · rw [hanswer]
      exact hfields
    · exact (hafter v hmem).2
  rw [hreads] at hevents hending
  refine ⟨hending rfl, .inr ⟨before, response, after, hjournal, ?_, fun hall => ?_⟩⟩
  · rw [← hevents, ← hfilter]
    exact hvalues.filter _
  · rw [← hevents, hcomplete hall, hfilter]

end Events

/-- What the thread that listens gets there. -/
def evenementsRecus : Listening × Exchange :=
  listenOnce (readerOf jsonPont (liaisonPont (encode subscribeMessage)).queued)
    ⟨true, none, [.bytes ((liaisonPont (encode subscribeMessage)).sent.take 30),
      .bytes ((liaisonPont (encode subscribeMessage)).sent.drop 30)]⟩

theorem listen_follows_sonnerie : evenementsRecus.1.events.length = 1 ∧ ∃ before response after,
    (serviceRun jsonPont sansTexte amlScripted mondeSonnerie (noyauPont (encode subscribeMessage)) 5).journal =
        before ++ .processed 0 (encode subscribeMessage) response :: after ∧
      evenementsRecus.1.events <+: diffuses after := by
  have hlength : evenementsRecus.1.events.length = 1 := by decide +kernel
  have hread : jsonPont.parse (encode subscribeMessage) = some subscribeMessage := by
    have hne : encode subscribeMessage ≠ encode (requestMessage 1 "status" none) := by decide +kernel
    simp [jsonPont, hne]
  have hserved : Served jsonPont (readerOf jsonPont (liaisonPont (encode subscribeMessage)).queued)
      (liaisonPont (encode subscribeMessage)) evenementsRecus.2 :=
    ⟨by decide +kernel, by decide +kernel, readerOf_readable (by decide +kernel)⟩
  obtain ⟨-, hevents⟩ := listen_follows hread hserved
  rcases hevents with hnone | ⟨before, response, after, hjournal, hbegin, -⟩
  · rw [show evenementsRecus.1.events = [] from hnone] at hlength
    cases hlength
  · exact ⟨hlength, before, response, after, hjournal, hbegin⟩

end PyService

end AmlService
