import AmlService.Ipc.Annales
import AmlService.Ipc.LongLines
import AmlService.Lib.LineReader

/-!
# AmlService.Ipc.Ctl

The terminal client (`app/ctl.c`), and what it comes to with the server at the other end of its
socket. One command is sent, one line is read; or the events are followed until the connection
is lost.

The two programs are joined by what a stream socket promises, both ways: what one has received is
the beginning of what the other has sent. `json_tokener_parse`, on a line up to its first null
byte, is a parameter of the client (`lire`).
-/

namespace AmlService

open Effect

namespace Ctl

/-- The bytes of `line` and of `buffer` in `ctl.c`. -/
abbrev capacity : Nat := 256 * 1024

/-- What one `recv` gives to the client; no byte at all is the end of the stream, and a failure may
be the end of the waiting. -/
inductive Recv
  | bytes (chunk : List UInt8)
  | interrupted
  | failed
  deriving Repr, DecidableEq

/-- `envoyer_tout`: whether all was sent, and what was. -/
def envoyerTout : List UInt8 → List IpcSend → Bool × List UInt8
  | [], _ => (true, [])
  | text, .interrupted :: sends => envoyerTout text sends
  | text, .wrote (count + 1) :: sends =>
    let (all, sent) := envoyerTout (text.drop (count + 1)) sends
    (all, text.take (count + 1) ++ sent)
  | _, _ => (false, [])

/-- `lire_ligne`, with what is in its buffer: the line, if there is one, and all that was
received. -/
def lireLigne (capacity : Nat) (buffer : List UInt8) : List Recv → Option (List UInt8) × List UInt8
  | [] => (none, buffer)
  | outcome :: recvs =>
    if buffer.length + 1 < capacity then
      match outcome with
      | .interrupted => lireLigne capacity buffer recvs
      | .failed | .bytes [] => (none, buffer)
      | .bytes chunk =>
        let buffer := buffer ++ chunk.take (capacity - 1 - buffer.length)
        match Lines.cut newline buffer with
        | some (line, _) => (some line, buffer)
        | none => lireLigne capacity buffer recvs
    else (none, buffer)

/-- How the events come to their end; or they are still waited for. -/
inductive FinSuivi
  | perdue
  | tropLong
  | attente
  deriving Repr, DecidableEq

/-- What `suivre_evenements` has shown (`event` and `data`), received, and how it ended. -/
structure Suivi where
  affiches : List (Option JsonValue × Option JsonValue)
  recus : List UInt8
  fin : FinSuivi

/-- What is shown of a message: its name and its data, if it is an event. -/
def afficher (message : Option JsonValue) : Option (Option JsonValue × Option JsonValue) :=
  match message with
  | none => none
  | some message =>
    match message.get? "type" with
    | some (.str type) =>
      if Text.cString type = "event" then some (message.get? "event", message.get? "data") else none
    | _ => none

/-- `suivre_evenements`, once it has subscribed. -/
def suivre (lire : List UInt8 → Option JsonValue) (capacity : Nat) (buffer : List UInt8) : List Recv → Suivi
  | [] => ⟨[], [], .attente⟩
  | .interrupted :: recvs => suivre lire capacity buffer recvs
  | .failed :: _ | .bytes [] :: _ => ⟨[], [], .perdue⟩
  | .bytes chunk :: recvs =>
    let chunk := chunk.take (capacity - 1 - buffer.length)
    let (lines, rest) := Lines.split newline (buffer ++ chunk)
    let affiches := lines.filterMap fun line => afficher (lire line)
    if rest.length ≥ capacity - 1 then ⟨affiches, chunk, .tropLong⟩
    else
      let suite := suivre lire capacity rest recvs
      ⟨affiches ++ suite.affiches, chunk ++ suite.recus, suite.fin⟩

/-- The request for a command and its value. -/
def requete (command : String) (value : Option String) : JsonValue :=
  .obj [("type", .str "request"), ("id", .int 1), ("command", .str command),
    ("args", .arr (value.toList.map .str))]

/-- The request of `suivre_evenements`. -/
def abonnement : List UInt8 :=
  octets "\x7b\"type\":\"request\",\"id\":1,\"command\":\"subscribe\",\"args\":[]\x7d"

/-- `json_object_get_boolean` -/
def jsonBoolean : JsonValue → Bool
  | .bool b => b
  | .int n => n != 0
  | .number text => !Text.isZero text.toList
  | .str s => s != ""
  | _ => false

/-- What the program shows. -/
inductive Sortie
  | usage
  | injoignable
  | tropLong
  | sansReponse
  | illisible (line : List UInt8)
  | resultat (result : Option JsonValue)
  | erreur (code message : Option JsonValue)
  | suivi (suivi : Suivi)

/-- The exit code. -/
def Sortie.code : Sortie → Nat
  | .resultat _ => 0
  | .illisible _ | .erreur _ _ => 1
  | _ => 2

/-- What the socket will do. -/
structure Socket where
  connected : Bool
  sends : List IpcSend
  recvs : List Recv

/-- What the program has done: what it shows, what it has sent and received. -/
structure Fin where
  sortie : Sortie
  sent : List UInt8
  received : List UInt8

/-- What is shown of a response. -/
def montrer (lire : List UInt8 → Option JsonValue) (line : List UInt8) : Sortie :=
  match lire line with
  | none => .illisible line
  | some response =>
    match response.get? "ok" with
    | none => .illisible line
    | some ok =>
      if jsonBoolean ok then .resultat (response.get? "result")
      else
        let error := response.get? "error"
        .erreur (error.bind (·.get? "code")) (error.bind (·.get? "message"))

/-- A command: it is sent, and its response is read. -/
def executer (json : JsonC) (lire : List UInt8 → Option JsonValue) (command : String) (value : Option String)
    (socket : Socket) : Fin :=
  match ctlMessage (json.print (requete command value)) with
  | none => ⟨.tropLong, [], []⟩
  | some message =>
    if !socket.connected then ⟨.injoignable, [], []⟩
    else
      let (all, sent) := envoyerTout message socket.sends
      if !all then ⟨.sansReponse, sent, []⟩
      else
        match lireLigne capacity [] socket.recvs with
        | (none, received) => ⟨.sansReponse, sent, received⟩
        | (some line, received) => ⟨montrer lire line, sent, received⟩

/-- The events. -/
def evenements (lire : List UInt8 → Option JsonValue) (socket : Socket) : Fin :=
  if !socket.connected then ⟨.injoignable, [], []⟩
  else
    let (all, sent) := envoyerTout (abonnement ++ [newline]) socket.sends
    if !all then ⟨.sansReponse, sent, []⟩
    else
      let suivi := suivre lire capacity [] socket.recvs
      ⟨.suivi suivi, sent, suivi.recus⟩

/-- `main`, with the arguments that follow the name of the program. -/
def main (json : JsonC) (lire : List UInt8 → Option JsonValue) (args : List String) (socket : Socket) : Fin :=
  match args with
  | command :: rest =>
    if rest.length > 1 || command = "-h" || command = "--help" then ⟨.usage, [], []⟩
    else if rest = [] ∧ command = "events" then evenements lire socket
    else executer json lire command rest.head? socket
  | [] => ⟨.usage, [], []⟩

/-! ### What is sent and read -/

section Streams

variable {text buffer line received : List UInt8} {lire : List UInt8 → Option JsonValue}

/-- What was sent is the beginning of the text, and all of it if nothing failed. -/
theorem envoyerTout_spec (text : List UInt8) (sends : List IpcSend) :
    (envoyerTout text sends).2 <+: text ∧ ((envoyerTout text sends).1 = true → (envoyerTout text sends).2 = text) := by
  fun_induction envoyerTout text sends with
  | case1 => exact ⟨List.prefix_rfl, fun _ => rfl⟩
  | case2 text sends _ ih => exact ih
  | case3 text count sends _ all sent hrest ih =>
    rw [hrest] at ih
    obtain ⟨hbegin, hall⟩ := ih
    constructor
    · obtain ⟨rest, hrest⟩ := hbegin
      refine ⟨rest, ?_⟩
      rw [List.append_assoc, hrest, List.take_append_drop]
    · intro h
      show text.take (count + 1) ++ sent = text
      rw [show sent = text.drop (count + 1) from hall h, List.take_append_drop]
  | case4 => exact ⟨List.nil_prefix, nofun⟩

/-- The line read is the first one of what was received. -/
theorem lireLigne_spec {capacity : Nat} {recvs : List Recv}
    (h : lireLigne capacity buffer recvs = (some line, received)) :
    ∃ rest, Lines.cut newline received = some (line, rest) := by
  induction recvs generalizing buffer with
  | nil => cases h
  | cons outcome recvs ih =>
    unfold lireLigne at h
    split at h
    swap
    · cases h
    split at h
    · exact ih h
    · cases h
    · cases h
    · dsimp only at h
      split at h
      · next rest hcut =>
        obtain ⟨hline, rfl⟩ := Prod.mk.inj h
        obtain rfl := Option.some.inj hline
        exact ⟨_, hcut⟩
      · exact ih h

/-- **The events do not depend on how the bytes come**: what is shown are the events among the lines
received. -/
theorem suivre_spec (capacity : Nat) (recvs : List Recv) : newline ∉ buffer →
    (suivre lire capacity buffer recvs).affiches =
      (Lines.split newline (buffer ++ (suivre lire capacity buffer recvs).recus)).1.filterMap
        fun line => afficher (lire line) := by
  fun_induction suivre lire capacity buffer recvs with
  | case1 buffer =>
    intro hbuffer
    simp [Lines.split_of_not_mem hbuffer]
  | case2 buffer recvs ih => exact ih
  | case3 buffer | case4 buffer =>
    intro hbuffer
    simp [Lines.split_of_not_mem hbuffer]
  | case5 buffer piece recvs _ chunk lines rest hsplit affiches hlong =>
    intro _
    show affiches = _
    rw [hsplit]
  | case6 buffer piece recvs _ chunk lines rest hsplit affiches hshort suite ih =>
    intro _
    have hrest : rest = (Lines.split newline (buffer ++ chunk)).2 := by rw [hsplit]
    have hnone : newline ∉ rest := hrest ▸ Lines.split_tail _
    show affiches ++ suite.affiches = (Lines.split newline (buffer ++ (chunk ++ suite.recus))).1.filterMap _
    rw [← List.append_assoc, Lines.split_append, hsplit, List.filterMap_append, ← ih hnone]

end Streams

/-! ### With the server at the other end -/

/-- json-c reads back what it has printed, an object. -/
structure Relit (json : JsonC) (value : JsonValue) : Prop where
  fin : (json.print value).getLast? = some 0x7D
  relit : json.parse (json.print value) = some value

/-- What is shown of an answer of the application. -/
def Sortie.de : Except IpcError JsonValue → Sortie
  | .ok result => .resultat (some (match result with
      | .null => .obj []
      | value => value))
  | .error e => .erreur (some (.str e.code)) (some (.str e.message))

section Service

variable {σ : Type} {json : JsonC} {app : Application σ} {start : σ} {slot : Slot} {l : Liaison}
  {lire : List UInt8 → Option JsonValue} {command : String} {value : Option String} {line : List UInt8}

/-- The request read by the server is the one that was sent. -/
theorem reponseA_requete (hrelit : Relit json (requete command value)) (context : σ) :
    reponseA json app context (json.print (requete command value)) =
      ipcProtocolResponse (some (requete command value))
        (repondre app context (lireEnveloppe (requete command value))).1 := by
  have hread : lireMessage json (sansRetour (json.print (requete command value))) =
      (some (requete command value), lireEnveloppe (requete command value)) :=
    lireMessage_objet hrelit.fin hrelit.relit
  unfold reponseA
  rw [hread]

/-- What is shown of a response is the answer. -/
theorem montrer_reponse {request : Option JsonValue} {answer : Except IpcError JsonValue}
    (hlire : lire line = some (ipcProtocolResponse request answer)) : montrer lire line = .de answer := by
  unfold montrer
  rw [hlire]
  cases answer with
  | ok result => rfl
  | error e => rfl

/-- What was sent of a command is the beginning of its line. -/
theorem executer_sent (socket : Socket) :
    (executer json lire command value socket).sent <+: json.print (requete command value) ++ [newline] := by
  unfold executer
  split
  · exact List.nil_prefix
  next message hmessage =>
  have hline : message = json.print (requete command value) ++ [newline] := by
    unfold ctlMessage at hmessage
    dsimp only at hmessage
    split at hmessage
    · cases hmessage
    · exact (Option.some.inj hmessage).symm
  have hsent := (envoyerTout_spec message socket.sends).1
  rw [hline] at hsent
  rw [hline]
  split
  · exact List.nil_prefix
  dsimp only
  split
  · exact hsent
  split <;> exact hsent

/-- Either there is no response, or the line shown is the first one received. -/
theorem executer_cases (json : JsonC) (lire : List UInt8 → Option JsonValue) (command : String)
    (value : Option String) (socket : Socket) : (executer json lire command value socket).sortie.code = 2 ∨
      ∃ line rest, (executer json lire command value socket).sortie = montrer lire line ∧
        Lines.cut newline (executer json lire command value socket).received = some (line, rest) := by
  unfold executer
  split
  · exact .inl rfl
  split
  · exact .inl rfl
  dsimp only
  split
  · exact .inl rfl
  split
  · exact .inl rfl
  · next line received hread =>
    obtain ⟨rest, hcut⟩ := lireLigne_spec hread
    exact .inr ⟨line, rest, rfl, hcut⟩

variable {context : σ} {noyau : Noyau} {turns : Nat} {socket : Socket}

/-- **A command, from one end to the other.** The server has worked off no line of the client but its
request, once at most; and unless the program says that it got no response, the request was worked off,
and what the program shows is the answer that the application gave to it in the state that it was in
when the loop came to the request. -/
theorem executer_repond (hrelit : Relit json (requete command value))
    (hlire : ∀ v ∈ (liaisonApres json app context noyau turns slot).queued, lire (json.print v) = some v)
    (hin : (liaisonApres json app context noyau turns slot).received <+:
      (executer json lire command value socket).sent)
    (hout : (executer json lire command value socket).received <+:
      (liaisonApres json app context noyau turns slot).sent) :
    ((liaisonApres json app context noyau turns slot).lines = [] ∨
        (liaisonApres json app context noyau turns slot).lines = [json.print (requete command value)]) ∧
      ((executer json lire command value socket).sortie.code = 2 ∨ ∃ response server,
        Traitee json app (ipcServerInit context noyau) turns slot (json.print (requete command value)) response server ∧
        (executer json lire command value socket).sortie =
          .de (repondre app server.context (lireEnveloppe (requete command value))).1) := by
  have htient : Tient json (liaisonApres json app context noyau turns slot) := liaisonApres_tient
  have hone := une_ligne htient (json.print_line _) (hin.trans (executer_sent socket))
  refine ⟨hone.imp And.left And.left, ?_⟩
  refine (executer_cases json lire command value socket).imp_right fun hshown => ?_
  obtain ⟨line, rest, hsortie, hcut⟩ := hshown
  -- the line is the first one queued, which answers the request
  obtain ⟨others, hothers⟩ := Lines.cut_of_prefix (hout.trans htient.sent) (json.print_lines _) hcut
  rcases hone with ⟨-, hempty⟩ | ⟨-, before, response, after, more, hjournal, hqueued⟩
  · rw [show (liaisonApres json app context noyau turns slot).queued = [] from hempty] at hothers
    cases hothers
  · rw [show (liaisonApres json app context noyau turns slot).queued = response :: more from hqueued] at hothers hlire
    obtain ⟨rfl, -⟩ := List.cons.inj hothers
    obtain ⟨server, hworked, -⟩ := ipcServerRun_traitee (ipcServerInit context noyau) rfl hjournal
    refine ⟨response, server, hworked, hsortie.trans ?_⟩
    have hanswer := hworked.reponse
    rw [reponseA_requete hrelit] at hanswer
    exact montrer_reponse ((hlire response List.mem_cons_self).trans (congrArg some hanswer))

end Service

/-- A lamp that is on, behind one command. -/
def lampe : Application Unit where
  tick := none
  handler := some fun _ command _ =>
    (if command = "Light" then .ok (.obj [("enable", .bool true)]) else .error (some "UNKNOWN_COMMAND", none), ())

def requeteLampe : List UInt8 :=
  octets "\x7b\"type\":\"request\",\"id\":1,\"command\":\"Light\",\"args\":[]\x7d"

/-- json-c, on the request and its response. -/
def jsonLampe : JsonC where
  parse message := if message = requeteLampe then some (requete "Light" none) else none
  print value :=
    let text :=
      if (value.get? "command").isSome then requeteLampe
      else octets "\x7b\"type\":\"response\",\"id\":1,\"ok\":true,\"result\":\x7b\"enable\":true\x7d\x7d"
    text.filter (· ≠ newline)
  print_line := by simp

def reponseLampe : JsonValue :=
  ipcProtocolResponse (some (requete "Light" none)) (.ok (.obj [("enable", .bool true)]))

def lireLampe (line : List UInt8) : Option JsonValue :=
  if line = jsonLampe.print reponseLampe then some reponseLampe else none

/-- The kernel, for a client that sends its request and is answered. -/
def noyauLampe : Noyau where
  signals := []
  allocations := []
  polls :=
    let lisible := fun _ => ⟨true, false, false, false, false⟩
    let inscriptible := fun _ => ⟨false, true, false, false, false⟩
    [.ready true lisible, .ready false lisible, .ready false inscriptible, .ready false inscriptible]
  accepts := [.connection 5 true]
  recvs := [.bytes (jsonLampe.print (requete "Light" none) ++ [newline])]
  sends := [.wrote 100]

/-- The request goes out in two pieces, and the response comes in two. -/
def socketLampe : Socket where
  connected := true
  sends := [.wrote 10, .interrupted, .wrote 100]
  recvs := [.bytes ((jsonLampe.print reponseLampe).take 20),
    .bytes ((jsonLampe.print reponseLampe).drop 20 ++ [newline])]

theorem executer_repond_lampe : ∃ response server,
    Traitee jsonLampe lampe (ipcServerInit () noyauLampe) 4 0 (jsonLampe.print (requete "Light" none)) response server ∧
    (executer jsonLampe lireLampe "Light" none socketLampe).sortie =
      .de (repondre lampe server.context (lireEnveloppe (requete "Light" none))).1 := by
  have hprinted : jsonLampe.print (requete "Light" none) = requeteLampe := by decide +kernel
  have hparse : jsonLampe.parse (jsonLampe.print (requete "Light" none)) = some (requete "Light" none) := by
    rw [hprinted]
    show (if requeteLampe = requeteLampe then some (requete "Light" none) else none) = _
    exact if_pos rfl
  have hrelit : Relit jsonLampe (requete "Light" none) := ⟨by decide +kernel, hparse⟩
  have hlire : ∀ v ∈ (liaisonApres jsonLampe lampe () noyauLampe 4 0).queued,
      lireLampe (jsonLampe.print v) = some v := by
    have hlines : (liaisonApres jsonLampe lampe () noyauLampe 4 0).lines =
        [jsonLampe.print (requete "Light" none)] := by
      decide +kernel
    have hlength : (liaisonApres jsonLampe lampe () noyauLampe 4 0).queued.length = 1 := by decide +kernel
    rcases @liaison_premiere jsonLampe 0 (ipcServerRun jsonLampe lampe (ipcServerInit () noyauLampe) 4).journal
      with ⟨hnone, -⟩ | ⟨before, line, response, after, others, more, hjournal, hline, hqueued⟩
    · rw [show (liaisonApres jsonLampe lampe () noyauLampe 4 0).lines = [] from hnone] at hlines
      cases hlines
    obtain ⟨server, hworked, -⟩ := ipcServerRun_traitee (ipcServerInit () noyauLampe) rfl hjournal
    rw [show (liaisonApres jsonLampe lampe () noyauLampe 4 0).queued = response :: more from hqueued] at hlength ⊢
    obtain rfl : more = [] := List.length_eq_zero_iff.mp (Nat.succ.inj hlength)
    obtain rfl := (List.cons.inj (hline.symm.trans hlines)).1
    have hanswer := hworked.reponse
    rw [reponseA_requete hrelit] at hanswer
    intro v hv
    obtain rfl : v = reponseLampe := (List.mem_singleton.mp hv).trans hanswer
    exact if_pos rfl
  exact (executer_repond hrelit hlire (by decide +kernel) (by decide +kernel)).2.resolve_left (by decide +kernel)

/-! ### The events, from one end to the other -/

section Service

variable {σ : Type} {json : JsonC} {app : Application σ} {slot : Slot}
  {lire : List UInt8 → Option JsonValue} {line : List UInt8} {context : σ} {noyau : Noyau} {turns : Nat}
  {socket : Socket}

theorem lireMessage_abonnement (hrelit : json.parse abonnement = some (requete "subscribe" none)) :
    lireMessage json (sansRetour abonnement) = (some (requete "subscribe" none), .subscribe) := by
  have hread : lireEnveloppe (requete "subscribe" none) = .subscribe := by
    have habonne : (lireEnveloppe (requete "subscribe" none)).abonne = true := by decide +kernel
    cases hdemande : lireEnveloppe (requete "subscribe" none) with
    | subscribe => rfl
    | refusee _ | command _ _ =>
      rw [hdemande] at habonne
      cases habonne
  rw [lireMessage_objet (by decide +kernel) hrelit]
  exact congrArg (Prod.mk _) hread

theorem demandeAbonnement_abonnement (hrelit : json.parse abonnement = some (requete "subscribe" none)) :
    demandeAbonnement json abonnement = true := by
  unfold demandeAbonnement
  rw [lireMessage_abonnement hrelit]
  rfl

theorem reponseA_abonnement (hrelit : json.parse abonnement = some (requete "subscribe" none)) (context : σ) :
    reponseA json app context abonnement =
      ipcProtocolResponse (some (requete "subscribe" none)) (.ok (.obj [("subscribed", .bool true)])) := by
  unfold reponseA
  rw [lireMessage_abonnement hrelit]
  rfl

/-- A response is no event. -/
theorem afficher_reponse (request : Option JsonValue) (answer : Except IpcError JsonValue) :
    afficher (some (ipcProtocolResponse request answer)) = none := by
  have htype : (ipcProtocolResponse request answer).get? "type" = some (.str "response") := by
    cases answer <;> rfl
  have hne : ¬ Text.cString "response" = "event" := by decide
  simp only [afficher, htype, if_neg hne]

theorem evenements_inv {s : Suivi} (h : (evenements lire socket).sortie = .suivi s) :
    s = suivre lire capacity [] socket.recvs ∧ (evenements lire socket).received = s.recus ∧
      (evenements lire socket).sent <+: abonnement ++ [newline] := by
  have hsent := (envoyerTout_spec (abonnement ++ [newline]) socket.sends).1
  unfold evenements at h ⊢
  split at h
  · cases h
  next hconnected =>
  rw [if_neg hconnected]
  dsimp only at h ⊢
  split at h
  · cases h
  next hall =>
  rw [if_neg hall]
  obtain rfl := Sortie.suivi.inj h
  exact ⟨rfl, rfl, hsent⟩

/-- **The events, from one end to the other**, however the bytes come. Unless nothing is shown, the
subscription was worked off, and the events shown are the first of those broadcast since then, in
their order; they are all of them, if all that was queued for the client was received. -/
theorem evenements_suit (hrelit : json.parse abonnement = some (requete "subscribe" none))
    (hlire : ∀ v ∈ (liaisonApres json app context noyau turns slot).queued, lire (json.print v) = some v)
    (hin : (liaisonApres json app context noyau turns slot).received <+: (evenements lire socket).sent)
    (hout : (evenements lire socket).received <+: (liaisonApres json app context noyau turns slot).sent)
    {s : Suivi} (hsuivi : (evenements lire socket).sortie = .suivi s) :
    s.affiches = [] ∨ ∃ before response after,
      (ipcServerRun json app (ipcServerInit context noyau) turns).journal =
          before ++ .processed slot abonnement response :: after ∧
        s.affiches <+: (diffuses after).filterMap (fun event => afficher (some event)) ∧
        ((evenements lire socket).received =
            Lines.join newline ((liaisonApres json app context noyau turns slot).queued.map json.print) →
          s.affiches = (diffuses after).filterMap fun event => afficher (some event)) := by
  have htient : Tient json (liaisonApres json app context noyau turns slot) := liaisonApres_tient
  obtain ⟨rfl, hreceived, hsent⟩ := evenements_inv hsuivi
  have hspec : (suivre lire capacity [] socket.recvs).affiches =
      (Lines.split newline (suivre lire capacity [] socket.recvs).recus).1.filterMap fun line => afficher (lire line) :=
    suivre_spec capacity socket.recvs List.not_mem_nil
  rw [← hreceived] at hspec
  obtain ⟨values, hvalues, hlines, hcomplete⟩ := htient.recues hout
  -- each line received is shown as the value it was printed from
  have hshown : (suivre lire capacity [] socket.recvs).affiches = values.filterMap fun v => afficher (some v) := by
    rw [hspec, hlines, List.filterMap_map]
    refine List.filterMap_congr fun v hv => ?_
    simp only [Function.comp_apply, hlire v (hvalues.subset hv)]
  rw [hshown]
  have hnone : newline ∉ abonnement := by decide +kernel
  rcases une_ligne htient hnone (hin.trans hsent) with
    ⟨-, hempty⟩ | ⟨hlines, -⟩
  · left
    rw [show (liaisonApres json app context noyau turns slot).queued = [] from hempty] at hvalues
    rw [List.prefix_nil.mp hvalues]
    rfl
  · right
    obtain ⟨-, before, response, after, hjournal, hqueued⟩ :=
      liaison_abonnee (demandeAbonnement_abonnement hrelit) _ hlines
    obtain ⟨server, hworked, -⟩ := ipcServerRun_traitee (ipcServerInit context noyau) rfl hjournal
    have hevents : (liaisonApres json app context noyau turns slot).queued.filterMap (fun v => afficher (some v)) =
        (diffuses after).filterMap fun v => afficher (some v) := by
      rw [show (liaisonApres json app context noyau turns slot).queued = _ from hqueued, List.filterMap_cons_none]
      rw [hworked.reponse]
      exact afficher_reponse _ _
    refine ⟨before, response, after, hjournal, ?_, ?_⟩
    · rw [← hevents]
      exact hvalues.filterMap _
    · intro hall
      rw [hcomplete hall, hevents]

end Service

/-- The kernel, for a client that subscribes and reads until the event. -/
def noyauSuivi : Noyau where
  signals := []
  allocations := []
  polls :=
    let lisible := fun _ => ⟨true, false, false, false, false⟩
    let inscriptible := fun _ => ⟨false, true, false, false, false⟩
    [.ready true lisible, .ready false lisible, .ready false inscriptible, .ready false inscriptible,
      .ready false inscriptible]
  accepts := [.connection 5 true]
  recvs := [.bytes (abonnement ++ [newline])]
  sends := [.wrote 10, .wrote 1000, .wrote 1000]

def reponseAbonnement : JsonValue :=
  ipcProtocolResponse (some (requete "subscribe" none)) (.ok (.obj [("subscribed", .bool true)]))

/-- The two values that the server has for this client. -/
def lireSuivi (line : List UInt8) : Option JsonValue :=
  if line = jsonAbonnement.print finMinuteur then some finMinuteur
  else if line = jsonAbonnement.print reponseAbonnement then some reponseAbonnement
  else none

def estFinMinuteur : JsonValue → Bool
  | .obj [("type", .str type), ("event", .str event), ("data", .obj [("timer", .str timer)])] =>
    type == "event" && event == "timer_ended" && timer == "light"
  | _ => false

theorem estFinMinuteur_eq {v : JsonValue} : estFinMinuteur v = true → v = finMinuteur := by
  fun_cases estFinMinuteur v with
  | case1 type event timer =>
    intro h
    simp only [Bool.and_eq_true, beq_iff_eq] at h
    obtain ⟨⟨rfl, rfl⟩, rfl⟩ := h
    rfl
  | case2 => exact fun h => by cases h

/-- The response and the event come in two pieces, cut elsewhere. -/
def socketSuivi : Socket where
  connected := true
  sends := [.wrote 1000]
  recvs :=
    let text := jsonAbonnement.print reponseAbonnement ++ newline :: jsonAbonnement.print finMinuteur ++ [newline]
    [.bytes (text.take 70), .interrupted, .bytes (text.drop 70)]

theorem evenements_suit_minuterie :
    (suivre lireSuivi capacity [] socketSuivi.recvs).affiches.length = 1 ∧
      ∃ before response after,
        (ipcServerRun jsonAbonnement minuterie (ipcServerInit 0 noyauSuivi) 5).journal =
            before ++ .processed 0 abonnement response :: after ∧
          (suivre lireSuivi capacity [] socketSuivi.recvs).affiches <+:
            (diffuses after).filterMap fun event => afficher (some event) := by
  have hlength : (suivre lireSuivi capacity [] socketSuivi.recvs).affiches.length = 1 := by decide +kernel
  have hrelit : jsonAbonnement.parse abonnement = some (requete "subscribe" none) := by
    show (if abonnement = AmlService.abonnement then _ else none) = _
    exact if_pos rfl
  have hlire : ∀ v ∈ (liaisonApres jsonAbonnement minuterie 0 noyauSuivi 5 0).queued,
      lireSuivi (jsonAbonnement.print v) = some v := by
    have hvalues : (liaisonApres jsonAbonnement minuterie 0 noyauSuivi 5 0).lines = [abonnement] ∧
        (liaisonApres jsonAbonnement minuterie 0 noyauSuivi 5 0).queued.tail.all estFinMinuteur = true := by
      decide +kernel
    obtain ⟨hlines, hevents⟩ := hvalues
    rcases @liaison_premiere jsonAbonnement 0
      (ipcServerRun jsonAbonnement minuterie (ipcServerInit 0 noyauSuivi) 5).journal
      with ⟨hnone, -⟩ | ⟨before, line, response, after, others, more, hjournal, hline, hqueued⟩
    · rw [show (liaisonApres jsonAbonnement minuterie 0 noyauSuivi 5 0).lines = [] from hnone] at hlines
      cases hlines
    obtain ⟨server, hworked, -⟩ := ipcServerRun_traitee (ipcServerInit 0 noyauSuivi) rfl hjournal
    have hanswer := hworked.reponse
    rw [show (liaisonApres jsonAbonnement minuterie 0 noyauSuivi 5 0).queued = response :: more from hqueued]
      at hevents ⊢
    obtain rfl := (List.cons.inj (hline.symm.trans hlines)).1
    intro v hv
    rcases List.mem_cons.mp hv with rfl | hmore
    · rw [reponseA_abonnement hrelit] at hanswer
      subst hanswer
      exact (if_neg (by decide +kernel)).trans (if_pos rfl)
    · obtain rfl := estFinMinuteur_eq (List.all_eq_true.mp hevents v hmore)
      exact if_pos rfl
  refine ⟨hlength, ?_⟩
  have hsuivi : (evenements lireSuivi socketSuivi).sortie =
      .suivi (suivre lireSuivi capacity [] socketSuivi.recvs) := by
    have hall : (envoyerTout (abonnement ++ [newline]) socketSuivi.sends).1 = true := by decide +kernel
    unfold evenements
    rw [if_neg (by decide)]
    dsimp only
    rw [if_neg (by rw [hall]; decide)]
  rcases evenements_suit hrelit hlire (by decide +kernel) (by decide +kernel) hsuivi with
    hnone | ⟨before, response, after, hjournal, hshown, -⟩
  · rw [hnone] at hlength
    cases hlength
  · exact ⟨before, response, after, hjournal, hshown⟩

end Ctl

end AmlService
