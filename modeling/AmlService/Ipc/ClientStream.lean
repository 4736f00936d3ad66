import AmlService.Ipc.Server
import AmlService.Lib.Run

/-!
# AmlService.Ipc.ClientStream

The two streams of a client. What it sent is the lines worked off, then its input
buffer; what it was sent, then its output buffer, is one response a line and, once it
has subscribed, one line an event, in the order they were queued.

The journal is read per slot since the slot's client was accepted (`liaison`), so that
a slot given to a new client starts again from nothing. A client is read only when the
turn found no line in its buffer: a full buffer is then an unfinished line.
-/

namespace AmlService

open Effect

variable {σ : Type}

/-! ### What the journal says of a client -/

/-- The two streams of the client of a slot. -/
structure Liaison where
  received : List UInt8
  sent : List UInt8
  lines : List (List UInt8)
  queued : List JsonValue
  subscribed : Bool

def Liaison.vide : Liaison := ⟨[], [], [], [], false⟩

def Demande.abonne : Demande → Bool
  | .subscribe => true
  | _ => false

/-- A line that asks for the events. -/
def demandeAbonnement (json : JsonC) (line : List UInt8) : Bool :=
  (lireMessage json (sansRetour line)).2.abonne

/-- One entry of the journal, for the client of `slot`: a line worked off is owed one
response, and an event is owed to a client that has subscribed. -/
def Liaison.step (json : JsonC) (slot : Slot) (l : Liaison) : IpcObs → Liaison
  | .accepted s _ => if s = slot then .vide else l
  | .received s bytes => if s = slot then { l with received := l.received ++ bytes } else l
  | .processed s line response =>
    if s = slot then
      { l with
        lines := l.lines ++ [line]
        queued := l.queued ++ [response]
        subscribed := l.subscribed || demandeAbonnement json line }
    else l
  | .broadcast event => if l.subscribed then { l with queued := l.queued ++ [event] } else l
  | .sent s bytes => if s = slot then { l with sent := l.sent ++ bytes } else l
  | .closed _ _ => l

/-- The client that holds a slot, or held it last. -/
def liaison (json : JsonC) (slot : Slot) (journal : List IpcObs) : Liaison :=
  journal.foldl (Liaison.step json slot) .vide

/-- The lines of a stream, and the unfinished one, have at most 4095 bytes. -/
def LignesCourtes (received : List UInt8) : Prop :=
  let (lines, tail) := Lines.split newline received
  (∀ line ∈ lines, line.length ≤ 4095) ∧ tail.length ≤ 4095

/-- The client that an entry is about, apart from its coming and going. -/
def IpcObs.client? : IpcObs → Option Slot
  | .received slot _ | .processed slot _ _ | .sent slot _ => some slot
  | _ => none

section Liaison

variable {json : JsonC} {slot : Slot}

theorem liaison_append (journal added : List IpcObs) :
    liaison json slot (journal ++ added) = added.foldl (Liaison.step json slot) (liaison json slot journal) :=
  List.foldl_append

theorem liaison_log (journal : List IpcObs) (o : IpcObs) :
    liaison json slot (journal ++ [o]) = (liaison json slot journal).step json slot o :=
  liaison_append journal [o]

/-- What is said of another client changes nothing. -/
theorem liaison_other {s : Slot} (hs : s ≠ slot) {added : List IpcObs}
    (h : ∀ o ∈ added, o.client? = some slot) (journal : List IpcObs) :
    liaison json s (journal ++ added) = liaison json s journal := by
  rw [liaison_append]
  refine List.foldlRecOn added _ (motive := fun l => l = liaison json s journal) rfl ?_
  intro l hl o ho
  have hclient := h o ho
  cases o with
  | received t bytes | processed t line response | sent t bytes =>
    obtain rfl : t = slot := Option.some.inj hclient
    simpa [Liaison.step, hs.symm] using hl
  | _ => cases hclient

end Liaison

/-! ### A client and its streams -/

/-- **A client conforms to its streams.** -/
structure Conforme (json : JsonC) (client : IpcClient) (l : Liaison) : Prop where
  output : l.sent ++ client.pending = Lines.join newline (l.queued.map json.print)
  input : l.received = Lines.join newline l.lines ++ client.input
  lines : ∀ line ∈ l.lines, newline ∉ line
  subscribed : client.subscribed = l.subscribed

section Conforme

variable {json : JsonC} {slot : Slot} {client : IpcClient} {l : Liaison}

theorem pending_append (text : List UInt8) :
    (client.append text).pending = client.pending ++ (text ++ [newline]) := by
  show (client.output ++ text ++ [newline]).drop client.outputOffset = _
  rw [List.append_assoc, List.drop_append_of_le_length client.started]
  rfl

theorem pending_advance (count : Nat) : (client.advance count).pending = client.pending.drop count := by
  have hstarted := client.started
  show client.output.drop (client.outputOffset + min count _) =
    (client.output.drop client.outputOffset).drop count
  rw [List.drop_drop]
  by_cases h : count ≤ client.output.length - client.outputOffset
  · rw [Nat.min_eq_left h]
  · rw [List.drop_eq_nil_of_le (by omega), List.drop_eq_nil_of_le (by omega)]

theorem Conforme.vide (fd : Nat) : Conforme json { IpcClient.libre with fd := some fd } .vide :=
  ⟨rfl, rfl, by simp [Liaison.vide], rfl⟩

theorem Conforme.receive (h : Conforme json client l) (chunk : List UInt8) :
    Conforme json (client.receive chunk)
      (l.step json slot (.received slot (chunk.take client.capacity))) := by
  rw [Liaison.step, if_pos rfl]
  refine ⟨h.output, ?_, h.lines, h.subscribed⟩
  show l.received ++ _ = Lines.join newline l.lines ++ (client.input ++ _)
  rw [h.input, List.append_assoc]

theorem Conforme.advance (h : Conforme json client l) (count : Nat) :
    Conforme json (client.advance count) (l.step json slot (.sent slot (client.pending.take count))) := by
  rw [Liaison.step, if_pos rfl]
  refine ⟨?_, h.input, h.lines, h.subscribed⟩
  show (l.sent ++ client.pending.take count) ++ (client.advance count).pending = _
  rw [pending_advance, List.append_assoc, List.take_append_drop, h.output]

theorem Conforme.flushed (h : Conforme json client l) (hsent : client.output.length ≤ client.outputOffset) :
    Conforme json client.flushed l := by
  have hpending : client.pending = [] := List.drop_eq_nil_of_le hsent
  refine ⟨?_, h.input, h.lines, h.subscribed⟩
  rw [← h.output, hpending]
  rfl

/-- An event: the line queued is the line owed. -/
theorem Conforme.event (h : Conforme json client l) (slot : Slot) (event : JsonValue) :
    Conforme json (if client.subscribed then client.append (json.print event) else client)
      (l.step json slot (.broadcast event)) := by
  rw [Liaison.step, h.subscribed]
  split
  · refine ⟨?_, h.input, h.lines, h.subscribed⟩
    rw [pending_append, ← List.append_assoc, h.output, List.map_append]
    exact (Lines.join_concat _ _).symm
  · exact h

/-- A line worked off, and its response. -/
theorem Conforme.processed (h : Conforme json client l) {line rest : List UInt8} {after : IpcClient}
    {response : JsonValue} (hline : Lines.cut newline client.input = some (line, rest))
    (hinput : after.input = client.input.drop (line.length + 1))
    (hpending : after.pending = client.pending ++ (json.print response ++ [newline]))
    (hsubscribed : after.subscribed = (client.subscribed || demandeAbonnement json line)) :
    Conforme json after (l.step json slot (.processed slot line response)) := by
  obtain ⟨hcut, hnone⟩ := Lines.cut_inv hline
  rw [Liaison.step, if_pos rfl]
  refine ⟨?_, ?_, ?_, ?_⟩
  · show l.sent ++ after.pending = Lines.join newline ((l.queued ++ [response]).map json.print)
    rw [hpending, ← List.append_assoc, h.output, List.map_append]
    exact (Lines.join_concat _ _).symm
  · show l.received = Lines.join newline (l.lines ++ [line]) ++ after.input
    have hrest : after.input = rest := by
      rw [hinput, hcut, List.append_cons]
      exact List.drop_left' (by simp)
    rw [h.input, hrest, Lines.join_concat, hcut]
    simp
  · intro line' hmem
    rcases List.mem_append.mp hmem with hmem | hmem
    · exact h.lines line' hmem
    · obtain rfl : line' = line := by simpa using hmem
      exact hnone
  · rw [hsubscribed, h.subscribed]

/-- A full buffer without a newline is an unfinished line. -/
theorem Conforme.plein (h : Conforme json client l) (hfull : ipcServerMaxMessage ≤ client.input.length)
    (hline : newline ∉ client.input) : ¬ LignesCourtes l.received := by
  rw [LignesCourtes, h.input, Lines.split_join h.lines hline]
  rintro ⟨-, htail⟩
  exact absurd (Nat.le_trans hfull htail) (by decide)

end Conforme

/-! ### Serving one client -/

/-- What serves `slot` touches no other client, and disconnects nobody. -/
structure Touche (slot : Slot) (a b : IpcServer σ) : Prop where
  others : ∀ s, s ≠ slot → b.clients s = a.clients s
  fd : (b.clients slot).fd = (a.clients slot).fd
  journal : ∃ added, b.journal = a.journal ++ added ∧ ∀ o ∈ added, o.client? = some slot

instance (slot : Slot) : IsPreorder (IpcServer σ) (Touche slot) where
  refl a := ⟨fun _ _ => rfl, rfl, [], by simp⟩
  trans a b c := by
    rintro ⟨hothers, hfd, added, hadded, hall⟩ ⟨hothers', hfd', added', hadded', hall'⟩
    refine ⟨fun s hs => (hothers' s hs).trans (hothers s hs), hfd'.trans hfd, added ++ added', ?_, ?_⟩
    · rw [hadded', hadded, List.append_assoc]
    · intro o ho
      exact (List.mem_append.mp ho).elim (hall o) (hall' o)

section Serving

variable {json : JsonC} {slot : Slot}

theorem Touche.modify (server : IpcServer σ) {f : IpcClient → IpcClient} (hfd : ∀ c, (f c).fd = c.fd) :
    Touche slot server (server.modify slot f) :=
  ⟨fun _ hs => server.modify_other slot f hs, by rw [IpcServer.modify_same, hfd], [], by simp⟩

theorem Touche.log (server : IpcServer σ) {o : IpcObs} (ho : o.client? = some slot) :
    Touche slot server (server.log o) :=
  ⟨fun _ _ => rfl, rfl, [o], rfl, by simpa using ho⟩

theorem Touche.modify_log (server : IpcServer σ) {f : IpcClient → IpcClient} (hfd : ∀ c, (f c).fd = c.fd)
    {o : IpcObs} (ho : o.client? = some slot) : Touche slot server ((server.modify slot f).log o) :=
  trans_of (Touche slot) (.modify server hfd) (.log _ ho)

/-- What `R` has to allow for all that serves `slot`, but for taking lines off its buffer. -/
structure Permet (slot : Slot) (R : IpcServer σ → IpcServer σ → Prop) : Prop where
  autour : ∀ server noyau context, R server { server with noyau, context }
  modify : ∀ server f, (∀ c, (f c).fd = c.fd ∧ (f c).input = c.input) → R server (server.modify slot f)
  received : ∀ server chunk, R server
    ((server.modify slot fun client => client.receive chunk).log
      (.received slot (chunk.take (server.clients slot).capacity)))
  sent : ∀ server count bytes, R server
    ((server.modify slot fun client => client.advance count).log (.sent slot bytes))

theorem permet_touche : Permet slot (@Touche σ slot) where
  autour _ _ _ := ⟨fun _ _ => rfl, rfl, [], by simp⟩
  modify server _ hf := .modify server fun c => (hf c).1
  received server chunk := .modify_log server (f := fun client => client.receive chunk) (fun _ => rfl) rfl
  sent server count _ := .modify_log server (f := fun client => client.advance count) (fun _ => rfl) rfl

section Permet

variable {R : IpcServer σ → IpcServer σ → Prop} [IsPreorder (IpcServer σ) R] (h : Permet slot R)
include h

theorem Permet.allouer : Keeps R (allouer : IpcM σ Unit) := by
  intro server
  unfold AmlService.allouer
  split
  · exact refl_of R server
  · exact h.autour server _ _

theorem Permet.clientAppend (text : List UInt8) : Keeps R (clientAppend slot text : IpcM σ Unit) :=
  .bind .get fun _ => .ite (fun _ => .throw _) fun _ =>
    .bind h.allouer fun _ => .act fun server => h.modify server _ fun _ => ⟨rfl, rfl⟩

theorem Permet.traiterDemande (app : Application σ) (demande : Demande) :
    Keeps R (traiterDemande app slot demande) := by
  cases demande with
  | refusee error => exact .pure _
  | subscribe => exact .bind (.act fun server => h.modify server _ fun _ => ⟨rfl, rfl⟩) fun _ => .pure _
  | command command args =>
    rcases hhandler : app.handler with _ | handler <;> simp only [AmlService.traiterDemande, hhandler]
    · exact .pure _
    · exact .lift fun server => h.autour server _ _

theorem Permet.processMessage (app : Application σ) (message : List UInt8) :
    Keeps R (processMessage json app slot message) :=
  .bind (h.traiterDemande app _) fun _ =>
    .bind (.bind h.allouer fun _ => h.clientAppend _) fun _ => .pure _

theorem Permet.readClient : Keeps R (readClient slot : IpcM σ Unit) := by
  intro server
  unfold AmlService.readClient
  dsimp only
  split
  · exact refl_of R server
  split
  · exact refl_of R server
  split
  · exact h.autour server _ _
  · exact trans_of R (h.autour server _ server.context) (h.received _ _)
  · exact h.autour server _ _
  · exact h.autour server _ _

theorem Permet.writeLoop (sends : List IpcSend) (server : IpcServer σ) :
    R server (writeLoop slot sends server).2 := by
  fun_induction AmlService.writeLoop slot sends server with
  | case2 server _ _ sends ih => exact ih
  | case6 server _ _ count sends _ ih => exact trans_of R (h.sent server count _) ih
  | case7 sends server _ _ =>
    exact trans_of R (h.autour server _ server.context)
      (h.modify (server.sending sends) IpcClient.flushed fun _ => ⟨rfl, rfl⟩)
  | _ => exact h.autour _ _ _

theorem Permet.lireSiPret (events : Revents) : Keeps R (lireSiPret slot events : IpcM σ Unit) :=
  .bind .get fun _ => .ite (fun _ => h.readClient) fun _ => .pure _

theorem Permet.ecrireSiPret (events : Revents) : Keeps R (ecrireSiPret slot events : IpcM σ Unit) :=
  .bind .get fun _ => .ite (fun _ server => h.writeLoop server.noyau.sends server) fun _ => .pure _

/-- **Whatever comes of it**, a client is served by such acts. -/
theorem Permet.servirClient (events : Revents) : Keeps R (servirClient slot events : IpcM σ Unit) :=
  .ite (fun _ => .throw _) fun _ => .bind (h.lireSiPret events) fun _ =>
    .bind (h.ecrireSiPret events) fun _ => .ite (fun _ => .throw _) fun _ => .pure _

end Permet

theorem clientAppend_touche (text : List UInt8) :
    Keeps (Touche slot) (clientAppend slot text : IpcM σ Unit) :=
  permet_touche.clientAppend text

theorem processBufferedMessage_touche (app : Application σ) :
    Keeps (Touche slot) (processBufferedMessage json app slot) := by
  refine .bind .get fun server => ?_
  split
  · exact .pure _
  · exact .bind (.act fun server => .modify server fun _ => rfl) fun _ =>
      .bind (permet_touche.processMessage app _) fun _ =>
        .bind (.act fun server => .log server rfl) fun _ => .pure _

theorem servirClient_touche (events : Revents) :
    Keeps (Touche slot) (servirClient slot events : IpcM σ Unit) :=
  permet_touche.servirClient events

/-! ### Why a client is given up -/

/-- Any reason but a full buffer. -/
abbrev SaufPlein (reason : Fermeture) : Prop := reason ≠ .tamponPlein

theorem allouer_fails : Fails SaufPlein (allouer : IpcM σ Unit) := by
  intro server reason server' h
  unfold allouer at h
  split at h
  · cases h
  · next granted _ _ =>
    cases granted with
    | true => cases h
    | false =>
      obtain ⟨h, -⟩ := Prod.mk.inj h
      obtain rfl := Except.error.inj h
      decide

theorem clientAppend_fails (text : List UInt8) : Fails SaufPlein (clientAppend slot text : IpcM σ Unit) :=
  .bind .get fun _ => .ite (fun _ => .throw (by decide)) fun _ =>
    .bind allouer_fails fun _ => .act _

theorem traiterDemande_fails (app : Application σ) (demande : Demande) :
    Fails SaufPlein (traiterDemande app slot demande) := by
  cases demande with
  | refusee error => exact .pure _
  | subscribe => exact .bind (.act _) fun _ => .pure _
  | command command args =>
    rcases hhandler : app.handler with _ | handler <;> simp only [traiterDemande, hhandler]
    · exact .pure _
    · exact .lift _

theorem processBufferedMessage_fails (app : Application σ) :
    Fails SaufPlein (processBufferedMessage json app slot) := by
  refine .bind .get fun server => ?_
  split
  · exact .pure _
  · refine .bind (.act _) fun _ => .bind ?_ fun _ => .bind (.act _) fun _ => .pure _
    exact .bind (traiterDemande_fails app _) fun _ =>
      .bind (.bind allouer_fails fun _ => clientAppend_fails _) fun _ => .pure _

theorem writeLoop_fails (sends : List IpcSend) (server : IpcServer σ) {reason : Fermeture}
    {server' : IpcServer σ} (h : writeLoop slot sends server = (.error reason, server')) :
    SaufPlein reason := by
  fun_induction writeLoop slot sends server with
  -- interrupted: `send` is called again
  | case2 server _ _ sends ih => exact ih h
  -- the client is lost, or takes nothing
  | case4 server _ _ sends | case5 server _ _ sends =>
    obtain ⟨h, -⟩ := Prod.mk.inj h
    obtain rfl := Except.error.inj h
    decide
  | case6 server _ _ count sends _ ih => exact ih h
  | _ => cases h

/-- A buffer is found full before anything is read. -/
theorem readClient_plein {a b : IpcServer σ} (h : readClient slot a = (.error .tamponPlein, b)) :
    b = a ∧ ipcServerMaxMessage ≤ (a.clients slot).input.length := by
  unfold readClient at h
  dsimp only at h
  split at h
  · next hfull =>
    obtain ⟨-, rfl⟩ := Prod.mk.inj h
    exact ⟨rfl, hfull⟩
  split at h
  · cases h
  split at h <;> cases h

/-- So it is for a client that is read, and has nothing to be sent. -/
theorem servirClient_plein {events : Revents} {a b : IpcServer σ}
    (h : servirClient slot events a = (.error .tamponPlein, b)) :
    b = a ∧ events.pollin = true ∧ (a.clients slot).output.length = 0 ∧
      ipcServerMaxMessage ≤ (a.clients slot).input.length := by
  unfold servirClient at h
  split at h
  · cases h
  rw [bind_run] at h
  rcases hread : lireSiPret slot events a with ⟨reason | _, c⟩ <;> rw [hread] at h
  · obtain ⟨hreason, rfl⟩ := Prod.mk.inj h
    obtain rfl := Except.error.inj hreason
    rw [lireSiPret, bind_run_ok (get_run a)] at hread
    split at hread
    · next hready =>
      obtain ⟨rfl, hfull⟩ := readClient_plein hread
      exact ⟨rfl, hready.1, hready.2, hfull⟩
    · cases hread
  · -- nothing after the reading finds a buffer full
    have hrest : Fails SaufPlein (do
        ecrireSiPret slot events
        if events.pollhup && !events.pollin then throw .raccroche else return () : IpcM σ Unit) := by
      refine .bind (.bind .get fun _ => .ite (fun _ => ?_) fun _ => .pure _) fun _ =>
        .ite (fun _ => .throw (by decide)) fun _ => .pure _
      exact fun server _ _ => writeLoop_fails server.noyau.sends server
    exact absurd rfl (hrest c .tamponPlein b h)

/-! ### What serving a client does to its streams -/

theorem allouer_same {a b : IpcServer σ} {r : Except Fermeture Unit} (h : allouer a = (r, b)) :
    b.clients = a.clients ∧ b.journal = a.journal := by
  unfold allouer at h
  split at h <;> (obtain ⟨-, rfl⟩ := Prod.mk.inj h; exact ⟨rfl, rfl⟩)

theorem clientAppend_ok {text : List UInt8} {a b : IpcServer σ} {u : Unit}
    (h : clientAppend slot text a = (.ok u, b)) :
    b.clients slot = (a.clients slot).append text ∧ b.journal = a.journal := by
  rw [clientAppend, bind_run_ok (get_run a)] at h
  split at h
  · cases h
  obtain ⟨_, c, halloc, hact⟩ := bind_run_inv h
  obtain ⟨hclients, hjournal⟩ := allouer_same halloc
  obtain ⟨-, rfl⟩ := Prod.mk.inj hact
  exact ⟨by rw [IpcServer.modify_same, hclients], hjournal⟩

theorem queueResponse_ok {response : JsonValue} {a b : IpcServer σ} {u : Unit}
    (h : queueResponse json slot response a = (.ok u, b)) :
    b.clients slot = (a.clients slot).append (json.print response) ∧ b.journal = a.journal := by
  obtain ⟨_, c, halloc, happend⟩ := bind_run_inv h
  obtain ⟨hclients, hjournal⟩ := allouer_same halloc
  obtain ⟨hclient, hjournal'⟩ := clientAppend_ok happend
  exact ⟨by rw [hclient, hclients], hjournal'.trans hjournal⟩

/-- Only the request for the events changes its client. -/
theorem traiterDemande_ok {app : Application σ} {demande : Demande} {a b : IpcServer σ}
    {answer : Except IpcError JsonValue} (h : traiterDemande app slot demande a = (.ok answer, b)) :
    b.clients slot = { a.clients slot with
        subscribed := (a.clients slot).subscribed || demande.abonne } ∧
      b.journal = a.journal := by
  cases demande with
  | refusee error =>
    obtain ⟨-, rfl⟩ := Prod.mk.inj h
    exact ⟨by simp [Demande.abonne], rfl⟩
  | subscribe =>
    obtain ⟨_, c, hact, hpure⟩ := bind_run_inv h
    obtain ⟨-, rfl⟩ := Prod.mk.inj hact
    obtain ⟨-, rfl⟩ := Prod.mk.inj hpure
    exact ⟨by simp [Demande.abonne], rfl⟩
  | command command args =>
    rcases hhandler : app.handler with _ | handler
    all_goals
      simp only [traiterDemande, hhandler] at h
      obtain ⟨-, rfl⟩ := Prod.mk.inj h
      exact ⟨by simp [Demande.abonne], rfl⟩

theorem processMessage_ok {app : Application σ} {message : List UInt8} {a b : IpcServer σ}
    {response : JsonValue} (h : processMessage json app slot message a = (.ok response, b)) :
    b.clients slot = { (a.clients slot).append (json.print response) with
        subscribed := (a.clients slot).subscribed || (lireMessage json message).2.abonne } ∧
      b.journal = a.journal := by
  obtain ⟨answer, c, hdemande, hrest⟩ := bind_run_inv h
  obtain ⟨_, d, hqueue, hpure⟩ := bind_run_inv hrest
  obtain ⟨hresponse, rfl⟩ := Prod.mk.inj hpure
  obtain rfl := Except.ok.inj hresponse
  obtain ⟨hclient, hjournal⟩ := traiterDemande_ok hdemande
  obtain ⟨hclient', hjournal'⟩ := queueResponse_ok hqueue
  exact ⟨by rw [hclient', hclient]; rfl, hjournal'.trans hjournal⟩

/-- The client of a slot conforms to what the journal says of it. -/
abbrev EnOrdre (json : JsonC) (slot : Slot) (server : IpcServer σ) : Prop :=
  Conforme json (server.clients slot) (liaison json slot server.journal)

/-- A line taken off the buffer is answered. -/
theorem processBufferedMessage_conforme {app : Application σ} {a b : IpcServer σ} {processed : Bool}
    (h : processBufferedMessage json app slot a = (.ok processed, b)) (hconf : EnOrdre json slot a) :
    EnOrdre json slot b := by
  rw [processBufferedMessage, bind_run_ok (get_run a)] at h
  rcases hcut : Lines.cut newline (a.clients slot).input with _ | ⟨line, rest⟩
  · rw [hcut] at h
    obtain ⟨-, rfl⟩ := Prod.mk.inj h
    exact hconf
  rw [hcut] at h
  obtain ⟨_, c, hconsume, h⟩ := bind_run_inv h
  obtain ⟨response, d, hmessage, h⟩ := bind_run_inv h
  obtain ⟨_, e, hlog, hpure⟩ := bind_run_inv h
  obtain ⟨-, rfl⟩ := Prod.mk.inj hconsume
  obtain ⟨-, rfl⟩ := Prod.mk.inj hlog
  obtain ⟨-, rfl⟩ := Prod.mk.inj hpure
  obtain ⟨hclient, hjournal⟩ := processMessage_ok hmessage
  rw [IpcServer.modify_same] at hclient
  rw [EnOrdre, IpcServer.log_journal, liaison_log, IpcServer.log_clients, hjournal,
    IpcServer.modify_journal]
  refine hconf.processed hcut ?_ ?_ ?_
  · rw [hclient]
    rfl
  · rw [hclient]
    show ((a.clients slot).append (json.print response)).pending = _
    exact pending_append _
  · rw [hclient]
    rfl

theorem readClient_conforme {a b : IpcServer σ} {u : Unit} (h : readClient slot a = (.ok u, b))
    (hconf : EnOrdre json slot a) : EnOrdre json slot b := by
  unfold readClient at h
  dsimp only at h
  split at h
  · cases h
  split at h
  · obtain ⟨-, rfl⟩ := Prod.mk.inj h
    exact hconf
  split at h
  · cases h
  · obtain ⟨-, rfl⟩ := Prod.mk.inj h
    rw [EnOrdre, IpcServer.log_journal, liaison_log, IpcServer.log_clients, IpcServer.modify_same]
    exact hconf.receive _
  · obtain ⟨-, rfl⟩ := Prod.mk.inj h
    exact hconf
  · cases h

/-- Each `send` moves bytes from what is pending to what is sent. -/
theorem writeLoop_conforme (sends : List IpcSend) (server : IpcServer σ)
    (hconf : EnOrdre json slot server) : EnOrdre json slot (writeLoop slot sends server).2 := by
  fun_induction writeLoop slot sends server with
  | case2 server _ _ sends ih => exact ih hconf
  | case6 server _ _ count sends _ ih =>
    refine ih ?_
    rw [EnOrdre, IpcServer.log_journal, liaison_log, IpcServer.log_clients, IpcServer.modify_same]
    exact hconf.advance count
  | case7 sends server client hsent =>
    rw [EnOrdre, IpcServer.modify_same]
    exact hconf.flushed (Nat.not_lt.mp hsent)
  | _ => exact hconf

theorem servirClient_conforme {events : Revents} {a b : IpcServer σ} {u : Unit}
    (h : servirClient slot events a = (.ok u, b)) (hconf : EnOrdre json slot a) :
    EnOrdre json slot b := by
  unfold servirClient at h
  split at h
  · cases h
  obtain ⟨_, c, hread, h⟩ := bind_run_inv h
  obtain ⟨_, d, hwrite, h⟩ := bind_run_inv h
  have hc : EnOrdre json slot c := by
    rw [lireSiPret, bind_run_ok (get_run a)] at hread
    split at hread
    · exact readClient_conforme hread hconf
    · obtain ⟨-, rfl⟩ := Prod.mk.inj hread
      exact hconf
  have hd : EnOrdre json slot d := by
    rw [ecrireSiPret, bind_run_ok (get_run c)] at hwrite
    split at hwrite
    · have hloop := writeLoop_conforme c.noyau.sends c hc
      rw [← writeClient, hwrite] at hloop
      exact hloop
    · obtain ⟨-, rfl⟩ := Prod.mk.inj hwrite
      exact hc
  split at h
  · cases h
  · obtain ⟨-, rfl⟩ := Prod.mk.inj h
    exact hd

end Serving

end AmlService
