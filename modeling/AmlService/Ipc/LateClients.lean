import AmlService.Ipc.ServerLoop
import AmlService.Lib.Backlog

/-!
# AmlService.Ipc.LateClients

Clients disconnected for being late. The bytes to send to a client are a queue, of which the bytes
sent keep their place in the buffer until it is empty (`Backlog.Queue`); `client_append` bounds the
whole buffer. A line is then refused to a client that is hardly late, if its queue has not been
empty for long.

What a client goes through is a run of lines added, responses or events, and of calls of `send`.
-/

namespace AmlService

open Effect Backlog

variable {σ : Type}

/-! ### What is done for a client -/

/-- What is done for a client: a line is added, or `write_client` is called, `send` doing this. -/
inductive PasClient
  | ajout (text : List UInt8)
  | envoi (sends : List IpcSend)

/-- One step; a client that fails it is disconnected, and nothing is done for it any more. -/
def pasClient (slot : Slot) (server : IpcServer σ) (pas : PasClient) : IpcServer σ :=
  if (server.clients slot).fd.isSome then
    match pas with
    | .ajout text => ouFermer slot (clientAppend slot text) server
    | .envoi sends => ouFermer slot (writeClient slot) (server.sending sends)
  else server

/-- What calls of `send` make of the queue. -/
def filerSends (q : Queue) : List IpcSend → Queue
  | [] => q
  | .interrupted :: sends => filerSends q sends
  | .wouldBlock :: _ => q
  | .failed :: _ | .wrote 0 :: _ => q
  | .wrote count :: sends => filerSends (q.take count) sends

/-- What a step makes of the queue, as long as the client is there. -/
def PasClient.file (q : Queue) : PasClient → Queue
  | .ajout text => q.put (text.length + 1)
  | .envoi sends => filerSends q sends

/-- The queue that the steps leave, whatever the buffer is like. -/
def fileApres (pas : List PasClient) : Queue := pas.foldl PasClient.file .empty

/-- Nothing is to be sent to the client, and there is memory for all that comes. -/
structure AuRepos (slot : Slot) (server : IpcServer σ) : Prop where
  output : (server.clients slot).output = []
  memoire : ∀ granted ∈ server.noyau.allocations, granted = true

section Pas

variable {slot : Slot} {server : IpcServer σ} {q : Queue} {text : List UInt8}

/-- An event is such a step for whoever has subscribed. -/
theorem mettreEnFile_ajout (json : JsonC) (event : JsonValue) (h : (server.clients slot).subscribed) :
    mettreEnFile json event server slot = pasClient slot server (.ajout (json.print event)) := by
  simp [mettreEnFile, pasClient, h]

/-- And so is a call of `write_client`. -/
theorem writeClient_envoi (h : (server.clients slot).fd.isSome) :
    ouFermer slot (writeClient slot) server = pasClient slot server (.envoi server.noyau.sends) := by
  simp [pasClient, h, IpcServer.sending]

theorem pasClient_envoi (h : (server.clients slot).fd.isSome) (sends : List IpcSend) :
    pasClient slot server (.envoi sends) =
      ouFermer slot (writeLoop slot sends : IpcM σ Unit) (server.sending sends) := by
  rw [pasClient, if_pos h]
  rfl

/-- Nothing is done for a client that is gone. -/
theorem pasClient_gone (h : (server.clients slot).fd = none) (pas : PasClient) :
    pasClient slot server pas = server := by
  simp [pasClient, h]

/-! ### The buffer and the queue -/

/-- The buffer of a client holds the queue. -/
structure Represente (client : IpcClient) (q : Queue) : Prop where
  left : client.outputOffset = q.left
  waiting : client.pending.length = q.waiting

theorem output_length (client : IpcClient) :
    client.output.length = client.outputOffset + client.pending.length := by
  have hstarted := client.started
  simp only [IpcClient.pending, List.length_drop]
  omega

theorem Represente.held {client : IpcClient} (h : Represente client q) : client.output.length = q.held := by
  rw [output_length, h.left, h.waiting, Queue.held]

theorem Represente.append {client : IpcClient} (h : Represente client q) (text : List UInt8) :
    Represente (client.append text) (q.put (text.length + 1)) := by
  refine ⟨h.left, ?_⟩
  simp [pending_append, h.waiting]

/-- In the middle of the loop of `write_client`, the buffer that is all sent has not been freed yet. -/
structure EnCours (client : IpcClient) (q : Queue) : Prop where
  left : 0 < q.waiting → client.outputOffset = q.left
  waiting : client.pending.length = q.waiting

theorem Represente.enCours {client : IpcClient} (h : Represente client q) : EnCours client q :=
  ⟨fun _ => h.left, h.waiting⟩

theorem EnCours.represente {client : IpcClient} (h : EnCours client q)
    (hmore : client.outputOffset < client.output.length) : Represente client q := by
  have hlength := output_length client
  have hwaiting := h.waiting
  exact ⟨h.left (by omega), hwaiting⟩

theorem EnCours.advance {client : IpcClient} (h : EnCours client q) (count : Nat) :
    EnCours (client.advance count) (q.take count) := by
  have hwaiting : (client.advance count).pending.length = q.waiting - count := by
    rw [pending_advance, List.length_drop, h.waiting]
  refine ⟨fun hmore => ?_, by rw [hwaiting, Queue.take_waiting]⟩
  rw [Queue.take_waiting] at hmore
  have hlength := output_length client
  rw [Queue.take_left (by omega), ← h.left (by omega)]
  rw [h.waiting] at hlength
  show client.outputOffset + min count (client.output.length - client.outputOffset) = _
  rw [Nat.min_eq_left (by omega)]

theorem filerSends_empty (sends : List IpcSend) : filerSends .empty sends = .empty := by
  induction sends with
  | nil => rfl
  | cons outcome sends ih =>
    cases outcome with
    | wrote count => cases count <;> simp [filerSends, ih]
    | interrupted => exact ih
    | _ => rfl

/-- All is sent: the buffer is freed. -/
theorem EnCours.flushed {client : IpcClient} (h : EnCours client q)
    (hsent : ¬ client.outputOffset < client.output.length) (sends : List IpcSend) :
    Represente client.flushed (filerSends q sends) := by
  have hlength := output_length client
  have hwaiting := h.waiting
  obtain rfl : q = .empty := Queue.eq_empty (by omega)
  rw [filerSends_empty]
  exact ⟨rfl, rfl⟩

/-- **The calls of `send`** do to the buffer what they do to the queue. -/
theorem writeLoop_represente (sends : List IpcSend) (server : IpcServer σ) (q : Queue) (after : IpcServer σ) :
    EnCours (server.clients slot) q → writeLoop slot sends server = (.ok (), after) →
      Represente (after.clients slot) (filerSends q sends) := by
  fun_induction writeLoop slot sends server generalizing q with
  | case1 server client hmore =>
    rintro h ⟨⟩
    exact h.represente hmore
  | case2 server client hmore sends ih => exact ih q
  | case3 server client hmore sends =>
    rintro h ⟨⟩
    exact h.represente hmore
  | case4 | case5 =>
    intro _ hrun
    cases hrun
  | case6 server client hmore count sends hcount ih =>
    intro h hrun
    have hsends : filerSends q (.wrote count :: sends) = filerSends (q.take count) sends := by
      cases count with
      | zero => exact absurd rfl hcount
      | succ count => rfl
    rw [hsends]
    refine ih (q.take count) ?_ hrun
    rw [IpcServer.log_clients, IpcServer.modify_same]
    exact h.advance count
  | case7 sends server client hsent =>
    rintro h ⟨⟩
    rw [IpcServer.modify_same]
    exact h.flushed hsent sends

theorem writeLoop_allocations (sends : List IpcSend) (server : IpcServer σ) :
    (writeLoop slot sends server).2.noyau.allocations = server.noyau.allocations := by
  fun_induction writeLoop slot sends server with
  | case2 server _ _ sends ih => exact ih
  | case6 server _ _ count sends _ ih => exact ih
  | _ => rfl

/-! ### A run -/

/-- There is memory, and the buffer of the client holds the queue as long as the client is there. -/
structure EnFile (slot : Slot) (server : IpcServer σ) (q : Queue) : Prop where
  memoire : ∀ granted ∈ server.noyau.allocations, granted = true
  buffer : (server.clients slot).fd.isSome → Represente (server.clients slot) q

theorem AuRepos.enFile (h : AuRepos slot server) : EnFile slot server .empty := by
  have hlength := output_length (server.clients slot)
  rw [h.output, List.length_nil] at hlength
  exact ⟨h.memoire, fun _ => ⟨show _ = 0 by omega, show _ = 0 by omega⟩⟩

theorem allouer_accorde (h : ∀ granted ∈ server.noyau.allocations, granted = true) :
    ∃ after, allouer server = (.ok (), after) ∧ after.clients = server.clients ∧
      ∀ granted ∈ after.noyau.allocations, granted = true := by
  unfold allouer
  split
  · next hnil => exact ⟨server, rfl, rfl, h⟩
  · next granted rest hcons =>
    rw [hcons] at h
    obtain rfl := h granted List.mem_cons_self
    exact ⟨_, rfl, rfl, fun granted hgranted => h granted (List.mem_cons_of_mem _ hgranted)⟩

variable (h : EnFile slot server q) (hfd : (server.clients slot).fd.isSome)
include h hfd

/-- **A line is refused** when the buffer has no room for it: the client is disconnected. -/
theorem ajout_refuse (hroom : ¬ q.HasRoom ipcMaxPendingOutput (text.length + 1)) :
    pasClient slot server (.ajout text) = clientReset slot .retard server := by
  have hfull : (server.clients slot).output.length + text.length + 1 > ipcMaxPendingOutput := by
    rw [(h.buffer hfd).held]
    unfold Queue.HasRoom at hroom
    omega
  have hrun : clientAppend slot text server = (.error .retard, server) := by
    rw [clientAppend, bind_run_ok (get_run server), if_pos hfull]
    rfl
  rw [pasClient, if_pos hfd, ouFermer, hrun]

/-- **It is accepted** when there is room. -/
theorem ajout_accepte (hroom : q.HasRoom ipcMaxPendingOutput (text.length + 1)) :
    (pasClient slot server (.ajout text)).clients slot = (server.clients slot).append text ∧
      ∀ granted ∈ (pasClient slot server (.ajout text)).noyau.allocations, granted = true := by
  have hfits : ¬ (server.clients slot).output.length + text.length + 1 > ipcMaxPendingOutput := by
    rw [(h.buffer hfd).held]
    unfold Queue.HasRoom at hroom
    omega
  obtain ⟨after, halloc, hclients, hmem⟩ := allouer_accorde h.memoire
  have hrun : clientAppend slot text server = (.ok (), after.modify slot fun client => client.append text) := by
    rw [clientAppend, bind_run_ok (get_run server), if_neg hfits, bind_run_ok halloc]
    rfl
  rw [pasClient, if_pos hfd, ouFermer, hrun]
  refine ⟨?_, hmem⟩
  rw [IpcServer.modify_same, hclients]

theorem ajout_deconnecte_iff :
    ((pasClient slot server (.ajout text)).clients slot).fd = none ↔
      ¬ q.HasRoom ipcMaxPendingOutput (text.length + 1) := by
  constructor
  · intro hnone hroom
    rw [(ajout_accepte h hfd hroom).1] at hnone
    have hsame : ((server.clients slot).append text).fd = (server.clients slot).fd := rfl
    rw [← hsame, hnone] at hfd
    cases hfd
  · intro hroom
    rw [ajout_refuse h hfd hroom, clientReset_same]
    rfl

omit h hfd

/-- **One step.** -/
theorem pasClient_enFile (h : EnFile slot server q) (pas : PasClient) :
    EnFile slot (pasClient slot server pas) (pas.file q) := by
  by_cases hfd : (server.clients slot).fd.isSome
  swap
  · have hgone : (server.clients slot).fd = none := by simpa using hfd
    rw [pasClient_gone hgone]
    exact ⟨h.memoire, fun hsome => absurd hsome hfd⟩
  cases pas with
  | ajout text =>
    by_cases hroom : q.HasRoom ipcMaxPendingOutput (text.length + 1)
    · obtain ⟨hclient, hmem⟩ := ajout_accepte h hfd hroom
      refine ⟨hmem, fun _ => ?_⟩
      rw [hclient]
      exact (h.buffer hfd).append text
    · rw [ajout_refuse h hfd hroom]
      refine ⟨h.memoire, fun hsome => ?_⟩
      rw [clientReset_same] at hsome
      cases hsome
  | envoi sends =>
    have hallocations : (writeLoop slot sends (server.sending sends)).2.noyau.allocations =
        server.noyau.allocations := writeLoop_allocations sends _
    rw [pasClient_envoi hfd sends, ouFermer]
    rcases hrun : writeLoop slot sends (server.sending sends) with ⟨reason | _, after⟩ <;>
      rw [hrun] at hallocations
    · refine ⟨fun granted hgranted => ?_, fun hsome => ?_⟩
      · exact h.memoire granted (hallocations ▸ hgranted)
      · rw [clientReset_same] at hsome
        cases hsome
    · refine ⟨fun granted hgranted => ?_, fun _ => ?_⟩
      · exact h.memoire granted (hallocations ▸ hgranted)
      · exact writeLoop_represente sends (server.sending sends) q after (h.buffer hfd).enCours hrun

/-- **A run.** -/
theorem run_enFile (h : EnFile slot server q) (pas : List PasClient) :
    EnFile slot (pas.foldl (pasClient slot) server) (pas.foldl PasClient.file q) := by
  induction pas generalizing server q with
  | nil => exact h
  | cons first pas ih => exact ih (pasClient_enFile h first)

end Pas

/-! ### Lines refused -/

/-- Whoever is disconnected for a line was too late for it: what it has not been sent, with this
line, is more than the bound. -/
def RefusJustes (slot : Slot) (server : IpcServer σ) (pas : List PasClient) : Prop :=
  ∀ before text, before ++ [.ajout text] <+: pas →
    let reached := before.foldl (pasClient slot) server
    (reached.clients slot).fd.isSome → ((pasClient slot reached (.ajout text)).clients slot).fd = none →
      ipcMaxPendingOutput < (reached.clients slot).pending.length + (text.length + 1)

/-- Each line that the queue of the client takes, with what is waiting, it takes with all that was
queued since it was last empty. -/
def PlaceGardee (slot : Slot) (server : IpcServer σ) (pas : List PasClient) : Prop :=
  ∀ before text, before ++ [.ajout text] <+: pas →
    ((before.foldl (pasClient slot) server).clients slot).fd.isSome →
      (fileApres before).Fits ipcMaxPendingOutput (text.length + 1) →
        (fileApres before).HasRoom ipcMaxPendingOutput (text.length + 1)

/-- The bytes of the lines added. -/
def octetsAjoutes : List PasClient → Nat
  | [] => 0
  | .ajout text :: pas => text.length + 1 + octetsAjoutes pas
  | .envoi _ :: pas => octetsAjoutes pas

section Refus

variable {slot : Slot} {server : IpcServer σ}

/-- **Clients are disconnected rightly** in the runs where the bytes sent leave room for each line,
and in no others. -/
theorem refus_de_retard (h : AuRepos slot server) (pas : List PasClient) :
    RefusJustes slot server pas ↔ PlaceGardee slot server pas := by
  have hstep : ∀ before text, ((before.foldl (pasClient slot) server).clients slot).fd.isSome →
      let reached := before.foldl (pasClient slot) server
      (((pasClient slot reached (.ajout text)).clients slot).fd = none ↔
          ¬ (fileApres before).HasRoom ipcMaxPendingOutput (text.length + 1)) ∧
        (ipcMaxPendingOutput < (reached.clients slot).pending.length + (text.length + 1) ↔
          ¬ (fileApres before).Fits ipcMaxPendingOutput (text.length + 1)) := by
    intro before text hfd
    have hreached := run_enFile h.enFile before
    refine ⟨ajout_deconnecte_iff hreached hfd, ?_⟩
    rw [(hreached.buffer hfd).waiting]
    exact Nat.not_le.symm
  constructor
  · intro hjustes before text hin hfd hfits
    obtain ⟨hrefuse, hlate⟩ := hstep before text hfd
    by_contra hroom
    exact hlate.mp (hjustes before text hin hfd (hrefuse.mpr hroom)) hfits
  · intro hplace before text hin reached hfd hnone
    obtain ⟨hrefuse, hlate⟩ := hstep before text hfd
    exact hlate.mpr fun hfits => hrefuse.mp hnone (hplace before text hin hfd hfits)

theorem filerSends_held (q : Queue) (sends : List IpcSend) : (filerSends q sends).held ≤ q.held := by
  fun_induction filerSends q sends with
  | case6 q count sends _ ih =>
    refine ih.trans ?_
    by_cases hall : q.waiting ≤ count
    · rw [Queue.take_all hall]
      exact Nat.zero_le _
    · unfold Queue.held
      rw [Queue.take_left (by omega), Queue.take_waiting]
      omega
  | case2 q sends ih => exact ih
  | _ => exact Nat.le_refl _

theorem file_held (q : Queue) (pas : List PasClient) :
    (pas.foldl PasClient.file q).held ≤ q.held + octetsAjoutes pas := by
  induction pas generalizing q with
  | nil => exact Nat.le_refl _
  | cons first pas ih =>
    refine (ih _).trans ?_
    cases first with
    | ajout text =>
      simp only [PasClient.file, octetsAjoutes, Queue.held, Queue.put_left, Queue.put_waiting]
      omega
    | envoi sends => exact Nat.add_le_add_right (filerSends_held q sends) _

theorem octetsAjoutes_append (pas pas' : List PasClient) :
    octetsAjoutes (pas ++ pas') = octetsAjoutes pas + octetsAjoutes pas' := by
  induction pas with
  | nil => simp [octetsAjoutes]
  | cons first pas ih => cases first <;> simp [octetsAjoutes, ih, Nat.add_assoc]

/-- A short run leaves room. -/
theorem hasRoom_court {pas before : List PasClient} {text : List UInt8} (hin : before ++ [.ajout text] <+: pas)
    (h : octetsAjoutes pas ≤ ipcMaxPendingOutput) :
    (fileApres before).HasRoom ipcMaxPendingOutput (text.length + 1) := by
  obtain ⟨after, rfl⟩ := hin
  have hheld := file_held .empty before
  rw [octetsAjoutes_append, octetsAjoutes_append] at h
  simp only [octetsAjoutes] at h
  unfold Queue.HasRoom
  show (before.foldl PasClient.file .empty).held + (text.length + 1) ≤ ipcMaxPendingOutput
  simp only [Queue.held, Queue.empty] at hheld ⊢
  omega

theorem placeGardee_court {pas : List PasClient} (h : octetsAjoutes pas ≤ ipcMaxPendingOutput) :
    PlaceGardee slot server pas :=
  fun _ _ hin _ _ => hasRoom_court hin h

theorem writeLoop_sans_echec (sends : List IpcSend) (server : IpcServer σ) :
    (∀ outcome ∈ sends, outcome ≠ .failed ∧ outcome ≠ .wrote 0) → (writeLoop slot sends server).1 = .ok () := by
  fun_induction writeLoop slot sends server with
  | case4 | case5 => simp
  | case2 server _ _ sends ih => exact fun h => ih fun o ho => h o (List.mem_cons_of_mem _ ho)
  | case6 server _ _ count sends _ ih => exact fun h => ih fun o ho => h o (List.mem_cons_of_mem _ ho)
  | _ => exact fun _ => rfl

/-- Calls that do not fail lose nobody. -/
theorem envoi_fd {sends : List IpcSend} (hsends : ∀ outcome ∈ sends, outcome ≠ .failed ∧ outcome ≠ .wrote 0) :
    ((pasClient slot server (.envoi sends)).clients slot).fd = (server.clients slot).fd := by
  by_cases hfd : (server.clients slot).fd.isSome
  · have hok : (writeLoop slot sends (server.sending sends)).1 = .ok () := writeLoop_sans_echec sends _ hsends
    have htouche : Touche slot (server.sending sends) (writeLoop slot sends (server.sending sends)).2 :=
      permet_touche.writeLoop sends _
    rw [pasClient_envoi hfd sends, ouFermer]
    rcases hrun : writeLoop slot sends (server.sending sends) with ⟨r, after⟩
    rw [hrun] at hok htouche
    obtain rfl : r = .ok () := hok
    exact htouche.fd
  · rw [pasClient_gone (by simpa using hfd)]

/-- **A client stays** as long as each line has room and no call of `send` fails. -/
theorem reste_connecte (h : AuRepos slot server) (hfd : (server.clients slot).fd.isSome) {pas : List PasClient}
    (hsends : ∀ sends, .envoi sends ∈ pas → ∀ outcome ∈ sends, outcome ≠ .failed ∧ outcome ≠ .wrote 0)
    (hroom : ∀ before text, before ++ [.ajout text] <+: pas →
      (fileApres before).HasRoom ipcMaxPendingOutput (text.length + 1)) :
    ((pas.foldl (pasClient slot) server).clients slot).fd.isSome := by
  induction pas using List.reverseRecOn with
  | nil => exact hfd
  | append_singleton pas last ih =>
    have hbefore := ih (fun sends hmem => hsends sends (List.mem_append_left _ hmem))
      fun before text hin => hroom before text (hin.trans (List.prefix_append _ _))
    rw [List.foldl_append]
    cases last with
    | ajout text =>
      have haccepted := ajout_accepte (run_enFile h.enFile pas) hbefore (hroom pas text List.prefix_rfl)
      show ((pasClient slot _ (.ajout text)).clients slot).fd.isSome
      rw [haccepted.1]
      exact hbefore
    | envoi sends =>
      show ((pasClient slot _ (.envoi sends)).clients slot).fd.isSome
      rw [envoi_fd (hsends sends (by simp))]
      exact hbefore

end Refus

/-- A subscriber, with nothing to be sent. -/
def abonneLent : IpcServer Unit where
  running := true
  clients _ := { IpcClient.libre with fd := some 5, subscribed := true }
  context := ()
  noyau := ⟨[], [], [], [], [], []⟩
  journal := []

theorem refus_de_retard_trois_lignes :
    RefusJustes 0 abonneLent [.ajout [0x61], .ajout [0x62], .envoi [.wrote 2, .wouldBlock], .ajout [0x63]] :=
  (refus_de_retard ⟨rfl, by simp [abonneLent]⟩ _).mpr (placeGardee_court (by decide))

/-! ### Always one line late -/

/-- One line leaves, the next comes. -/
def envoiDUneLigne (text : List UInt8) : PasClient := .envoi [.wrote (text.length + 1), .wouldBlock]

/-- A client that is one line late, round after round: it is sent a line, and another comes. -/
def enRetardDUneLigne (text : List UInt8) (rounds : Nat) : List PasClient :=
  [.ajout text, .ajout text] ++ (List.replicate rounds [envoiDUneLigne text, .ajout text]).flatten

/-- Such a client, before the line of the last round comes. -/
def avantDerniereLigne (slot : Slot) (server : IpcServer σ) (text : List UInt8) (rounds : Nat) : IpcServer σ :=
  (enRetardDUneLigne text rounds ++ [envoiDUneLigne text]).foldl (pasClient slot) server

section Rondes

variable {slot : Slot} {server : IpcServer σ} {text : List UInt8} {rounds : Nat}

theorem enRetardDUneLigne_succ (text : List UInt8) (rounds : Nat) :
    enRetardDUneLigne text (rounds + 1) = enRetardDUneLigne text rounds ++ [envoiDUneLigne text] ++ [.ajout text] := by
  simp [enRetardDUneLigne, List.replicate_succ']

/-- The queue is that of `Queue.rounds_grow`. -/
theorem fileApres_rondes (text : List UInt8) (rounds : Nat) :
    fileApres (enRetardDUneLigne text rounds) =
      (Queue.round (text.length + 1))^[rounds] ((Queue.empty.put (text.length + 1)).put (text.length + 1)) := by
  induction rounds with
  | zero => rfl
  | succ rounds ih =>
    rw [enRetardDUneLigne_succ, Function.iterate_succ_apply', ← ih]
    simp [fileApres, List.foldl_append, PasClient.file, envoiDUneLigne, filerSends, Queue.round]

theorem fileApres_rondes_eq (text : List UInt8) (rounds : Nat) :
    (fileApres (enRetardDUneLigne text rounds)).left = rounds * (text.length + 1) ∧
      (fileApres (enRetardDUneLigne text rounds)).waiting = 2 * (text.length + 1) := by
  have hmore : text.length + 1 < ((Queue.empty.put (text.length + 1)).put (text.length + 1)).waiting := by
    simp [Queue.empty]
  obtain ⟨hleft, hwaiting⟩ := Queue.rounds_grow hmore rounds
  rw [← fileApres_rondes] at hleft hwaiting
  simp only [Queue.put_left, Queue.put_waiting, Queue.empty, Nat.zero_add] at hleft hwaiting
  omega

theorem octetsAjoutes_rondes (text : List UInt8) (rounds : Nat) :
    octetsAjoutes (enRetardDUneLigne text rounds) = (rounds + 2) * (text.length + 1) := by
  induction rounds with
  | zero =>
    simp only [enRetardDUneLigne, octetsAjoutes, List.cons_append, List.nil_append, List.replicate_zero,
      List.flatten_nil]
    omega
  | succ rounds ih =>
    rw [enRetardDUneLigne_succ, octetsAjoutes_append, octetsAjoutes_append, ih]
    simp only [envoiDUneLigne, octetsAjoutes, Nat.add_mul]
    omega

/-- **A client one line late** stays as long as all lines have room, those it was sent included; then it
is disconnected, with one line in its queue. -/
theorem enRetard_deconnecte (h : AuRepos slot server) (hfd : (server.clients slot).fd.isSome)
    (hroom : (rounds + 2) * (text.length + 1) ≤ ipcMaxPendingOutput)
    (hfull : ipcMaxPendingOutput < (rounds + 3) * (text.length + 1)) :
    let reached := avantDerniereLigne slot server text rounds
    (reached.clients slot).fd.isSome ∧ (reached.clients slot).pending.length = text.length + 1 ∧
      pasClient slot reached (.ajout text) = clientReset slot .retard reached := by
  intro reached
  have hqueue : EnFile slot reached (fileApres (enRetardDUneLigne text rounds ++ [envoiDUneLigne text])) :=
    run_enFile h.enFile _
  obtain ⟨hleft, hwaiting⟩ := fileApres_rondes_eq text rounds
  have hfile : fileApres (enRetardDUneLigne text rounds ++ [envoiDUneLigne text]) =
      (fileApres (enRetardDUneLigne text rounds)).take (text.length + 1) := by
    simp [fileApres, List.foldl_append, PasClient.file, envoiDUneLigne, filerSends]
  have hconnected : (reached.clients slot).fd.isSome := by
    refine reste_connecte h hfd (fun sends hmem => ?_) fun before line hin => hasRoom_court hin ?_
    · have hsends : sends = [.wrote (text.length + 1), .wouldBlock] := by
        simp only [enRetardDUneLigne, envoiDUneLigne, List.mem_append, List.mem_flatten, List.mem_replicate] at hmem
        grind
      simp [hsends]
    · rw [octetsAjoutes_append, octetsAjoutes_rondes]
      exact hroom
  refine ⟨hconnected, ?_, ajout_refuse hqueue hconnected ?_⟩
  · rw [(hqueue.buffer hconnected).waiting, hfile, Queue.take_waiting, hwaiting]
    omega
  · rw [hfile]
    unfold Queue.HasRoom Queue.held
    rw [Queue.take_left (by omega), Queue.take_waiting, hleft, hwaiting]
    rw [Nat.add_mul] at hfull
    omega

/-- It was not too late for it. -/
theorem enRetard_injuste (h : AuRepos slot server) (hfd : (server.clients slot).fd.isSome)
    (hroom : (rounds + 2) * (text.length + 1) ≤ ipcMaxPendingOutput)
    (hfull : ipcMaxPendingOutput < (rounds + 3) * (text.length + 1)) :
    ¬ RefusJustes slot server (enRetardDUneLigne text (rounds + 1)) := by
  obtain ⟨hconnected, hpending, hrefused⟩ := enRetard_deconnecte h hfd hroom hfull
  intro hjustes
  have hin : enRetardDUneLigne text rounds ++ [envoiDUneLigne text] ++ [.ajout text] <+:
      enRetardDUneLigne text (rounds + 1) := by
    exact ⟨[], (List.append_nil _).trans (enRetardDUneLigne_succ text rounds).symm⟩
  have hnone : ((pasClient slot (avantDerniereLigne slot server text rounds) (.ajout text)).clients slot).fd =
      none := by
    rw [hrefused, clientReset_same]
    rfl
  have hlate : ipcMaxPendingOutput <
      ((avantDerniereLigne slot server text rounds).clients slot).pending.length + (text.length + 1) :=
    hjustes _ text hin hconnected hnone
  rw [hpending] at hlate
  rw [Nat.add_mul] at hroom
  omega

end Rondes

/-- An event of 127 bytes. -/
def ligneEvenement : List UInt8 := List.replicate 127 0x61

/-- **It is disconnected** after 2046 rounds, with one line of 128 bytes in its queue. -/
theorem refus_de_retard_abonne :
    ((avantDerniereLigne 0 abonneLent ligneEvenement 2046).clients 0).fd.isSome ∧
      ((avantDerniereLigne 0 abonneLent ligneEvenement 2046).clients 0).pending.length = 128 ∧
      pasClient 0 (avantDerniereLigne 0 abonneLent ligneEvenement 2046) (.ajout ligneEvenement) =
        clientReset 0 .retard (avantDerniereLigne 0 abonneLent ligneEvenement 2046) ∧
      ¬ RefusJustes 0 abonneLent (enRetardDUneLigne ligneEvenement 2047) := by
  have hlength : ligneEvenement.length = 127 := List.length_replicate ..
  have hrepos : AuRepos 0 abonneLent := ⟨rfl, by simp [abonneLent]⟩
  have hconnected : (abonneLent.clients 0).fd.isSome := rfl
  have hroom : (2046 + 2) * (ligneEvenement.length + 1) ≤ ipcMaxPendingOutput := by rw [hlength]
  have hfull : ipcMaxPendingOutput < (2046 + 3) * (ligneEvenement.length + 1) := by
    rw [hlength]
    decide
  obtain ⟨hfd, hpending, hrefused⟩ := enRetard_deconnecte hrepos hconnected hroom hfull
  rw [hlength] at hpending
  exact ⟨hfd, hpending, hrefused, enRetard_injuste hrepos hconnected hroom hfull⟩

end AmlService
