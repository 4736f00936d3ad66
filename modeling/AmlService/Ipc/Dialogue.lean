import AmlService.Ipc.ServerLoop
import AmlService.Lib.LineReader

/-!
# AmlService.Ipc.Dialogue

**What passes between the server and a client**, connected or gone: what the client was sent is
the beginning of one line for each response and each event it is owed (`ipcServerRun_tient`), and
each response is the one that the application gives to the line, in the state that it was in when
the loop came to it (`ipcServerRun_traitee`).

`ClientStream` says this of the clients that are connected, for what is still to be sent, and
takes the responses as they come. A client that is gone was owed more than it got, so that what
is left of its stream is a beginning.
-/

namespace AmlService

open Effect

variable {σ : Type}

/-! ### What the application answers -/

/-- What is answered to what a message asks for, and the state it leaves. -/
def repondre (app : Application σ) (context : σ) : Demande → Except IpcError JsonValue × σ
  | .refusee error => (.error error, context)
  | .subscribe => (.ok (.obj [("subscribed", .bool true)]), context)
  | .command command args =>
    match app.handler with
    | none => (.error ⟨"COMMAND_NOT_IMPLEMENTED", "Aucun gestionnaire de commandes n'est configure"⟩, context)
    | some handler =>
      ((handler context command args).1.mapError fun (code, message) =>
        ⟨code.getD "COMMAND_FAILED", message.getD "La commande a echoue"⟩, (handler context command args).2)

/-- The response to a line, in a state of the application. -/
def reponseA (json : JsonC) (app : Application σ) (context : σ) (line : List UInt8) : JsonValue :=
  let (request, demande) := lireMessage json (sansRetour line)
  ipcProtocolResponse request (repondre app context demande).1

/-- What the streams of a client are, whether it is still there or not. -/
structure Tient (json : JsonC) (l : Liaison) : Prop where
  sent : l.sent <+: Lines.join newline (l.queued.map json.print)
  lines : Lines.join newline l.lines <+: l.received
  unies : ∀ line ∈ l.lines, newline ∉ line

section Tient

variable {json : JsonC} {slot : Slot} {l : Liaison}

theorem Tient.vide : Tient json .vide := ⟨List.nil_prefix, List.nil_prefix, by simp [Liaison.vide]⟩

theorem Conforme.tient {client : IpcClient} (h : Conforme json client l) : Tient json l :=
  ⟨⟨_, h.output⟩, ⟨_, h.input.symm⟩, h.lines⟩

theorem Tient.event (h : Tient json l) (event : JsonValue) : Tient json (l.step json slot (.broadcast event)) := by
  rw [Liaison.step]
  split
  · refine ⟨h.sent.trans ?_, h.lines, h.unies⟩
    rw [List.map_append, Lines.join_append]
    exact List.prefix_append _ _
  · exact h

/-- **What a client has received** of what is queued for it is made of the first values, and of all of them
if it has received everything. -/
theorem Tient.recues (h : Tient json l) {received : List UInt8} (hout : received <+: l.sent) :
    ∃ values, values <+: l.queued ∧ (Lines.split newline received).1 = values.map json.print ∧
      (received = Lines.join newline (l.queued.map json.print) → values = l.queued) := by
  have hprinted := json.print_lines l.queued
  have hfirst := List.prefix_iff_eq_take.mp (Lines.split_of_prefix (hout.trans h.sent) hprinted)
  refine ⟨_, List.take_prefix _ _, by rw [List.map_take]; exact hfirst, fun hall => ?_⟩
  have hsplit := Lines.split_join hprinted List.not_mem_nil
  rw [List.append_nil, ← hall] at hsplit
  rw [hsplit, List.length_map, List.take_length]

end Tient

/-! ### What a client is owed -/

section Du

variable {json : JsonC} {slot : Slot}

/-- **The first line is answered first**: the journal has the entry of its response. -/
theorem liaison_premiere (journal : List IpcObs) :
    ((liaison json slot journal).lines = [] ∧ (liaison json slot journal).queued = [] ∧
        (liaison json slot journal).subscribed = false) ∨
      ∃ before line response after others more, journal = before ++ .processed slot line response :: after ∧
        (liaison json slot journal).lines = line :: others ∧
        (liaison json slot journal).queued = response :: more := by
  induction journal using List.reverseRecOn with
  | nil => exact .inl ⟨rfl, rfl, rfl⟩
  | append_singleton journal o ih =>
    rw [liaison_log]
    -- an entry that changes neither the lines nor what is queued
    have hsame : ∀ l : Liaison, l.lines = (liaison json slot journal).lines →
        l.queued = (liaison json slot journal).queued → l.subscribed = (liaison json slot journal).subscribed →
        (l.lines = [] ∧ l.queued = [] ∧ l.subscribed = false) ∨ ∃ before line response after others more,
          journal ++ [o] = before ++ .processed slot line response :: after ∧ l.lines = line :: others ∧
            l.queued = response :: more := by
      intro l hlines hqueued hsubscribed
      rw [hlines, hqueued, hsubscribed]
      refine ih.imp_right fun hfirst => ?_
      obtain ⟨before, line, response, after, others, more, hjournal, hfirst⟩ := hfirst
      exact ⟨before, line, response, after ++ [o], others, more, by rw [hjournal]; simp, hfirst⟩
    cases o with
    | accepted s fd =>
      rw [Liaison.step]
      split
      · exact .inl ⟨rfl, rfl, rfl⟩
      · exact hsame _ rfl rfl rfl
    | received s bytes | sent s bytes =>
      rw [Liaison.step]
      split <;> exact hsame _ rfl rfl rfl
    | processed s line response =>
      rw [Liaison.step]
      split
      swap
      · exact hsame _ rfl rfl rfl
      next hs =>
      subst hs
      right
      rcases ih with ⟨hlines, hqueued, -⟩ | ⟨before, first, response', after, others, more, hjournal, hlines, hqueued⟩
      · exact ⟨journal, line, response, [], [], [], rfl, by simp [hlines], by simp [hqueued]⟩
      · refine ⟨before, first, response', after ++ [.processed s line response], others ++ [line], more ++ [response],
          by rw [hjournal]; simp, ?_, ?_⟩
        · simp [hlines]
        · simp [hqueued]
    | broadcast event =>
      rw [Liaison.step]
      split
      swap
      · exact hsame _ rfl rfl rfl
      next hsubscribed =>
      right
      rcases ih with ⟨-, -, hnot⟩ | ⟨before, first, response, after, others, more, hjournal, hlines, hqueued⟩
      · rw [hnot] at hsubscribed
        cases hsubscribed
      · exact ⟨before, first, response, after ++ [.broadcast event], others, more ++ [event],
          by rw [hjournal]; simp, hlines, by simp [hqueued]⟩
    | closed s reason => exact hsame _ rfl rfl rfl

/-- Who has subscribed has asked for it; who has not is queued its responses, and nothing else. -/
theorem liaison_abonnement (journal : List IpcObs) :
    ((liaison json slot journal).subscribed = true →
        ∃ line ∈ (liaison json slot journal).lines, demandeAbonnement json line = true) ∧
      ((liaison json slot journal).subscribed = false →
        (liaison json slot journal).queued.length = (liaison json slot journal).lines.length) := by
  induction journal using List.reverseRecOn with
  | nil => exact ⟨fun h => (by cases h), fun _ => rfl⟩
  | append_singleton journal o ih =>
    rw [liaison_log]
    cases o with
    | accepted s fd =>
      rw [Liaison.step]
      split
      · exact ⟨fun h => (by cases h), fun _ => rfl⟩
      · exact ih
    | received s bytes | sent s bytes =>
      rw [Liaison.step]
      split <;> exact ih
    | processed s line response =>
      rw [Liaison.step]
      split
      swap
      · exact ih
      refine ⟨fun h => ?_, fun h => ?_⟩
      · rcases Bool.or_eq_true_iff.mp h with hbefore | hline
        · obtain ⟨earlier, hmem, hasked⟩ := ih.1 hbefore
          exact ⟨earlier, List.mem_append_left _ hmem, hasked⟩
        · exact ⟨line, List.mem_append_right _ (List.mem_singleton.mpr rfl), hline⟩
      · show (_ ++ [response]).length = (_ ++ [line]).length
        rw [List.length_append, List.length_append, ih.2 (Bool.or_eq_false_iff.mp h).1]
        rfl
    | broadcast event =>
      rw [Liaison.step]
      split
      · next hsubscribed =>
        refine ⟨ih.1, fun h => ?_⟩
        rw [show (liaison json slot journal).subscribed = false from h] at hsubscribed
        cases hsubscribed
      · exact ih
    | closed s reason => exact ih

end Du

/-! ### Answering -/

section Answering

variable {json : JsonC} {app : Application σ} {start : σ} {slot : Slot} {a b : IpcServer σ}

theorem traiterDemande_repond (demande : Demande) :
    ∃ b, traiterDemande app slot demande a = (.ok (repondre app a.context demande).1, b) ∧
      b.context = (repondre app a.context demande).2 ∧ b.noyau = a.noyau := by
  cases demande with
  | refusee error => exact ⟨a, rfl, rfl, rfl⟩
  | subscribe => exact ⟨_, rfl, rfl, rfl⟩
  | command command args =>
    unfold traiterDemande repondre
    cases app.handler with
    | none => exact ⟨a, rfl, rfl, rfl⟩
    | some handler => exact ⟨_, rfl, rfl, rfl⟩

/-- The entry is about a client: no line is worked off, no event is broadcast. -/
def IpcObs.neutre : IpcObs → Bool
  | .processed _ _ _ | .broadcast _ => false
  | _ => true

/-- Nothing is answered, nothing is broadcast, and the application is left alone. -/
structure Neutre (a b : IpcServer σ) : Prop where
  context : b.context = a.context
  journal : ∃ added, b.journal = a.journal ++ added ∧ ∀ o ∈ added, o.neutre = true
  allocations : b.noyau.allocations <:+ a.noyau.allocations

instance : IsPreorder (IpcServer σ) Neutre where
  refl _ := ⟨rfl, ⟨[], by simp⟩, List.suffix_rfl⟩
  trans a b c := by
    intro hab hbc
    obtain ⟨added, hadded, hnone⟩ := hab.journal
    obtain ⟨added', hadded', hnone'⟩ := hbc.journal
    refine ⟨hbc.context.trans hab.context, ⟨added ++ added', ?_, ?_⟩, hbc.allocations.trans hab.allocations⟩
    · rw [hadded', hadded, List.append_assoc]
    · exact fun o ho => (List.mem_append.mp ho).elim (hnone o) (hnone' o)

theorem Neutre.same (hcontext : b.context = a.context) (hjournal : b.journal = a.journal)
    (hallocations : b.noyau.allocations = a.noyau.allocations) : Neutre a b :=
  ⟨hcontext, ⟨[], by simp [hjournal]⟩, hallocations ▸ List.suffix_rfl⟩

theorem Neutre.modify_log (a : IpcServer σ) (slot : Slot) (f : IpcClient → IpcClient) {o : IpcObs}
    (ho : o.neutre = true) : Neutre a ((a.modify slot f).log o) :=
  ⟨rfl, ⟨[o], rfl, by simpa using ho⟩, List.suffix_rfl⟩

theorem writeLoop_neutre (sends : List IpcSend) (server : IpcServer σ) :
    Neutre server (writeLoop slot sends server).2 := by
  fun_induction writeLoop slot sends server with
  | case2 server _ _ sends ih => exact ih
  | case6 server _ _ count sends _ ih =>
    exact trans_of Neutre (.modify_log server slot (fun client => client.advance count) rfl) ih
  | _ => exact .same rfl rfl rfl

theorem readClient_neutre : Keeps Neutre (readClient slot : IpcM σ Unit) := by
  intro server
  unfold readClient
  dsimp only
  split
  · exact .same rfl rfl rfl
  split
  · exact .same rfl rfl rfl
  split
  · exact .same rfl rfl rfl
  · exact ⟨rfl, ⟨[.received slot _], rfl, by simp [IpcObs.neutre]⟩, List.suffix_rfl⟩
  · exact .same rfl rfl rfl
  · exact .same rfl rfl rfl

theorem servirClient_neutre (events : Revents) :
    Keeps Neutre (servirClient slot events : IpcM σ Unit) := by
  refine .ite (fun _ => .throw _) fun _ => .bind ?_ fun _ => .bind ?_ fun _ => ?_
  · exact .bind .get fun _ => .ite (fun _ => readClient_neutre) fun _ => .pure _
  · exact .bind .get fun _ => .ite (fun _ server => writeLoop_neutre server.noyau.sends server) fun _ => .pure _
  · exact .ite (fun _ => .throw _) fun _ => .pure _

/-- Nothing is noted, and the application is left alone. -/
structure SansTrace (a b : IpcServer σ) : Prop where
  context : b.context = a.context
  journal : b.journal = a.journal
  allocations : b.noyau.allocations <:+ a.noyau.allocations

instance : IsPreorder (IpcServer σ) SansTrace where
  refl _ := ⟨rfl, rfl, List.suffix_rfl⟩
  trans _ _ _ hab hbc :=
    ⟨hbc.context.trans hab.context, hbc.journal.trans hab.journal, hbc.allocations.trans hab.allocations⟩

theorem allouer_sansTrace : Keeps SansTrace (allouer : IpcM σ Unit) := by
  intro server
  unfold allouer
  split
  · exact ⟨rfl, rfl, List.suffix_rfl⟩
  · next granted rest heq =>
    refine ⟨rfl, rfl, ?_⟩
    rw [heq]
    exact List.suffix_cons granted rest

theorem clientAppend_sansTrace (text : List UInt8) : Keeps SansTrace (clientAppend slot text : IpcM σ Unit) := by
  refine .bind .get fun _ => .ite (fun _ => .throw _) fun _ => .bind allouer_sansTrace fun _ => .act fun _ => ?_
  exact ⟨rfl, rfl, List.suffix_rfl⟩

theorem queueResponse_sansTrace (response : JsonValue) :
    Keeps SansTrace (queueResponse json slot response : IpcM σ Unit) := by
  exact .bind allouer_sansTrace fun _ => clientAppend_sansTrace _

/-- **A message is carried out by the application**; its response is the one given, if it can be
queued. -/
theorem processMessage_repond (message : List UInt8) :
    (processMessage json app slot message a).2.context = (repondre app a.context (lireMessage json message).2).2 ∧
      (processMessage json app slot message a).2.journal = a.journal ∧
      (processMessage json app slot message a).2.noyau.allocations <:+ a.noyau.allocations ∧
      ∀ response b, processMessage json app slot message a = (.ok response, b) →
        response = ipcProtocolResponse (lireMessage json message).1
          (repondre app a.context (lireMessage json message).2).1 := by
  obtain ⟨c, hdemande, hcontext, hnoyau⟩ := @traiterDemande_repond _ app slot a (lireMessage json message).2
  have hjournal := (traiterDemande_ok hdemande).2
  have hrun : processMessage json app slot message a = (do
      queueResponse json slot (ipcProtocolResponse (lireMessage json message).1
        (repondre app a.context (lireMessage json message).2).1)
      return ipcProtocolResponse (lireMessage json message).1
        (repondre app a.context (lireMessage json message).2).1 : IpcM σ JsonValue) c :=
    bind_run_ok hdemande
  rw [hrun]
  generalize ipcProtocolResponse (lireMessage json message).1 (repondre app a.context _).1 = response
  have hkeeps : Keeps SansTrace (do
      queueResponse json slot response
      return response : IpcM σ JsonValue) := .bind (queueResponse_sansTrace _) fun _ => .pure _
  have hc := hkeeps c
  refine ⟨hc.context.trans hcontext, hc.journal.trans hjournal, hnoyau ▸ hc.allocations, ?_⟩
  intro response' b h
  obtain ⟨_, d, -, hpure⟩ := bind_run_inv h
  exact (Except.ok.inj (Prod.mk.inj hpure).1).symm

/-- **What taking a line off a buffer leaves**: the application has carried out what the line asks for,
if there is one, and its response is noted if it could be queued. -/
theorem processBufferedMessage_repond :
    ((processBufferedMessage json app slot a).2.context = a.context ∨
        ∃ demande, (processBufferedMessage json app slot a).2.context = (repondre app a.context demande).2) ∧
      (processBufferedMessage json app slot a).2.noyau.allocations <:+ a.noyau.allocations ∧
      ((processBufferedMessage json app slot a).2.journal = a.journal ∨
        ∃ line rest, Lines.cut newline (a.clients slot).input = some (line, rest) ∧
          processBufferedMessage json app slot a = (.ok true, (processBufferedMessage json app slot a).2) ∧
          (processBufferedMessage json app slot a).2.journal =
            a.journal ++ [.processed slot line (reponseA json app a.context line)]) := by
  unfold processBufferedMessage
  rw [bind_run_ok (get_run a)]
  rcases hcut : Lines.cut newline (a.clients slot).input with _ | ⟨line, rest⟩
  · exact ⟨.inl rfl, List.suffix_rfl, .inl rfl⟩
  dsimp only
  rw [bind_run_ok (rfl : Fallible.act _ a = (.ok (), a.modify slot fun client => client.consume (line.length + 1)))]
  obtain ⟨hcontext, hjournal, hallocations, hanswer⟩ := @processMessage_repond _ json app slot
    (a.modify slot fun client => client.consume (line.length + 1)) (sansRetour line)
  rcases hmessage : processMessage json app slot (sansRetour line)
      (a.modify slot fun client => client.consume (line.length + 1)) with ⟨reason | response, d⟩ <;>
    rw [hmessage] at hcontext hjournal hallocations
  · rw [bind_run_error hmessage]
    exact ⟨.inr ⟨_, hcontext⟩, hallocations, .inl hjournal⟩
  · rw [bind_run_ok hmessage]
    refine ⟨.inr ⟨_, hcontext⟩, hallocations, .inr ⟨line, rest, rfl, rfl, ?_⟩⟩
    obtain rfl : response = reponseA json app a.context line := hanswer response d hmessage
    show d.journal ++ [_] = _
    rw [hjournal]
    rfl

end Answering

/-- However a client is served, its streams are in order. -/
theorem servirClient_enOrdre {json : JsonC} {slot : Slot} {events : Revents} {a : IpcServer σ}
    (hconf : EnOrdre json slot a) : EnOrdre json slot (servirClient slot events a).2 := by
  unfold servirClient
  split
  · exact hconf
  have hread : ∀ r c, lireSiPret slot events a = (r, c) → EnOrdre json slot c := by
    intro r c h
    rw [lireSiPret, bind_run_ok (get_run a)] at h
    split at h
    · cases r with
      | ok u => exact readClient_conforme h hconf
      | error reason =>
        have hsame : (readClient slot a).2.clients = a.clients ∧ (readClient slot a).2.journal = a.journal := by
          unfold readClient at h ⊢
          dsimp only at h ⊢
          split at h
          · next hfull => simp [hfull]
          next hroom =>
          rw [if_neg hroom]
          split at h
          · cases h
          split at h <;> first | cases h; done | exact ⟨rfl, rfl⟩
        rw [h] at hsame
        rw [EnOrdre, hsame.1, hsame.2]
        exact hconf
    · obtain ⟨-, rfl⟩ := Prod.mk.inj h
      exact hconf
  rw [bind_run]
  rcases hrun : lireSiPret slot events a with ⟨reason | _, c⟩
  · exact hread _ c hrun
  have hc := hread _ c hrun
  dsimp only
  have hwrite : EnOrdre json slot (ecrireSiPret slot events c).2 := by
    rw [ecrireSiPret, bind_run_ok (get_run c)]
    split
    · exact writeLoop_conforme c.noyau.sends c hc
    · exact hc
  rw [bind_run]
  rcases hsent : ecrireSiPret slot events c with ⟨reason | _, d⟩ <;> rw [hsent] at hwrite
  · exact hwrite
  · dsimp only
    split <;> exact hwrite

/-! ### What the loop keeps -/

section Boucle

variable {json : JsonC} {app : Application σ} {slot : Slot} {a b : IpcServer σ}

/-- The streams of all clients that there are or were. -/
def BienTenu (json : JsonC) (server : IpcServer σ) : Prop := ∀ slot, Tient json (liaison json slot server.journal)

theorem BienTenu.congr (h : BienTenu json a) (hjournal : b.journal = a.journal) : BienTenu json b := by
  rw [BienTenu, hjournal]
  exact h

/-- A client served: what is left is what its own streams are. -/
theorem BienTenu.ouFermer {α : Type} {m : IpcM σ α} (h : BienTenu json a) (ht : Touche slot a (m a).2)
    (htient : Tient json (liaison json slot (m a).2.journal)) : BienTenu json (ouFermer slot m a) := by
  intro s
  by_cases hs : s = slot
  · subst hs
    unfold AmlService.ouFermer
    rcases hm : m a with ⟨reason | _, b⟩ <;> rw [hm] at htient
    · rwa [clientReset_liaison]
    · exact htient
  · rw [ouFermer_liaison ht hs]
    exact h s

theorem clientAppend_bienTenu (h : BienTenu json a) (text : List UInt8) :
    BienTenu json (ouFermer slot (clientAppend slot text) a) := by
  refine h.ouFermer (clientAppend_touche text a) ?_
  rw [(@clientAppend_sansTrace _ slot text a).journal]
  exact h slot

theorem broadcast_bienTenu (h : BienTenu json a) (event : JsonValue) :
    BienTenu json (ipcServerBroadcast json a event) := by
  unfold ipcServerBroadcast
  have htrace := allouer_sansTrace a
  rcases halloc : allouer a with ⟨reason | u, b⟩ <;> rw [halloc] at htrace
  · exact h.congr htrace.journal
  have hlogged : BienTenu json (b.log (.broadcast event)) := by
    intro s
    rw [IpcServer.log_journal, liaison_log]
    exact (h.congr htrace.journal s).event event
  refine List.foldlRecOn _ _ hlogged fun c hc slot _ => ?_
  unfold mettreEnFile
  split
  · exact clientAppend_bienTenu hc _
  · exact hc

/-- **A line** worked off. -/
theorem traiterLigne_bienTenu (hflux : Flux json a) (h : BienTenu json a) (slot : Slot) :
    BienTenu json (traiterLigne json app a slot) := by
  unfold traiterLigne
  split
  swap
  · exact h
  next hready =>
  obtain ⟨-, -, hjournal⟩ := @processBufferedMessage_repond _ json app slot a
  refine h.ouFermer (processBufferedMessage_touche app a) ?_
  rcases hjournal with hjournal | ⟨line, rest, -, hrun, -⟩
  · rw [hjournal]
    exact h slot
  · exact (processBufferedMessage_conforme hrun (hflux.enOrdre slot hready.1)).tient

theorem placer_bienTenu (hrangee : Rangee json a) (h : BienTenu json a) (fd : Nat) :
    BienTenu json (placer fd a) := by
  rcases placer_inv hrangee fd with heq | ⟨slot, hjournal, -, -⟩
  · rwa [heq]
  intro s
  rw [hjournal, liaison_log, Liaison.step]
  split
  · exact .vide
  · exact h s

/-- **A client that is ready**: no line of it is worked off there. -/
theorem servirFd_bienTenu {revents : Nat → Revents} {polled : Nat × Bool} (hflux : Flux json a)
    (h : BienTenu json a) : BienTenu json (servirFd revents a polled) := by
  unfold servirFd
  split
  · exact h
  next slot hslot =>
  have hfd : (a.clients slot).fd = some polled.1 := by
    simpa using List.find?_some hslot
  have hsome : (a.clients slot).fd.isSome := by rw [hfd]; rfl
  have hconf := @servirClient_enOrdre _ json slot ((revents polled.1).asked polled.2) a (hflux.enOrdre slot hsome)
  exact h.ouFermer (servirClient_touche _ a) hconf.tient

/-! ### Runs -/

theorem acceptLoop_bienTenu (accepts : List IpcAccept) (hflux : Flux json a) (h : BienTenu json a) :
    BienTenu json (acceptLoop accepts a) := by
  induction accepts generalizing a with
  | nil => exact h.congr rfl
  | cons outcome accepts ih =>
    cases outcome with
    | interrupted => exact ih hflux h
    | wouldBlock => exact h.congr rfl
    | failed => exact h.congr rfl
    | connection fd nonblocking =>
      rw [acceptLoop]
      split
      · next hnew => exact ih (placer_flux hflux hnew.2) (placer_bienTenu hflux.toRangee h fd)
      · exact ih hflux h

theorem attendre_bienTenu (hflux : Flux json a) (hnone : ∀ slot, SansLigne slot a) (h : BienTenu json a) :
    BienTenu json (attendre a) := by
  unfold attendre
  split
  · exact h
  next outcome polls _ =>
  dsimp only
  have hpolled : Flux json { a with noyau := { a.noyau with polls } } := hflux.congr rfl rfl
  have harme : ∀ p ∈ pollFds a, Arme { a with noyau := { a.noyau with polls } } p :=
    pollFds_arme hflux.toRangee hnone
  have hserve : ∀ {revents : Nat → Revents} {b : IpcServer σ}, Flux json b → BienTenu json b →
      (∀ p ∈ pollFds a, Arme b p) → BienTenu json ((pollFds a).foldl (servirFd revents) b) := by
    intro revents b hb htenu harme
    refine (servir_invariant (I := fun b => Flux json b ∧ BienTenu json b) ?_
      (pollFds_nodup hflux.toRangee) harme ⟨hb, htenu⟩).2
    exact fun c polled hc harmed => ⟨servirFd_flux hc.1 harmed, servirFd_bienTenu hc.1 hc.2⟩
  split
  · exact h.congr rfl
  · exact h.congr rfl
  · exact h.congr rfl
  · next listen revents _ =>
    cases listen with
    | false => exact hserve hpolled (h.congr rfl) harme
    | true =>
      obtain ⟨haccepted, harme⟩ := acceptLoop_flux _ hpolled harme
      exact hserve haccepted (acceptLoop_bienTenu _ hpolled (h.congr rfl)) harme

theorem appelerTick_bienTenu (h : BienTenu json a) : BienTenu json (appelerTick json app a) :=
  appelerTick_invariant (I := BienTenu json) (fun _ _ hs _ hjournal => hs.congr hjournal)
    (fun _ event hs => broadcast_bienTenu hs event) h

theorem arreter_bienTenu (h : BienTenu json a) : BienTenu json (arreter a) := by
  have hstopped : BienTenu json { a with running := false } := h.congr rfl
  refine List.foldlRecOn _ _ hstopped fun b hb slot _ => ?_
  split
  · intro s
    rw [clientReset_liaison]
    exact hb s
  · exact hb

/-- **One turn.** -/
theorem tour_bienTenu (hflux : Flux json a) (h : BienTenu json a) :
    BienTenu json (tour json app a) := by
  have hlook : ∀ s : IpcServer σ, BienTenu json s → BienTenu json (arretDemandeLu s).2 := by
    intro s hs
    unfold arretDemandeLu
    split <;> exact hs.congr rfl
  have hbefore : BienTenu json (avantLignes json app a).2 :=
    avantLignes_invariant hlook (fun _ hs => appelerTick_bienTenu hs) h
  rw [tour_eq]
  split
  · exact arreter_bienTenu hbefore
  · have hlines : Flux json (traiterLignes json app (avantLignes json app a).2) ∧
        BienTenu json (traiterLignes json app (avantLignes json app a).2) :=
      List.foldlRecOn _ _ (motive := fun b => Flux json b ∧ BienTenu json b) ⟨avantLignes_flux hflux, hbefore⟩
        fun b hb slot _ => ⟨traiterLigne_flux hb.1 slot, traiterLigne_bienTenu hb.1 hb.2 slot⟩
    exact attendre_bienTenu hlines.1 (traiterLignes_sansLigne app _) hlines.2

/-- **A run**, from the start. -/
theorem ipcServerRun_tient (json : JsonC) (app : Application σ) (context : σ) (noyau : Noyau) (turns : Nat) :
    BienTenu json (ipcServerRun json app (ipcServerInit context noyau) turns) := by
  have hstart : BienTenu json (ipcServerInit context noyau) := fun _ => .vide
  exact (ipcServerRun_invariant (I := fun s => Flux json s ∧ BienTenu json s)
    (fun _ hs => ⟨tour_flux hs.1, tour_bienTenu hs.1 hs.2⟩) ⟨ipcServerInit_flux context noyau, hstart⟩ turns).2

end Boucle

/-! ### One client -/

section Client

variable {json : JsonC} {app : Application σ} {context : σ} {noyau : Noyau} {turns : Nat} {slot : Slot}
  {journal : List IpcObs} {line : List UInt8}

/-- The streams of the client of a slot, after some turns of the server. -/
def liaisonApres (json : JsonC) (app : Application σ) (context : σ) (noyau : Noyau) (turns : Nat) (slot : Slot) :
    Liaison :=
  liaison json slot (ipcServerRun json app (ipcServerInit context noyau) turns).journal

theorem liaisonApres_tient : Tient json (liaisonApres json app context noyau turns slot) :=
  ipcServerRun_tient json app context noyau turns slot

/-- **A client that sends one line** is answered once, first, or not yet. -/
theorem une_ligne (h : Tient json (liaison json slot journal)) (hline : newline ∉ line)
    (hin : (liaison json slot journal).received <+: line ++ [newline]) :
    ((liaison json slot journal).lines = [] ∧ (liaison json slot journal).queued = []) ∨
      (liaison json slot journal).lines = [line] ∧ ∃ before response after more,
        journal = before ++ .processed slot line response :: after ∧
          (liaison json slot journal).queued = response :: more := by
  have hlines := Lines.lines_of_one (h.lines.trans hin) h.unies hline
  rcases @liaison_premiere json slot journal with
    ⟨hnone, hempty, -⟩ | ⟨before, first, response, after, others, more, hjournal, hfirst, hqueued⟩
  · exact .inl ⟨hnone, hempty⟩
  · right
    rcases hlines with hnone | hone
    · rw [hnone] at hfirst
      cases hfirst
    · rw [hone] at hfirst
      obtain ⟨rfl, rfl⟩ := List.cons.inj hfirst
      exact ⟨hone, before, response, after, more, hjournal, hqueued⟩

/-- What a client sends that is no subscription has one response, and nothing follows it. -/
theorem une_ligne_seule (h : Tient json (liaison json slot journal)) (hline : newline ∉ line)
    (hin : (liaison json slot journal).received <+: line ++ [newline])
    (hnot : demandeAbonnement json line = false) :
    ((liaison json slot journal).lines = [] ∧ (liaison json slot journal).queued = []) ∨
      (liaison json slot journal).lines = [line] ∧ ∃ before response after,
        journal = before ++ .processed slot line response :: after ∧
          (liaison json slot journal).queued = [response] := by
  refine (une_ligne h hline hin).imp_right fun hone => ?_
  obtain ⟨hlines, before, response, after, more, hjournal, hqueued⟩ := hone
  obtain ⟨hasked, hlength⟩ := @liaison_abonnement json slot journal
  have hsubscribed : (liaison json slot journal).subscribed = false := by
    rw [← Bool.not_eq_true]
    intro htrue
    obtain ⟨worked, hmem, hworked⟩ := hasked htrue
    rw [hlines] at hmem
    rw [List.mem_singleton.mp hmem, hnot] at hworked
    cases hworked
  have hlength := hlength hsubscribed
  rw [hqueued, hlines] at hlength
  obtain rfl : more = [] := List.length_eq_zero_iff.mp (Nat.succ.inj hlength)
  exact ⟨hlines, before, response, after, hjournal, hqueued⟩

/-- A line that ends with the brace of an object, which json-c reads. -/
theorem lireMessage_objet {fields : List (String × JsonValue)} (hfin : line.getLast? = some 0x7D)
    (hparse : json.parse line = some (.obj fields)) :
    lireMessage json (sansRetour line) = (some (.obj fields), lireEnveloppe (.obj fields)) := by
  have hsans : sansRetour line = line := by
    unfold sansRetour
    rw [hfin]
    exact if_neg (by decide)
  have hne : line.length ≠ 0 := by
    intro hlength
    rw [List.length_eq_zero_iff.mp hlength] at hfin
    cases hfin
  have hread : ipcProtocolParse json line = some (.obj fields) := by
    unfold ipcProtocolParse
    rw [if_neg hne, hparse]
  unfold lireMessage
  rw [hsans, hread]

end Client

end AmlService
