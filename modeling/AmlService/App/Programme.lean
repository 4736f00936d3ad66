import AmlService.App.AlarmRuns
import AmlService.App.HandlersRequest
import AmlService.Ipc.Annales

/-!
# AmlService.App.Programme

The service as a whole (`app/service.c`): the handlers behind the server. Whatever its clients send
and however the kernel behaves, its state is one that the handlers reach by their own steps, and
each of its responses is theirs in the state that it had come to (`service_deroule`). So what a run
of the handlers is known to keep holds of the program: a client that is answered the status, and
then gets the events, knows the state of the alarms (`etat_du_reveil_suivi`).
-/

namespace AmlService

open Effect

/-! ### What `main` puts together -/

/-- What `diffuser` sends to the clients. -/
def evenement (name : String) (data : JsonValue) : JsonValue :=
  .obj [("type", .str "event"), ("event", .str name), ("data", data)]

def Obs.evenement? : Obs → Option JsonValue
  | .broadcast name data => some (evenement name data)
  | _ => none

/-- The events of a journal, as they are broadcast. -/
def evenements (journal : List Obs) : List JsonValue := journal.filterMap Obs.evenement?

/-- `service_tick` -/
def serviceTick (s : Service) : Service := handlersTick (sweetdawnTick s)

/-- The periodic task: `service_broadcast` is given what it leaves in the journal. -/
def tacheDuService (s : Service) : Tick Service where
  events := evenements ((serviceTick s).world.journal.drop s.world.journal.length)
  stop := false
  context := serviceTick s

/-- What `ipc_server_set_handler` and `ipc_server_set_tick` are given. -/
def serviceApplication (textes : Textes) : Application Service where
  tick := some tacheDuService
  handler := some fun s command args =>
    let (answer, s) := handlersRequest textes command args s
    (answer.mapError fun e => (some e.code, some e.message), s)

/-- The program, after some turns of its loop. -/
def serviceRun (json : JsonC) (textes : Textes) (device : AmlConfig) (world : World) (noyau : Noyau) (turns : Nat) :
    IpcServer Service :=
  ipcServerRun json (serviceApplication textes) (ipcServerInit (serviceInit device world) noyau) turns

/-! ### Events -/

section Evenements

variable {s : Service} {action : Action}

theorem evenements_append (journal added : List Obs) :
    evenements (journal ++ added) = evenements journal ++ evenements added :=
  List.filterMap_append

theorem evenements_silent {added : List Obs} (h : ∀ o ∈ added, Silent o) : evenements added = [] := by
  refine List.filterMap_eq_nil_iff.mpr fun o ho => ?_
  have hsilent := h o ho
  cases o <;> first | rfl | exact hsilent.elim

/-- Nothing is broadcast outside the periodic task. -/
theorem act_evenements (ha : Attached s) (hne : action ≠ .handlersTick) :
    evenements (act s action).world.journal = evenements s.world.journal := by
  have hnotes : ∀ {b : Service}, Notes Silent s b → evenements b.world.journal = evenements s.world.journal := by
    intro b hb
    obtain ⟨added, hrecorded, -, hsilent⟩ := hb ha
    rw [hrecorded.world.journal, evenements_append, evenements_silent hsilent, List.append_nil]
  rcases act_cases s action with rfl | ⟨command, parent, value, later, stopped, -, htalks, heq⟩ | ⟨-, hstep, -⟩
  · exact absurd rfl hne
  · rw [heq]
    show evenements later.world.journal = _
    exact hnotes (htalks.serves.runs.notes.mono silent_of_ofCore)
  · exact hnotes hstep

theorem act_attached (ha : Attached s) (action : Action) : Attached (act s action) := by
  obtain ⟨_, hrecorded⟩ := act_records s action ha
  exact hrecorded.onEvent.trans ha

/-- The events of the periodic task are those that it adds to the journal. -/
theorem evenements_serviceTick (ha : Attached s) : evenements (serviceTick s).world.journal =
    evenements s.world.journal ++ (tacheDuService s).events := by
  obtain ⟨added, hrecorded⟩ := run_records s [.sweetdawnTick, .handlersTick] ha
  have hjournal : (serviceTick s).world.journal = s.world.journal ++ added := hrecorded.world.journal
  show _ = _ ++ evenements ((serviceTick s).world.journal.drop s.world.journal.length)
  rw [hjournal, List.drop_left, evenements_append]

end Evenements

/-! ### The program and the handlers -/

section Deroule

variable {textes : Textes} {start s : Service} {events : List JsonValue}

/-- A request is at most one step of the handlers, and broadcasts nothing. -/
theorem handlersRequest_act (textes : Textes) (name : String) (args : List JsonValue) (s : Service) :
    (handlersRequest textes name args s).2 = s ∨
      ∃ action, action ≠ .handlersTick ∧ (handlersRequest textes name args s).2 = act s action := by
  rcases handlersRequest_cases textes name args s with ⟨-, heq⟩ | ⟨-, heq⟩ | ⟨e, heq⟩ |
    ⟨found, handler, value, -, -, -, -, heq⟩
  · exact .inr ⟨.status, by simp, by rw [heq]; rfl⟩
  · exact .inl (by rw [heq])
  · exact .inl (by rw [heq])
  · exact .inr ⟨.request handler found.command found.parent value, by simp, by rw [heq]; rfl⟩

theorem repondre_act (textes : Textes) (s : Service) (demande : Demande) :
    (repondre (serviceApplication textes) s demande).2 = s ∨
      ∃ action, action ≠ .handlersTick ∧ (repondre (serviceApplication textes) s demande).2 = act s action := by
  cases demande with
  | refusee error => exact .inl rfl
  | subscribe => exact .inl rfl
  | command command args => exact handlersRequest_act textes command args s

/-- **The states of the program** are those of the handlers, with the events of their journal. -/
theorem vecu_run (ha : Attached start) (h : Vecu (serviceApplication textes) start events s) :
    Attached s ∧ evenements s.world.journal = evenements start.world.journal ++ events ∧
      ∃ actions, s = run start actions := by
  induction h with
  | start => exact ⟨ha, (List.append_nil _).symm, [], rfl⟩
  | @tick task events context htask _ ih =>
    obtain ⟨hattached, hevents, actions, rfl⟩ := ih
    obtain rfl := Option.some.inj htask
    refine ⟨act_attached (act_attached hattached .sweetdawnTick) .handlersTick, ?_,
      actions ++ [.sweetdawnTick, .handlersTick], ?_⟩
    · rw [← List.append_assoc, ← hevents]
      exact evenements_serviceTick hattached
    · rw [run_append]
      rfl
  | @commande events context demande _ ih =>
    obtain ⟨hattached, hevents, actions, rfl⟩ := ih
    rcases repondre_act textes (run start actions) demande with heq | ⟨action, hne, heq⟩ <;> rw [heq]
    · exact ⟨hattached, hevents, actions, rfl⟩
    · refine ⟨act_attached hattached action, (act_evenements hattached hne).trans hevents, actions ++ [action], ?_⟩
      rw [run_append]
      rfl

/-- **The program goes on** by steps of the handlers, and broadcasts their events. -/
theorem Deroule.run {a b : IpcServer Service} (h : Deroule (serviceApplication textes) a b) (ha : Attached a.context) :
    Attached b.context ∧ ∃ actions added, b.context = AmlService.run a.context actions ∧
      b.journal = a.journal ++ added ∧
      evenements b.context.world.journal = evenements a.context.world.journal ++ diffuses added := by
  obtain ⟨added, hjournal, hvecu⟩ := h.vecu
  obtain ⟨hattached, hevents, actions, hcontext⟩ := vecu_run ha hvecu
  exact ⟨hattached, actions, added, hcontext, hjournal, hevents⟩

end Deroule

section Programme

variable {json : JsonC} {textes : Textes} {device : AmlConfig} {world : World} {noyau : Noyau} {turns : Nat}

/-- What the server starts with. -/
abbrev serviceStart (device : AmlConfig) (world : World) (noyau : Noyau) : IpcServer Service :=
  ipcServerInit (serviceInit device world) noyau

/-- **The program is a run of the handlers.** In every state of its loop, as long as there is memory,
its context is what some steps of the handlers lead to, and the events broadcast to the clients are
those of these steps. And each response is the answer of the handlers in the state that the loop was
in when it came to the line: some steps led to that state, with the events broadcast before, and some
lead on from it. -/
theorem service_deroule (json : JsonC) (textes : Textes) (device : AmlConfig) (world : World)
    (hmemoire : ∀ granted ∈ noyau.allocations, granted = true) (turns : Nat) :
    (∃ actions, (serviceRun json textes device world noyau turns).context = run (serviceInit device world) actions ∧
        evenements (run (serviceInit device world) actions).world.journal =
          diffuses (serviceRun json textes device world noyau turns).journal) ∧
      ∀ before slot line response after,
        (serviceRun json textes device world noyau turns).journal = before ++ .processed slot line response :: after →
        ∃ server actions later,
          Traitee json (serviceApplication textes) (serviceStart device world noyau) turns slot line response server ∧
          server.journal = before ∧ server.context = run (serviceInit device world) actions ∧
          evenements server.context.world.journal = diffuses before ∧
          (serviceRun json textes device world noyau turns).context = run server.context later := by
  have hstart : MemoireDisponible (serviceStart device world noyau) := hmemoire
  have hattached : Attached (serviceStart device world noyau).context := serviceInit_attached device world
  constructor
  · have hrun := @ipcServerRun_deroule _ json (serviceApplication textes) _ hstart 0 turns
    rw [Nat.zero_add] at hrun
    obtain ⟨-, actions, added, hcontext, hjournal, hevents⟩ := hrun.run hattached
    refine ⟨actions, hcontext, ?_⟩
    rw [hcontext] at hevents
    exact hevents.trans (congrArg diffuses hjournal.symm)
  · intro before slot line response after hsplit
    obtain ⟨server, hworked, rfl⟩ := ipcServerRun_traitee (serviceStart device world noyau) rfl hsplit
    obtain ⟨hbefore, hafter⟩ := hworked.deroule hstart
    obtain ⟨hthere, actions, added, hcontext, hjournal, hevents⟩ := hbefore.run hattached
    obtain ⟨-, later, -, hlater, -⟩ := hafter.run hthere
    exact ⟨server, actions, later, hworked, rfl, hcontext, hevents.trans (congrArg diffuses hjournal.symm), hlater⟩

end Programme

/-- A request for the status. -/
def requeteStatut : List UInt8 :=
  octets "\x7b\"type\":\"request\",\"id\":1,\"command\":\"status\",\"args\":[]\x7d"

/-- json-c, on that request; what it prints is left blank. -/
def jsonStatut : JsonC where
  parse message :=
    if message = requeteStatut then
      some (.obj [("type", .str "request"), ("id", .int 1), ("command", .str "status"), ("args", .arr [])])
    else none
  print _ := octets "\x7b\x7d"
  print_line _ := by decide

/-- The kernel, for a client that asks for the status. -/
def noyauStatut : Noyau where
  signals := []
  allocations := [true]
  polls :=
    let lisible := fun _ => ⟨true, false, false, false, false⟩
    [.ready true lisible, .ready false lisible]
  accepts := [.connection 5 true]
  recvs := [.bytes (requeteStatut ++ [newline])]
  sends := []

/-- The AML rings after a while. -/
def mondeSonnerie : World :=
  World.answering 1 300 [.quiet, .reply amlRspAlarmStatus [0, 0], .quiet, .quiet, .reply 0xC7 [1], .quiet, .quiet]

/-- The program, in front of them. -/
def programmeSonnerie : IpcServer Service := serviceRun jsonStatut sansTexte amlScripted mondeSonnerie noyauStatut 4

/-- The client and its line, if the entry says that a line was worked off. -/
def IpcObs.ligne? : IpcObs → Option (Slot × List UInt8)
  | .processed slot line _ => some (slot, line)
  | _ => none

/-- The status was worked off. -/
theorem programmeSonnerie_statut : ∃ before response after,
    programmeSonnerie.journal = before ++ .processed 0 requeteStatut response :: after := by
  have hlines : programmeSonnerie.journal.filterMap IpcObs.ligne? = [(0, requeteStatut)] := by decide +kernel
  obtain ⟨o, hmem, hline⟩ := List.mem_filterMap.mp (hlines ▸ List.mem_singleton_self (0, requeteStatut))
  cases o with
  | processed slot line response =>
    cases hline
    obtain ⟨before, after, hsplit⟩ := List.append_of_mem hmem
    exact ⟨before, response, after, hsplit⟩
  | _ => cases hline

/-- The status was worked off before the alarm rang, and the event was broadcast after it. -/
theorem service_deroule_sonnerie : (diffuses programmeSonnerie.journal).length = 1 ∧
    (∃ actions, programmeSonnerie.context = run (serviceInit amlScripted mondeSonnerie) actions ∧
      (evenements (run (serviceInit amlScripted mondeSonnerie) actions).world.journal).length = 1) ∧
    ∃ server response later,
      Traitee jsonStatut (serviceApplication sansTexte) (serviceStart amlScripted mondeSonnerie noyauStatut) 4 0
        requeteStatut response server ∧
      programmeSonnerie.context = run server.context later := by
  have hlength : (diffuses programmeSonnerie.journal).length = 1 := by decide +kernel
  obtain ⟨before, response, after, hsplit⟩ := programmeSonnerie_statut
  obtain ⟨⟨actions, hcontext, hevents⟩, hworked⟩ :=
    service_deroule jsonStatut sansTexte amlScripted mondeSonnerie
      (by decide : ∀ granted ∈ noyauStatut.allocations, _) 4
  obtain ⟨server, -, later, htraitee, -, -, -, hlater⟩ := hworked before 0 requeteStatut response after hsplit
  have hone : (evenements (run (serviceInit amlScripted mondeSonnerie) actions).world.journal).length = 1 := by
    rw [hevents]
    exact hlength
  exact ⟨hlength, ⟨actions, hcontext, hone⟩, server, response, later, htraitee, hlater⟩

/-! ### The state of the alarms, for a client -/

/-- The state of the alarms, if an event tells it. -/
def annonceDe (event : JsonValue) : Option JsonValue :=
  match event.get? "event" with
  | some (.str "alarm_state") => event.get? "data"
  | _ => none

/-- The state of the alarms in the response to a request for the status. -/
def reveilDe (response : JsonValue) : Option JsonValue :=
  (response.get? "result").bind fun result => result.get? "alarm_state"

/-- What a client knows that was told `connu`, and then got these events. -/
def reveilConnu (connu : JsonValue) (events : List JsonValue) : JsonValue :=
  (events.filterMap annonceDe).getLastD connu

section Reveil

variable {json : JsonC} {textes : Textes} {device : AmlConfig} {world : World} {noyau : Noyau} {turns : Nat}

theorem reveilConnu_append (connu : JsonValue) (events later : List JsonValue) :
    reveilConnu connu (events ++ later) = reveilConnu (reveilConnu connu events) later := by
  unfold reveilConnu
  rw [List.filterMap_append, Run.getLastD_append]

theorem annonceDe_evenement (o : Obs) : o.evenement?.bind annonceDe = o.annonce? := by
  cases o with
  | broadcast name data =>
    by_cases hname : name = "alarm_state"
    · subst hname
      rfl
    · simp [Obs.evenement?, Obs.annonce?, annonceDe, evenement, JsonValue.get?, hname]
  | _ => rfl

/-- The last state that was announced is what a client knows that got all the events. -/
theorem derniereAnnonce_eq (journal : List Obs) :
    derniereAnnonce journal = reveilConnu (reveilJson handlersAttach.alarmes) (evenements journal) := by
  unfold derniereAnnonce reveilConnu evenements
  rw [List.filterMap_filterMap]
  congr 1
  exact List.filterMap_congr fun o _ => (annonceDe_evenement o).symm

theorem reveilDe_status (textes : Textes) (s : Service) (request : Option JsonValue) :
    reveilDe (ipcProtocolResponse request (repondre (serviceApplication textes) s (.command "status" [])).1) =
      some (reveilJson s.eventContext.alarmes) := by
  rw [← statusJson_alarmState s]
  rfl

/-- **Whoever is answered the status, and gets the events that follow, knows the state of the alarms**:
at the end of any turn, the last state told by the events broadcast since the response, or else by
the response, is the state that the service has. -/
theorem etat_du_reveil_suivi (hmemoire : ∀ granted ∈ noyau.allocations, granted = true) {slot : Slot}
    {before after : List IpcObs} {line : List UInt8} {response : JsonValue}
    (hsplit : (serviceRun json textes device world noyau turns).journal =
      before ++ .processed slot line response :: after)
    (hstatus : (lireMessage json (sansRetour line)).2 = .command "status" []) :
    ∃ connu, reveilDe response = some connu ∧ reveilConnu connu (diffuses after) =
      reveilJson (serviceRun json textes device world noyau turns).context.eventContext.alarmes := by
  have hstart : MemoireDisponible (serviceStart device world noyau) := hmemoire
  have hattached : Attached (serviceStart device world noyau).context := serviceInit_attached device world
  -- in a state of the program, the state of the alarms is the last one broadcast
  have hknown : ∀ {server : IpcServer Service},
      Deroule (serviceApplication textes) (serviceStart device world noyau) server →
        reveilJson server.context.eventContext.alarmes =
          reveilConnu (reveilJson handlersAttach.alarmes) (diffuses server.journal) := by
    intro server hserver
    obtain ⟨-, actions, added, hcontext, hjournal, hevents⟩ := hserver.run hattached
    have h : Annoncee server.context := by
      rw [hcontext]
      exact run_annoncee (serviceInit_annoncee device world) actions
    rw [← h.suivi.annonce h.reveilChange, derniereAnnonce_eq, hevents, hjournal]
    rfl
  obtain ⟨server, hworked, rfl⟩ := ipcServerRun_traitee (serviceStart device world noyau) rfl hsplit
  obtain ⟨hbefore, hafter⟩ := hworked.deroule hstart
  refine ⟨reveilJson server.context.eventContext.alarmes, ?_, ?_⟩
  · rw [hworked.reponse, reponseA]
    dsimp only
    rw [hstatus]
    exact reveilDe_status textes server.context _
  · have hjournal : diffuses (serviceRun json textes device world noyau turns).journal =
        diffuses server.journal ++ diffuses after := by
      rw [hsplit, diffuses_append]
      rfl
    rw [hknown hbefore, ← reveilConnu_append, ← hjournal]
    exact (hknown (hbefore.trans hafter)).symm

end Reveil

/-- The client learns that the alarm rings from the event that follows its response. -/
theorem etat_du_reveil_suivi_sonnerie : ∃ before response after connu,
    programmeSonnerie.journal = before ++ .processed 0 requeteStatut response :: after ∧
      reveilDe response = some connu ∧
      ((reveilConnu connu (diffuses after)).get? "alarm").isSome = true ∧
      (programmeSonnerie.context.eventContext.alarmes 0).etat = .sonne := by
  obtain ⟨before, response, after, hsplit⟩ := programmeSonnerie_statut
  have hstatus : (lireMessage jsonStatut (sansRetour requeteStatut)).2 = .command "status" [] := by
    rfl
  obtain ⟨connu, hconnu, hknown⟩ := etat_du_reveil_suivi
    (by decide : ∀ granted ∈ noyauStatut.allocations, granted = true) hsplit hstatus
  refine ⟨before, response, after, connu, hsplit, hconnu, ?_, by decide +kernel⟩
  rw [hknown]
  decide +kernel

end AmlService
