import AmlService.Mqtt.Displayed
import AmlService.Mqtt.Service

/-!
# AmlService.Mqtt.AlarmMirror

**Home Assistant shows the state of the alarms**, whatever the order of what happens. The service
and the bridge run side by side: around each request and between the turns of the bridge, the
service makes any steps, for the AML or for other clients, and the connection on which the bridge
listens to the events is made, lost and made again. The events broadcast wait until the bridge takes
them; those broadcast while it does not listen are lost.

A reading of the status may be overtaken by events that are older than it; the last state of all of
them is still that of the service. Only an event of an earlier connection may tell a state that is
over, and the bridge is not told what it has missed: it knows the state again once it reads the
status on a connection that holds, with none of these events left to be taken (`Mirrors`).

How requests are answered and events passed on is what `Service` proves of the two ends of the
sockets (`request_answered`, `listen_follows`).
-/

namespace AmlService

open Effect Channels

namespace Publisher

/-- What happens apart from the main loop of the bridge: a step of the service; the thread that listens
has subscribed; its connection is lost, after it has received so many of the events in flight. -/
inductive Happening
  | step (action : Action)
  | subscribed
  | lost (received : Nat)

/-- What happens around a request, and whether the request succeeds. -/
structure Interlude where
  before : List Happening
  answered : Bool
  after : List Happening

/-- What the bridge is connected to: the service, and the events that it has not taken yet, first those
of earlier connections (`stale`), then those broadcast since it has subscribed (`inFlight`).
`sinceStatus`: the status was read since then, when nothing was stale. -/
structure Remote where
  service : Service
  listening : Bool
  stale : List JsonValue
  inFlight : List JsonValue
  sinceStatus : Bool
  interludes : List Interlude

namespace Remote

/-- A bridge that starts does not listen yet. -/
def start (service : Service) (interludes : List Interlude) : Remote where
  service := service
  listening := false
  stale := []
  inFlight := []
  sinceStatus := false
  interludes := interludes

def happen (r : Remote) : Happening → Remote
  | .step action =>
    let service := act r.service action
    let events := evenements (service.world.journal.drop r.service.world.journal.length)
    { r with service, inFlight := if r.listening then r.inFlight ++ events else r.inFlight }
  | .subscribed => { r with listening := true }
  | .lost received =>
    { r with
      listening := false
      stale := r.stale ++ r.inFlight.take received
      inFlight := []
      sinceStatus := false }

/-- Some of it, one after the other. -/
def advance (happenings : List Happening) (r : Remote) : Remote := happenings.foldl happen r

/-- The state of the alarms. -/
def alarms (r : Remote) : JsonValue := reveilJson r.service.eventContext.alarmes

end Remote

/-- A request that reaches the service while it goes on; run dry, it does not. -/
def ask (textes : Textes) : ServiceRequest Remote := fun command value r =>
  let interlude := r.interludes.headD ⟨[], false, []⟩
  let r := ({ r with interludes := r.interludes.tail }).advance interlude.before
  if !interlude.answered then (.error (.osError "timed out"), r.advance interlude.after)
  else
    let (answer, service) :=
      repondre (serviceApplication textes) r.service (lireEnveloppe (PyService.requestMessage 1 command value))
    let sinceStatus := r.sinceStatus || (command == "status" && r.listening && r.stale.isEmpty)
    (PyService.ofAnswer answer, ({ r with service, sinceStatus }).advance interlude.after)

/-- What a turn takes from the queue of commands. -/
inductive Take
  | nothing
  | event
  | republish
  | command (route : Route) (payload : String)

/-- The item, and what is left. -/
def Take.item : Take → Remote → Option Item × Remote
  | .nothing, r => (none, r)
  | .event, r =>
    match r.stale, r.inFlight with
    | message :: stale, _ => (some (.event message), { r with stale })
    | [], message :: inFlight => (some (.event message), { r with inFlight })
    | [], [] => (none, r)
  | .republish, r => (some .republish, r)
  | .command route payload, r => (some (.command route payload), r)

/-- What happens before a turn of the bridge, and the turn. -/
structure Round where
  meanwhile : List Happening
  takes : Take
  executed : Int
  now : Int

section System

variable (py : PyValues) (entities : List Description) (textes : Textes) (pollMs : Int)

/-- One turn of the bridge. -/
def round (r : Round) : PublisherM Remote Unit := do
  Fallible.act fun p => { p with bridge.service := p.bridge.service.advance r.meanwhile }
  let p ← get
  let (item, service) := r.takes.item p.bridge.service
  Fallible.act fun p => { p with bridge.service := service }
  turn py entities (ask textes) pollMs ⟨item, r.executed, r.now⟩

/-- The service and the bridge, for some turns of the bridge. -/
def rounds : List Round → PublisherM Remote Unit
  | [] => return ()
  | first :: rest => do
    round py entities textes pollMs first
    rounds rest

end System

/-! ### The service -/

namespace Remote

/-- What the service and the events to be taken keep: the last state told since the subscription is that of
the service. -/
structure Sound (r : Remote) : Prop where
  announced : Annoncee r.service
  formed : ∀ event ∈ r.stale ++ r.inFlight, ∃ name data, event = evenement name data
  idle : r.listening = false → r.inFlight = []
  latest : reveilConnu r.alarms r.inFlight = r.alarms
  since : r.sinceStatus = true → r.listening = true ∧ r.stale = []

/-- What happens apart from the bridge: as long as its connection holds, what is broadcast tells what becomes
of the alarms. -/
def Moves (r r' : Remote) : Prop := r.Sound → r'.Sound ∧ (r'.sinceStatus = true → r.sinceStatus = true ∧
  ∃ events, r'.inFlight = r.inFlight ++ events ∧ r'.alarms = reveilConnu r.alarms events)

variable {r r' r'' : Remote}

theorem Moves.refl (r : Remote) : Moves r r := fun h => ⟨h, fun hsince => ⟨hsince, [], by simp, rfl⟩⟩

theorem Moves.trans (h : Moves r r') (h' : Moves r' r'') : Moves r r'' := by
  intro hsound
  obtain ⟨hsound', hpassed⟩ := h hsound
  obtain ⟨hsound'', hpassed'⟩ := h' hsound'
  refine ⟨hsound'', fun hsince => ?_⟩
  obtain ⟨hsince', events', hevents', halarms'⟩ := hpassed' hsince
  obtain ⟨hsince, events, hevents, halarms⟩ := hpassed hsince'
  refine ⟨hsince, events ++ events', ?_, ?_⟩
  · rw [hevents', hevents, List.append_assoc]
  · rw [halarms', halarms, reveilConnu_append]

/-- Whoever knew the state once the events in flight were taken will know it. -/
theorem Moves.known (h : Moves r r') (hsound : r.Sound) (hsince : r'.sinceStatus = true) {known : JsonValue}
    (hknown : reveilConnu known r.inFlight = r.alarms) : reveilConnu known r'.inFlight = r'.alarms := by
  obtain ⟨-, events, hevents, halarms⟩ := (h hsound).2 hsince
  rw [hevents, reveilConnu_append, hknown, halarms]

theorem reveilConnu_cases (events : List JsonValue) :
    (∀ known, reveilConnu known events = known) ∨ ∃ last, ∀ known, reveilConnu known events = last := by
  unfold reveilConnu
  cases hlast : (events.filterMap annonceDe).getLast? with
  | none =>
    rw [List.getLast?_eq_none_iff] at hlast
    exact .inl fun known => by rw [hlast]; rfl
  | some last => exact .inr ⟨last, fun known => by rw [List.getLastD_eq_getLast?, hlast]; rfl⟩

theorem annoncee_alarms (h : Annoncee r.service) :
    r.alarms = reveilConnu (reveilJson handlersAttach.alarmes) (evenements r.service.world.journal) := by
  rw [alarms, ← h.suivi.annonce h.reveilChange, derniereAnnonce_eq]

/-- What a step of the service broadcasts: what has become of the alarms. -/
theorem act_events (h : Annoncee r.service) (action : Action) :
    ∃ events, evenements ((act r.service action).world.journal.drop r.service.world.journal.length) = events ∧
      reveilJson (act r.service action).eventContext.alarmes = reveilConnu r.alarms events ∧
      ∀ event ∈ events, ∃ name data, event = evenement name data := by
  have hafter : Annoncee (act r.service action) := act_annoncee h action
  obtain ⟨added, hrecorded⟩ := act_records r.service action h.attached
  have hjournal : (act r.service action).world.journal = r.service.world.journal ++ added := hrecorded.world.journal
  refine ⟨evenements added, by rw [hjournal, List.drop_left], ?_, fun event hevent => ?_⟩
  · have halarms := @annoncee_alarms { r with service := act r.service action } hafter
    rw [annoncee_alarms h, ← reveilConnu_append, ← evenements_append, ← hjournal]
    exact halarms
  · obtain ⟨o, -, ho⟩ := List.mem_filterMap.mp hevent
    cases o with
    | broadcast name data => exact ⟨name, data, (Option.some.inj ho).symm⟩
    | _ => cases ho

/-- What the events tell last is the state they have led to. -/
theorem latest_append {alarms alarms' : JsonValue} {inFlight events : List JsonValue}
    (h : reveilConnu alarms inFlight = alarms) (hevents : alarms' = reveilConnu alarms events) :
    reveilConnu alarms' (inFlight ++ events) = alarms' := by
  rw [reveilConnu_append]
  rcases reveilConnu_cases events with hquiet | ⟨last, hlast⟩
  · rw [hquiet] at hevents ⊢
    rw [hevents, h]
  · rw [hlast] at hevents ⊢
    exact hevents.symm

theorem happen_moves (happening : Happening) : Moves r (r.happen happening) := by
  intro h
  cases happening with
  | step action =>
    obtain ⟨events, hbroadcast, halarms, hformed⟩ := act_events h.announced action
    have hafter : Annoncee (act r.service action) := act_annoncee h.announced action
    by_cases hlistening : r.listening = true
    · have hflight : (r.happen (.step action)).inFlight = r.inFlight ++ events := by
        show (if r.listening then _ else _) = _
        rw [if_pos hlistening, hbroadcast]
      refine ⟨⟨hafter, ?_, fun hnot => ?_, ?_, h.since⟩, fun hsince => ⟨hsince, events, hflight, halarms⟩⟩
      · rw [hflight, ← List.append_assoc]
        exact fun event hevent => (List.mem_append.mp hevent).elim (h.formed event) (hformed event)
      · rw [show r.listening = false from hnot] at hlistening
        cases hlistening
      · rw [hflight]
        exact latest_append h.latest halarms
    · -- nobody listens: the events are lost
      have hnot : r.listening = false := by simpa using hlistening
      have hflight : (r.happen (.step action)).inFlight = r.inFlight := if_neg hlistening
      refine ⟨⟨hafter, ?_, fun _ => hflight.trans (h.idle hnot), ?_, h.since⟩, fun hsince => ?_⟩
      · rw [hflight]
        exact h.formed
      · rw [hflight, h.idle hnot]
        rfl
      · rw [(h.since hsince).1] at hnot
        cases hnot
  | subscribed =>
    refine ⟨⟨h.announced, h.formed, fun hnot => (by cases hnot), h.latest, fun hsince => ⟨rfl, (h.since hsince).2⟩⟩, ?_⟩
    exact fun hsince => ⟨hsince, [], by simp [happen], rfl⟩
  | lost received =>
    refine ⟨⟨h.announced, ?_, fun _ => rfl, rfl, fun hsince => (by cases hsince)⟩, fun hsince => by cases hsince⟩
    intro event hevent
    have hmem : event ∈ r.stale ++ r.inFlight.take received := by simpa [happen] using hevent
    refine h.formed event (List.mem_append.mpr ((List.mem_append.mp hmem).imp_right fun htaken => ?_))
    exact List.mem_of_mem_take htaken

/-- Whatever happens. -/
theorem advance_moves (happenings : List Happening) (r : Remote) : Moves r (r.advance happenings) :=
  List.foldlRecOn _ _ (Moves.refl r) fun _ hr happening _ => hr.trans (happen_moves happening)

/-- A request that the service answers: nothing is broadcast. -/
theorem repondre_moves (textes : Textes) (demande : Demande) :
    Moves r { r with service := (repondre (serviceApplication textes) r.service demande).2 } := by
  rcases repondre_act textes r.service demande with heq | ⟨action, hne, heq⟩ <;> rw [heq]
  · exact .refl r
  · intro h
    have hafter : Annoncee (act r.service action) := act_annoncee h.announced action
    have halarms : reveilJson (act r.service action).eventContext.alarmes = r.alarms := by
      have hknown := @annoncee_alarms { r with service := act r.service action } hafter
      rw [annoncee_alarms h.announced, ← act_evenements h.announced.attached hne]
      exact hknown
    refine ⟨⟨hafter, h.formed, h.idle, ?_, h.since⟩, fun hsince => ⟨hsince, [], by simp, halarms⟩⟩
    show reveilConnu (reveilJson (act r.service action).eventContext.alarmes) r.inFlight =
      reveilJson (act r.service action).eventContext.alarmes
    rw [halarms]
    exact h.latest

/-- What happens before a request is answered. -/
theorem interlude_moves (r : Remote) : Moves r (({ r with interludes := r.interludes.tail }).advance
    (r.interludes.headD ⟨[], false, []⟩).before) := by
  have htail : Moves r { r with interludes := r.interludes.tail } :=
    fun h => ⟨⟨h.announced, h.formed, h.idle, h.latest, h.since⟩, fun hsince => ⟨hsince, [], by simp, rfl⟩⟩
  exact htail.trans (advance_moves _ _)

/-- **A request** that reads something else than the status. -/
theorem ask_moves (textes : Textes) {command : String} (hcommand : command ≠ "status") (value : Option String)
    (r : Remote) : Moves r (ask textes command value r).2 := by
  have hbefore := interlude_moves r
  have hother : (command == "status") = false := by simpa using hcommand
  unfold ask
  dsimp only
  rw [hother, Bool.false_and, Bool.false_and, Bool.or_false]
  split
  · exact hbefore.trans (advance_moves _ _)
  · exact hbefore.trans ((repondre_moves textes _).trans (advance_moves _ _))

/-- **The status**, when it is not read. -/
theorem ask_status_failed (textes : Textes) {e : PyError} (hrun : ask textes "status" none r = (.error e, r')) :
    Moves r r' := by
  have hbefore := interlude_moves r
  unfold ask at hrun
  dsimp only at hrun
  split at hrun
  · obtain ⟨-, rfl⟩ := Prod.mk.inj hrun
    exact hbefore.trans (advance_moves _ _)
  · cases (Prod.mk.inj hrun).1

/-- **The status** tells the state of the alarms when it was asked for. -/
theorem ask_status (textes : Textes) (h : r.Sound) {result : JsonValue}
    (hrun : ask textes "status" none r = (.ok result, r')) :
    ∃ between : Remote, between.Sound ∧ Moves between r' ∧ result.get? "alarm_state" = some between.alarms := by
  obtain ⟨hbefore, -⟩ := interlude_moves r h
  unfold ask at hrun
  dsimp only at hrun
  split at hrun
  · cases hrun
  generalize ({ r with interludes := r.interludes.tail } : Remote).advance _ = before at hrun hbefore
  obtain ⟨hresult, rfl⟩ := Prod.mk.inj hrun
  refine ⟨{ before with
      sinceStatus := before.sinceStatus || ("status" == "status" && before.listening && before.stale.isEmpty) },
    ⟨hbefore.announced, hbefore.formed, hbefore.idle, hbefore.latest, fun hsince => ?_⟩, ?_, ?_⟩
  · rcases Bool.or_eq_true_iff.mp hsince with hold | hnow
    · exact hbefore.since hold
    · simpa using hnow
  · exact (repondre_moves textes (.command "status" [])).trans (advance_moves _ _)
  · obtain rfl := Except.ok.inj hresult
    exact statusJson_alarmState _

end Remote

/-! ### The bridge -/

/-- **The bridge will know the state of the alarms**, if the status was read since it listens and it knows one:
when it has taken the events in flight, the state in its cache is that of the service. -/
structure Mirrors (b : Bridge Remote) : Prop where
  sound : b.service.Sound
  cached : b.service.sinceStatus = true → ∀ status, (JsonValue.obj b.cache).get? "status" = some status →
    ∃ known, status.get? "alarm_state" = some known ∧ reveilConnu known b.service.inFlight = b.service.alarms

abbrev Tracks {α : Type} (m : BridgeM Remote α) : Prop := Ensures Mirrors m (fun _ => Mirrors) (fun _ _ => True)

section Bridge

variable {textes : Textes} {b b' : Bridge Remote}

theorem Mirrors.moves (h : Mirrors b) (hmoves : b.service.Moves b'.service)
    (hcache : (JsonValue.obj b'.cache).get? "status" = (JsonValue.obj b.cache).get? "status") : Mirrors b' := by
  obtain ⟨hsound, hpassed⟩ := hmoves h.sound
  refine ⟨hsound, fun hsince status hstatus => ?_⟩
  obtain ⟨known, hfield, hknown⟩ := h.cached (hpassed hsince).1 status (hcache ▸ hstatus)
  exact ⟨known, hfield, hmoves.known h.sound hsince hknown⟩

/-- What is about other fields of the bridge. -/
theorem Mirrors.same (h : Mirrors b) (hservice : b'.service = b.service)
    (hcache : (JsonValue.obj b'.cache).get? "status" = (JsonValue.obj b.cache).get? "status") : Mirrors b' :=
  h.moves (hservice ▸ .refl b.service) hcache

/-- The status is put in the cache. -/
theorem Mirrors.put {known status : JsonValue} (h : b.service.Sound) (hfield : status.get? "alarm_state" = some known)
    (hknown : b.service.sinceStatus = true → reveilConnu known b.service.inFlight = b.service.alarms) :
    Mirrors { b with cache := dictSet "status" status b.cache } := by
  refine ⟨h, fun hsince status' hstatus => ?_⟩
  rw [get_dictSet, if_pos rfl] at hstatus
  obtain rfl := Option.some.inj hstatus
  exact ⟨known, hfield, hknown hsince⟩

/-- A request for something else leaves the bridge as it is, whether it succeeds or not. -/
theorem serviceRequest_mirrors (textes : Textes) {command : String} (hcommand : command ≠ "status")
    (value : Option String) :
    Ensures Mirrors (Bridge.serviceRequest (ask textes) command value) (fun _ => Mirrors) (fun _ => Mirrors) := by
  intro b hb
  have hmoves := Remote.ask_moves textes hcommand value b.service
  unfold Bridge.serviceRequest
  rcases hask : ask textes command value b.service with ⟨e | result, service⟩ <;> rw [hask] at hmoves
  · exact hb.moves hmoves rfl
  · exact hb.moves hmoves rfl

theorem keep_ok {group : String} {result : JsonValue} {u : Unit} (h : Bridge.keep group result b = (.ok u, b')) :
    b' = { b with cache := dictSet group result b.cache } := by
  unfold Bridge.keep at h
  rw [bind_run_ok (rfl : Fallible.act _ b = (.ok (), { b with cache := dictSet group result b.cache }))] at h
  split at h
  · obtain ⟨_, c, hget, hpure⟩ := bind_run_inv h
    obtain ⟨-, rfl⟩ := Prod.mk.inj hpure
    unfold dictGet at hget
    split at hget
    · exact (Prod.mk.inj hget).2.symm
    · cases hget
  · exact (Prod.mk.inj h).2.symm

/-- A status that was not read is forgotten, unless the service refused to tell it. -/
theorem Mirrors.forget (h : b.service.Sound) : Mirrors { b with cache := dictDel "status" b.cache } := by
  refine ⟨h, fun _ status hstatus => ?_⟩
  rw [get_dictDel, if_pos rfl] at hstatus
  cases hstatus

/-- **A reading of the status**, which may be older than events that are in flight, never the other way
around. -/
theorem refreshStatus_tracks : Tracks (Bridge.refresh (ask textes) "status") := by
  intro b hb
  unfold Bridge.refresh Bridge.serviceRequest
  rcases hask : ask textes "status" none b.service with ⟨e | result, service⟩
  · have hmoves := Remote.ask_status_failed textes hask
    have hfailed : Mirrors { b with service } := hb.moves hmoves rfl
    cases e with
    | serviceError code message => exact hfailed
    | osError message => exact .forget hfailed.sound
    | _ => trivial
  dsimp only
  obtain ⟨between, hbetween, hafter, hfield⟩ := Remote.ask_status textes hb.sound hask
  rcases hkeep : Bridge.keep "status" result { b with service } with ⟨e | u, d⟩
  · trivial
  obtain rfl := keep_ok hkeep
  exact @Mirrors.put { b with service } _ _ (hafter hbetween).1 hfield
    fun hsince => hafter.known hbetween hsince hbetween.latest

theorem refresh_tracks (group : String) : Tracks (Bridge.refresh (ask textes) group) := by
  by_cases hgroup : group = "status"
  · subst hgroup
    exact refreshStatus_tracks
  intro b hb
  have hasked := serviceRequest_mirrors textes hgroup none b hb
  unfold Bridge.refresh
  rcases hrun : Bridge.serviceRequest (ask textes) group none b with ⟨e | result, c⟩ <;> rw [hrun] at hasked
  · cases e with
    | serviceError code message => exact hasked
    | osError message => exact .forget hasked.sound
    | _ => trivial
  dsimp only
  rcases hkeep : Bridge.keep group result c with ⟨e | u, d⟩
  · trivial
  obtain rfl := keep_ok hkeep
  refine hasked.same rfl ?_
  rw [get_dictSet, if_neg hgroup]

theorem alreadyOn_tracks (entity : Entity) : Tracks (Bridge.alreadyOn (ask textes) entity) := by
  refine .bind (refresh_tracks _) fun _ => .get fun _ => ?_
  exact .pure fun _ h => h.1

theorem sendAll_mirrors {commands : List (String × Option String)} (h : ∀ command ∈ commands, command.1 ≠ "status") :
    Ensures Mirrors (Bridge.sendAll (ask textes) commands) (fun _ => Mirrors) (fun _ => Mirrors) := by
  induction commands with
  | nil => exact .pure fun _ h => h
  | cons first commands ih =>
    obtain ⟨hfirst, hrest⟩ := List.forall_mem_cons.mp h
    exact .bind (serviceRequest_mirrors textes hfirst first.2) fun _ => ih hrest

theorem attempt_tracks {m : BridgeM Remote Unit} (hm : Ensures Mirrors m (fun _ => Mirrors) (fun _ => Mirrors)) :
    Tracks (Bridge.attempt m) := by
  intro b hb
  have hrun := hm b hb
  unfold Bridge.attempt
  rcases hmb : m b with ⟨e | u, c⟩ <;> rw [hmb] at hrun
  · cases e <;> first | exact hrun | trivial
  · exact hrun

variable {python : Entities.Python} {route : Route}

theorem send_tracks (hroute : route.entity ∈ Entities.buildEntities python) (payload : String) (now : Int) :
    Tracks (Bridge.send (ask textes) route payload now) := by
  refine .bind (attempt_tracks ?_) fun _ => ?_
  · refine .get fun b => Ensures.imp ?_ (fun _ h => h.1) (fun _ _ h => h) fun _ _ h => h
    cases hset : route.set payload (.obj b.cache) with
    | ok commands => exact sendAll_mirrors (route_commands hroute hset)
    | error e => exact .throw fun _ h => h
  · cases route.entity.group with
    | none => exact .pure fun _ h => h
    | some group => exact .act fun _ h => h.same rfl rfl

theorem execute_tracks (hroute : route.entity ∈ Entities.buildEntities python) (payload : String) (now : Int) :
    Tracks (Bridge.execute (ask textes) route payload now) := by
  have hrest : ∀ skip : Bool, Tracks (if skip then return () else Bridge.send (ask textes) route payload now) := by
    intro skip
    cases skip with
    | true => exact .pure fun _ h => h
    | false => exact send_tracks hroute payload now
  exact Ensures.ite (fun _ => .bind (alreadyOn_tracks _) hrest) fun _ => .bind (.pure fun _ h => h) hrest

theorem eventData_reveil (name : String) (alarmes : Alarme → SuiviAlarme) :
    eventData (evenement name (reveilJson alarmes)) = reveilJson alarmes := rfl

/-- An event that has just been taken: one in flight, or one of an earlier connection. -/
structure Took (message : JsonValue) (b : Bridge Remote) : Prop where
  formed : ∃ name data, message = evenement name data
  mirrors : Mirrors { b with service.inFlight := message :: b.service.inFlight } ∨
    Mirrors b ∧ b.service.sinceStatus = false

/-- What is left, when the first event in flight is taken. -/
theorem sound_tail {message : JsonValue} {r : Remote}
    (h : ({ r with inFlight := message :: r.inFlight } : Remote).Sound)
    (hlatest : reveilConnu r.alarms r.inFlight = r.alarms) : r.Sound := by
  refine ⟨h.announced, fun event hevent => h.formed event ?_, fun hnot => ?_, hlatest, h.since⟩
  · exact List.mem_append.mpr ((List.mem_append.mp hevent).imp_right fun hflight => List.mem_cons_of_mem _ hflight)
  · cases h.idle hnot

/-- An event that says nothing of the alarms. -/
theorem Took.other {name : String} {data : JsonValue} (h : Took (evenement name data) b)
    (hname : name ≠ "alarm_state") : Mirrors b := by
  rcases h.mirrors with hflight | ⟨hmirrors, -⟩
  swap
  · exact hmirrors
  have hsame : ∀ known, reveilConnu known (evenement name data :: b.service.inFlight) =
      reveilConnu known b.service.inFlight := by
    intro known
    have hnone : annonceDe (evenement name data) = none := by
      simp [annonceDe, evenement, JsonValue.get?, hname]
    unfold reveilConnu
    rw [List.filterMap_cons_none hnone]
  refine ⟨sound_tail hflight.sound ?_, fun hsince status hstatus => ?_⟩
  · rw [← hsame]
    exact hflight.sound.latest
  · obtain ⟨known, hfield, hknown⟩ := hflight.cached hsince status hstatus
    exact ⟨known, hfield, hsame known ▸ hknown⟩

/-- **An event about the alarms**, put in the cache. -/
theorem Took.alarm {data : JsonValue} (h : Took (evenement "alarm_state" data) b)
    (fields : List (String × JsonValue)) :
    let status := JsonValue.obj (dictSet "alarm_state" (eventData (evenement "alarm_state" data)) fields)
    Mirrors { b with cache := dictSet "status" status b.cache } := by
  have hfield :
      (JsonValue.obj (dictSet "alarm_state" (eventData (evenement "alarm_state" data)) fields)).get? "alarm_state" =
        some (eventData (evenement "alarm_state" data)) := by
    rw [get_dictSet, if_pos rfl]
  rcases h.mirrors with hflight | ⟨hmirrors, hnot⟩
  swap
  · refine Mirrors.put hmirrors.sound hfield fun hsince => ?_
    rw [hnot] at hsince
    cases hsince
  have hlatest : reveilConnu data b.service.inFlight = b.service.alarms := by
    have htold := hflight.sound.latest
    unfold reveilConnu at htold ⊢
    rwa [List.filterMap_cons_some (show annonceDe (evenement "alarm_state" data) = some data from rfl),
      List.getLastD_cons] at htold
  have hsound : b.service.Sound := by
    refine sound_tail hflight.sound ?_
    rcases Remote.reveilConnu_cases b.service.inFlight with hnone | ⟨last, hlast⟩
    · exact hnone _
    · rw [hlast, ← hlatest, hlast]
  refine Mirrors.put hsound hfield fun _ => ?_
  rcases Remote.reveilConnu_cases b.service.inFlight with hnone | ⟨last, hlast⟩
  · -- it is the last one in flight, and so the state of the service
    rw [hnone] at hlatest ⊢
    rw [hlatest]
    exact (eventData_reveil "alarm_state" b.service.service.eventContext.alarmes).symm
  · rw [hlast, ← hlatest, hlast]

theorem act_tracks {f : Bridge Remote → Bridge Remote} (hservice : ∀ b, (f b).service = b.service)
    (hcache : ∀ b, (f b).cache = b.cache) : Tracks (Fallible.act f) :=
  .act fun b hb => hb.same (hservice b) (by rw [hcache b])

/-- Another group is put in the cache. -/
theorem put_tracks {group : String} (hgroup : group ≠ "status") (value : JsonValue) :
    Tracks (Fallible.act fun b => { b with cache := dictSet group value b.cache }) :=
  .act fun b hb => hb.same rfl (by rw [get_dictSet, if_neg hgroup])

theorem dictGet_tracks (data : JsonValue) (key : String) (default : JsonValue) :
    Tracks (dictGet data key default) := by
  cases data with
  | obj fields => exact .pure fun _ h => h
  | _ => exact .throw fun _ _ => trivial

/-- **The events.** -/
theorem handleEvent_tracks (message : JsonValue) :
    Ensures (Took message) (Bridge.handleEvent (ask textes) message) (fun _ => Mirrors) (fun _ _ => True) := by
  intro b hb
  obtain ⟨name, data, rfl⟩ := hb.formed
  have hname : (evenement name data).get? "event" = some (.str name) := rfl
  -- an event that is about something else
  have hother : name ≠ "alarm_state" → ∀ {m : BridgeM Remote Unit}, Tracks m →
      Ensures (fun c => c = b) m (fun _ => Mirrors) (fun _ _ => True) := by
    intro halarm m hm
    refine hm.imp (fun c hc => ?_) (fun _ _ h => h) fun _ _ h => h
    rw [hc]
    exact hb.other halarm
  suffices hrun : Ensures (fun c => c = b) (Bridge.handleEvent (ask textes) (evenement name data)) (fun _ => Mirrors)
      (fun _ _ => True) from hrun b rfl
  unfold Bridge.handleEvent
  rw [hname]
  dsimp only
  split
  · next heq =>
    obtain rfl := JsonValue.str.inj (Option.some.inj heq)
    intro c hc
    subst hc
    rw [bind_run_ok (get_run c)]
    cases (c.cache.lookup "status").getD (.obj []) with
    | obj fields => exact hb.alarm fields
    | _ => trivial
  · next heq =>
    obtain rfl := JsonValue.str.inj (Option.some.inj heq)
    refine hother (by decide) ?_
    refine .bind (dictGet_tracks _ _ _) fun light => .bind (put_tracks (by decide) light) fun _ => ?_
    exact .bind (dictGet_tracks _ _ _) fun mood => put_tracks (by decide) mood
  · next heq =>
    obtain rfl := JsonValue.str.inj (Option.some.inj heq)
    refine hother (by decide) (.bind (dictGet_tracks _ _ _) fun timer => ?_)
    rcases timerGroup timer with e | _ | group
    · exact .throw fun _ _ => trivial
    · exact .pure fun _ h => h
    · exact refresh_tracks group
  · next hnot _ _ =>
    exact hother (fun halarm => hnot (by rw [halarm])) (.pure fun _ h => h)

theorem refreshEach_tracks (groups : List String) : Tracks (Bridge.refreshEach (ask textes) groups) := by
  induction groups with
  | nil => exact .pure fun _ h => h
  | cons group groups ih => exact .bind (refresh_tracks group) fun _ => ih

theorem refreshDueGroups_tracks (now : Int) (due : List (String × Int)) :
    Tracks (Bridge.refreshDueGroups (ask textes) now due) := by
  induction due with
  | nil => exact .pure fun _ h => h
  | cons entry due ih =>
    refine .ite (fun _ => ?_) fun _ => ih
    exact .bind (act_tracks (fun _ => rfl) fun _ => rfl) fun _ => .bind (refresh_tracks _) fun _ => ih

theorem poll_tracks (pollMs now : Int) : Tracks (Bridge.poll (ask textes) pollMs now) := by
  refine .get fun b => Ensures.imp ?_ (fun _ h => h.1) (fun _ _ h => h) fun _ _ h => h
  refine .ite (fun _ => .bind ?_ fun _ => act_tracks (fun _ => rfl) fun _ => rfl) fun _ => .pure fun _ h => h
  refine .bind (refresh_tracks _) fun _ => .get fun c => Ensures.imp ?_ (fun _ h => h.1) (fun _ _ h => h) fun _ _ h => h
  exact .ite (fun _ => refreshEach_tracks groups) fun _ => .pure fun _ h => h

/-- What a turn finds, once its item is taken. -/
def TookItem (python : Entities.Python) (item : Option Item) (b : Bridge Remote) : Prop :=
  match item with
  | some (.event message) => Took message b
  | some (.command route _) => route.entity ∈ Entities.buildEntities python ∧ Mirrors b
  | _ => Mirrors b

/-- **One turn** of the loop that publishes nothing. -/
theorem turn_tracks (pollMs : Int) (first : Turn) :
    Ensures (TookItem python first.item) (Bridge.turn (ask textes) pollMs first)
      (fun _ => Mirrors) (fun _ _ => True) := by
  obtain ⟨item, executed, now⟩ := first
  have hhandle : Ensures (TookItem python item) (Bridge.handle (ask textes) ⟨item, executed, now⟩) (fun _ => Mirrors)
      (fun _ _ => True) := by
    cases item with
    | none => exact .pure fun _ h => h
    | some item =>
      cases item with
      | republish => exact .act fun _ h => Mirrors.same h rfl rfl
      | event message => exact handleEvent_tracks message
      | command route payload => exact fun b hb => execute_tracks hb.1 payload executed b hb.2
  refine .bind hhandle fun _ => .get fun b => Ensures.imp ?_ (fun _ h => h.1) (fun _ _ h => h) fun _ _ h => h
  exact .bind (refreshDueGroups_tracks _ _) fun _ => poll_tracks _ _

/-- An item is taken: an event leaves those that wait. -/
theorem Mirrors.takes (h : Mirrors b) {takes : Take}
    (hroute : ∀ route payload, takes = .command route payload → route.entity ∈ Entities.buildEntities python) :
    TookItem python (takes.item b.service).1 { b with service := (takes.item b.service).2 } := by
  cases takes with
  | nothing | republish => exact h
  | command route payload => exact ⟨hroute route payload rfl, h⟩
  | event =>
    obtain ⟨cache, due, next, service, listening, stale, inFlight, since, interludes⟩ := b
    cases stale with
    | cons message stale =>
      have hnot : since = false := by
        rw [← Bool.not_eq_true]
        intro hsince
        cases (h.sound.since hsince).2
      subst hnot
      have hsound : Remote.Sound ⟨service, listening, stale, inFlight, false, interludes⟩ :=
        ⟨h.sound.announced, fun event hevent => h.sound.formed event (List.mem_cons_of_mem message hevent),
          h.sound.idle, h.sound.latest, fun hsince => by cases hsince⟩
      exact ⟨h.sound.formed message List.mem_cons_self, .inr ⟨⟨hsound, fun hsince => by cases hsince⟩, rfl⟩⟩
    | nil =>
      cases inFlight with
      | nil => exact h
      | cons message inFlight => exact ⟨h.sound.formed message List.mem_cons_self, .inl h⟩

end Bridge

/-! ### The system -/

section System

variable {py : PyValues} {choices : Choices} {python : Entities.Python} {textes : Textes} {pollMs : Int}
  {p : Publisher Remote}

/-- The messages are for the entities. -/
def Round.Routed (python : Entities.Python) (r : Round) : Prop :=
  ∀ route payload, r.takes = .command route payload → route.entity ∈ Entities.buildEntities python

/-- What the bridge knows, and what it shows of it. -/
structure Faithful (py : PyValues) (choices : Choices) (p : Publisher Remote) : Prop where
  displayed : Displayed py choices p
  mirrors : Mirrors p.bridge

/-- **One turn**, after whatever happened before it. -/
theorem round_faithful {r : Round} (hr : r.Routed python) :
    Ensures (Faithful py choices) (round py (buildDescriptions choices) textes pollMs r)
      (fun _ => Faithful py choices) (fun _ _ => True) := by
  have hturn : ∀ item, Ensures (fun p => Displayed py choices p ∧ TookItem python item p.bridge)
      (turn py (buildDescriptions choices) (ask textes) pollMs ⟨item, r.executed, r.now⟩)
      (fun _ => Faithful py choices) (fun _ _ => True) := by
    intro item p hp
    have hshows := @turn_shows _ py choices (ask textes) pollMs ⟨item, r.executed, r.now⟩ p hp.1
    rcases hrun : turn py (buildDescriptions choices) (ask textes) pollMs ⟨item, r.executed, r.now⟩ p with ⟨e | u, q⟩
    · trivial
    · rw [hrun] at hshows
      exact ⟨hshows.1, (turn_tracks pollMs _).ok hp.2 ((turn_follows pollMs _).ok hrun)⟩
  unfold round
  have hmeanwhile : Ensures (Faithful py choices)
      (Fallible.act fun p => { p with bridge.service := p.bridge.service.advance r.meanwhile })
      (fun _ => Faithful py choices) (fun (_ : PublishError) _ => True) := by
    refine .act fun p hp => ?_
    exact ⟨hp.displayed.same rfl rfl rfl, hp.mirrors.moves (Remote.advance_moves _ _) rfl⟩
  refine hmeanwhile.bind fun _ => .get fun p => .bind (.act fun q hq => ?_) fun _ => hturn _
  obtain ⟨hq, rfl⟩ := hq
  exact ⟨hq.displayed.same rfl rfl rfl, hq.mirrors.takes hr⟩

theorem rounds_faithful {rs : List Round} (hrs : ∀ r ∈ rs, r.Routed python) :
    Ensures (Faithful py choices) (rounds py (buildDescriptions choices) textes pollMs rs)
      (fun _ => Faithful py choices) (fun _ _ => True) := by
  induction rs with
  | nil => exact .pure fun _ h => h
  | cons r rs ih =>
    obtain ⟨hr, hrs⟩ := List.forall_mem_cons.mp hrs
    exact .bind (round_faithful hr) fun _ => ih hrs

/-- The bridge starts, and does not listen yet. -/
theorem Faithful.start (device : AmlConfig) (world : World) (actions : List Action) (interludes : List Interlude) :
    Faithful py choices (start (.start (AmlService.run (serviceInit device world) actions) interludes)) := by
  refine ⟨.start _, ⟨?_, fun hsince => by cases hsince⟩⟩
  refine ⟨run_annoncee (serviceInit_annoncee device world) actions, ?_, fun _ => rfl, rfl,
    fun hsince => by cases hsince⟩
  intro event hevent
  cases hevent

/-- What Home Assistant calls a state of an alarm. -/
def phaseMontree : EtatReveil → String
  | .repos => "off"
  | .lever | .snooze => "sunrise"
  | .sonne => "on"

theorem alarmPhases_nom (etat : EtatReveil) : alarmPhases.lookup etat.nom = some (phaseMontree etat) := by
  cases etat <;> rfl

/-- The topic that shows the state of an alarm. -/
def phaseTopic (n : Alarme) : String := stateTopic (if n = 0 then "alarm1_phase" else "alarm2_phase") ""

/-- What the entities of the alarms say, when the status in the cache is up to date. -/
theorem tells_phase {cache status : JsonValue} {alarmes : Alarme → SuiviAlarme}
    (hstatus : cache.get? "status" = some status) (hfield : status.get? "alarm_state" = some (reveilJson alarmes))
    (n : Alarme) :
    Tells py (buildDescriptions choices) cache "status" (phaseTopic n) (phaseMontree (alarmes n).etat) := by
  have hreads : ∀ (number : String) (etat : EtatReveil),
      valueIn (reveilJson alarmes) ["alarms", number] = .str etat.nom →
      (Getter.phase ["status", "alarm_state", "alarms", number]).get py 0 cache = .ok (some (phaseMontree etat)) := by
    intro number etat hvalue
    have hpath : valueIn cache ["status", "alarm_state", "alarms", number] = .str etat.nom := by
      rw [← hvalue]
      simp only [valueIn, hstatus, hfield]
    simp [Getter.get, hpath, alarmPhases_nom]
  have hmem : ∀ d ∈ reveil, d ∈ buildDescriptions choices := by
    intro d hd
    unfold buildDescriptions
    simp [hd]
  have hn : ∀ n : Alarme, n = 0 ∨ n = 1 := by decide
  rcases hn n with rfl | rfl
  · refine ⟨reveil[4], hmem _ (List.getElem_mem _), rfl, rfl, _, List.mem_singleton_self _, _, rfl, rfl, 0, ?_⟩
    exact hreads "1" _ rfl
  · refine ⟨reveil[5], hmem _ (List.getElem_mem _), rfl, rfl, _, List.mem_singleton_self _, _, rfl, rfl, 0, ?_⟩
    exact hreads "2" _ rfl

variable {device : AmlConfig} {world : World} {actions : List Action} {interludes : List Interlude} {rs : List Round}

/-- **Home Assistant shows the state of the alarms.** After any turns of the bridge, with readings that events
have overtaken or not, and connections made and lost in between: if the status was read on the connection
that holds, with no event of an earlier one left to be taken, and the bridge still has a status in its
cache, then what it knows of the alarms is, once it has taken the events in flight, the state that the
service has; and when none of these is about the alarms, each alarm is shown as it is. -/
theorem alarms_shown (hrs : ∀ r ∈ rs, r.Routed python)
    (h : rounds py (buildDescriptions choices) textes pollMs rs
      (start (.start (AmlService.run (serviceInit device world) actions) interludes)) = (.ok (), p))
    (hsince : p.bridge.service.sinceStatus = true)
    {status : JsonValue} (hstatus : p.cache.get? "status" = some status) :
    (∃ known, status.get? "alarm_state" = some known ∧
      reveilConnu known p.bridge.service.inFlight = p.bridge.service.alarms) ∧
    (p.bridge.service.inFlight.filterMap annonceDe = [] → ∀ n, shown p.emissions (phaseTopic n) =
      some (phaseMontree (p.bridge.service.service.eventContext.alarmes n).etat)) := by
  have hend := (rounds_faithful hrs).ok (.start device world actions interludes) h
  obtain ⟨known, hfield, hknown⟩ := hend.mirrors.cached hsince status hstatus
  refine ⟨⟨known, hfield, hknown⟩, fun hquiet n => ?_⟩
  have hcurrent : known = p.bridge.service.alarms := by
    rw [← hknown, reveilConnu, hquiet]
    rfl
  rw [hcurrent] at hfield
  exact hend.displayed.states "status" (by rw [hstatus]; rfl) _ _ (tells_phase hstatus hfield n)

end System

/-- The bridge subscribes, loses its connection and subscribes again; it asks for the status before an alarm
rings, gets the event, and then sets the volume of the radio. -/
def sonnerieRounds : List Round :=
  let ticks := [Action.sweetdawnTick, .handlersTick, .sweetdawnTick, .handlersTick].map Happening.step
  [⟨[.subscribed, .lost 0, .subscribed], .nothing, 0, 0⟩, ⟨ticks, .event, 0, 1⟩, ⟨[], .command radioVolume "7.0", 0, 2⟩]

def sonnerieRun : Except PublishError Unit × Publisher Remote :=
  let ticks := [Action.sweetdawnTick, .handlersTick, .sweetdawnTick, .handlersTick].map Happening.step
  rounds plainValues (buildDescriptions defaultChoices) sansTexte 30000 sonnerieRounds
    (start (.start (AmlService.run (serviceInit amlScripted mondeSonnerie) []) [⟨[], true, ticks⟩]))

theorem alarms_shown_sonnerie : sonnerieRun.1 = .ok () ∧
    (sonnerieRun.2.bridge.service.service.eventContext.alarmes 0).etat = .sonne ∧
    shown sonnerieRun.2.emissions (phaseTopic 0) = some "on" ∧
    shown sonnerieRun.2.emissions (phaseTopic 1) = some "off" := by
  have hok : sonnerieRun.1 = .ok () := by decide +kernel
  have hrun : sonnerieRun = (.ok (), sonnerieRun.2) := by rw [← hok]
  have hsince : sonnerieRun.2.bridge.service.sinceStatus = true := by decide +kernel
  have hknown : (sonnerieRun.2.cache.get? "status").isSome = true := by decide +kernel
  obtain ⟨status, hstatus⟩ := Option.isSome_iff_exists.mp hknown
  have hrouted : ∀ r ∈ sonnerieRounds, r.Routed python := by
    intro r hr route payload htakes
    simp only [sonnerieRounds, List.mem_cons, List.not_mem_nil, or_false] at hr
    rcases hr with rfl | rfl | rfl <;> cases htakes
    exact radioVolume_announced
  obtain ⟨-, hshown⟩ := alarms_shown hrouted hrun hsince hstatus
  have htaken : sonnerieRun.2.bridge.service.inFlight.length = 0 := by decide +kernel
  have hquiet : sonnerieRun.2.bridge.service.inFlight.filterMap annonceDe = [] := by
    rw [List.eq_nil_of_length_eq_zero htaken]
    rfl
  have hringing : (sonnerieRun.2.bridge.service.service.eventContext.alarmes 0).etat = .sonne := by decide +kernel
  have hidle : (sonnerieRun.2.bridge.service.service.eventContext.alarmes 1).etat = .repos := by decide +kernel
  have hon := hshown hquiet 0
  have hoff := hshown hquiet 1
  rw [hringing] at hon
  rw [hidle] at hoff
  exact ⟨hok, hringing, hon, hoff⟩

end Publisher

end AmlService
