import AmlService.App.Reponses
import AmlService.Mqtt.AlarmMirror

/-!
# AmlService.Mqtt.Endurance

**The bridge does not stop by itself.** In front of the service, whatever it answers and broadcasts
in between, no exception ends the main loop: what the bridge reads of the states has the form that
the service gives them (`Readable`), and the failures of a request are caught. Two things remain: an
infinite number in a message, which is not caught, and the time of the AML, when Python
cannot tell it.
-/

namespace AmlService

open Effect Channels Entities

/-! ### The states in the cache -/

/-- What the bridge finds in its cache. -/
structure Readable (cache : JsonValue) : Prop where
  status : ∀ status, cache.get? "status" = some status → StatutLu status
  alarms : ∀ alarms, cache.get? "Alarm" = some alarms → AlarmesLues alarms

/-- The order of two integers is known. -/
def OrdersIntegers (py : PyValues) : Prop := ∀ a b : Int, ∃ c, py.lessThan (.int a) (.int b) = .ok c

/-- An exception of the loop that is none of the bridge's doing. -/
def Excused (py : PyValues) (e : PublishError) : Prop :=
  ∃ g reads, ∃ offset : Int, e = .get g ∧ py.clock reads (.int offset) = .error g

section Readings

variable {py : PyValues} {cache : JsonValue}

theorem Readable.put {group : String} {value : JsonValue} {entries : List (String × JsonValue)}
    (h : Readable (.obj entries)) (hstatus : group = "status" → StatutLu value)
    (halarms : group = "Alarm" → AlarmesLues value) : Readable (.obj (dictSet group value entries)) := by
  constructor
  · intro status hget
    rw [get_dictSet] at hget
    split at hget
    · next hgroup => exact Option.some.inj hget ▸ hstatus hgroup
    · exact h.status status hget
  · intro alarms hget
    rw [get_dictSet] at hget
    split at hget
    · next hgroup => exact Option.some.inj hget ▸ halarms hgroup
    · exact h.alarms alarms hget

theorem Readable.forget {entries : List (String × JsonValue)} (h : Readable (.obj entries)) :
    Readable (.obj (dictDel "status" entries)) := by
  constructor
  · intro status hget
    rw [Publisher.get_dictDel, if_pos rfl] at hget
    cases hget
  · intro alarms hget
    rw [Publisher.get_dictDel, if_neg (by decide)] at hget
    exact h.alarms alarms hget

/-- An alarm that the bridge looks at, if it knows one. -/
theorem Readable.alarm (h : Readable cache) (number : String) :
    valueIn cache ["Alarm", number] = .null ∨ AlarmeLue (valueIn cache ["Alarm", number]) := by
  simp only [valueIn]
  cases halarms : cache.get? "Alarm" with
  | none => exact .inl rfl
  | some alarms =>
    dsimp only
    cases halarm : alarms.get? number with
    | none => exact .inl rfl
    | some alarm => exact .inr (h.alarms alarms halarms number alarm halarm)

/-- The days of an alarm can be read, and changed. -/
theorem Readable.days (h : Readable cache) (number : String) :
    valueIn cache ["Alarm", number, "days"] = .null ∨
      ∃ days : Int, valueIn cache ["Alarm", number, "days"] = .int days := by
  have hpath : valueIn cache ["Alarm", number, "days"] = valueIn (valueIn cache ["Alarm", number]) ["days"] := by
    simp only [valueIn]
    cases cache.get? "Alarm" with
    | none => rfl
    | some alarms =>
      dsimp only
      cases alarms.get? number <;> rfl
  rw [hpath]
  rcases h.alarm number with hnull | halarm
  · rw [hnull]
    exact .inl rfl
  · obtain ⟨days, hdays⟩ := halarm.jours
    right
    exact ⟨days, by rw [valueIn, hdays]; rfl⟩

/-- An alarm with a next time tells the time until then. -/
theorem Readable.entries (h : Readable cache) (number : String) : ∃ fields, alarmEntries cache number = .ok fields ∧
    (((JsonValue.obj fields).get? "next").getD .null ≠ .null →
      ∃ delay : Int, Channels.delay fields = .ok (.int delay)) := by
  unfold alarmEntries
  dsimp only
  rcases h.alarm number with hnull | halarm
  · rw [hnull]
    exact ⟨[], rfl, fun hne => absurd rfl hne⟩
  · obtain ⟨fields, hfields⟩ := halarm.entrees
    rw [hfields]
    split
    · refine ⟨fields, rfl, fun hne => ?_⟩
      rw [hfields] at halarm
      rcases halarm.prochaine with hnext | ⟨delay, hdelay⟩
      · rw [hnext] at hne
        exact absurd rfl hne
      · exact ⟨delay, by rw [Channels.delay, hdelay]⟩
    · exact ⟨[], rfl, fun hne => absurd rfl hne⟩

/-- The soonest of alarms that tell their time. -/
theorem soonest_ok (hpy : OrdersIntegers py) {alarms : List (List (String × JsonValue))}
    (h : ∀ alarm ∈ alarms, ∃ delay : Int, Channels.delay alarm = .ok (.int delay)) (best : List (String × JsonValue))
    (least : Int) : ∃ first, soonest py best (.int least) alarms = .ok first := by
  induction alarms generalizing best least with
  | nil => exact ⟨best, rfl⟩
  | cons alarm alarms ih =>
    obtain ⟨⟨delay, hdelay⟩, hrest⟩ := List.forall_mem_cons.mp h
    obtain ⟨c, hc⟩ := hpy delay least
    unfold soonest
    rw [hdelay]
    show ∃ first, (do if ← py.lessThan (.int delay) (.int least) then _ else _) = Except.ok first
    rw [hc]
    cases c with
    | true => exact ih hrest alarm delay
    | false => exact ih hrest best least

theorem nextAlarm_ok (hpy : OrdersIntegers py) (h : Readable cache) :
    ∃ next, Channels.nextAlarm py cache = .ok next := by
  obtain ⟨first, hfirst, hfirstDelay⟩ := h.entries "1"
  obtain ⟨second, hsecond, hsecondDelay⟩ := h.entries "2"
  have halarms : ["1", "2"].mapM (alarmEntries cache) = .ok [first, second] := by
    simp only [List.mapM_cons, hfirst, hsecond, List.mapM_nil]
    rfl
  unfold Channels.nextAlarm
  rw [halarms]
  simp only [bind, Except.bind]
  generalize hupcoming : [first, second].filter _ = upcoming
  have hdelays : ∀ alarm ∈ upcoming, ∃ delay : Int, Channels.delay alarm = .ok (.int delay) := by
    intro alarm hmem
    rw [← hupcoming] at hmem
    obtain ⟨hmem, hnext⟩ := List.mem_filter.mp hmem
    have hne : ((JsonValue.obj alarm).get? "next").getD .null ≠ .null := by
      intro hnull
      rw [hnull] at hnext
      cases hnext
    simp only [List.mem_cons, List.not_mem_nil, or_false] at hmem
    rcases hmem with rfl | rfl
    · exact hfirstDelay hne
    · exact hsecondDelay hne
  cases upcoming with
  | nil => exact ⟨_, rfl⟩
  | cons alarm alarms =>
    obtain ⟨⟨least, hleast⟩, hrest⟩ := List.forall_mem_cons.mp hdelays
    obtain ⟨soonest, hsoonest⟩ := soonest_ok hpy hrest alarm least
    refine ⟨((JsonValue.obj soonest).get? "next").getD .null, ?_⟩
    simp only [hleast, hsoonest]
    rfl

/-- The states that are shown as phases. -/
def phasePaths : List (List String) :=
  [["status", "alarm_state", "state"], ["status", "alarm_state", "alarms", "1"],
    ["status", "alarm_state", "alarms", "2"]]

/-- The state of an alarm is a text, if it is known. -/
theorem Readable.phase (h : Readable cache) {path : List String} (hpath : path ∈ phasePaths) :
    valueIn cache path = .null ∨ ∃ state, valueIn cache path = .str state := by
  obtain ⟨rest, rfl, htext⟩ : ∃ rest, path = "status" :: "alarm_state" :: rest ∧
      ∀ alarmes, ∃ state, valueIn (reveilJson alarmes) rest = .str state := by
    simp only [phasePaths, List.mem_cons, List.not_mem_nil, or_false] at hpath
    rcases hpath with rfl | rfl | rfl <;> exact ⟨_, rfl, fun _ => ⟨_, rfl⟩⟩
  simp only [valueIn]
  cases hstatus : cache.get? "status" with
  | none => exact .inl rfl
  | some status =>
    dsimp only
    cases hstate : status.get? "alarm_state" with
    | none => exact .inl rfl
    | some state =>
      obtain ⟨alarmes, rfl⟩ := (h.status status hstatus).reveil state hstate
      exact .inr (htext alarmes)

theorem amlClock_ok (h : Readable cache) (reads : Nat) : (∃ value, amlClock py reads cache = .ok value) ∨
    ∃ g, ∃ offset : Int, amlClock py reads cache = .error g ∧ py.clock reads (.int offset) = .error g := by
  unfold amlClock
  split
  · exact .inl ⟨none, rfl⟩
  next hknown =>
  have hvalue : valueIn cache ["status", "clock", "offset_s"] = .null ∨
      ∃ offset : Int, valueIn cache ["status", "clock", "offset_s"] = .int offset := by
    simp only [valueIn] at hknown ⊢
    cases hstatus : cache.get? "status" with
    | none => exact .inl rfl
    | some status =>
      rw [hstatus] at hknown
      dsimp only at hknown ⊢
      cases hclock : status.get? "clock" with
      | none => exact .inl rfl
      | some clock =>
        rw [hclock] at hknown
        dsimp only at hknown ⊢
        rcases (h.status status hstatus).ecart clock hclock with hnot | ⟨offset, hoffset⟩
        · rw [hnot] at hknown
          exact absurd rfl hknown
        · exact .inr ⟨offset, by rw [hoffset]⟩
  obtain ⟨offset, hoffset⟩ : ∃ offset : Int, (if truthy (valueIn cache ["status", "clock", "offset_s"]) then
      valueIn cache ["status", "clock", "offset_s"] else .int 0) = .int offset := by
    rcases hvalue with hvalue | ⟨offset, hvalue⟩ <;> rw [hvalue]
    · exact ⟨0, rfl⟩
    · split <;> exact ⟨_, rfl⟩
  dsimp only
  rw [hoffset]
  cases hclock : py.clock reads (.int offset) with
  | ok value => exact .inl ⟨_, rfl⟩
  | error g => exact .inr ⟨g, offset, rfl, hclock⟩

/-- **A reading raises nothing**, but for the time of the AML. -/
theorem getter_ok (hpy : OrdersIntegers py) (h : Readable cache) {getter : Getter}
    (hphase : ∀ path, getter = .phase path → path ∈ phasePaths) (reads : Nat) :
    (∃ value, getter.get py reads cache = .ok value) ∨
      ∃ g, ∃ offset : Int, getter.get py reads cache = .error g ∧ py.clock reads (.int offset) = .error g := by
  cases getter with
  | onOff path | text path | orNone path => exact .inl ⟨_, rfl⟩
  | day number bit =>
    left
    simp only [Getter.get, dayState]
    rcases h.days (toString number) with hdays | ⟨days, hdays⟩ <;> rw [hdays] <;> exact ⟨_, rfl⟩
  | nextAlarm =>
    left
    obtain ⟨next, hnext⟩ := nextAlarm_ok hpy h
    exact ⟨some (orNone py next), by rw [Getter.get, hnext]; rfl⟩
  | phase path =>
    left
    simp only [Getter.get]
    rcases h.phase (hphase path rfl) with hstate | ⟨state, hstate⟩ <;> rw [hstate] <;> exact ⟨_, rfl⟩
  | clock =>
    simp only [Getter.get]
    rcases amlClock_ok h reads with ⟨value, hvalue⟩ | ⟨g, offset, hvalue, hclock⟩ <;> rw [hvalue]
    · exact .inl ⟨_, rfl⟩
    · exact .inr ⟨g, offset, rfl, hclock⟩

end Readings

namespace Publisher

/-! ### The service -/

/-- An event that the bridge knows what to do with. -/
def Known (event : JsonValue) : Prop := ∃ name data, event = evenement name data ∧ Diffusee name data

/-- The service tells nothing else. -/
structure Regular (r : Remote) : Prop where
  attached : Attached r.service
  journal : ∀ name data, .broadcast name data ∈ r.service.world.journal → Diffusee name data
  waiting : ∀ event ∈ r.stale ++ r.inFlight, Known event

section Regular

variable {r : Remote}

/-- The service goes on. -/
theorem Regular.after (h : Regular r) {service : Service} (hstep : Diffuse r.service service) :
    Attached service ∧ ∀ name data, .broadcast name data ∈ service.world.journal → Diffusee name data := by
  obtain ⟨added, hrec, hformed⟩ := hstep h.attached
  refine ⟨hrec.onEvent.trans h.attached, fun name data hmem => ?_⟩
  rw [hrec.world.journal, List.mem_append] at hmem
  exact hmem.elim (h.journal name data) (hformed name data)

theorem Regular.happen (h : Regular r) (happening : Happening) : Regular (r.happen happening) := by
  cases happening with
  | step action =>
    obtain ⟨hattached, hjournal⟩ := h.after (act_diffuse r.service action)
    refine ⟨hattached, hjournal, fun event hmem => ?_⟩
    have hflight : event ∈ r.stale ++ r.inFlight ∨ event ∈ evenements
        ((act r.service action).world.journal.drop r.service.world.journal.length) := by
      unfold Remote.happen at hmem
      dsimp only at hmem
      split at hmem
      · rwa [← List.append_assoc, List.mem_append] at hmem
      · exact .inl hmem
    rcases hflight with hmem | hmem
    · exact h.waiting event hmem
    · obtain ⟨o, ho, hevent⟩ := List.mem_filterMap.mp hmem
      cases o with
      | broadcast name data =>
        exact ⟨name, data, (Option.some.inj hevent).symm, hjournal name data (List.mem_of_mem_drop ho)⟩
      | _ => cases hevent
  | subscribed => exact ⟨h.attached, h.journal, h.waiting⟩
  | lost received =>
    refine ⟨h.attached, h.journal, fun event hmem => h.waiting event ?_⟩
    have hleft : event ∈ r.stale ++ r.inFlight.take received := by simpa [Remote.happen] using hmem
    exact List.mem_append.mpr ((List.mem_append.mp hleft).imp_right List.mem_of_mem_take)

theorem Regular.advance (h : Regular r) (happenings : List Happening) : Regular (r.advance happenings) :=
  List.foldlRecOn _ _ h fun _ hr happening _ => hr.happen happening

theorem Regular.repondre (h : Regular r) (textes : Textes) (demande : Demande) (sinceStatus : Bool) : Regular { r with
    service := (AmlService.repondre (serviceApplication textes) r.service demande).2
    sinceStatus } := by
  have hstep : Diffuse r.service (AmlService.repondre (serviceApplication textes) r.service demande).2 := by
    rcases repondre_act textes r.service demande with heq | ⟨action, -, heq⟩ <;> rw [heq]
    · exact refl_of Diffuse r.service
    · exact act_diffuse r.service action
  obtain ⟨hattached, hjournal⟩ := h.after hstep
  exact ⟨hattached, hjournal, h.waiting⟩

/-- What the bridge gets that asks for the states. -/
theorem ofAnswer_lu {textes : Textes} {s : Service} {command : String} {value : Option String} {result : JsonValue}
    (h : PyService.ofAnswer (repondre (serviceApplication textes) s
      (lireEnveloppe (PyService.requestMessage 1 command value))).1 = .ok result) :
    (command = "status" → StatutLu result) ∧ (command = "Alarm" → AlarmesLues result) := by
  have hanswer : ∀ {args : List JsonValue} {P : JsonValue → Prop},
      (∀ answer s', handlersRequest textes command args s = (.ok answer, s') → P answer) → (P .null → P (.obj [])) →
      lireEnveloppe (PyService.requestMessage 1 command value) = .command command args → P result := by
    intro args P hP hnull hread
    rw [hread] at h
    rcases hreq : handlersRequest textes command args s with ⟨e | answer, s'⟩ <;>
      simp only [repondre, serviceApplication, hreq, Except.mapError] at h
    · cases h
    · have hgot := hP answer s' hreq
      cases answer with
      | null =>
        cases h
        exact hnull hgot
      | _ =>
        cases h
        exact hgot
  constructor
  · intro hcommand
    subst hcommand
    have hread : lireEnveloppe (PyService.requestMessage 1 "status" value) =
        .command "status" (value.toList.map .str) := by
      cases value <;> rfl
    refine hanswer (fun answer s' => handlersRequest_lu.1) (fun hnull => ?_) hread
    obtain ⟨fields, hfields⟩ := hnull.entrees
    cases hfields
  · intro hcommand
    subst hcommand
    have hread : lireEnveloppe (PyService.requestMessage 1 "Alarm" value) =
        .command "Alarm" (value.toList.map .str) := by
      cases value <;> rfl
    refine hanswer (fun answer s' => handlersRequest_lu.2) (fun _ => ?_) hread
    intro number alarm halarm
    cases halarm

/-- **A request**: it fails only in ways that the bridge knows. -/
theorem ask_regular (textes : Textes) (command : String) (value : Option String) (h : Regular r) :
    Regular (ask textes command value r).2 ∧ match (ask textes command value r).1 with
      | .ok result => (command = "status" → StatutLu result) ∧ (command = "Alarm" → AlarmesLues result)
      | .error e => Reported e := by
  have hbefore := @Regular.advance { r with interludes := r.interludes.tail } ⟨h.attached, h.journal, h.waiting⟩
    (r.interludes.headD ⟨[], false, []⟩).before
  unfold ask
  dsimp only
  split
  · exact ⟨hbefore.advance _, trivial⟩
  · refine ⟨(hbefore.repondre textes _ _).advance _, ?_⟩
    split
    · next result hresult => exact ofAnswer_lu hresult
    · next e he =>
      unfold PyService.ofAnswer at he
      split at he <;> cases he
      trivial

end Regular

/-! ### The bridge -/

/-- What holds between two steps of the bridge. -/
structure Steady (b : Bridge Remote) : Prop where
  regular : Regular b.service
  readable : Readable (.obj b.cache)

/-- From such a state, only an excused exception ends a part of the loop. -/
abbrev Endures {α : Type} (py : PyValues) (m : PublisherM Remote α) : Prop :=
  Ensures (fun p => Steady p.bridge) m (fun _ p => Steady p.bridge) (fun e _ => Excused py e)

section Commands

variable {textes : Textes}

theorem serviceRequest_steady (textes : Textes) (command : String) (value : Option String) :
    Ensures Steady (Bridge.serviceRequest (ask textes) command value)
      (fun result b => Steady b ∧ (command = "status" → StatutLu result) ∧ (command = "Alarm" → AlarmesLues result))
      (fun e b => Reported e ∧ Steady b) := by
  intro b hb
  have hasked := ask_regular textes command value hb.regular
  unfold Bridge.serviceRequest
  rcases hask : ask textes command value b.service with ⟨e | result, service⟩ <;> rw [hask] at hasked
  · exact ⟨hasked.2, hasked.1, hb.readable⟩
  · exact ⟨⟨hasked.1, hb.readable⟩, hasked.2⟩

theorem sendAll_steady (commands : List (String × Option String)) :
    Ensures Steady (Bridge.sendAll (ask textes) commands) (fun _ => Steady) (fun e b => Reported e ∧ Steady b) := by
  induction commands with
  | nil => exact .pure fun _ h => h
  | cons first commands ih =>
    refine .bind (serviceRequest_steady textes first.1 first.2) fun _ => ?_
    exact ih.imp (fun _ h => h.1) (fun _ _ h => h) fun _ _ h => h

/-- What `execute` catches is the end of it. -/
theorem attempt_steady {m : BridgeM Remote Unit}
    (hm : Ensures Steady m (fun _ => Steady) (fun e b => e.Caught ∧ Steady b)) :
    Ensures Steady (Bridge.attempt m) (fun _ => Steady) (fun _ _ => False) := by
  intro b hb
  have hrun := hm b hb
  unfold Bridge.attempt
  rcases hmb : m b with ⟨e | u, c⟩ <;> rw [hmb] at hrun
  · cases e <;> first | exact hrun.2 | exact hrun.1
  · exact hrun

variable {python : Python} {route : Route} {payload : String}

/-- **A message that is not infinite** raises nothing: in the states of the service, the days of an alarm can
be changed. -/
theorem send_steady (hroute : route.entity ∈ buildEntities python)
    (hfinite : takesInteger route.entity route.channelName → python.float payload ≠ some .infinity) (now : Int) :
    Ensures Steady (Bridge.send (ask textes) route payload now) (fun _ => Steady) (fun _ _ => False) := by
  refine .bind (attempt_steady ?_) fun _ => ?_
  · refine .get fun b => ?_
    have hset : Steady b → Recovers (route.set payload (.obj b.cache)) := by
      intro hb
      refine (set_recovers (buildEntities_announced _ hroute)).mpr ⟨hfinite, fun number bit _ => ?_⟩
      show Changeable (valueIn _ ["Alarm", toString number, "days"])
      rcases hb.readable.days (toString number) with hdays | ⟨days, hdays⟩ <;> rw [hdays] <;> trivial
    intro c hc
    obtain ⟨hc, rfl⟩ := hc
    cases hcommands : route.set payload (.obj c.cache) with
    | error e => exact ⟨hset hc e hcommands, hc⟩
    | ok commands =>
      exact ((sendAll_steady commands).imp (fun _ h => h) (fun _ _ h => h) fun _ _ h => ⟨h.1.caught, h.2⟩) c hc
  · cases route.entity.group with
    | none => exact .pure fun _ h => h
    | some group => exact .act fun _ h => ⟨h.regular, h.readable⟩

end Commands

section Loop

variable {py : PyValues} {choices : Choices} {textes : Textes}

theorem ofBridge_endures {α : Type} {m : BridgeM Remote α}
    (hm : Ensures Steady m (fun _ => Steady) (fun _ _ => False)) : Endures py (ofBridge m) := by
  intro p hp
  have hrun := hm p.bridge hp
  unfold ofBridge
  rcases hmp : m p.bridge with ⟨e | a, bridge⟩ <;> rw [hmp] at hrun
  · exact hrun.elim
  · exact hrun

theorem publish_endures (topic payload : String) : Endures py (publish topic payload : PublisherM Remote Unit) := by
  refine .act fun p hp => ?_
  split <;> exact hp

theorem unpublish_endures (topic : String) : Endures py (unpublish topic : PublisherM Remote Unit) := by
  refine .act fun p hp => ?_
  split <;> exact hp

/-- A reading of a channel. -/
theorem getState_endures (hpy : OrdersIntegers py) {getter : Getter}
    (hphase : ∀ path, getter = .phase path → path ∈ phasePaths) :
    Endures py (getState py getter : PublisherM Remote (Option String)) := by
  intro p hp
  unfold getState
  rcases getter_ok hpy hp.readable hphase p.reads with ⟨value, hvalue⟩ | ⟨g, offset, hvalue, hclock⟩
  · rw [show getter.get py p.reads p.cache = .ok value from hvalue]
    exact hp
  · rw [show getter.get py p.reads p.cache = .error g from hvalue]
    exact ⟨g, p.reads, offset, rfl, hclock⟩

/-- A phase that is one of those. -/
def phaseFits : Option Getter → Bool
  | some (.phase path) => phasePaths.contains path
  | _ => true

theorem phases_fit : ∀ r ∈ (buildDescriptions []).map readings, ∀ get ∈ r.getters, phaseFits get = true := by
  decide +kernel

theorem channel_phase {d : Description} {channel : String × Channels.Channel} (hd : d ∈ buildDescriptions choices)
    (hchannel : channel ∈ d.channels) {path : List String} (hget : channel.2.get = some (.phase path)) :
    path ∈ phasePaths := by
  have hmem : readings d ∈ (buildDescriptions choices).map readings := List.mem_map_of_mem hd
  rw [buildDescriptions_readings] at hmem
  have hfits := phases_fit _ hmem _ (List.mem_map_of_mem hchannel)
  rw [hget] at hfits
  exact List.contains_iff_mem.mp hfits

theorem publishChannels_endures (hpy : OrdersIntegers py) (key : String) {channels : List (String × Channels.Channel)}
    (h : ∀ channel ∈ channels, ∀ path, channel.2.get = some (.phase path) → path ∈ phasePaths) :
    Endures py (publishChannels py key channels : PublisherM Remote Unit) := by
  induction channels with
  | nil => exact .pure fun _ h => h
  | cons channel channels ih =>
    obtain ⟨hfirst, hrest⟩ := List.forall_mem_cons.mp h
    obtain ⟨name, get, set⟩ := channel
    cases get with
    | none => exact ih hrest
    | some getter =>
      refine .bind (getState_endures hpy fun path heq => hfirst path (by rw [heq])) fun value => ?_
      cases value with
      | none => exact ih hrest
      | some value => exact .bind (publish_endures _ value) fun _ => ih hrest

theorem publishGroup_endures (hpy : OrdersIntegers py) (group : String) :
    Endures py (publishGroup py (buildDescriptions choices) group : PublisherM Remote Unit) := by
  have hentities : ∀ entities : List Description, (∀ d ∈ entities, d ∈ buildDescriptions choices) →
      Endures py (publishEntities py group entities : PublisherM Remote Unit) := by
    intro entities hmem
    induction entities with
    | nil => exact .pure fun _ h => h
    | cons d entities ih =>
      obtain ⟨hd, hrest⟩ := List.forall_mem_cons.mp hmem
      refine .ite (fun _ => ih hrest) fun _ => ?_
      refine .bind (publishChannels_endures hpy d.key ?_) fun _ => ih hrest
      exact fun channel hchannel path hget => channel_phase hd hchannel hget
  exact hentities _ fun _ h => h

/-- What changes with the time is read again: the entities have something to read. -/
theorem publishLive_endures (hpy : OrdersIntegers py) :
    Endures py (publishLive py (buildDescriptions choices) : PublisherM Remote Unit) := by
  have hchannels : ∀ (d : Description), d ∈ buildDescriptions choices → d.live = true →
      ∀ channels : List (String × Channels.Channel), (∀ channel ∈ channels, channel ∈ d.channels) →
        Endures py (publishLiveChannels py d.key channels : PublisherM Remote Unit) := by
    intro d hd hlive channels hmem
    induction channels with
    | nil => exact .pure fun _ h => h
    | cons channel channels ih =>
      obtain ⟨hchannel, hrest⟩ := List.forall_mem_cons.mp hmem
      obtain ⟨hclock, -⟩ := live_clock hd hlive hchannel
      obtain ⟨name, get, set⟩ := channel
      obtain rfl : get = some .clock := hclock
      refine .bind (getState_endures hpy (by intro path heq; cases heq)) fun value => ?_
      cases value with
      | none => exact .bind (unpublish_endures _) fun _ => ih hrest
      | some value => exact .bind (publish_endures _ value) fun _ => ih hrest
  have hentities : ∀ entities : List Description, (∀ d ∈ entities, d ∈ buildDescriptions choices) →
      Endures py (publishLiveEntities py entities : PublisherM Remote Unit) := by
    intro entities hmem
    induction entities with
    | nil => exact .pure fun _ h => h
    | cons d entities ih =>
      obtain ⟨hd, hrest⟩ := List.forall_mem_cons.mp hmem
      unfold publishLiveEntities
      split
      · next hlive => exact .bind (hchannels d hd hlive d.channels fun _ h => h) fun _ => ih hrest
      · exact ih hrest
  exact hentities _ fun _ h => h

/-- States of the right form are put in the cache. -/
theorem put_endures {group : String} {value : JsonValue} (hstatus : group = "status" → StatutLu value)
    (halarms : group = "Alarm" → AlarmesLues value) :
    Endures py (Fallible.act (put group value) : PublisherM Remote Unit) :=
  .act fun _ h => ⟨h.regular, h.readable.put hstatus halarms⟩

theorem keep_endures (hpy : OrdersIntegers py) {group : String} {result : JsonValue}
    (hstatus : group = "status" → StatutLu result) (halarms : group = "Alarm" → AlarmesLues result) :
    Endures py (keep py (buildDescriptions choices) group result : PublisherM Remote Unit) := by
  refine .bind (put_endures hstatus halarms) fun _ => .ite (fun hgroup => ?_) fun _ => publishGroup_endures hpy group
  obtain ⟨fields, rfl⟩ := (hstatus (by simpa using hgroup)).entrees
  refine .bind (ofBridge_endures (.pure fun _ h => h)) fun connected => ?_
  exact .bind (publish_endures _ _) fun _ => publishGroup_endures hpy group

/-- **A reading**: the service answers, refuses, or cannot be reached. -/
theorem refresh_endures (hpy : OrdersIntegers py) (group : String) :
    Endures py (refresh py (buildDescriptions choices) (ask textes) group) := by
  intro p hp
  have hasked := serviceRequest_steady textes group none p.bridge hp
  unfold refresh
  rcases hrun : Bridge.serviceRequest (ask textes) group none p.bridge with ⟨e | result, bridge⟩ <;> rw [hrun] at hasked
  · obtain ⟨hreported, hsteady⟩ := hasked
    cases e with
    | serviceError code message => exact hsteady
    | osError message =>
      have hpublish : Endures py (publish amlTopic "offline" : PublisherM Remote Unit) := publish_endures _ _
      exact hpublish { p with bridge := { bridge with cache := dictDel "status" bridge.cache } }
        ⟨hsteady.regular, hsteady.readable.forget⟩
    | _ => exact hreported.elim
  · obtain ⟨hsteady, hstatus, halarms⟩ := hasked
    exact keep_endures hpy hstatus halarms { p with bridge } hsteady

theorem alreadyOn_endures (hpy : OrdersIntegers py) (entity : Entity) :
    Endures py (alreadyOn py (buildDescriptions choices) (ask textes) entity) :=
  .bind (refresh_endures hpy _) fun _ => .get fun _ => .pure fun _ h => h.1

theorem execute_endures (hpy : OrdersIntegers py) {python : Python} {route : Route} {payload : String}
    (hroute : route.entity ∈ buildEntities python)
    (hfinite : takesInteger route.entity route.channelName → python.float payload ≠ some .infinity) (now : Int) :
    Endures py (execute py (buildDescriptions choices) (ask textes) route payload now) := by
  have hrest : ∀ skip : Bool, Endures py
      (if skip then return () else ofBridge (Bridge.send (ask textes) route payload now)) := by
    intro skip
    cases skip with
    | true => exact .pure fun _ h => h
    | false => exact ofBridge_endures (send_steady hroute hfinite now)
  exact Ensures.ite (fun _ => .bind (alreadyOn_endures hpy _) hrest) fun _ => .bind (.pure fun _ h => h) hrest

theorem reveil_statutLu {status : JsonValue} (h : StatutLu status) {fields : List (String × JsonValue)}
    (hfields : status = .obj fields) (alarmes : Alarme → SuiviAlarme) :
    StatutLu (.obj (dictSet "alarm_state" (reveilJson alarmes) fields)) := by
  subst hfields
  refine ⟨⟨_, rfl⟩, fun state hstate => ?_, fun clock hclock => h.ecart clock ?_⟩
  · rw [get_dictSet, if_pos rfl] at hstate
    exact ⟨alarmes, (Option.some.inj hstate).symm⟩
  · rwa [get_dictSet, if_neg (by decide)] at hclock

/-- **The events** of the service: each has the fields that the bridge looks for. -/
theorem handleEvent_endures (hpy : OrdersIntegers py) {message : JsonValue} (hmessage : Known message) :
    Endures py (handleEvent py (buildDescriptions choices) (ask textes) message) := by
  obtain ⟨name, data, rfl, hdata⟩ := hmessage
  have hevent : (evenement name data).get? "event" = some (.str name) := rfl
  have heventData : eventData (evenement name data) = data := by cases hdata <;> rfl
  unfold handleEvent
  cases hdata with
  | reveil alarmes =>
    simp only [hevent, heventData]
    refine .get fun p q hq => ?_
    obtain ⟨hq, rfl⟩ := hq
    have hstatus : StatutLu ((q.bridge.cache.lookup "status").getD (.obj [])) := by
      rw [← get_eq_lookup]
      cases hget : (JsonValue.obj q.bridge.cache).get? "status" with
      | none => exact ⟨⟨[], rfl⟩, fun _ h => (by cases h), fun _ h => (by cases h)⟩
      | some status => exact hq.readable.status status hget
    obtain ⟨fields, hfields⟩ := hstatus.entrees
    have hput : Endures py (do
        Fallible.act (put "status" (.obj (dictSet "alarm_state" (reveilJson alarmes) fields)))
        publishGroup py (buildDescriptions choices) "status") :=
      .bind (put_endures (fun _ => reveil_statutLu hstatus hfields alarmes) fun h => absurd h (by decide))
        fun _ => publishGroup_endures hpy _
    simp only [hfields]
    exact hput q hq
  | eclairage light mood =>
    simp only [hevent, heventData]
    have hget : ∀ key, Endures py
        (ofBridge (dictGet (eclairageJson light mood) key (.obj [])) : PublisherM Remote JsonValue) :=
      fun _ => ofBridge_endures (.pure fun _ h => h)
    have hput : ∀ {group : String} (value : JsonValue), group ≠ "status" → group ≠ "Alarm" →
        Endures py (Fallible.act (put group value) : PublisherM Remote Unit) :=
      fun value hstatus halarm => put_endures (fun h => absurd h hstatus) fun h => absurd h halarm
    refine .bind (hget "light") fun value => .bind (hput value (by decide) (by decide)) fun _ => ?_
    refine .bind (hget "mood") fun value => .bind (hput value (by decide) (by decide)) fun _ => ?_
    exact .bind (publishGroup_endures hpy _) fun _ => publishGroup_endures hpy _
  | minuteur timer =>
    simp only [hevent, heventData]
    have hget : Ensures (fun p => Steady p.bridge)
        (ofBridge (dictGet (minuteurJson timer) "timer" .null) : PublisherM Remote JsonValue)
        (fun value p => Steady p.bridge ∧ value = .str timer) (fun e _ => Excused py e) := fun p hp => ⟨hp, rfl⟩
    refine .bind hget fun value p hp => ?_
    obtain ⟨hp, rfl⟩ := hp
    obtain ⟨group, hgroup⟩ := timerGroup_str timer
    rw [hgroup]
    cases group with
    | none => exact hp
    | some group => exact refresh_endures hpy group p hp

theorem refreshEach_endures (hpy : OrdersIntegers py) (groups : List String) :
    Endures py (refreshEach py (buildDescriptions choices) (ask textes) groups) := by
  induction groups with
  | nil => exact .pure fun _ h => h
  | cons group groups ih => exact .bind (refresh_endures hpy group) fun _ => ih

theorem refreshDueGroups_endures (hpy : OrdersIntegers py) (now : Int) (due : List (String × Int)) :
    Endures py (refreshDueGroups py (buildDescriptions choices) (ask textes) now due) := by
  induction due with
  | nil => exact .pure fun _ h => h
  | cons entry due ih =>
    refine .ite (fun _ => ?_) fun _ => ih
    refine .bind (.act fun p hp => ?_) fun _ => .bind (refresh_endures hpy _) fun _ => ih
    exact ⟨hp.regular, hp.readable⟩

theorem refreshAll_endures (hpy : OrdersIntegers py) :
    Endures py (refreshAll py (buildDescriptions choices) (ask textes)) := by
  refine .bind (refresh_endures hpy _) fun _ => .get fun p => ?_
  refine Ensures.imp ?_ (fun _ h => h.1) (fun _ _ h => h) fun _ _ h => h
  exact .ite (fun _ => refreshEach_endures hpy groups) fun _ => .pure fun _ h => h

theorem poll_endures (hpy : OrdersIntegers py) (pollMs now : Int) :
    Endures py (poll py (buildDescriptions choices) (ask textes) pollMs now) := by
  refine .get fun p => Ensures.imp ?_ (fun _ h => h.1) (fun _ _ h => h) fun _ _ h => h
  refine .ite (fun _ => .bind (refreshAll_endures hpy) fun _ => .act fun q hq => ?_) fun _ => .pure fun _ h => h
  exact ⟨hq.regular, hq.readable⟩

/-- What is taken from the queue of commands: an event of the service, or a message for an entity, whose number,
if it has one, is not infinite. -/
def Sound (python : Python) : Option Item → Prop
  | some (.event message) => Known message
  | some (.command route payload) => route.entity ∈ buildEntities python ∧
      (takesInteger route.entity route.channelName → python.float payload ≠ some .infinity)
  | some .republish | none => True

/-- **One turn.** -/
theorem turn_endures (hpy : OrdersIntegers py) {python : Python} (pollMs : Int) {first : Turn}
    (hitem : Sound python first.item) :
    Endures py (turn py (buildDescriptions choices) (ask textes) pollMs first) := by
  have hhandle : Endures py (handle py (buildDescriptions choices) (ask textes) first) := by
    obtain ⟨item, executed, now⟩ := first
    cases item with
    | none => exact .pure fun _ h => h
    | some item =>
      cases item with
      | republish => exact .act fun p hp => ⟨hp.regular, hp.readable⟩
      | event message => exact handleEvent_endures hpy hitem
      | command route payload => exact execute_endures hpy hitem.1 hitem.2 executed
  refine .bind hhandle fun _ => .get fun p => Ensures.imp ?_ (fun _ h => h.1) (fun _ _ h => h) fun _ _ h => h
  exact .bind (refreshDueGroups_endures hpy _ _) fun _ => .bind (poll_endures hpy _ _) fun _ => publishLive_endures hpy

/-- The message that a turn takes is for an entity, and its number is not infinite. -/
def Round.Finite (python : Python) (r : Round) : Prop :=
  ∀ route payload, r.takes = .command route payload → Sound python (some (.command route payload))

/-- An event that is taken is one of those that wait. -/
theorem Regular.takes {r : Remote} (h : Regular r) {python : Python} {takes : Take}
    (htakes : ∀ route payload, takes = .command route payload → Sound python (some (.command route payload))) :
    Sound python (takes.item r).1 ∧ Regular (takes.item r).2 := by
  cases takes with
  | nothing | republish => exact ⟨trivial, h⟩
  | command route payload => exact ⟨htakes route payload rfl, h⟩
  | event =>
    obtain ⟨service, listening, stale, inFlight, sinceStatus, interludes⟩ := r
    cases stale with
    | cons message stale =>
      obtain ⟨hfirst, hrest⟩ := List.forall_mem_cons.mp h.waiting
      exact ⟨hfirst, h.attached, h.journal, hrest⟩
    | nil =>
      cases inFlight with
      | nil => exact ⟨trivial, h⟩
      | cons message inFlight =>
        obtain ⟨hfirst, hrest⟩ := List.forall_mem_cons.mp h.waiting
        exact ⟨hfirst, h.attached, h.journal, hrest⟩

theorem round_endures (hpy : OrdersIntegers py) {python : Python} {pollMs : Int} {r : Round} (hr : r.Finite python) :
    Endures py (round py (buildDescriptions choices) textes pollMs r) := by
  have hmeanwhile : Endures py
      (Fallible.act fun p => { p with bridge.service := p.bridge.service.advance r.meanwhile }) :=
    .act fun p hp => ⟨hp.regular.advance r.meanwhile, hp.readable⟩
  refine hmeanwhile.bind fun _ => .get fun p q hq => ?_
  obtain ⟨hq, rfl⟩ := hq
  obtain ⟨hitem, hregular⟩ := hq.regular.takes hr
  have hrest : Endures py (turn py (buildDescriptions choices) (ask textes) pollMs
      ⟨(r.takes.item q.bridge.service).1, r.executed, r.now⟩) := turn_endures hpy pollMs hitem
  exact hrest _ ⟨hregular, hq.readable⟩

theorem rounds_endures (hpy : OrdersIntegers py) {python : Python} {pollMs : Int} {rs : List Round}
    (hrs : ∀ r ∈ rs, r.Finite python) : Endures py (rounds py (buildDescriptions choices) textes pollMs rs) := by
  induction rs with
  | nil => exact .pure fun _ h => h
  | cons r rs ih =>
    obtain ⟨hfirst, hrest⟩ := List.forall_mem_cons.mp hrs
    exact .bind (round_endures hpy hfirst) fun _ => ih hrest

/-- The bridge starts. -/
theorem Steady.start (device : AmlConfig) (world : World) (actions : List Action) (interludes : List Interlude) :
    Steady (Bridge.start (Remote.start (AmlService.run (serviceInit device world) actions) interludes)) := by
  have hinit : Regular (.start (serviceInit device world) interludes) :=
    ⟨serviceInit_attached device world, fun _ _ h => (by cases h), fun _ h => (by cases h)⟩
  obtain ⟨hattached, hjournal⟩ := hinit.after (run_diffuse _ actions)
  refine ⟨⟨hattached, hjournal, fun _ h => (by cases h)⟩, fun _ h => (by cases h), fun _ h => (by cases h)⟩

/-- **The bridge does not stop by itself.** In front of the service, whatever it does in between, whether
requests fail or not, whether the connection for the events holds or not, and whatever messages come whose
numbers are not infinite: if an exception ends the loop, then Python could not tell the time of the AML. -/
theorem loop_goes_on (hpy : OrdersIntegers py) {python : Python} {pollMs : Int} {rs : List Round}
    (hrs : ∀ r ∈ rs, r.Finite python) (device : AmlConfig) (world : World) (actions : List Action)
    (interludes : List Interlude) {e : PublishError}
    (h : (rounds py (buildDescriptions choices) textes pollMs rs
      (start (.start (AmlService.run (serviceInit device world) actions) interludes))).1 = .error e) :
    Excused py e := by
  have hend := @rounds_endures py choices textes hpy python pollMs rs hrs
    (start (.start (AmlService.run (serviceInit device world) actions) interludes))
    (.start device world actions interludes)
  rcases hrun : rounds py (buildDescriptions choices) textes pollMs rs
    (start (.start (AmlService.run (serviceInit device world) actions) interludes)) with ⟨e' | u, p⟩ <;>
    rw [hrun] at h hend
  · obtain rfl := Except.error.inj h
    exact hend
  · cases h

end Loop

/-- An alarm rings, and the volume of the radio is set in between. -/
def volumeRounds : List Round :=
  let ticks := [Action.sweetdawnTick, .handlersTick, .sweetdawnTick, .handlersTick].map Happening.step
  [⟨[.subscribed], .nothing, 0, 0⟩, ⟨ticks, .command radioVolume "7.0", 0, 1⟩, ⟨[.lost 1], .event, 0, 1⟩,
    ⟨[], .republish, 0, 2⟩]

def volumeRun : Except PublishError Unit × Publisher Remote :=
  let ticks := [Action.sweetdawnTick, .handlersTick, .sweetdawnTick, .handlersTick].map Happening.step
  rounds plainValues (buildDescriptions defaultChoices) sansTexte 30000 volumeRounds
    (start (.start (AmlService.run (serviceInit amlScripted mondeSonnerie) []) [⟨[], true, ticks⟩]))

theorem loop_goes_on_volume : volumeRun.1 = .ok () := by
  have hpy : OrdersIntegers plainValues := fun a b => ⟨_, rfl⟩
  have hvolume : Sound python (some (.command radioVolume "7.0")) := ⟨radioVolume_announced, fun _ => by decide +kernel⟩
  have hfinite : ∀ r ∈ volumeRounds, r.Finite python := by
    intro r hr route payload htakes
    simp only [volumeRounds, List.mem_cons, List.not_mem_nil, or_false] at hr
    rcases hr with rfl | rfl | rfl | rfl <;> cases htakes
    exact hvolume
  cases hend : volumeRun.1 with
  | ok u => rfl
  | error e =>
    obtain ⟨g, reads, offset, -, hclock⟩ := loop_goes_on hpy hfinite amlScripted mondeSonnerie [] _ hend
    cases hclock

end Publisher

end AmlService
