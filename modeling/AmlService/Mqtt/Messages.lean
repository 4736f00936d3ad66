import AmlService.Mqtt.DaySwitches
import AmlService.Mqtt.Entities

/-!
# AmlService.Mqtt.Messages

What a message does to the bridge. `execute` catches the exceptions that a message refused or
a service out of reach raises, and no others: there are two kinds of messages whose
conversion raises something else, which ends the main loop.
-/

namespace AmlService

open Effect Entities

/-! ### The exceptions -/

/-- What a request can raise. -/
def Reported : PyError → Prop
  | .serviceError _ _ | .osError _ => True
  | _ => False

theorem Reported.caught {e : PyError} (h : Reported e) : e.Caught := by
  cases e <;> first | exact trivial | exact h.elim

/-- The failures of a conversion are caught. -/
def Recovers {α : Type} (converted : Converted α) : Prop := ∀ e, converted = .error e → e.Caught

@[simp] theorem recovers_ok {α : Type} (a : α) : Recovers (.ok a : Converted α) := fun _ h => by cases h

@[simp] theorem recovers_error {α : Type} (e : PyError) :
    Recovers (.error e : Converted α) ↔ e.Caught := by
  constructor
  · intro h
    exact h e rfl
  · intro h e' heq
    cases heq
    exact h

@[simp] theorem recovers_map {α β : Type} (f : α → β) (converted : Converted α) :
    Recovers (converted.map f) ↔ Recovers converted := by
  cases converted <;> simp [Except.map]

/-- `int` of a float -/
theorem pyInt_recovers (x : PyFloat) : Recovers (pyInt x) ↔ x ≠ .infinity := by
  cases x <;> simp [pyInt, PyError.Caught]

section Conversions

variable {python : Python} {payload : String}

theorem boolPayload_recovers : Recovers (boolPayload python payload) := by
  unfold boolPayload
  split <;> simp [PyError.Caught]

/-- **An integer is refused, unless it is infinite.** -/
theorem intPayload_recovers :
    Recovers (intPayload python payload) ↔ python.float payload ≠ some .infinity := by
  unfold intPayload
  split
  · next x hx => simp [hx, pyInt_recovers]
  · next hx => simp [hx, PyError.Caught]

/-- Days that one bit can be changed of, or that are not known. -/
def Changeable : JsonValue → Prop
  | .null | .int _ | .bool _ => True
  | _ => False

/-- **A day is refused when the days are not known**, not when they are something else. -/
theorem daySwitchSet_recovers {number bit : Nat} {cache : JsonValue} :
    Recovers (daySwitchSet number bit payload cache) ↔ Changeable (valueIn cache (daysPath number)) := by
  unfold daySwitchSet daysPath
  dsimp only
  cases valueIn cache ["Alarm", toString number, "days"] <;> simp [Changeable, PyError.Caught]

end Conversions

/-! ### The messages that can be executed -/

/-- A message, with the cache it finds, that raises nothing but what is caught: its integer is
not infinite, and the days it changes are unknown or an integer. -/
structure Executable (python : Python) (route : Route) (payload : String) (cache : JsonValue) : Prop where
  integer : takesInteger route.entity route.channelName → python.float payload ≠ some .infinity
  days : ∀ number bit, route.entity = daySwitch number bit → Changeable (valueIn cache (daysPath number))

/-- The commands that the channel builds. -/
def Route.commands (route : Route) (payload : String) (cache : JsonValue) : List (String × Option String) :=
  match route.set payload cache with
  | .ok commands => commands
  | .error _ => []

/-- A light to be switched on. -/
abbrev Route.switchesOn (route : Route) (payload : String) : Bool :=
  route.entity.component == "light" && route.channelName == "" && payload == "ON"

/-- The group that is read first. -/
def Route.readings (route : Route) (payload : String) : List (String × Option String) :=
  if route.switchesOn payload then [(route.entity.group.getD "", none)] else []

/-- The conversion that a route stands for. -/
theorem announced_route {python : Python} {route : Route} (hroute : Announced python route.entity) :
    ∃ conversion : Conversion, route.set = conversion.set python ∧
      conversion.Fits route.entity route.channelName := by
  rcases hroute.channels _ route.announced with hnone | ⟨conversion, heq, hfits⟩
  · cases hnone
  · exact ⟨conversion, Option.some.inj (congrArg Channel.set heq), hfits⟩

theorem route_day {route : Route} {number bit : Nat} (h : route.entity = daySwitch number bit) :
    route.set = daySwitchSet number bit := by
  have hmem := route.announced
  rw [h] at hmem
  have heq := congrArg (fun channel => channel.2.set) (List.mem_singleton.mp hmem)
  exact Option.some.inj heq

/-- **Which messages raise nothing that is not caught.** -/
theorem set_recovers {python : Python} {route : Route} {payload : String} {cache : JsonValue}
    (hroute : Announced python route.entity) :
    Recovers (route.set payload cache) ↔ Executable python route payload cache := by
  obtain ⟨conversion, hset, hfits⟩ := announced_route hroute
  constructor
  · intro h
    refine ⟨?_, ?_⟩
    · intro hint
      obtain ⟨path, rfl⟩ := hfits.integer.mpr hint
      rw [hset, Conversion.set, recovers_map] at h
      exact intPayload_recovers.mp h
    · intro number bit hday
      rw [route_day hday] at h
      exact daySwitchSet_recovers.mp h
  · intro h
    rw [hset]
    cases conversion with
    | bool path => simp [Conversion.set, boolPayload_recovers]
    | int path =>
      rw [Conversion.set, recovers_map]
      exact intPayload_recovers.mpr (h.integer (hfits.integer.mp ⟨path, rfl⟩))
    | asIs path => simp [Conversion.set]
    | press path => simp [Conversion.set]
    | day number bit => exact daySwitchSet_recovers.mpr (h.days number bit (hfits.day number bit rfl))

/-- A light to be switched on: the command is built, whatever the cache. -/
theorem switchesOn_set {python : Python} {route : Route} {payload : String}
    (hroute : Announced python route.entity) (hon : route.switchesOn payload = true) :
    ∃ path, ∀ cache, route.set payload cache = .ok [(path, some "true")] := by
  obtain ⟨conversion, hset, hfits⟩ := announced_route hroute
  simp only [Bool.and_eq_true, beq_iff_eq] at hon
  obtain ⟨⟨hlight, hname⟩, rfl⟩ := hon
  obtain ⟨path, rfl⟩ := hfits.light hlight hname
  refine ⟨path, fun cache => ?_⟩
  rw [hset]
  rfl

/-! ### Executing a message -/

section Execute

variable {σ : Type} (request : ServiceRequest σ)

/-- The service, once it was asked all this. -/
def served (asked : List (String × Option String)) (s : σ) : σ :=
  asked.foldl (fun s ask => (request ask.1 ask.2 s).2) s

/-- `execute` goes through, and asks the service for nothing but the group of a light to be
switched on, then commands that the channel built. -/
def Executes (route : Route) (payload : String) (now : Int) (b : Bridge σ) : Prop :=
  ∃ b', Bridge.execute request route payload now b = (.ok (), b') ∧
    ∃ sent, sent <+: route.commands payload (.obj b.cache) ∧
      b'.service = served request (route.readings payload ++ sent) b.service

variable {request : ServiceRequest σ} {route : Route} {payload : String} {now : Int} {b : Bridge σ}

@[simp] theorem serviceRequest_run (command : String) (value : Option String) (b : Bridge σ) :
    Bridge.serviceRequest request command value b =
      ((request command value b.service).1, { b with service := (request command value b.service).2 }) := rfl

/-- What follows the reading of a light. -/
def Bridge.send (request : ServiceRequest σ) (route : Route) (payload : String) (now : Int) :
    BridgeM σ Unit := do
  Bridge.attempt do
    let b ← get
    match route.set payload (.obj b.cache) with
    | .ok commands => Bridge.sendAll request commands
    | .error e => throw e
  match route.entity.group with
  | some group =>
    Fallible.act fun b => { b with refreshDue := dictSet group (now + refreshDelayMs) b.refreshDue }
  | none => return ()

theorem execute_eq : Bridge.execute request route payload now = (do
    let skip ← if route.switchesOn payload then Bridge.alreadyOn request route.entity else pure false
    if skip then return () else Bridge.send request route payload now) := rfl

/-- What follows the `try` raises nothing, and asks the service for nothing. -/
theorem send_of_attempt (now : Int) {b' : Bridge σ}
    (h : Bridge.attempt (do
      let b ← get
      match route.set payload (.obj b.cache) with
      | .ok commands => Bridge.sendAll request commands
      | .error e => throw e) b = (.ok (), b')) :
    ∃ last, Bridge.send request route payload now b = (.ok (), last) ∧ last.service = b'.service := by
  unfold Bridge.send
  rw [bind_run_ok h]
  cases route.entity.group with
  | some group => exact ⟨_, rfl, rfl⟩
  | none => exact ⟨b', rfl, rfl⟩

section Requests

variable (hrequest : ∀ command value, Fails Reported (request command value))

include hrequest

/-- **The commands**, until one fails. -/
theorem sendAll_run (commands : List (String × Option String)) (b : Bridge σ) :
    ∃ r sent, sent <+: commands ∧ (∀ e, r = .error e → Reported e) ∧
      Bridge.sendAll request commands b = (r, { b with service := served request sent b.service }) := by
  induction commands generalizing b with
  | nil => exact ⟨.ok (), [], List.prefix_rfl, fun e h => (by cases h), rfl⟩
  | cons ask commands ih =>
    obtain ⟨command, value⟩ := ask
    rcases hrun : request command value b.service with ⟨e | result, s'⟩
    · refine ⟨.error e, [(command, value)], List.cons_prefix_cons.mpr ⟨rfl, List.nil_prefix⟩, ?_, ?_⟩
      · intro e' heq
        cases heq
        exact hrequest command value _ _ _ hrun
      · refine bind_run_error ?_
        simp [hrun, served]
    · obtain ⟨r, sent, hsent, hr, hrest⟩ := ih { b with service := s' }
      refine ⟨r, (command, value) :: sent, List.cons_prefix_cons.mpr ⟨rfl, hsent⟩, hr, ?_⟩
      have hfirst : Bridge.serviceRequest request command value b =
          (.ok result, { b with service := s' }) := by simp [hrun]
      refine (bind_run_ok hfirst).trans ?_
      simp [hrest, served, hrun]

/-- A group that is not `status`, read again. -/
theorem refresh_run {group : String} (hgroup : group ≠ "status") (b : Bridge σ) :
    ∃ b', Bridge.refresh request group b = (.ok (), b') ∧
      b'.service = (request group none b.service).2 := by
  rcases hrun : request group none b.service with ⟨e | result, s'⟩
  · have he : Reported e := hrequest group none _ _ _ hrun
    cases e with
    | serviceError code message => exact ⟨{ b with service := s' }, by simp [Bridge.refresh, hrun], rfl⟩
    | osError message =>
      refine ⟨{ b with service := s', cache := dictDel "status" b.cache }, ?_, rfl⟩
      simp [Bridge.refresh, hrun]
    | _ => exact he.elim
  · refine ⟨{ b with service := s', cache := dictSet group result b.cache }, ?_, rfl⟩
    simp only [Bridge.refresh, serviceRequest_run, hrun]
    refine (bind_run_ok rfl).trans ?_
    simp only [beq_iff_eq, if_neg hgroup]
    rfl

theorem alreadyOn_run {entity : Entity} (hgroup : entity.group.getD "" ≠ "status") (b : Bridge σ) :
    ∃ on b', Bridge.alreadyOn request entity b = (.ok on, b') ∧
      b'.service = (request (entity.group.getD "") none b.service).2 := by
  obtain ⟨b', hrun, hservice⟩ := refresh_run hrequest hgroup b
  unfold Bridge.alreadyOn
  rw [bind_run_ok hrun]
  exact ⟨_, b', rfl, hservice⟩

/-- **Commands that the channel built** are sent, until one fails. -/
theorem send_ok {commands : List (String × Option String)}
    (hset : route.set payload (.obj b.cache) = .ok commands) (now : Int) :
    ∃ last sent, Bridge.send request route payload now b = (.ok (), last) ∧ sent <+: commands ∧
      last.service = served request sent b.service := by
  obtain ⟨r, sent, hsent, hr, hrun⟩ := sendAll_run hrequest commands b
  obtain ⟨last, hsend, hservice⟩ := send_of_attempt now (attempt_caught (by
    rw [bind_run_ok (get_run b), hset]
    exact hrun) fun e he => (hr e he).caught)
  exact ⟨last, sent, hsend, hsent, hservice⟩

end Requests

/-- **A conversion that fails**, with an exception that is caught. -/
theorem send_refused {e : PyError} (hset : route.set payload (.obj b.cache) = .error e) (he : e.Caught)
    (now : Int) : ∃ last, Bridge.send request route payload now b = (.ok (), last) ∧
      last.service = b.service := by
  refine send_of_attempt now (attempt_caught (by rw [bind_run_ok (get_run b), hset]; rfl) ?_)
  intro e' heq
  cases heq
  exact he

/-- **A conversion that fails**, with another. -/
theorem send_raises {e : PyError} (hset : route.set payload (.obj b.cache) = .error e) (he : ¬ e.Caught)
    (now : Int) : Bridge.send request route payload now b = (.error e, b) := by
  unfold Bridge.send
  refine bind_run_error (attempt_error ?_ he)
  rw [bind_run_ok (get_run b), hset]
  rfl

theorem served_append (asked asked' : List (String × Option String)) (s : σ) :
    served request (asked ++ asked') s = served request asked' (served request asked s) := by
  simp [served]

/-- A message that does not switch a light on. -/
theorem execute_off (hoff : ¬ route.switchesOn payload = true) :
    Bridge.execute request route payload now = Bridge.send request route payload now := by
  rw [execute_eq, if_neg hoff]
  rfl

variable {python : Python}

/-- **A light switched on**: its group is read, then the command is sent unless it is on. -/
theorem executes_on (hrequest : ∀ command value, Fails Reported (request command value))
    (hroute : Announced python route.entity) (hon : route.switchesOn payload = true) :
    Executes request route payload now b := by
  obtain ⟨path, hset⟩ := switchesOn_set hroute hon
  have hlight : route.entity.component = "light" := by
    simp only [Bool.and_eq_true, beq_iff_eq] at hon
    exact hon.1.1
  obtain ⟨on, read, hread, hservice⟩ := alreadyOn_run hrequest (hroute.light hlight) b
  have hserved : read.service = served request (route.readings payload) b.service := by
    simp [Route.readings, hon, served, hservice]
  unfold Executes
  rw [execute_eq, if_pos hon, bind_run_ok hread]
  cases on with
  | true => exact ⟨read, rfl, [], List.nil_prefix, by rw [List.append_nil, hserved]⟩
  | false =>
    obtain ⟨last, sent, hsend, hsent, hlast⟩ := send_ok hrequest (hset (.obj read.cache)) now
    refine ⟨last, hsend, sent, ?_, by rw [hlast, served_append, hserved]⟩
    rwa [Route.commands, hset]

/-- **Any other message** goes through when its conversion does, or fails with what is caught. -/
theorem executes_off (hrequest : ∀ command value, Fails Reported (request command value))
    (hoff : ¬ route.switchesOn payload = true) :
    Executes request route payload now b ↔ Recovers (route.set payload (.obj b.cache)) := by
  have hreadings : route.readings payload = [] := if_neg hoff
  unfold Executes
  rw [execute_off hoff, hreadings, Route.commands]
  cases hset : route.set payload (.obj b.cache) with
  | ok commands =>
    obtain ⟨last, sent, hsend, hsent, hlast⟩ := send_ok hrequest hset now
    exact ⟨fun _ => recovers_ok commands, fun _ => ⟨last, hsend, sent, hsent, hlast⟩⟩
  | error e =>
    rw [recovers_error]
    constructor
    · intro h
      obtain ⟨last, hsend, -⟩ := h
      by_contra he
      rw [send_raises hset he] at hsend
      cases hsend
    · intro he
      obtain ⟨last, hsend, hlast⟩ := send_refused hset he now
      exact ⟨last, hsend, [], List.prefix_rfl, hlast⟩

/-- **One message.** -/
theorem executes_iff (hrequest : ∀ command value, Fails Reported (request command value))
    (hroute : Announced python route.entity) :
    Executes request route payload now b ↔ Executable python route payload (.obj b.cache) := by
  rw [← set_recovers hroute]
  by_cases hon : route.switchesOn payload = true
  · obtain ⟨path, hset⟩ := switchesOn_set hroute hon
    rw [hset]
    exact ⟨fun _ => recovers_ok _, fun _ => executes_on hrequest hroute hon⟩
  · exact executes_off hrequest hon

/-- A message that cannot be executed raises, and leaves everything as it was. -/
theorem execute_raises (hroute : Announced python route.entity)
    (hnot : ¬ Executable python route payload (.obj b.cache)) :
    ∃ e, Bridge.execute request route payload now b = (.error e, b) := by
  rw [← set_recovers hroute] at hnot
  have hoff : ¬ route.switchesOn payload = true := by
    intro hon
    obtain ⟨path, hset⟩ := switchesOn_set hroute hon
    exact hnot (by simp [hset])
  cases hset : route.set payload (.obj b.cache) with
  | ok commands => exact absurd (by simp [hset]) hnot
  | error e =>
    rw [hset, recovers_error] at hnot
    exact ⟨e, by rw [execute_off hoff, send_raises hset hnot]⟩

/-! ### The main loop -/

variable {pollMs : Int}

theorem run_after {before : List Turn} {start : Bridge σ}
    (h : Bridge.run request pollMs before start = (.ok (), b)) (turns : List Turn) :
    Bridge.run request pollMs (before ++ turns) start = Bridge.run request pollMs turns b := by
  induction before generalizing start with
  | nil =>
    obtain ⟨-, rfl⟩ := Prod.mk.inj h
    rfl
  | cons turn before ih =>
    obtain ⟨_, mid, hturn, hrest⟩ := bind_run_inv h
    exact (bind_run_ok hturn).trans (ih hrest)

/-- What a message raises ends the loop. -/
theorem run_raises {e : PyError} {last : Bridge σ} {executed : Int}
    (h : Bridge.execute request route payload executed b = (.error e, last)) (now : Int) (after : List Turn) :
    Bridge.run request pollMs (⟨some (.command route payload), executed, now⟩ :: after) b =
      (.error e, last) :=
  bind_run_error (bind_run_error h)

/-- **The messages of the bridge**: for any service whose requests give a result or raise
`ServiceError` or `OSError`, in any state, `execute` goes through and sends only commands that
the channel built if and only if the message is `Executable`; and in any run of the loop, the
messages that end it are the others. -/
theorem message_executes (hrequest : ∀ command value, Fails Reported (request command value))
    (hroute : route.entity ∈ buildEntities python) (payload : String) :
    (∀ now b, Executes request route payload now b ↔ Executable python route payload (.obj b.cache)) ∧
      ∀ pollMs before after executed now start b, Bridge.run request pollMs before start = (.ok (), b) →
        ((∃ e last, Bridge.execute request route payload executed b = (.error e, last) ∧
          Bridge.run request pollMs (before ++ ⟨some (.command route payload), executed, now⟩ :: after)
            start = (.error e, last)) ↔
          ¬ Executable python route payload (.obj b.cache)) := by
  have hannounced := buildEntities_announced _ hroute
  refine ⟨fun now b => executes_iff hrequest hannounced, ?_⟩
  intro pollMs before after executed now start b hbefore
  constructor
  · intro h hexecutable
    obtain ⟨e, last, hraises, -⟩ := h
    obtain ⟨b', hruns, -⟩ := (executes_iff hrequest hannounced).mpr hexecutable
    cases hruns.symm.trans hraises
  · intro hnot
    obtain ⟨e, hraises⟩ := execute_raises hannounced hnot
    exact ⟨e, b, hraises, (run_after hbefore _).trans (run_raises hraises now after)⟩

end Execute

/-- `repr` of a text without quotes or backslashes, that can be printed. -/
def python : Python where
  float := PyFloat.ofText
  repr text := s!"'{text}'"

/-- A service that notes what it is asked. -/
def noting : ServiceRequest (List (String × Option String)) := fun command value asked =>
  (.ok (.obj []), asked ++ [(command, value)])

theorem noting_reported (command : String) (value : Option String) :
    Fails Reported (noting command value) := by
  intro s e t h
  cases h

/-- The volume of the radio. -/
def radioVolume : Route where
  entity := number python "radio_volume" "Radio" "Radio/Volume"
  channelName := ""
  set := (Conversion.int "Radio/Volume").set python
  announced := List.mem_singleton.mpr rfl

theorem radioVolume_announced : radioVolume.entity ∈ buildEntities python := by
  simp [buildEntities, radio, radioVolume]

theorem message_executes_volume : Executes noting radioVolume "7.0" 0 (Bridge.start []) := by
  refine ((message_executes noting_reported radioVolume_announced "7.0").1 0 (Bridge.start [])).mpr ⟨?_, ?_⟩
  · intro _
    decide +kernel
  · intro number bit h
    exact absurd (congrArg Entity.component h) (by decide : "number" ≠ "switch")

/-- **An infinite volume ends the loop.** -/
theorem infinite_volume_ends :
    (∀ command value, Fails Reported (noting command value)) ∧ radioVolume.entity ∈ buildEntities python ∧
      (∀ now b, Bridge.execute noting radioVolume "inf" now b =
        (.error (.overflowError "cannot convert float infinity to integer"), b)) ∧
      (Bridge.run noting 30000 [⟨none, 0, 0⟩, ⟨some (.command radioVolume "inf"), 1000, 1000⟩]
        (Bridge.start [])).1 = .error (.overflowError "cannot convert float infinity to integer") := by
  have hinf : python.float "inf" = some .infinity := by decide +kernel
  have hset : ∀ cache, radioVolume.set "inf" cache =
      .error (.overflowError "cannot convert float infinity to integer") := by
    intro cache
    simp [radioVolume, Conversion.set, intPayload, hinf, pyInt, Except.map]
  refine ⟨noting_reported, radioVolume_announced, ?_, by decide +kernel⟩
  intro now b
  rw [execute_off (by decide)]
  exact send_raises (hset _) (fun h => h) now

end AmlService
