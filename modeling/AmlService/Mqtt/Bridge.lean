import AmlService.Lib.Effect
import AmlService.Lib.Json
import AmlService.Lib.Text
import Mathlib.Data.Int.Bitwise

/-!
# AmlService.Mqtt.Bridge

The bridge between Home Assistant and the service (`mqtt/sweetdawn_mqtt.py`, section Pont):
its main loop, the commands it executes and the states it reads again. The service it talks
to is a parameter, `request`; what the bridge publishes is left out, as nothing it does
later depends on it. Times are in milliseconds.

A `dict` is the list of its entries, a JSON value the `JsonValue` it is parsed to, `None`
included. An exception that is not caught ends the loop.
-/

namespace AmlService

open Effect

/-! ### Python -/

/-- The exceptions that can be raised. -/
inductive PyError
  | valueError (message : String)
  | serviceError (code message : String)
  | osError (message : String)
  | overflowError (message : String)
  | typeError
  | attributeError
  deriving Repr, DecidableEq

/-- `d[key] = value` -/
def dictSet {α : Type} (key : String) (value : α) : List (String × α) → List (String × α)
  | [] => [(key, value)]
  | entry :: entries => if entry.1 = key then (key, value) :: entries else entry :: dictSet key value entries

/-- `del d[key]`, `d.pop(key, None)` -/
def dictDel {α : Type} (key : String) (entries : List (String × α)) : List (String × α) :=
  entries.filter fun entry => entry.1 ≠ key

/-- The value that Python takes for false or true in a condition. -/
def truthy : JsonValue → Bool
  | .null => false
  | .bool b => b
  | .int n => n != 0
  | .number text => !Text.isZero text.toList
  | .str s => s != ""
  | .arr items => !items.isEmpty
  | .obj fields => !fields.isEmpty

/-- `value_in`: the value at a path, or `None`. -/
def valueIn (node : JsonValue) : List String → JsonValue
  | [] => node
  | key :: path =>
    match node.get? key with
    | some node => valueIn node path
    | none => .null

@[simp] theorem get_dictSet (key key' : String) (value : JsonValue) (entries : List (String × JsonValue)) :
    (JsonValue.obj (dictSet key value entries)).get? key' =
      if key = key' then some value else (JsonValue.obj entries).get? key' := by
  simp only [JsonValue.get?]
  induction entries with
  | nil => by_cases h : key = key' <;> simp [dictSet, h]
  | cons entry entries ih =>
    by_cases hentry : entry.1 = key
    · rw [dictSet, if_pos hentry]
      by_cases h : key = key' <;> simp [hentry, h]
    · rw [dictSet, if_neg hentry]
      by_cases hkey : entry.1 = key'
      · have hne : key ≠ key' := fun h => hentry (hkey.trans h.symm)
        simp [hkey, hne]
      · simpa [List.find?_cons, hkey] using ih

theorem valueIn_dictSet (key key' : String) (value : JsonValue) (entries : List (String × JsonValue))
    (path : List String) : valueIn (.obj (dictSet key value entries)) (key' :: path) =
      if key = key' then valueIn value path else valueIn (.obj entries) (key' :: path) := by
  rw [valueIn, get_dictSet]
  by_cases h : key = key' <;> simp [h, valueIn]

theorem mem_dictSet {α : Type} {key : String} {value : α} {entries : List (String × α)}
    {entry : String × α} (h : entry ∈ dictSet key value entries) : entry ∈ entries ∨ entry.1 = key := by
  induction entries with
  | nil =>
    rw [dictSet, List.mem_singleton] at h
    exact .inr (by rw [h])
  | cons first entries ih =>
    rw [dictSet] at h
    split at h <;> simp only [List.mem_cons] at h ⊢ <;> grind

/-- `d.get(key)` of something that should be a `dict`. -/
def dictGet {σ : Type} (data : JsonValue) (key : String) (default : JsonValue) :
    Fallible PyError σ JsonValue :=
  match data with
  | .obj _ => return (data.get? key).getD default
  | _ => throw .attributeError

/-! ### The entities -/

/-- A channel: what a message has the service do, as commands with their values. -/
structure Channel where
  set : Option (String → JsonValue → Except PyError (List (String × Option String)))

/-- An entity; `group` is the one to read again after a command. -/
structure Entity where
  component : String
  key : String
  group : Option String
  channels : List (String × Channel)

/-- `set_` of `day_switch` -/
def daySwitchSet (number bit : Nat) (payload : String) (cache : JsonValue) :
    Except PyError (List (String × Option String)) :=
  let mask : Int := (1 <<< bit : Nat)
  let send (days : Int) : Except PyError (List (String × Option String)) :=
    let days := if payload == "ON" then days.lor mask else days.land mask.lnot
    .ok [(s!"Alarm/{number}/Days", some (toString days))]
  match valueIn cache ["Alarm", toString number, "days"] with
  | .null => .error (.valueError "jours de l'alarme encore inconnus")
  | .int days => send days
  | .bool b => send b.toInt
  | _ => .error .typeError

/-- `day_switch`: a day of an alarm, one bit of its days. -/
def daySwitch (number bit : Nat) : Entity where
  component := "switch"
  key := s!"alarm{number}_day{bit}"
  group := some "Alarm"
  channels := [("", { set := some (daySwitchSet number bit) })]

/-- What a topic leads to: a channel of an entity that takes messages. -/
structure Route where
  entity : Entity
  channelName : String
  set : String → JsonValue → Except PyError (List (String × Option String))
  announced : (channelName, { set := some set }) ∈ entity.channels

/-- The route of a day of an alarm. -/
def daySwitchRoute (number bit : Nat) : Route where
  entity := daySwitch number bit
  channelName := ""
  set := daySwitchSet number bit
  announced := List.mem_singleton.mpr rfl

/-! ### The bridge -/

/-- `REFRESH_DELAY_S` -/
abbrev refreshDelayMs : Int := 1000

/-- `Bridge.GROUPS` without the first one, `status`. -/
def groups : List String := ["Light", "Mood", "Radio", "Alarm"]

/-- The bridge: the states read last, the groups to read again with the time when, the time
of the next poll (a variable of `run`), and what is at the other end of the service. -/
structure Bridge (σ : Type) where
  cache : List (String × JsonValue)
  refreshDue : List (String × Int)
  nextPoll : Int
  service : σ

abbrev BridgeM (σ α : Type) := Fallible PyError (Bridge σ) α

/-- A bridge that starts. -/
def Bridge.start {σ : Type} (service : σ) : Bridge σ where
  cache := []
  refreshDue := []
  nextPoll := 0
  service := service

/-- `Service.request`: a command with its value, if it has one. -/
abbrev ServiceRequest (σ : Type) := String → Option String → Fallible PyError σ JsonValue

section Bridge

variable {σ : Type} (request : ServiceRequest σ)

/-- `self.service.request` -/
def Bridge.serviceRequest (command : String) (value : Option String) : BridgeM σ JsonValue := fun b =>
  let (r, service) := request command value b.service
  (r, { b with service })

/-- The states of a group, put in the cache; those of `status` tell whether the AML is
connected. -/
def Bridge.keep (group : String) (result : JsonValue) : BridgeM σ Unit := do
  Fallible.act fun b => { b with cache := dictSet group result b.cache }
  if group == "status" then do
    let _ ← dictGet result "connected" (.bool false)
    return ()
  else return ()

/-- `refresh` -/
def Bridge.refresh (group : String) : BridgeM σ Unit := fun b =>
  match Bridge.serviceRequest request group none b with
  | (.ok result, b) => Bridge.keep group result b
  | (.error (.serviceError _ _), b) => (.ok (), b)
  | (.error (.osError _), b) => (.ok (), { b with cache := dictDel "status" b.cache })
  | (.error e, b) => (.error e, b)

/-- `already_on`; a light has a group. -/
def Bridge.alreadyOn (entity : Entity) : BridgeM σ Bool := do
  let group := entity.group.getD ""
  Bridge.refresh request group
  let b ← get
  return match valueIn (.obj b.cache) [group, "enable"] with
    | .bool true => true
    | _ => false

/-- The commands of a message, sent one after the other. -/
def Bridge.sendAll : List (String × Option String) → BridgeM σ Unit
  | [] => return ()
  | (command, value) :: commands => do
    let _ ← Bridge.serviceRequest request command value
    Bridge.sendAll commands

/-- The `try` of `execute`: a message refused, or a service that cannot be reached, is
logged. -/
def Bridge.attempt (m : BridgeM σ Unit) : BridgeM σ Unit := fun b =>
  match m b with
  | (.ok _, b) => (.ok (), b)
  | (.error (.valueError _), b) | (.error (.serviceError _ _), b) | (.error (.osError _), b) => (.ok (), b)
  | (.error e, b) => (.error e, b)

/-- What `execute` catches. -/
def PyError.Caught : PyError → Prop
  | .valueError _ | .serviceError _ _ | .osError _ => True
  | _ => False

/-- What is caught leaves no trace in the result. -/
theorem attempt_caught {m : BridgeM σ Unit} {b : Bridge σ} {r : Except PyError Unit} {b' : Bridge σ} (h : m b = (r, b'))
    (hr : ∀ e, r = .error e → e.Caught) : Bridge.attempt m b = (.ok (), b') := by
  rw [Bridge.attempt, h]
  cases r with
  | ok _ => rfl
  | error e =>
    have he := hr e rfl
    cases e <;> first | rfl | exact he.elim

theorem attempt_error {m : BridgeM σ Unit} {b : Bridge σ} {e : PyError} {b' : Bridge σ} (h : m b = (.error e, b'))
    (he : ¬ e.Caught) : Bridge.attempt m b = (.error e, b') := by
  rw [Bridge.attempt, h]
  cases e <;> first | rfl | exact absurd trivial he

/-- `execute`; `now` is the time read at its end. -/
def Bridge.execute (route : Route) (payload : String) (now : Int) : BridgeM σ Unit := do
  let entity := route.entity
  -- a light that is on already is not switched on again
  let skip ←
    if entity.component == "light" && route.channelName == "" && payload == "ON" then
      Bridge.alreadyOn request entity
    else pure false
  if skip then return ()
  else do
    Bridge.attempt do
      let b ← get
      match route.set payload (.obj b.cache) with
      | .ok commands => Bridge.sendAll request commands
      | .error e => throw e
    match entity.group with
    | some group =>
      Fallible.act fun b => { b with refreshDue := dictSet group (now + refreshDelayMs) b.refreshDue }
    | none => return ()

/-- `message.get("data") or {}` -/
def eventData (message : JsonValue) : JsonValue :=
  match message.get? "data" with
  | some data => if truthy data then data else .obj []
  | none => .obj []

/-- `{"light": "Light", "mood": "Mood", "radio": "Radio"}.get(timer)`: a list or an object cannot be a key. -/
def timerGroup : JsonValue → Except PyError (Option String)
  | .str "light" => .ok (some "Light")
  | .str "mood" => .ok (some "Mood")
  | .str "radio" => .ok (some "Radio")
  | .arr _ | .obj _ => .error .typeError
  | _ => .ok none

/-- A timer belongs to a group that is read again, never to the alarms. -/
theorem timerGroup_groups {timer : JsonValue} {group : String} (h : timerGroup timer = .ok (some group)) :
    group ∈ groups ∧ group ≠ "Alarm" := by
  unfold timerGroup at h
  split at h
  · cases h
    decide
  · cases h
    decide
  · cases h
    decide
  all_goals cases h

/-- A text can always be a key. -/
theorem timerGroup_str (timer : String) : ∃ group, timerGroup (.str timer) = .ok group := by
  by_cases hlight : timer = "light"
  · exact ⟨_, by rw [hlight]; rfl⟩
  by_cases hmood : timer = "mood"
  · exact ⟨_, by rw [hmood]; rfl⟩
  by_cases hradio : timer = "radio"
  · exact ⟨_, by rw [hradio]; rfl⟩
  · exact ⟨none, by simp [timerGroup, hlight, hmood, hradio]⟩

/-- `handle_event` -/
def Bridge.handleEvent (message : JsonValue) : BridgeM σ Unit := do
  let data := eventData message
  match message.get? "event" with
  | some (.str "alarm_state") => do
    let b ← get
    match (b.cache.lookup "status").getD (.obj []) with
    | .obj fields =>
      Fallible.act fun b => { b with
        cache := dictSet "status" (.obj (dictSet "alarm_state" data fields)) b.cache }
    | _ => throw .typeError
  | some (.str "light_changed") => do
    let light ← dictGet data "light" (.obj [])
    Fallible.act fun b => { b with cache := dictSet "Light" light b.cache }
    let mood ← dictGet data "mood" (.obj [])
    Fallible.act fun b => { b with cache := dictSet "Mood" mood b.cache }
  | some (.str "timer_ended") => do
    let timer ← dictGet data "timer" .null
    match timerGroup timer with
    | .ok (some group) => Bridge.refresh request group
    | .ok none => return ()
    | .error e => throw e
  | _ => return ()

/-- Some groups, one after the other. -/
def Bridge.refreshEach : List String → BridgeM σ Unit
  | [] => return ()
  | group :: rest => do
    Bridge.refresh request group
    Bridge.refreshEach rest

/-- `refresh_all` -/
def Bridge.refreshAll : BridgeM σ Unit := do
  Bridge.refresh request "status"
  let b ← get
  if truthy (valueIn (.obj b.cache) ["status", "connected"]) then Bridge.refreshEach request groups
  else return ()

/-! ### The main loop -/

/-- What is put in the queue of commands. -/
inductive Item
  | republish
  | event (message : JsonValue)
  | command (route : Route) (payload : String)

/-- What one turn of the loop gets: an item, unless the queue stays empty; the time read at
the end of `execute`, and the time read after it. -/
structure Turn where
  item : Option Item
  executed : Int
  now : Int

/-- The item of a turn. -/
def Bridge.handle (turn : Turn) : BridgeM σ Unit :=
  match turn.item with
  | some .republish => Fallible.act fun b => { b with nextPoll := 0 }
  | some (.event message) => Bridge.handleEvent request message
  | some (.command route payload) => Bridge.execute request route payload turn.executed
  | none => return ()

/-- The groups to read again whose time has come, of those that were there at first. -/
def Bridge.refreshDueGroups (now : Int) : List (String × Int) → BridgeM σ Unit
  | [] => return ()
  | (group, due) :: entries => do
    if now ≥ due then do
      Fallible.act fun b => { b with refreshDue := dictDel group b.refreshDue }
      Bridge.refresh request group
      Bridge.refreshDueGroups now entries
    else Bridge.refreshDueGroups now entries

/-- The poll. -/
def Bridge.poll (pollMs now : Int) : BridgeM σ Unit := do
  let b ← get
  if now ≥ b.nextPoll then do
    Bridge.refreshAll request
    Fallible.act fun b => { b with nextPoll := now + pollMs }
  else return ()

/-- One turn. -/
def Bridge.turn (pollMs : Int) (turn : Turn) : BridgeM σ Unit := do
  Bridge.handle request turn
  let b ← get
  Bridge.refreshDueGroups request turn.now b.refreshDue
  Bridge.poll request pollMs turn.now

/-- `run`, for some turns. -/
def Bridge.run (pollMs : Int) : List Turn → BridgeM σ Unit
  | [] => return ()
  | turn :: turns => do
    Bridge.turn request pollMs turn
    Bridge.run pollMs turns

end Bridge

end AmlService
