import AmlService.Lib.Simulation
import AmlService.Mqtt.Discovery
import AmlService.Mqtt.Messages

/-!
# AmlService.Mqtt.Publishing

The main loop of the bridge with what it publishes (`mqtt/sweetdawn_mqtt.py`). `Bridge` is
this loop without it: as long as no reading of the cache raises an exception of its own, the
two do the same (`run_follows`).

What was published is kept in a list that the code does not read. It also keeps the moments
when `published` is cleared.
-/

namespace AmlService

open Effect Channels

/-- The exceptions of the loop: those of `Bridge`, and those of the readings. -/
inductive PublishError
  | bridge (e : PyError)
  | get (e : GetError)
  deriving Repr, DecidableEq

/-- Of the exceptions, those that `Bridge` knows. -/
def PublishError.view : PublishError → Option PyError
  | bridge e => some e
  | get _ => none

/-- What the list of the publications keeps. -/
inductive Emission
  | message (topic payload : String)
  | removed (topic : String)
  | cleared
  deriving Repr, DecidableEq

/-- The bridge, with what it has published. `reads` counts the evaluations of the readings. -/
structure Publisher (σ : Type) where
  bridge : Bridge σ
  published : List (String × String)
  reads : Nat
  emissions : List Emission

abbrev PublisherM (σ α : Type) := Fallible PublishError (Publisher σ) α

/-- A bridge that starts has published nothing. -/
def Publisher.start {σ : Type} (service : σ) : Publisher σ where
  bridge := Bridge.start service
  published := []
  reads := 0
  emissions := []

namespace Publisher

variable {σ : Type}

/-- The cache, as the readings take it. -/
def cache (p : Publisher σ) : JsonValue := .obj p.bridge.cache

/-- `self.cache[group] = value` -/
def put (group : String) (value : JsonValue) (p : Publisher σ) : Publisher σ :=
  { p with bridge.cache := dictSet group value p.bridge.cache }

/-- A part of the loop that publishes nothing. -/
def ofBridge {α : Type} (m : BridgeM σ α) : PublisherM σ α := fun p =>
  match m p.bridge with
  | (.ok a, bridge) => (.ok a, { p with bridge })
  | (.error e, bridge) => (.error (.bridge e), { p with bridge })

/-- `publish` -/
def publish (topic payload : String) : PublisherM σ Unit :=
  Fallible.act fun p =>
    if p.published.lookup topic ≠ some payload then
      { p with
        published := dictSet topic payload p.published
        emissions := p.emissions ++ [.message topic payload] }
    else p

/-- `publish` with `None`: a message without a payload, after which the topic has none. `published` then
holds `None`, as for a topic that it does not have. -/
def unpublish (topic : String) : PublisherM σ Unit :=
  Fallible.act fun p =>
    if (p.published.lookup topic).isSome then
      { p with
        published := dictDel topic p.published
        emissions := p.emissions ++ [.removed topic] }
    else p

section Publisher

variable (py : PyValues) (entities : List Description) (request : ServiceRequest σ)

/-- `channel.get(self.cache)` -/
def getState (getter : Getter) : PublisherM σ (Option String) := fun p =>
  match getter.get py p.reads p.cache with
  | .ok value => (.ok value, { p with reads := p.reads + 1 })
  | .error e => (.error (.get e), p)

/-- The channels of an entity, in `publish_group`: a value that is not known is not published. -/
def publishChannels (key : String) : List (String × Channels.Channel) → PublisherM σ Unit
  | [] => return ()
  | (name, channel) :: channels =>
    match channel.get with
    | none => publishChannels key channels
    | some getter => do
      match ← getState py getter with
      | none => publishChannels key channels
      | some value => do
        publish (stateTopic key name) value
        publishChannels key channels

/-- The loop of `publish_group`. -/
def publishEntities (group : String) : List Description → PublisherM σ Unit
  | [] => return ()
  | entity :: entities =>
    if entity.group ≠ some group then publishEntities group entities
    else do
      publishChannels py entity.key entity.channels
      publishEntities group entities

/-- `publish_group` -/
def publishGroup (group : String) : PublisherM σ Unit := publishEntities py group entities

/-- What `refresh` does with the states of a group; those of `status` tell whether the AML is
connected. -/
def keep (group : String) (result : JsonValue) : PublisherM σ Unit := do
  Fallible.act (put group result)
  if group == "status" then do
    let connected ← ofBridge (dictGet result "connected" (.bool false))
    publish amlTopic (if truthy connected then "online" else "offline")
    publishGroup py entities group
  else publishGroup py entities group

/-- `refresh` -/
def refresh (group : String) : PublisherM σ Unit := fun p =>
  match Bridge.serviceRequest request group none p.bridge with
  | (.ok result, bridge) => keep py entities group result { p with bridge }
  | (.error (.serviceError _ _), bridge) => (.ok (), { p with bridge })
  | (.error (.osError _), bridge) =>
    publish amlTopic "offline" { p with bridge := { bridge with cache := dictDel "status" bridge.cache } }
  | (.error e, bridge) => (.error (.bridge e), { p with bridge })

/-- `already_on`; a light has a group. -/
def alreadyOn (entity : Entity) : PublisherM σ Bool := do
  let group := entity.group.getD ""
  refresh py entities request group
  let p ← get
  return match valueIn p.cache [group, "enable"] with
    | .bool true => true
    | _ => false

/-- `execute`; what follows `already_on` publishes nothing. -/
def execute (route : Route) (payload : String) (now : Int) : PublisherM σ Unit := do
  let skip ←
    if route.entity.component == "light" && route.channelName == "" && payload == "ON" then
      alreadyOn py entities request route.entity
    else pure false
  if skip then return ()
  else ofBridge (Bridge.send request route payload now)

/-- `handle_event` -/
def handleEvent (message : JsonValue) : PublisherM σ Unit := do
  let data := eventData message
  match message.get? "event" with
  | some (.str "alarm_state") => do
    let p ← get
    match (p.bridge.cache.lookup "status").getD (.obj []) with
    | .obj fields => do
      Fallible.act (put "status" (.obj (dictSet "alarm_state" data fields)))
      publishGroup py entities "status"
    | _ => throw (.bridge .typeError)
  | some (.str "light_changed") => do
    let light ← ofBridge (dictGet data "light" (.obj []))
    Fallible.act (put "Light" light)
    let mood ← ofBridge (dictGet data "mood" (.obj []))
    Fallible.act (put "Mood" mood)
    publishGroup py entities "Light"
    publishGroup py entities "Mood"
  | some (.str "timer_ended") => do
    let timer ← ofBridge (dictGet data "timer" .null)
    match timerGroup timer with
    | .ok (some group) => refresh py entities request group
    | .ok none => return ()
    | .error e => throw (.bridge e)
  | _ => return ()

/-- Some groups, one after the other. -/
def refreshEach : List String → PublisherM σ Unit
  | [] => return ()
  | group :: rest => do
    refresh py entities request group
    refreshEach rest

/-- `refresh_all` -/
def refreshAll : PublisherM σ Unit := do
  refresh py entities request "status"
  let p ← get
  if truthy (valueIn p.cache ["status", "connected"]) then refreshEach py entities request groups
  else return ()

/-- The channels of an entity, in `publish_live`: what they read is published, known or not. -/
def publishLiveChannels (key : String) : List (String × Channels.Channel) → PublisherM σ Unit
  | [] => return ()
  | (name, channel) :: channels =>
    match channel.get with
    | none => throw (.get .typeError)
    | some getter => do
      match ← getState py getter with
      | none => do
        unpublish (stateTopic key name)
        publishLiveChannels key channels
      | some value => do
        publish (stateTopic key name) value
        publishLiveChannels key channels

/-- The loop of `publish_live`. -/
def publishLiveEntities : List Description → PublisherM σ Unit
  | [] => return ()
  | entity :: entities =>
    if entity.live then do
      publishLiveChannels py entity.key entity.channels
      publishLiveEntities entities
    else publishLiveEntities entities

/-- `publish_live` -/
def publishLive : PublisherM σ Unit := publishLiveEntities py entities

/-! ### The main loop -/

/-- The item of a turn. -/
def handle (turn : Turn) : PublisherM σ Unit :=
  match turn.item with
  | some .republish => Fallible.act fun p => { p with
      published := []
      emissions := p.emissions ++ [.cleared]
      bridge.nextPoll := 0 }
  | some (.event message) => handleEvent py entities request message
  | some (.command route payload) => execute py entities request route payload turn.executed
  | none => return ()

/-- The groups to read again whose time has come, of those that were there at first. -/
def refreshDueGroups (now : Int) : List (String × Int) → PublisherM σ Unit
  | [] => return ()
  | (group, due) :: entries => do
    if now ≥ due then do
      Fallible.act fun p => { p with bridge.refreshDue := dictDel group p.bridge.refreshDue }
      refresh py entities request group
      refreshDueGroups now entries
    else refreshDueGroups now entries

/-- The poll. -/
def poll (pollMs now : Int) : PublisherM σ Unit := do
  let p ← get
  if now ≥ p.bridge.nextPoll then do
    refreshAll py entities request
    Fallible.act fun p => { p with bridge.nextPoll := now + pollMs }
  else return ()

/-- One turn. -/
def turn (pollMs : Int) (turn : Turn) : PublisherM σ Unit := do
  handle py entities request turn
  let p ← get
  refreshDueGroups py entities request turn.now p.bridge.refreshDue
  poll py entities request pollMs turn.now
  publishLive py entities

/-- `run`, for some turns. -/
def run (pollMs : Int) : List Turn → PublisherM σ Unit
  | [] => return ()
  | first :: turns => do
    turn py entities request pollMs first
    run pollMs turns

end Publisher

/-! ### The loop without publishing -/

section Simulation

variable {py : PyValues} {entities : List Description} {request : ServiceRequest σ}

/-- What is published is not seen. -/
abbrev Quiet {α : Type} (m : PublisherM σ α) : Prop := Unseen Publisher.bridge PublishError.view m

abbrev Follows {α : Type} (m : PublisherM σ α) (n : BridgeM σ α) : Prop :=
  Simulates Publisher.bridge PublishError.view m n

theorem publish_quiet (topic payload : String) : Quiet (publish topic payload : PublisherM σ Unit) := by
  refine .act fun p => ?_
  split <;> rfl

theorem unpublish_quiet (topic : String) : Quiet (unpublish topic : PublisherM σ Unit) := by
  refine .act fun p => ?_
  split <;> rfl

theorem getState_quiet (getter : Getter) : Quiet (getState py getter : PublisherM σ (Option String)) := by
  intro p
  unfold getState
  cases getter.get py p.reads p.cache <;> rfl

theorem publishChannels_quiet (key : String) (channels : List (String × Channels.Channel)) :
    Quiet (publishChannels py key channels : PublisherM σ Unit) := by
  induction channels with
  | nil => exact .pure ()
  | cons channel channels ih =>
    obtain ⟨name, get, set⟩ := channel
    cases get with
    | none => exact ih
    | some getter =>
      refine (getState_quiet getter).bind fun value => ?_
      cases value with
      | none => exact ih
      | some value => exact (publish_quiet _ value).bind fun _ => ih

theorem publishGroup_quiet (group : String) : Quiet (publishGroup py entities group : PublisherM σ Unit) := by
  unfold publishGroup
  induction entities with
  | nil => exact .pure ()
  | cons entity entities ih =>
    unfold publishEntities
    split
    · exact ih
    · exact (publishChannels_quiet _ _).bind fun _ => ih

theorem publishLive_quiet : Quiet (publishLive py entities : PublisherM σ Unit) := by
  have hchannels : ∀ (key : String) (channels : List (String × Channels.Channel)),
      Quiet (publishLiveChannels py key channels : PublisherM σ Unit) := by
    intro key channels
    induction channels with
    | nil => exact .pure ()
    | cons channel channels ih =>
      obtain ⟨name, get, set⟩ := channel
      cases get with
      | none => exact .throw rfl
      | some getter =>
        refine (getState_quiet getter).bind fun value => ?_
        cases value with
        | none => exact (unpublish_quiet _).bind fun _ => ih
        | some value => exact (publish_quiet _ value).bind fun _ => ih
  unfold publishLive
  induction entities with
  | nil => exact .pure ()
  | cons entity entities ih =>
    unfold publishLiveEntities
    split
    · exact (hchannels _ _).bind fun _ => ih
    · exact ih

theorem ofBridge_follows {α : Type} (m : BridgeM σ α) : Follows (ofBridge m) m := by
  intro p
  unfold ofBridge
  rcases m p.bridge with ⟨e | a, bridge⟩
  · intro e' he
    obtain rfl := Option.some.inj he
    rfl
  · rfl

theorem keep_follows (group : String) (result : JsonValue) :
    Follows (keep py entities group result : PublisherM σ Unit) (Bridge.keep group result) := by
  refine .bind (.act fun p => rfl) fun _ => .ite (fun _ => ?_) fun _ => (publishGroup_quiet group).simulates
  refine (ofBridge_follows _).bind fun connected => Unseen.simulates ?_
  exact (publish_quiet _ _).bind fun _ => publishGroup_quiet group

theorem refresh_follows (group : String) :
    Follows (refresh py entities request group) (Bridge.refresh request group) := by
  intro p
  unfold refresh Bridge.refresh
  rcases Bridge.serviceRequest request group none p.bridge with ⟨e | result, bridge⟩
  · cases e with
    | osError message =>
      have hquiet := publish_quiet amlTopic "offline"
        { p with bridge := { bridge with cache := dictDel "status" bridge.cache } }
      dsimp only [publish, Fallible.act] at hquiet ⊢
      rw [hquiet]
    | serviceError code message => rfl
    | _ =>
      intro e' he
      obtain rfl := Option.some.inj he
      rfl
  · exact keep_follows group result { p with bridge }

theorem alreadyOn_follows (entity : Entity) :
    Follows (alreadyOn py entities request entity) (Bridge.alreadyOn request entity) :=
  .bind (refresh_follows _) fun _ => .get fun _ => .pure _

theorem execute_follows (route : Route) (payload : String) (now : Int) :
    Follows (execute py entities request route payload now) (Bridge.execute request route payload now) := by
  have hrest : ∀ skip : Bool,
      Follows (if skip then return () else ofBridge (Bridge.send request route payload now))
        (if skip then return () else Bridge.send request route payload now) := by
    intro skip
    cases skip with
    | true => exact .pure ()
    | false => exact ofBridge_follows _
  rw [execute_eq]
  exact Simulates.ite (fun _ => .bind (alreadyOn_follows _) hrest) fun _ => .bind (.pure _) hrest

/-- An event of another name changes nothing, whoever sees it. -/
theorem handleEvent_other {message : JsonValue} (halarm : message.get? "event" ≠ some (.str "alarm_state"))
    (hlight : message.get? "event" ≠ some (.str "light_changed"))
    (htimer : message.get? "event" ≠ some (.str "timer_ended")) :
    handleEvent py entities request message = pure () ∧ Bridge.handleEvent request message = pure () := by
  constructor
  · unfold handleEvent
    split
    · contradiction
    · contradiction
    · contradiction
    · rfl
  · unfold Bridge.handleEvent
    split
    · contradiction
    · contradiction
    · contradiction
    · rfl

theorem handleEvent_follows (message : JsonValue) :
    Follows (handleEvent py entities request message) (Bridge.handleEvent request message) := by
  by_cases halarm : message.get? "event" = some (.str "alarm_state")
  · simp only [handleEvent, Bridge.handleEvent, halarm]
    refine .get fun p => ?_
    generalize (p.bridge.cache.lookup "status").getD (.obj []) = status
    cases status with
    | obj fields => exact Simulates.andThen (.act fun _ => rfl) fun _ => publishGroup_quiet _
    | _ => exact .throw rfl
  by_cases hlight : message.get? "event" = some (.str "light_changed")
  · simp only [handleEvent, Bridge.handleEvent, hlight]
    refine .bind (ofBridge_follows _) fun light => .bind (.act fun _ => rfl) fun _ => ?_
    refine .bind (ofBridge_follows _) fun mood => Simulates.andThen (.act fun _ => rfl) fun _ => ?_
    exact (publishGroup_quiet _).bind fun _ => publishGroup_quiet _
  by_cases htimer : message.get? "event" = some (.str "timer_ended")
  · simp only [handleEvent, Bridge.handleEvent, htimer]
    refine .bind (ofBridge_follows _) fun timer => ?_
    rcases timerGroup timer with e | _ | group
    · exact .throw rfl
    · exact .pure ()
    · exact refresh_follows group
  · obtain ⟨hpublisher, hbridge⟩ := handleEvent_other halarm hlight htimer
    rw [hpublisher, hbridge]
    exact .pure ()

theorem refreshEach_follows (groups : List String) :
    Follows (refreshEach py entities request groups) (Bridge.refreshEach request groups) := by
  induction groups with
  | nil => exact .pure ()
  | cons group groups ih => exact .bind (refresh_follows group) fun _ => ih

theorem refreshAll_follows : Follows (refreshAll py entities request) (Bridge.refreshAll request) :=
  .bind (refresh_follows _) fun _ => .get fun _ =>
    .ite (fun _ => refreshEach_follows groups) fun _ => .pure _

theorem refreshDueGroups_follows (now : Int) (due : List (String × Int)) :
    Follows (refreshDueGroups py entities request now due) (Bridge.refreshDueGroups request now due) := by
  induction due with
  | nil => exact .pure ()
  | cons entry due ih =>
    refine .ite (fun _ => ?_) fun _ => ih
    exact .bind (.act fun _ => rfl) fun _ => .bind (refresh_follows _) fun _ => ih

theorem handle_follows (turn : Turn) :
    Follows (handle py entities request turn) (Bridge.handle request turn) := by
  obtain ⟨item, executed, now⟩ := turn
  cases item with
  | none => exact .pure ()
  | some item =>
    cases item with
    | republish => exact .act fun _ => rfl
    | event message => exact handleEvent_follows message
    | command route payload => exact execute_follows route payload executed

theorem turn_follows (pollMs : Int) (first : Turn) :
    Follows (turn py entities request pollMs first) (Bridge.turn request pollMs first) := by
  refine .bind (handle_follows first) fun _ => .get fun p => .bind (refreshDueGroups_follows _ _) fun _ => ?_
  refine Simulates.andThen ?_ fun _ => publishLive_quiet
  exact .get fun p => .ite (fun _ => .bind refreshAll_follows fun _ => .act fun _ => rfl) fun _ => .pure _

/-- **The two loops.** The loop that publishes does what the other does, unless it ends with
an exception of a reading. -/
theorem run_follows (pollMs : Int) (turns : List Turn) :
    Follows (run py entities request pollMs turns) (Bridge.run request pollMs turns) := by
  induction turns with
  | nil => exact .pure ()
  | cons first turns ih => exact .bind (turn_follows pollMs first) fun _ => ih

end Simulation

end Publisher

end AmlService
