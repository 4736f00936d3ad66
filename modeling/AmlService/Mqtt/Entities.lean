import AmlService.Lib.PyFloat
import AmlService.Mqtt.Bridge

/-!
# AmlService.Mqtt.Entities

The entities of the bridge (`build_entities`) and the conversions of their channels. Of an
entity, what Home Assistant only displays is left out, and of a channel what it reads (`get`):
`execute` reads again the groups of the two lights only, whose channels read with `on_off`
and `text`, which take any value.
-/

namespace AmlService.Entities

/-- What the conversions take of Python: `float`, `none` for a text it refuses, and `repr`. -/
structure Python where
  float : String → Option PyFloat
  repr : String → String

/-! ### The conversions -/

/-- What the conversion of a payload gives, if it raises nothing. -/
abbrev Converted (α : Type) := Except PyError α

/-- `int` of a float -/
def pyInt : PyFloat → Converted Int
  | .finite integer => .ok integer
  | .infinity => .error (.overflowError "cannot convert float infinity to integer")
  | .nan => .error (.valueError "cannot convert float NaN to integer")

section Entities

variable (python : Python)

/-- `bool_payload` -/
def boolPayload (payload : String) : Converted String :=
  if payload ≠ "ON" ∧ payload ≠ "OFF" then
    .error (.valueError s!"ON ou OFF attendu, reçu {python.repr payload}")
  else .ok (if payload == "ON" then "true" else "false")

/-- `int_payload` -/
def intPayload (payload : String) : Converted String :=
  match python.float payload with
  | some x => (pyInt x).map toString
  | none => .error (.valueError s!"could not convert string to float: {python.repr payload}")

/-- What a channel makes of a message, one case for each form of `set` in the source. -/
inductive Conversion
  | bool (path : String)
  | int (path : String)
  | asIs (path : String)
  | press (path : String)
  | day (number bit : Nat)

/-- The `set` of a channel. -/
def Conversion.set : Conversion → String → JsonValue → Converted (List (String × Option String))
  | bool path, payload, _ => (boolPayload python payload).map fun value => [(path, some value)]
  | int path, payload, _ => (intPayload python payload).map fun value => [(path, some value)]
  | asIs path, payload, _ => .ok [(path, some payload)]
  | press path, _, _ => .ok [(path, none)]
  | day number bit, payload, cache => daySwitchSet number bit payload cache

def Conversion.channel (conversion : Conversion) : Channel where
  set := some (conversion.set python)

/-! ### The entities -/

/-- An entity with one channel, as the factories make them. -/
def single (component key : String) (group : Option String) (channel : Channel) : Entity where
  component := component
  key := key
  group := group
  channels := [("", channel)]

/-- `switch` -/
def switch (key group path : String) : Entity :=
  single "switch" key (some group) ((Conversion.bool path).channel python)

/-- `number` -/
def number (key group path : String) : Entity :=
  single "number" key (some group) ((Conversion.int path).channel python)

/-- `select` -/
def select (key group path : String) : Entity :=
  single "select" key (some group) ((Conversion.asIs path).channel python)

/-- `button` -/
def button (key path : String) (group : Option String) : Entity :=
  single "button" key group ((Conversion.press path).channel python)

/-- A text that can be changed. -/
def text (key group path : String) : Entity :=
  single "text" key (some group) ((Conversion.asIs path).channel python)

/-- An entity that takes no message. -/
def sensor (key group : String) : Entity := single "sensor" key (some group) { set := none }

/-- The main lamp. -/
def lampe : List Entity :=
  [{ component := "light"
     key := "light"
     group := some "Light"
     channels := [
      ("", (Conversion.bool "Light/Enable").channel python),
      ("brightness", (Conversion.int "Light/Brightness").channel python)] },
    switch python "light_sunset" "Light" "Light/Sunset",
    number python "light_sunset_duration" "Light" "Light/Sunset duration"]

/-- The mood light. -/
def ambiance : List Entity :=
  [{ component := "light"
     key := "mood"
     group := some "Mood"
     channels := [
      ("", (Conversion.bool "Mood/Enable").channel python),
      ("brightness", (Conversion.int "Mood/Brightness").channel python),
      ("rgb", (Conversion.asIs "Mood/Color").channel python),
      ("effect", (Conversion.asIs "Mood/Scene").channel python)] },
    switch python "mood_timer" "Mood" "Mood/Timer",
    number python "mood_timer_duration" "Mood" "Mood/Timer duration"]

def radio : List Entity :=
  [switch python "radio" "Radio" "Radio/Enable",
    number python "radio_volume" "Radio" "Radio/Volume",
    number python "radio_channel" "Radio" "Radio/Channel",
    sensor "radio_frequency" "Radio",
    button python "radio_seek_up" "Radio/>>" (some "Radio"),
    button python "radio_seek_down" "Radio/<<" (some "Radio"),
    button python "radio_tune_up" "Radio/>" (some "Radio"),
    button python "radio_tune_down" "Radio/<" (some "Radio"),
    switch python "radio_sleep" "Radio" "Radio/Sleep timer",
    number python "radio_sleep_duration" "Radio" "Radio/Timer duration"]

/-- An alarm, with the switches of its seven days. -/
def alarme (n : Nat) : List Entity :=
  [switch python s!"alarm{n}" "Alarm" s!"Alarm/{n}/Enable",
    text python s!"alarm{n}_time" "Alarm" s!"Alarm/{n}/Time"] ++
  (List.range 7).map (daySwitch n) ++
  [select python s!"alarm{n}_snooze" "Alarm" s!"Alarm/{n}/Snooze",
    select python s!"alarm{n}_tone" "Alarm" s!"Alarm/{n}/Tone",
    number python s!"alarm{n}_volume" "Alarm" s!"Alarm/{n}/Tone volume",
    switch python s!"alarm{n}_sunrise" "Alarm" s!"Alarm/{n}/Sunrise",
    number python s!"alarm{n}_sunrise_duration" "Alarm" s!"Alarm/{n}/Sunrise duration",
    number python s!"alarm{n}_sunrise_brightness" "Alarm" s!"Alarm/{n}/Sunrise brightness"]

/-- What tells the states of the alarms, and the buttons for the one that rings. -/
def reveil : List Entity :=
  [sensor "next_alarm" "Alarm",
    sensor "alarm1_next" "Alarm",
    sensor "alarm2_next" "Alarm",
    sensor "alarm_phase" "status",
    sensor "alarm1_phase" "status",
    sensor "alarm2_phase" "status",
    button python "alarm_stop" "Alarm/Stop" none,
    button python "alarm_snooze" "Alarm/Snooze" none]

def reglages : List Entity :=
  [select python "display_brightness" "status" "Settings/Display brightness",
    select python "display_time" "status" "Settings/Display time",
    select python "time_mode" "status" "Settings/Time",
    switch python "feedback" "status" "Settings/Feedback",
    switch python "fade" "status" "Settings/Fade",
    button python "sync_time" "Settings/Sync time" none,
    text python "set_time" "status" "Settings/Set time",
    sensor "clock_offset" "status"]

/-- The speaker, of no group, and the link. -/
def liaison : List Entity :=
  [single "switch" "speaker" none ((Conversion.bool "Media Player/Enable").channel python),
    single "binary_sensor" "connected" (some "status") { set := none }]

/-- `build_entities` -/
def buildEntities : List Entity :=
  lampe python ++ ambiance python ++ radio python ++ alarme python 1 ++ alarme python 2 ++
    reveil python ++ reglages python ++ liaison python

end Entities

/-! ### What a channel is made of -/

/-- The channels that take an integer. -/
def takesInteger (entity : Entity) (channelName : String) : Prop :=
  entity.component = "number" ∨ channelName = "brightness"

/-- A conversion is in its place: the integers on the channels for them, the days on the day
switches, and a light switched by its first channel. -/
structure Conversion.Fits (conversion : Conversion) (entity : Entity) (channelName : String) : Prop where
  integer : (∃ path, conversion = .int path) ↔ takesInteger entity channelName
  day : ∀ number bit, conversion = .day number bit → entity = daySwitch number bit
  light : entity.component = "light" → channelName = "" → ∃ path, conversion = .bool path

/-- Every channel of an entity is a conversion in its place, or takes no message; a light is
not read again with the group `status`. -/
structure Announced (python : Python) (entity : Entity) : Prop where
  channels : ∀ channel ∈ entity.channels, channel.2.set = none ∨
    ∃ conversion : Conversion, channel.2 = conversion.channel python ∧ conversion.Fits entity channel.1
  light : entity.component = "light" → entity.group.getD "" ≠ "status"

section Announced

variable {python : Python} {component key group path : String}

/-- An entity with one channel, which is not a light. -/
theorem single_announced {group : Option String} {conversion : Conversion} (hlight : component ≠ "light")
    (hint : (∃ path, conversion = .int path) ↔ component = "number")
    (hday : ∀ number bit, conversion = .day number bit →
      single component key group (conversion.channel python) = daySwitch number bit) :
    Announced python (single component key group (conversion.channel python)) := by
  refine ⟨?_, fun h => absurd h hlight⟩
  intro channel hchannel
  obtain rfl := List.mem_singleton.mp hchannel
  refine .inr ⟨conversion, rfl, ?_, hday, fun h => absurd h hlight⟩
  simp [takesInteger, single, hint]

@[simp] theorem switch_announced : Announced python (switch python key group path) :=
  single_announced (by decide) (by simp) (by simp)

@[simp] theorem number_announced : Announced python (number python key group path) :=
  single_announced (by decide) (by simp) (by simp)

@[simp] theorem select_announced : Announced python (select python key group path) :=
  single_announced (by decide) (by simp) (by simp)

@[simp] theorem button_announced {group : Option String} : Announced python (button python key path group) :=
  single_announced (by decide) (by simp) (by simp)

@[simp] theorem text_announced : Announced python (text python key group path) :=
  single_announced (by decide) (by simp) (by simp)

@[simp] theorem daySwitch_announced {n bit : Nat} : Announced python (daySwitch n bit) := by
  refine @single_announced python "switch" _ _ (.day n bit) (by decide) (by simp) ?_
  intro number bit' h
  cases h
  rfl

/-- What takes no message. -/
theorem silent_announced {group : Option String} (hlight : component ≠ "light") :
    Announced python (single component key group { set := none }) := by
  refine ⟨?_, fun h => absurd h hlight⟩
  intro channel hchannel
  exact .inl (by rw [List.mem_singleton.mp hchannel])

@[simp] theorem sensor_announced : Announced python (sensor key group) := silent_announced (by decide)

/-- A light: its brightness is an integer, and its first channel switches it. -/
theorem light_announced {channels : List (String × Conversion)} (hgroup : group ≠ "status")
    (h : ∀ channel ∈ channels, ((∃ path, channel.2 = .int path) ↔ channel.1 = "brightness") ∧
      ((∃ path, channel.2 = .bool path) ↔ channel.1 = "") ∧ ∀ number bit, channel.2 ≠ .day number bit) :
    Announced python ⟨"light", key, some group,
      channels.map fun channel => (channel.1, channel.2.channel python)⟩ := by
  refine ⟨?_, fun _ => hgroup⟩
  intro channel hchannel
  obtain ⟨⟨name, conversion⟩, hmem, rfl⟩ := List.mem_map.mp hchannel
  obtain ⟨hint, hbool, hday⟩ := h _ hmem
  refine .inr ⟨conversion, rfl, ?_, ?_, fun _ => hbool.mpr⟩
  · simp [takesInteger, hint]
  · intro number bit heq
    exact absurd heq (hday number bit)

theorem lampe_announced : ∀ entity ∈ lampe python, Announced python entity := by
  have hlight := @light_announced python "light" "Light"
    [("", .bool "Light/Enable"), ("brightness", .int "Light/Brightness")] (by decide) (by simp)
  simpa [lampe] using hlight

theorem ambiance_announced : ∀ entity ∈ ambiance python, Announced python entity := by
  have hlight := @light_announced python "mood" "Mood"
    [("", .bool "Mood/Enable"), ("brightness", .int "Mood/Brightness"), ("rgb", .asIs "Mood/Color"),
      ("effect", .asIs "Mood/Scene")] (by decide) (by simp)
  simpa [ambiance] using hlight

theorem alarme_announced (n : Nat) : ∀ entity ∈ alarme python n, Announced python entity := by
  have hdays : ∀ entity ∈ (List.range 7).map (daySwitch n), Announced python entity := by
    intro entity hentity
    obtain ⟨bit, -, rfl⟩ := List.mem_map.mp hentity
    exact daySwitch_announced
  simp only [alarme, List.forall_mem_append]
  exact ⟨⟨by simp, hdays⟩, by simp⟩

/-- **Every entity is announced this way.** -/
theorem buildEntities_announced : ∀ entity ∈ buildEntities python, Announced python entity := by
  have hliaison : ∀ entity ∈ liaison python, Announced python entity := by
    simp only [liaison, List.forall_mem_cons]
    refine ⟨single_announced (by decide) (by simp) (by simp), silent_announced (by decide), by simp⟩
  simp only [buildEntities, List.forall_mem_append]
  exact ⟨⟨⟨⟨⟨⟨⟨lampe_announced, ambiance_announced⟩, by simp [radio]⟩, alarme_announced 1⟩,
    alarme_announced 2⟩, by simp [reveil]⟩, by simp [reglages]⟩, hliaison⟩

end Announced

end AmlService.Entities
