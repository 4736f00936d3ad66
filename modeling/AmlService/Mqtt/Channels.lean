import AmlService.Mqtt.Entities

/-!
# AmlService.Mqtt.Channels

The entities of the bridge as `build_entities` describes them in full
(`mqtt/sweetdawn_mqtt.py`): what each channel reads in the cache (`get`), what it sends
(`set`), and what Home Assistant is told of it (`discovery`). Without the readings and the
descriptions, they are the entities of `Entities` (`buildDescriptions_entity`).

What Python makes of the clock, of a number with a fraction and of the order of two values
is a parameter, `PyValues`.
-/

namespace AmlService.Channels

open Entities (Conversion Python)

/-! ### Reading the cache

The cache is a `dict` of the last answer of the service for each group. A reading looks a path
up in it (`valueIn`), and makes of what it finds the text to publish: `None`, here `none`, when
the value is not known. A reading can raise, since nothing checks that an answer has the type
that is expected; the exceptions are kept apart from those of the commands. -/

/-- The exceptions that a reading can raise. -/
inductive GetError
  | typeError
  | attributeError
  | keyError (key : String)
  | overflowError
  deriving Repr, DecidableEq

/-- A reading, or the exception it ended in. -/
abbrev Got (α : Type) := Except GetError α

/-- What the readings take of Python: `str` of a number with a fraction, of a list or of a
`dict`; `<`; and the text of `datetime.now() + timedelta(seconds=offset)` as hours and minutes,
at each evaluation. -/
structure PyValues where
  str : JsonValue → String
  lessThan : JsonValue → JsonValue → Got Bool
  clock : Nat → JsonValue → Got String

/-- `str(value)` -/
def PyValues.text (py : PyValues) : JsonValue → String
  | .null => "None"
  | .bool b => if b then "True" else "False"
  | .int n => toString n
  | .str s => s
  | value => py.str value

/-- `on_off`: `None` when there is no value, so that Home Assistant shows the state as unknown. -/
def onOff : JsonValue → Option String
  | .null => none
  | value => some (if truthy value then "ON" else "OFF")

/-- `ALARM_PHASES`: the state of an alarm, in three states. A snooze counts as a sunrise: the AML
lights the lamp again until it rings. -/
def alarmPhases : List (String × String) :=
  [("idle", "off"), ("sunrise", "sunrise"), ("snoozed", "sunrise"), ("ringing", "on")]

section Getters

variable (py : PyValues)

/-- `text`: as `on_off`, for a value that is published as it is. -/
def text : JsonValue → Option String
  | .null => none
  | value => some (py.text value)

/-- `or_none`: here a missing value is published, as the text `None`, which stands for unknown. To
publish nothing would leave the old value. -/
def orNone (value : JsonValue) : String := py.text value

/-- `aml_clock`, at the `reads`-th evaluation: `None` as long as the offset of the clock is not known. -/
def amlClock (reads : Nat) (cache : JsonValue) : Got (Option String) :=
  if !truthy (valueIn cache ["status", "clock", "known"]) then .ok none
  else
    let offset := valueIn cache ["status", "clock", "offset_s"]
    (py.clock reads (if truthy offset then offset else .int 0)).map some

/-- `value_in(cache, "Alarm", n) or {}`, which has to be a `dict`. -/
def alarmEntries (cache : JsonValue) (n : String) : Got (List (String × JsonValue)) :=
  let node := valueIn cache ["Alarm", n]
  if truthy node then
    match node with
    | .obj fields => .ok fields
    | _ => .error .attributeError
  else .ok []

/-- `a["in_s"]` -/
def delay (alarm : List (String × JsonValue)) : Got JsonValue :=
  match (JsonValue.obj alarm).get? "in_s" with
  | some value => .ok value
  | none => .error (.keyError "in_s")

/-- `min`, by the delay: the first of the least ones. -/
def soonest (best : List (String × JsonValue)) (least : JsonValue) :
    List (List (String × JsonValue)) → Got (List (String × JsonValue))
  | [] => .ok best
  | alarm :: alarms => do
    let value ← delay alarm
    if ← py.lessThan value least then soonest alarm value alarms
    else soonest best least alarms

/-- `next_alarm`: the date of the alarm that comes first, among those that have one. -/
def nextAlarm (cache : JsonValue) : Got JsonValue := do
  let alarms ← ["1", "2"].mapM (alarmEntries cache)
  let next (alarm : List (String × JsonValue)) : JsonValue := ((JsonValue.obj alarm).get? "next").getD .null
  match alarms.filter fun alarm => !(next alarm matches .null) with
  | [] => return .null
  | alarm :: alarms => do
    let least ← delay alarm
    let first ← soonest py alarm least alarms
    return next first

/-- What a channel reads, one case for each form of `get` in the source. -/
inductive Getter
  /-- `on_off` of the value at a path. -/
  | onOff (path : List String)
  /-- `text` of the value at a path. -/
  | text (path : List String)
  /-- `or_none` of the value at a path. -/
  | orNone (path : List String)
  /-- The day of an alarm: a bit of its mask. -/
  | day (number bit : Nat)
  /-- The alarm that comes first. -/
  | nextAlarm
  /-- The phase of an alarm, or of both. -/
  | phase (path : List String)
  /-- The clock of the AML, computed from its offset. -/
  | clock

/-- `get` of a day: the bit of the mask. -/
def dayState (number bit : Nat) (cache : JsonValue) : Got (Option String) :=
  let mask : Int := (1 <<< bit : Nat)
  match valueIn cache ["Alarm", toString number, "days"] with
  | .null => .ok none
  | .int days => .ok (onOff (.int (days.land mask)))
  | .bool b => .ok (onOff (.int (b.toInt.land mask)))
  | _ => .error .typeError

/-- The `get` of a channel, at the `reads`-th evaluation. -/
def Getter.get (getter : Getter) (reads : Nat) (cache : JsonValue) : Got (Option String) :=
  match getter with
  | onOff path => .ok (Channels.onOff (valueIn cache path))
  | text path => .ok (Channels.text py (valueIn cache path))
  | orNone path => .ok (some (Channels.orNone py (valueIn cache path)))
  | day number bit => dayState number bit cache
  | nextAlarm => (Channels.nextAlarm py cache).map fun next => some (Channels.orNone py next)
  | phase path =>
    match valueIn cache path with
    -- only these cannot be a key
    | .arr _ | .obj _ => .error .typeError
    | .str state => .ok (some ((alarmPhases.lookup state).getD "None"))
    | _ => .ok (some "None")
  | clock => (amlClock py reads cache).map fun now => some (now.getD "")

end Getters

/-! ### The descriptions

`build_entities` is a list of calls to `Entity` and to the functions that fill in a frequent
form of it (`switch`, `number`, `select`, `button`). Each of them has its own definition here,
and so has each section of the list. -/

/-- A channel: `get` and `set`. -/
structure Channel where
  get : Option Getter
  set : Option Conversion

/-- `Entity`, whole. `group` is read again after a command; without `needsAml`, the entity is
available even when there is no link; the value of a `live` one is computed again at each turn. -/
structure Description where
  component : String
  key : String
  name : String
  group : Option String
  channels : List (String × Channel)
  config : List (String × JsonValue)
  uniqueId : Option String := none
  discoveryTopic : Option String := none
  needsAml : Bool := true
  live : Bool := false

/-- The entity, as the commands see it. -/
def Description.entity (python : Python) (d : Description) : Entity where
  component := d.component
  key := d.key
  group := d.group
  channels := d.channels.map fun channel =>
    (channel.1, { set := channel.2.set.map fun conversion => conversion.set python })

/-- A `dict` with the entries of another one: `{**entries, **more}`. -/
def dictUpdate {α : Type} (entries more : List (String × α)) : List (String × α) :=
  more.foldl (fun entries entry => dictSet entry.1 entry.2 entries) entries

/-- A list of texts, as JSON. -/
def texts (items : List String) : JsonValue := .arr (items.map .str)

/-- `{"entity_category": "config"}` -/
def configCategory : List (String × JsonValue) := [("entity_category", .str "config")]

/-- The payloads of a switch. -/
def onOffPayloads : List (String × JsonValue) := [("payload_on", .str "ON"), ("payload_off", .str "OFF")]

/-- `switch`: the state is the value at a path of the group, the command takes 0 or 1. -/
def switch (key name group path : String) (fieldPath : List String)
    (config : List (String × JsonValue)) : Description where
  component := "switch"
  key := key
  name := name
  group := some group
  channels := [("", { get := some (.onOff (group :: fieldPath)), set := some (.bool path) })]
  config := dictUpdate onOffPayloads config

/-- `number`: a slider from `minimum` to `maximum`. -/
def number (key name group path : String) (fieldPath : List String) (minimum maximum : Int)
    (config : List (String × JsonValue)) : Description where
  component := "number"
  key := key
  name := name
  group := some group
  channels := [("", { get := some (.text (group :: fieldPath)), set := some (.int path) })]
  config := dictUpdate
    [("min", .int minimum), ("max", .int maximum), ("step", .int 1), ("mode", .str "slider")] config

/-- `select`: one of the choices, sent as it is. -/
def select (key name group path : String) (fieldPath : List String) (options : List String)
    (config : List (String × JsonValue)) : Description where
  component := "select"
  key := key
  name := name
  group := some group
  channels := [("", { get := some (.text (group :: fieldPath)), set := some (.asIs path) })]
  config := dictUpdate [("options", texts options)] config

/-- `button`: it has no state; the group is the one that the command changes, if any. -/
def button (key name path : String) (group : Option String) (config : List (String × JsonValue)) :
    Description where
  component := "button"
  key := key
  name := name
  group := group
  channels := [("", { get := none, set := some (.press path) })]
  config := dictUpdate [("payload_press", .str "PRESS")] config

/-- An `Entity` with one channel that is only read. -/
def sensor (key name group : String) (get : Getter) (config : List (String × JsonValue)) :
    Description where
  component := "sensor"
  key := key
  name := name
  group := some group
  channels := [("", { get := some get, set := none })]
  config := config

/-- `day_switch`; bit 0 is Sunday. -/
def daySwitch (n bit : Nat) (day : String) : Description where
  component := "switch"
  key := s!"alarm{n}_day{bit}"
  name := s!"Alarm {n} day {(bit + 6) % 7 + 1} {day}"
  group := some "Alarm"
  channels := [("", { get := some (.day n bit), set := some (.day n bit) })]
  config := dictUpdate onOffPayloads configCategory

/-- `CHOICES` -/
abbrev Choices := List (String × List String)

/-- `CHOICES`, as it is before the service is asked. -/
def defaultChoices : Choices :=
  [("Settings/Display brightness", ["L", "H", "A"]),
    ("Settings/Display time", ["24", "12"]),
    ("Settings/Time", ["auto", "manual"]),
    ("Alarm/1/Snooze", ["1", "2", "5", "10", "20", "30"]),
    ("Alarm/1/Tone", ["Buzzer", "Radio", "Melody 1", "Birds", "Bells", "Piano", "Melody 2"]),
    ("Mood/Scene", ["Off", "Random", "Rainbow", "Rainbow Slow", "Fusion", "Pulse", "Wave", "Chill", "Action",
      "Forest", "Summer"])]

/-- `CHOICES[path]`; its keys never change. -/
def Choices.at (choices : Choices) (path : String) : List String := (choices.lookup path).getD []

/-- The names of the days, from bit 0. -/
def days : List String := ["Sunday", "Monday", "Tuesday", "Wednesday", "Thursday", "Friday", "Saturday"]

/-- `DISCOVERY_PREFIX` -/
def discoveryPrefix : String := "homeassistant"

section Build

variable (choices : Choices)

/-- The lamp, with the identifier and the topic that an earlier bridge gave it. -/
def lampe : List Description :=
  [{ component := "light"
     key := "light"
     name := "Light"
     group := some "Light"
     channels := [
      ("", { get := some (.onOff ["Light", "enable"]), set := some (.bool "Light/Enable") }),
      ("brightness",
        { get := some (.text ["Light", "brightness"]), set := some (.int "Light/Brightness") })]
     config := [("brightness_scale", .int 100), ("payload_on", .str "ON"), ("payload_off", .str "OFF"),
      ("on_command_type", .str "first")]
     uniqueId := some "aml005_light"
     discoveryTopic := some (discoveryPrefix ++ "/light/aml005/config") },
    switch "light_sunset" "Light sunset" "Light" "Light/Sunset" ["sunset"] configCategory,
    number "light_sunset_duration" "Light sunset duration" "Light" "Light/Sunset duration"
      ["sunset_duration"] 1 60 (("unit_of_measurement", .str "min") :: configCategory)]

/-- The mood light. -/
def ambiance : List Description :=
  [{ component := "light"
     key := "mood"
     name := "Mood"
     group := some "Mood"
     channels := [
      ("", { get := some (.onOff ["Mood", "enable"]), set := some (.bool "Mood/Enable") }),
      ("brightness", { get := some (.text ["Mood", "brightness"]), set := some (.int "Mood/Brightness") }),
      ("rgb", { get := some (.text ["Mood", "color"]), set := some (.asIs "Mood/Color") }),
      ("effect", { get := some (.text ["Mood", "scene"]), set := some (.asIs "Mood/Scene") })]
     config := [("brightness_scale", .int 100), ("payload_on", .str "ON"), ("payload_off", .str "OFF"),
      ("on_command_type", .str "first"), ("effect_list", texts (choices.at "Mood/Scene"))] },
    switch "mood_timer" "Mood timer" "Mood" "Mood/Timer" ["timer"] configCategory,
    number "mood_timer_duration" "Mood timer duration" "Mood" "Mood/Timer duration" ["timer_duration"] 1 120
      (("unit_of_measurement", .str "min") :: configCategory)]

/-- The radio. -/
def radio : List Description :=
  [switch "radio" "Radio" "Radio" "Radio/Enable" ["enable"] [("icon", .str "mdi:radio")],
    number "radio_volume" "Radio volume" "Radio" "Radio/Volume" ["volume"] 1 10
      [("icon", .str "mdi:volume-high")],
    number "radio_channel" "Radio preset" "Radio" "Radio/Channel" ["channel"] 1 10
      [("mode", .str "box"), ("icon", .str "mdi:numeric")],
    sensor "radio_frequency" "Radio frequency" "Radio" (.text ["Radio", "frequency"])
      [("unit_of_measurement", .str "MHz"), ("icon", .str "mdi:radio-tower")],
    button "radio_seek_up" "Radio seek next" "Radio/>>" (some "Radio") [("icon", .str "mdi:skip-next")],
    button "radio_seek_down" "Radio seek previous" "Radio/<<" (some "Radio")
      [("icon", .str "mdi:skip-previous")],
    button "radio_tune_up" "Radio tune up" "Radio/>" (some "Radio") [("icon", .str "mdi:chevron-right")],
    button "radio_tune_down" "Radio tune down" "Radio/<" (some "Radio") [("icon", .str "mdi:chevron-left")],
    switch "radio_sleep" "Radio sleep timer" "Radio" "Radio/Sleep timer" ["sleep_timer"] configCategory,
    number "radio_sleep_duration" "Radio sleep timer duration" "Radio" "Radio/Timer duration"
      ["timer_duration"] 1 60 (("unit_of_measurement", .str "min") :: configCategory)]

/-- The alarm `n`: the switch, the time, the seven days, and the settings. -/
def alarme (n : Nat) : List Description :=
  let a := toString n
  [switch s!"alarm{n}" s!"Alarm {n}" "Alarm" s!"Alarm/{n}/Enable" [a, "enable"] [("icon", .str "mdi:alarm")],
    { component := "text"
      key := s!"alarm{n}_time"
      name := s!"Alarm {n} time"
      group := some "Alarm"
      channels := [("", { get := some (.text ["Alarm", a, "time"]), set := some (.asIs s!"Alarm/{n}/Time") })]
      config := [("pattern", .str "^([01]\\d|2[0-3]):[0-5]\\d$"), ("min", .int 5), ("max", .int 5),
        ("icon", .str "mdi:clock-outline")] }] ++
  days.zipIdx.map (fun (day, bit) => daySwitch n bit day) ++
  [select s!"alarm{n}_snooze" s!"Alarm {n} snooze" "Alarm" s!"Alarm/{n}/Snooze" [a, "snooze"]
      (choices.at "Alarm/1/Snooze") configCategory,
    select s!"alarm{n}_tone" s!"Alarm {n} tone" "Alarm" s!"Alarm/{n}/Tone" [a, "tone"]
      (choices.at "Alarm/1/Tone") configCategory,
    number s!"alarm{n}_volume" s!"Alarm {n} tone volume" "Alarm" s!"Alarm/{n}/Tone volume"
      [a, "tone_volume"] 1 10 configCategory,
    switch s!"alarm{n}_sunrise" s!"Alarm {n} sunrise" "Alarm" s!"Alarm/{n}/Sunrise" [a, "sunrise"]
      configCategory,
    number s!"alarm{n}_sunrise_duration" s!"Alarm {n} sunrise duration" "Alarm"
      s!"Alarm/{n}/Sunrise duration" [a, "sunrise_duration"] 2 60
      (("unit_of_measurement", .str "min") :: configCategory),
    number s!"alarm{n}_sunrise_brightness" s!"Alarm {n} sunrise brightness" "Alarm"
      s!"Alarm/{n}/Sunrise brightness" [a, "sunrise_brightness"] 1 100
      (("unit_of_measurement", .str "%") :: configCategory)]

/-- The description of a date. -/
def timestamp : List (String × JsonValue) :=
  [("device_class", .str "timestamp"), ("icon", .str "mdi:alarm")]

/-- The description of the phase of an alarm. -/
def phase : List (String × JsonValue) :=
  [("device_class", .str "enum"), ("options", texts ["off", "sunrise", "on"]),
    ("icon", .str "mdi:weather-sunset-up")]

/-- What the two alarms have in common: the next date, the phases, the buttons. -/
def reveil : List Description :=
  [sensor "next_alarm" "Alarm next" "Alarm" .nextAlarm timestamp,
    sensor "alarm1_next" "Alarm 1 next" "Alarm" (.orNone ["Alarm", "1", "next"]) timestamp,
    sensor "alarm2_next" "Alarm 2 next" "Alarm" (.orNone ["Alarm", "2", "next"]) timestamp,
    sensor "alarm_phase" "Alarm state" "status" (.phase ["status", "alarm_state", "state"]) phase,
    sensor "alarm1_phase" "Alarm 1 state" "status" (.phase ["status", "alarm_state", "alarms", "1"]) phase,
    sensor "alarm2_phase" "Alarm 2 state" "status" (.phase ["status", "alarm_state", "alarms", "2"]) phase,
    button "alarm_stop" "Alarm stop" "Alarm/Stop" none [("icon", .str "mdi:alarm-off")],
    button "alarm_snooze" "Alarm snooze" "Alarm/Snooze" none [("icon", .str "mdi:alarm-snooze")]]

/-- The settings, and the clock, which can be set: the only entity that is live. -/
def reglages : List Description :=
  [select "display_brightness" "Display brightness" "status" "Settings/Display brightness"
      ["settings", "display_brightness"] (choices.at "Settings/Display brightness") configCategory,
    select "display_time" "Display time format" "status" "Settings/Display time"
      ["settings", "display_time"] (choices.at "Settings/Display time") configCategory,
    select "time_mode" "Clock mode" "status" "Settings/Time" ["settings", "time"]
      (choices.at "Settings/Time") configCategory,
    switch "feedback" "Sound button beep" "status" "Settings/Feedback" ["settings", "feedback"] configCategory,
    switch "fade" "Light fade" "status" "Settings/Fade" ["settings", "fade"] configCategory,
    button "sync_time" "Clock sync" "Settings/Sync time" none
      [("entity_category", .str "config"), ("icon", .str "mdi:clock-check")],
    { component := "text"
      key := "set_time"
      name := "Clock"
      group := some "status"
      channels := [("", { get := some .clock, set := some (.asIs "Settings/Set time") })]
      config := [
        ("pattern",
          .str "^$|^(\\d\x7b4\x7d-\\d\x7b2\x7d-\\d\x7b2\x7d )?([01]\\d|2[0-3]):[0-5]\\d(:[0-5]\\d)?$"),
        ("min", .int 0), ("max", .int 19), ("icon", .str "mdi:clock-edit-outline")]
      live := true },
    sensor "clock_offset" "Clock offset" "status" (.orNone ["status", "clock", "offset_s"])
      [("unit_of_measurement", .str "s"), ("device_class", .str "duration"),
        ("entity_category", .str "diagnostic"), ("icon", .str "mdi:clock-alert-outline")]]

/-- The speaker, whose state cannot be read, and the link, available even when it is down. -/
def liaison : List Description :=
  [{ component := "switch"
     key := "speaker"
     name := "Speaker"
     group := none
     channels := [("", { get := none, set := some (.bool "Media Player/Enable") })]
     config := [("payload_on", .str "ON"), ("payload_off", .str "OFF"), ("optimistic", .bool true),
      ("icon", .str "mdi:speaker-bluetooth")] },
    { component := "binary_sensor"
      key := "connected"
      name := "Bluetooth connection"
      group := some "status"
      channels := [("", { get := some (.onOff ["status", "connected"]), set := none })]
      config := [("device_class", .str "connectivity"), ("payload_on", .str "ON"),
        ("payload_off", .str "OFF"), ("entity_category", .str "diagnostic")]
      needsAml := false }]

/-- `build_entities` -/
def buildDescriptions : List Description :=
  lampe ++ ambiance choices ++ radio ++ alarme choices 1 ++ alarme choices 2 ++ reveil ++ reglages choices ++
    liaison

end Build

/-- **The same entities**, as far as the commands go, whatever the choices. -/
theorem buildDescriptions_entity (python : Python) (choices : Choices) :
    (buildDescriptions choices).map (Description.entity python) = Entities.buildEntities python := rfl

/-! ### The commands that are sent

Every channel has one command of the service, whatever the message and the cache: the table
of the entities can then be looked through for a property of the commands. -/

/-- The command of a channel. -/
def commandOf : Conversion → String
  | .bool path | .int path | .asIs path | .press path => path
  | .day number _ => s!"Alarm/{number}/Days"

section Commands

variable {python : Python} {conversion : Conversion} {payload : String} {cache : JsonValue}
  {commands : List (String × Option String)}

/-- A channel sends its command, once, or nothing. -/
theorem set_commandOf (h : conversion.set python payload cache = .ok commands) :
    ∃ value, commands = [(commandOf conversion, value)] := by
  cases conversion with
  | bool path =>
    rw [Conversion.set] at h
    cases hvalue : Entities.boolPayload python payload with
    | ok value => exact ⟨some value, (Except.ok.inj (hvalue ▸ h)).symm⟩
    | error e => cases (hvalue ▸ h)
  | int path =>
    rw [Conversion.set] at h
    cases hvalue : Entities.intPayload python payload with
    | ok value => exact ⟨some value, (Except.ok.inj (hvalue ▸ h)).symm⟩
    | error e => cases (hvalue ▸ h)
  | asIs path => exact ⟨_, (Except.ok.inj h).symm⟩
  | press path => exact ⟨_, (Except.ok.inj h).symm⟩
  | day number bit =>
    rw [Conversion.set, daySwitchSet] at h
    dsimp only at h
    split at h
    · cases h
    · exact ⟨_, (Except.ok.inj h).symm⟩
    · exact ⟨_, (Except.ok.inj h).symm⟩
    · cases h

/-- The route of an entity is one of its channels. -/
theorem route_channel {route : Route} {d : Description} (hentity : route.entity = d.entity python) :
    ∃ channel ∈ d.channels, channel.1 = route.channelName ∧ ∃ conversion,
      channel.2.set = some conversion ∧ route.set = conversion.set python := by
  have hroute := route.announced
  rw [hentity] at hroute
  obtain ⟨channel, hchannel, heq⟩ := List.mem_map.mp hroute
  have hname := congrArg Prod.fst heq
  have hset := congrArg (fun channel => channel.2.set) heq
  obtain ⟨conversion, hconversion, hroute⟩ := Option.map_eq_some_iff.mp hset
  exact ⟨channel, hchannel, hname, conversion, hconversion, hroute.symm⟩

/-- A route of the bridge converts as a channel of the table does, whatever the choices. -/
theorem route_conversion {route : Route} (h : route.entity ∈ Entities.buildEntities python) :
    ∃ d ∈ buildDescriptions [], ∃ channel ∈ d.channels, ∃ conversion,
      channel.2.set = some conversion ∧ route.set = conversion.set python := by
  rw [← buildDescriptions_entity python []] at h
  obtain ⟨d, hd, hentity⟩ := List.mem_map.mp h
  obtain ⟨channel, hchannel, -, hconversion⟩ := route_channel hentity.symm
  exact ⟨d, hd, channel, hchannel, hconversion⟩

/-- **No message asks for the status.** -/
theorem route_commands {route : Route} (hroute : route.entity ∈ Entities.buildEntities python)
    (h : route.set payload cache = .ok commands) : ∀ command ∈ commands, command.1 ≠ "status" := by
  have htable : ∀ d ∈ buildDescriptions [], ∀ channel ∈ d.channels,
      (channel.2.set.all fun conversion => commandOf conversion != "status") = true := by decide +kernel
  obtain ⟨d, hd, channel, hchannel, conversion, hset, heq⟩ := route_conversion hroute
  have hcommand := htable d hd channel hchannel
  rw [hset, Option.all_some, bne_iff_ne] at hcommand
  rw [heq] at h
  obtain ⟨value, rfl⟩ := set_commandOf h
  intro command hmem
  rw [List.mem_singleton.mp hmem]
  exact hcommand

end Commands

end AmlService.Channels
