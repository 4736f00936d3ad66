import AmlService.Lib.PyJson
import AmlService.Mqtt.Channels
import Mathlib.Data.List.Induction
import Mathlib.Data.List.Nodup

/-!
# AmlService.Mqtt.Discovery

What the bridge tells Home Assistant of its entities (`announce`, `discovery`) and where the
messages of Home Assistant go (`on_connect`, `on_message`, the routes that `start` builds).

The broker is no part of the bridge, and may be any: what it retains of the messages published and
which topics it takes a subscription for are as MQTT says (`Broker`).
-/

namespace AmlService.Channels

open Entities (Conversion Python)

/-! ### Topics -/

/-- `BASE` -/
def base : String := "sweetdawn/aml005"

/-- `BRIDGE_TOPIC` -/
def bridgeTopic : String := base ++ "/bridge"

/-- `AML_TOPIC` -/
def amlTopic : String := base ++ "/status"

/-- `state_topic`, of an entity by its key. -/
def stateTopic (key channel : String) : String :=
  base ++ "/" ++ key ++ "/" ++ (if channel = "" then "state" else channel)

/-- `command_topic` -/
def commandTopic (key channel : String) : String :=
  base ++ "/" ++ key ++ "/" ++ (if channel = "" then "" else channel ++ "/") ++ "set"

/-! ### What is announced -/

/-- `DEVICE` -/
def device : JsonValue :=
  .obj [("identifiers", texts ["raspberry_aml005"]), ("name", .str "AML005"), ("manufacturer", .str "AML"),
    ("model", .str "AML005"), ("via_device", .str "raspberry_gateway")]

/-- The first half of the names of a channel, in what is announced. -/
def channelPart (channel : String) : String := if channel = "" then "" else channel ++ "_"

/-- The topics of a channel, in what is announced. -/
def announceChannel (key : String) (payload : List (String × JsonValue)) (channel : String × Channel) :
    List (String × JsonValue) :=
  let payload :=
    if channel.2.get.isSome then
      dictSet (channelPart channel.1 ++ "state_topic") (.str (stateTopic key channel.1)) payload
    else payload
  if channel.2.set.isSome then
    dictSet (channelPart channel.1 ++ "command_topic") (.str (commandTopic key channel.1)) payload
  else payload

/-- `discovery` -/
def discovery (d : Description) : String × List (String × JsonValue) :=
  let availability := [JsonValue.obj [("topic", .str bridgeTopic)]] ++
    if d.needsAml then [.obj [("topic", .str amlTopic)]] else []
  let payload := dictUpdate
    [("name", .str d.name), ("unique_id", .str (d.uniqueId.getD ("aml005_" ++ d.key))), ("device", device),
      ("availability", .arr availability), ("availability_mode", .str "all")] d.config
  (d.discoveryTopic.getD (discoveryPrefix ++ "/" ++ d.component ++ "/aml005_" ++ d.key ++ "/config"),
    d.channels.foldl (announceChannel d.key) payload)

/-- `RETIRED_DISCOVERY_TOPICS` -/
def retiredDiscoveryTopics : List String :=
  [discoveryPrefix ++ "/sensor/aml005_aml_time/config",
    discoveryPrefix ++ "/binary_sensor/aml005_alarm_active/config",
    discoveryPrefix ++ "/sensor/aml005_alarm_state/config",
    discoveryPrefix ++ "/binary_sensor/aml005_alarm_ringing/config"] ++
  ["sunrise", "sunrise1", "sunrise2"].flatMap fun key =>
    [("binary_sensor", key), ("sensor", key ++ "_progress")].map fun (component, key) =>
      discoveryPrefix ++ "/" ++ component ++ "/aml005_" ++ key ++ "/config"

/-- A message published; all are to be retained. -/
structure Publication where
  topic : String
  payload : String
  deriving Repr, DecidableEq

/-- `announce`; the main loop is then to publish all states again. -/
def announce (entities : List Description) : List Publication × List Item :=
  ([{ topic := bridgeTopic, payload := "online" }] ++
      (entities.map fun d =>
        { topic := (discovery d).1, payload := PyJson.dumps (.obj (discovery d).2) }) ++
      (retiredDiscoveryTopics.map fun topic => { topic, payload := "" }),
    [.republish])

/-! ### What is received -/

/-- The subscriptions of `on_connect`. -/
def subscriptions : List String := [base ++ "/+/set", base ++ "/+/+/set", discoveryPrefix ++ "/status"]

/-- The routes of an entity, one for each channel that takes messages. -/
def entityRoutes (entity : Entity) : List (String × Route) :=
  entity.channels.attach.filterMap fun channel =>
    match hset : channel.1.2.set with
    | none => none
    | some set =>
      some (commandTopic entity.key channel.1.1,
        { entity
          channelName := channel.1.1
          set
          announced := by
            have hmem := channel.2
            have heq : channel.1 = (channel.1.1, { set := some set }) := Prod.ext rfl (by simp [← hset])
            rwa [heq] at hmem })

/-- `routes`, as `start` builds it. -/
def routes (entities : List Entity) : List (String × Route) := dictUpdate [] (entities.flatMap entityRoutes)

/-- `on_message`, for a payload decoded and stripped. -/
def onMessage (entities : List Description) (routes : List (String × Route))
    (topic payload : String) : List Publication × List Item :=
  if topic = discoveryPrefix ++ "/status" then
    if payload = "online" then announce entities else ([], [])
  else
    match routes.lookup topic with
    | some route => ([], [.command route payload])
    | none => ([], [])

/-! ### The broker -/

/-- The levels of a topic. -/
def levels (topic : String) : List String := (topic.toList.splitOn '/').map String.ofList

/-- A filter is for a topic, level by level: `+` is for any level. -/
def Covers (filter topic : String) : Prop :=
  List.Forall₂ (fun f level => f = "+" ∨ f = level) (levels filter) (levels topic)

/-- What MQTT says of a broker: on a topic it retains the last message, which an empty one takes away, and it
takes a subscription for the topics that its filter covers, those of the broker itself apart. -/
structure Broker (retained : List Publication → String → Option String) (isFor : String → String → Prop) : Prop where
  retains : ∀ published p topic, retained (published ++ [p]) topic =
    if p.topic = topic then if p.payload = "" then none else some p.payload else retained published topic
  covered : ∀ filter topic, topic.toList.head? ≠ some '$' → Covers filter topic → isFor filter topic

/-! ### Topics and levels -/

/-- The levels of a topic put together of them. -/
theorem levels_intercalate {segments : List String} (h : ∀ s ∈ segments, '/' ∉ s.toList)
    (hne : segments ≠ []) : levels ("/".intercalate segments) = segments := by
  have hslash : ∀ chars ∈ segments.map String.toList, '/' ∉ chars := by
    intro chars hchars
    obtain ⟨s, hs, rfl⟩ := List.mem_map.mp hchars
    exact h s hs
  have hsplit := List.splitOn_intercalate '/' hslash (by simpa using hne)
  simp [levels, hsplit]

section Levels

variable {key channel : String}

theorem levels_commandTopic (hkey : '/' ∉ key.toList) (hchannel : '/' ∉ channel.toList) :
    levels (commandTopic key channel) =
      ["sweetdawn", "aml005", key] ++ (if channel = "" then [] else [channel]) ++ ["set"] := by
  have hjoin : commandTopic key channel = "/".intercalate
      (["sweetdawn", "aml005", key] ++ (if channel = "" then [] else [channel]) ++ ["set"]) := by
    apply String.toList_inj.mp
    by_cases h : channel = "" <;> simp [commandTopic, base, h]
  rw [hjoin]
  refine levels_intercalate ?_ (by simp)
  split <;> simp [hkey, hchannel]

theorem levels_stateTopic (hkey : '/' ∉ key.toList) (hchannel : '/' ∉ channel.toList) :
    levels (stateTopic key channel) =
      ["sweetdawn", "aml005", key, if channel = "" then "state" else channel] := by
  have hjoin : stateTopic key channel = "/".intercalate
      ["sweetdawn", "aml005", key, if channel = "" then "state" else channel] := by
    apply String.toList_inj.mp
    simp [stateTopic, base]
  rw [hjoin]
  refine levels_intercalate ?_ (by simp)
  split <;> simp [hkey, hchannel]

/-- The topic of a command is subscribed to. -/
theorem commandTopic_subscribed (hkey : '/' ∉ key.toList) (hchannel : '/' ∉ channel.toList) :
    ∃ filter ∈ subscriptions, Covers filter (commandTopic key channel) := by
  have hfirst : levels (base ++ "/+/set") = ["sweetdawn", "aml005", "+", "set"] := by decide +kernel
  have hnamed : levels (base ++ "/+/+/set") = ["sweetdawn", "aml005", "+", "+", "set"] := by decide +kernel
  unfold Covers
  rw [levels_commandTopic hkey hchannel]
  by_cases h : channel = ""
  · exact ⟨_, List.mem_cons_self, by rw [hfirst]; simp [h]⟩
  · exact ⟨_, List.mem_cons_of_mem _ List.mem_cons_self, by rw [hnamed]; simp [h]⟩

theorem commandTopic_head : (commandTopic key channel).toList.head? ≠ some '$' := by
  simp [commandTopic, base]

end Levels

theorem commandTopic_ne_status {key channel : String} (hkey : '/' ∉ key.toList) (hchannel : '/' ∉ channel.toList) :
    commandTopic key channel ≠ discoveryPrefix ++ "/status" := by
  intro heq
  have hlevels : levels (discoveryPrefix ++ "/status") = [discoveryPrefix, "status"] := by decide +kernel
  rw [← heq, levels_commandTopic hkey hchannel] at hlevels
  simp at hlevels

/-! ### The table -/

/-- What names an entity and its channels. -/
structure Outline where
  component : String
  key : String
  channels : List String
  discoveryTopic : Option String

def Description.outline (d : Description) : Outline where
  component := d.component
  key := d.key
  channels := d.channels.map Prod.fst
  discoveryTopic := d.discoveryTopic

/-- The keys of the entities retired. -/
def retiredKeys : List String :=
  ["aml_time", "alarm_active", "alarm_state", "alarm_ringing", "sunrise", "sunrise_progress", "sunrise1",
    "sunrise1_progress", "sunrise2", "sunrise2_progress"]

/-- The names of the channels. -/
def channelNames : List String := ["", "brightness", "rgb", "effect"]

/-- Names fit for topics; the one entity with a discovery topic of its own is the main light. -/
structure Outline.Fits (o : Outline) : Prop where
  key : '/' ∉ o.key.toList
  channels : ∀ channel ∈ o.channels, channel ∈ channelNames
  nodup : o.channels.Nodup
  discovery : o.discoveryTopic = none ∧ '/' ∉ o.component.toList ∨
    o.discoveryTopic = some (discoveryPrefix ++ "/light/aml005/config") ∧ o.key = "light"
  retired : o.key ∉ retiredKeys

theorem outlines_fit : ∀ o ∈ (buildDescriptions []).map Description.outline,
    '/' ∉ o.key.toList ∧ (∀ channel ∈ o.channels, channel ∈ channelNames) ∧ o.channels.Nodup ∧
      (o.discoveryTopic = none ∧ '/' ∉ o.component.toList ∨
        o.discoveryTopic = some (discoveryPrefix ++ "/light/aml005/config") ∧ o.key = "light") ∧
      o.key ∉ retiredKeys := by
  decide +kernel

section Table

variable {choices : Choices}

theorem buildDescriptions_outline :
    (buildDescriptions choices).map Description.outline = (buildDescriptions []).map Description.outline :=
  rfl

theorem buildDescriptions_fits : ∀ d ∈ buildDescriptions choices, d.outline.Fits := by
  intro d hd
  have hmem : d.outline ∈ (buildDescriptions choices).map Description.outline := List.mem_map_of_mem hd
  obtain ⟨hkey, hchannels, hnodup, hdiscovery, hretired⟩ := outlines_fit _ (buildDescriptions_outline ▸ hmem)
  exact ⟨hkey, hchannels, hnodup, hdiscovery, hretired⟩

/-- **No two entities have the same key.** -/
theorem buildDescriptions_keys : ((buildDescriptions choices).map Description.key).Nodup := by
  show ((buildDescriptions []).map Description.key).Nodup
  decide +kernel

theorem channelNames_slash : ∀ channel ∈ channelNames, '/' ∉ channel.toList := by decide

end Table

/-! ### What is announced, entity by entity -/

/-- The names of the topics of the channels are distinct. -/
theorem channelParts_distinct : ∀ a ∈ channelNames, ∀ b ∈ channelNames,
    channelPart a ++ "command_topic" ≠ channelPart b ++ "state_topic" ∧
      (a ≠ b → channelPart a ++ "command_topic" ≠ channelPart b ++ "command_topic" ∧
        channelPart a ++ "state_topic" ≠ channelPart b ++ "state_topic") := by
  decide +kernel

section Announced

variable {key : String} {payload : List (String × JsonValue)} {channels : List (String × Channel)}

theorem get_announceChannel {name : String} (channel : String × Channel)
    (hstate : channelPart channel.1 ++ "state_topic" ≠ name)
    (hcommand : channelPart channel.1 ++ "command_topic" ≠ name) :
    (JsonValue.obj (announceChannel key payload channel)).get? name = (JsonValue.obj payload).get? name := by
  unfold announceChannel
  dsimp only
  split <;> split <;> simp [hstate, hcommand]

/-- What other channels do not touch. -/
theorem get_announceChannels {name : String} (h : ∀ channel ∈ channels,
    channelPart channel.1 ++ "state_topic" ≠ name ∧ channelPart channel.1 ++ "command_topic" ≠ name) :
    (JsonValue.obj (channels.foldl (announceChannel key) payload)).get? name =
      (JsonValue.obj payload).get? name := by
  induction channels generalizing payload with
  | nil => rfl
  | cons first rest ih =>
    obtain ⟨⟨hstate, hcommand⟩, hrest⟩ := List.forall_mem_cons.mp h
    rw [List.foldl_cons, ih hrest, get_announceChannel first hstate hcommand]

/-- The topics of a channel are announced under its names. -/
theorem announced_topics (hnames : ∀ channel ∈ channels, channel.1 ∈ channelNames)
    (hnodup : (channels.map Prod.fst).Nodup) {channel : String × Channel} (hmem : channel ∈ channels) :
    let announced := JsonValue.obj (channels.foldl (announceChannel key) payload)
    (channel.2.set.isSome → announced.get? (channelPart channel.1 ++ "command_topic") =
        some (.str (commandTopic key channel.1))) ∧
      (channel.2.get.isSome → announced.get? (channelPart channel.1 ++ "state_topic") =
        some (.str (stateTopic key channel.1))) := by
  induction channels generalizing payload with
  | nil => cases hmem
  | cons first rest ih =>
    obtain ⟨hfirst, hrest⟩ := List.forall_mem_cons.mp hnames
    obtain ⟨hnew, hnodup⟩ := List.nodup_cons.mp hnodup
    rcases List.mem_cons.mp hmem with rfl | hmem
    · -- the channels that come after have other names
      have hother : ∀ other ∈ rest, other.1 ∈ channelNames ∧ channel.1 ≠ other.1 := by
        intro other hother
        refine ⟨hrest other hother, fun heq => hnew ?_⟩
        exact List.mem_map.mpr ⟨other, hother, heq.symm⟩
      constructor
      · intro hset
        rw [List.foldl_cons, get_announceChannels]
        · simp [announceChannel, hset]
        · intro other hmem
          obtain ⟨hname, hne⟩ := hother other hmem
          exact ⟨((channelParts_distinct _ hfirst _ hname).1).symm,
            (((channelParts_distinct _ hfirst _ hname).2 hne).1).symm⟩
      · intro hget
        rw [List.foldl_cons, get_announceChannels]
        · unfold announceChannel
          dsimp only
          split <;> simp [(channelParts_distinct _ hfirst _ hfirst).1]
        · intro other hmem
          obtain ⟨hname, hne⟩ := hother other hmem
          exact ⟨(((channelParts_distinct _ hfirst _ hname).2 hne).2).symm,
            (channelParts_distinct _ hname _ hfirst).1⟩
    · exact ih hrest hnodup hmem

end Announced

/-! ### The topics of the announcement -/

section Topics

variable {choices : Choices} {d d' : Description}

theorem eq_of_key (hd : d ∈ buildDescriptions choices) (hd' : d' ∈ buildDescriptions choices)
    (hkey : d.key = d'.key) : d = d' :=
  List.inj_on_of_nodup_map buildDescriptions_keys hd hd' hkey

/-- The levels of a discovery topic. -/
theorem levels_discovery (hd : d ∈ buildDescriptions choices) :
    levels (discovery d).1 = [discoveryPrefix, d.component, "aml005_" ++ d.key, "config"] ∨
      levels (discovery d).1 = [discoveryPrefix, "light", "aml005", "config"] ∧ d.key = "light" := by
  obtain ⟨hkey, -, -, hdiscovery, -⟩ := buildDescriptions_fits d hd
  rcases hdiscovery with ⟨hnone, hcomponent⟩ | ⟨hsome, hlight⟩
  · left
    have hjoin : (discovery d).1 =
        "/".intercalate [discoveryPrefix, d.component, "aml005_" ++ d.key, "config"] := by
      have hnone : d.discoveryTopic = none := hnone
      apply String.toList_inj.mp
      simp [discovery, hnone]
    rw [hjoin]
    refine levels_intercalate ?_ (by simp)
    have hkey : '/' ∉ d.key.toList := hkey
    have hcomponent : '/' ∉ d.component.toList := hcomponent
    simp [hkey, hcomponent, discoveryPrefix]
  · right
    have hsome : d.discoveryTopic = some (discoveryPrefix ++ "/light/aml005/config") := hsome
    refine ⟨?_, hlight⟩
    have htopic : (discovery d).1 = discoveryPrefix ++ "/light/aml005/config" := by simp [discovery, hsome]
    rw [htopic]
    decide +kernel

theorem aml005_ne (key : String) : "aml005_" ++ key ≠ "aml005" := by
  intro heq
  have hlength := congrArg String.length heq
  have hlonger : "aml005".length < "aml005_".length := by decide
  rw [String.length_append] at hlength
  omega

theorem discovery_injective (hd : d ∈ buildDescriptions choices) (hd' : d' ∈ buildDescriptions choices)
    (htopic : (discovery d).1 = (discovery d').1) : d = d' := by
  have hlevels := congrArg levels htopic
  rcases levels_discovery hd with h | ⟨h, hkey⟩ <;> rcases levels_discovery hd' with h' | ⟨h', hkey'⟩ <;>
    rw [h, h'] at hlevels <;> simp only [List.cons.injEq, true_and, and_true] at hlevels
  · exact eq_of_key hd hd' (String.append_right_inj _ |>.mp hlevels.2)
  · exact absurd hlevels.2 (aml005_ne _)
  · exact absurd hlevels.2.symm (aml005_ne _)
  · exact eq_of_key hd hd' (hkey.trans hkey'.symm)

theorem retired_levels : ∀ topic ∈ retiredDiscoveryTopics,
    ∃ key ∈ retiredKeys, (levels topic)[2]? = some ("aml005_" ++ key) := by
  decide +kernel

/-- No entity is retired. -/
theorem discovery_not_retired (hd : d ∈ buildDescriptions choices) :
    (discovery d).1 ∉ retiredDiscoveryTopics := by
  intro hmem
  obtain ⟨key, hkey, hlevel⟩ := retired_levels _ hmem
  rcases levels_discovery hd with h | ⟨h, -⟩ <;> rw [h] at hlevel
  · have heq := String.append_right_inj _ |>.mp (Option.some.inj hlevel)
    have hretired : d.key ∉ retiredKeys := (buildDescriptions_fits d hd).retired
    exact hretired (heq ▸ hkey)
  · exact aml005_ne key (Option.some.inj hlevel).symm

end Topics

/-! ### What the broker keeps -/

/-- What is retained on a topic that has one message only. -/
theorem Broker.retains_unique {retained : List Publication → String → Option String} {isFor : String → String → Prop}
    (h : Broker retained isFor) (before : List Publication) {published : List Publication} {p : Publication}
    (hp : p ∈ published) (hunique : ∀ q ∈ published, q.topic = p.topic → q = p) :
    retained (before ++ published) p.topic = if p.payload = "" then none else some p.payload := by
  induction published using List.reverseRecOn with
  | nil => cases hp
  | append_singleton published last ih =>
    rw [← List.append_assoc, h.retains]
    by_cases htopic : last.topic = p.topic
    · rw [if_pos htopic, hunique last (by simp) htopic]
    · rw [if_neg htopic]
      have hmem : p ∈ published := by
        refine (List.mem_append.mp hp).resolve_right fun hlast => htopic ?_
        rw [List.mem_singleton.mp hlast]
      exact ih hmem fun q hq => hunique q (List.mem_append_left _ hq)

section Announce

variable {choices : Choices} {p q : Publication}

theorem mem_announce (hp : p ∈ (announce (buildDescriptions choices)).1) :
    p.topic = bridgeTopic ∧ p.payload = "online" ∨
      (∃ d ∈ buildDescriptions choices, p.topic = (discovery d).1 ∧ p.payload = PyJson.dumps (.obj (discovery d).2)) ∨
      p.topic ∈ retiredDiscoveryTopics ∧ p.payload = "" := by
  simp only [announce, List.cons_append, List.mem_cons, List.mem_append, List.mem_map, List.nil_append] at hp
  rcases hp with rfl | ⟨d, hd, rfl⟩ | ⟨topic, hmem, rfl⟩
  · exact .inl ⟨rfl, rfl⟩
  · exact .inr (.inl ⟨d, hd, rfl, rfl⟩)
  · exact .inr (.inr ⟨hmem, rfl⟩)

/-- **The announcement has one message for each topic.** -/
theorem announce_unique (hp : p ∈ (announce (buildDescriptions choices)).1)
    (hq : q ∈ (announce (buildDescriptions choices)).1) (htopic : q.topic = p.topic) : q = p := by
  have hbridge : ∀ d ∈ buildDescriptions choices, bridgeTopic ≠ (discovery d).1 := by
    intro d hd heq
    have hlevels : levels bridgeTopic = ["sweetdawn", "aml005", "bridge"] := by decide +kernel
    rw [heq] at hlevels
    rcases levels_discovery hd with h | ⟨h, -⟩ <;> rw [h] at hlevels <;> simp at hlevels
  have hretired : bridgeTopic ∉ retiredDiscoveryTopics := by decide +kernel
  suffices hpayload : q.payload = p.payload by
    cases p
    cases q
    exact congr (congrArg Publication.mk htopic) hpayload
  rcases mem_announce hp with ⟨ht, hpay⟩ | ⟨d, hd, ht, hpay⟩ | ⟨ht, hpay⟩ <;>
    rcases mem_announce hq with ⟨ht', hpay'⟩ | ⟨d', hd', ht', hpay'⟩ | ⟨ht', hpay'⟩ <;>
    rw [htopic] at ht'
  · rw [hpay', hpay]
  · exact absurd (ht.symm.trans ht') (hbridge d' hd')
  · exact absurd (ht ▸ ht') hretired
  · exact absurd (ht'.symm.trans ht) (hbridge d hd)
  · rw [hpay', hpay, discovery_injective hd' hd (ht'.symm.trans ht)]
  · exact absurd (ht ▸ ht') (discovery_not_retired hd)
  · exact absurd (ht' ▸ ht) hretired
  · exact absurd (ht' ▸ ht) (discovery_not_retired hd')
  · rw [hpay', hpay]

end Announce

/-! ### The routes -/

theorem lookup_dictSet {α : Type} (key key' : String) (value : α) (entries : List (String × α)) :
    (dictSet key value entries).lookup key' = if key = key' then some value else entries.lookup key' := by
  induction entries with
  | nil =>
    by_cases h : key = key'
    · simp [dictSet, h]
    · have hne : (key' == key) = false := by simp [Ne.symm h]
      simp [dictSet, List.lookup_cons, h, hne]
  | cons entry entries ih =>
    obtain ⟨first, v⟩ := entry
    by_cases hentry : first = key
    · subst hentry
      by_cases h : first = key'
      · simp [dictSet, h]
      · have hne : (key' == first) = false := by simp [Ne.symm h]
        simp [dictSet, List.lookup_cons, h, hne]
    · by_cases hfirst : key' = first
      · subst hfirst
        simp [dictSet, hentry, Ne.symm hentry]
      · have hne : (key' == first) = false := by simp [hfirst]
        simp [dictSet, List.lookup_cons, hentry, hne, ih]

/-- A key that is given one value only. -/
theorem lookup_dictUpdate {α : Type} {more entries : List (String × α)} {key : String} {value : α}
    (hunique : ∀ entry ∈ more, entry.1 = key → entry.2 = value)
    (h : (key, value) ∈ more ∨ entries.lookup key = some value) :
    (dictUpdate entries more).lookup key = some value := by
  induction more generalizing entries with
  | nil => exact h.resolve_left List.not_mem_nil
  | cons entry more ih =>
    obtain ⟨hentry, hmore⟩ := List.forall_mem_cons.mp hunique
    refine ih hmore ?_
    rw [lookup_dictSet]
    by_cases hkey : entry.1 = key
    · exact .inr (by rw [if_pos hkey, hentry hkey])
    · rw [if_neg hkey]
      refine h.imp_left fun hmem => (List.mem_cons.mp hmem).resolve_left ?_
      rintro rfl
      exact hkey rfl

theorem lookup_dictUpdate_mem {α : Type} {more : List (String × α)} {key : String} {value : α}
    (h : (dictUpdate [] more).lookup key = some value) : (key, value) ∈ more := by
  suffices hmem : ∀ entries : List (String × α), (dictUpdate entries more).lookup key = some value →
      entries.lookup key = some value ∨ (key, value) ∈ more from (hmem [] h).resolve_left (by simp)
  clear h
  induction more with
  | nil => exact fun entries h => .inl h
  | cons entry more ih =>
    intro entries h
    rcases ih (dictSet entry.1 entry.2 entries) h with hfound | hmem
    · rw [lookup_dictSet] at hfound
      split at hfound
      · next hkey =>
        cases hfound
        exact .inr (by simp [← hkey])
      · exact .inl hfound
    · exact .inr (List.mem_cons_of_mem _ hmem)

theorem mem_entityRoutes {entity : Entity} {entry : String × Route} (h : entry ∈ entityRoutes entity) :
    entry.1 = commandTopic entity.key entry.2.channelName ∧ entry.2.entity = entity ∧
      (entry.2.channelName, { set := some entry.2.set }) ∈ entity.channels := by
  obtain ⟨channel, -, hroute⟩ := List.mem_filterMap.mp h
  split at hroute
  · cases hroute
  · cases hroute
    exact ⟨rfl, rfl, Route.announced _⟩

theorem entityRoutes_mem {entity : Entity} {name : String} {set : String → JsonValue → Except PyError _}
    (h : (name, { set := some set }) ∈ entity.channels) :
    ∃ route, (commandTopic entity.key name, route) ∈ entityRoutes entity ∧ route.entity = entity ∧
      route.channelName = name ∧ route.set = set := by
  refine ⟨⟨entity, name, set, h⟩, List.mem_filterMap.mpr ⟨⟨_, h⟩, List.mem_attach _ _, ?_⟩, rfl, rfl, rfl⟩
  split
  · next hnone => cases hnone
  · next hsome =>
    cases hsome
    rfl

section Routes

variable {python : Python} {choices : Choices} {d : Description} {channel : String × Channel}

theorem description_channels (hd : d ∈ buildDescriptions choices) : ∀ channel ∈ d.channels, channel.1 ∈ channelNames :=
  fun _ hc => (buildDescriptions_fits d hd).channels _ (List.mem_map_of_mem hc)

theorem channel_slash (hd : d ∈ buildDescriptions choices) (hc : channel ∈ d.channels) :
    '/' ∉ d.key.toList ∧ '/' ∉ channel.1.toList := by
  exact ⟨(buildDescriptions_fits d hd).key, channelNames_slash _ (description_channels hd channel hc)⟩

/-- **The topics of a channel** are announced with its entity. -/
theorem discovery_topics (hd : d ∈ buildDescriptions choices) (hc : channel ∈ d.channels) :
    (channel.2.set.isSome → (JsonValue.obj (discovery d).2).get? (channelPart channel.1 ++ "command_topic") =
        some (.str (commandTopic d.key channel.1))) ∧
      (channel.2.get.isSome → (JsonValue.obj (discovery d).2).get? (channelPart channel.1 ++ "state_topic") =
        some (.str (stateTopic d.key channel.1))) :=
  announced_topics (description_channels hd) (buildDescriptions_fits d hd).nodup hc

/-- **A command topic** is that of one channel of one entity. -/
theorem commandTopic_injective {d' : Description} {channel' : String × Channel}
    (hd : d ∈ buildDescriptions choices) (hc : channel ∈ d.channels) (hd' : d' ∈ buildDescriptions choices)
    (hc' : channel' ∈ d'.channels) (htopic : commandTopic d.key channel.1 = commandTopic d'.key channel'.1) :
    d = d' ∧ channel = channel' := by
  obtain ⟨hkey, hname⟩ := channel_slash hd hc
  obtain ⟨hkey', hname'⟩ := channel_slash hd' hc'
  have hlevels := congrArg levels htopic
  rw [levels_commandTopic hkey hname, levels_commandTopic hkey' hname'] at hlevels
  obtain ⟨hkeys, hnames⟩ : d.key = d'.key ∧ channel.1 = channel'.1 := by
    by_cases h : channel.1 = "" <;> by_cases h' : channel'.1 = "" <;> simp [h, h'] at hlevels <;> simp [h, h', hlevels]
  obtain rfl := eq_of_key hd hd' hkeys
  exact ⟨rfl, List.inj_on_of_nodup_map (buildDescriptions_fits d hd).nodup hc hc' hnames⟩

/-- **The route of a channel** that takes messages. -/
theorem routes_lookup (hd : d ∈ buildDescriptions choices) (hc : channel ∈ d.channels) {conversion : Conversion}
    (hset : channel.2.set = some conversion) :
    ∃ route, (routes ((buildDescriptions choices).map (Description.entity python))).lookup
        (commandTopic d.key channel.1) = some route ∧ route.entity = d.entity python ∧
      route.channelName = channel.1 ∧ route.set = conversion.set python := by
  have hmem : (channel.1, { set := some (conversion.set python) }) ∈ (d.entity python).channels := by
    refine List.mem_map.mpr ⟨channel, hc, ?_⟩
    rw [hset]
    rfl
  obtain ⟨route, hroute, hentity, hname, hrouteSet⟩ := entityRoutes_mem hmem
  refine ⟨route, lookup_dictUpdate ?_ (.inl ?_), hentity, hname, hrouteSet⟩
  · -- another route with this topic would be of the same channel
    intro entry hentry htopic
    obtain ⟨entity, hentityMem, hentry⟩ := List.mem_flatMap.mp hentry
    obtain ⟨d', hd', rfl⟩ := List.mem_map.mp hentityMem
    obtain ⟨hentryTopic, hentryEntity, hentrySet⟩ := mem_entityRoutes hentry
    obtain ⟨channel', hc', heq⟩ := List.mem_map.mp hentrySet
    obtain ⟨hentryName, hentryConversion⟩ := Prod.mk.inj heq
    have htopics : commandTopic d.key channel.1 = commandTopic d'.key channel'.1 := by
      rw [← htopic, hentryTopic, hentryName]
      rfl
    obtain ⟨rfl, rfl⟩ := commandTopic_injective hd hc hd' hc' htopics
    obtain ⟨topic, entity', name, set, announced⟩ := entry
    obtain ⟨entity'', name'', set'', announced''⟩ := route
    dsimp only at hentryEntity hentryName hentryConversion hentity hname hrouteSet
    subst hentryEntity hentryName hentity hname hrouteSet
    rw [hset] at hentryConversion
    cases hentryConversion
    rfl
  · exact List.mem_flatMap.mpr ⟨d.entity python, List.mem_map_of_mem hd, hroute⟩

/-- A route is that of a channel. -/
theorem routes_mem {topic : String} {route : Route}
    (h : (routes ((buildDescriptions choices).map (Description.entity python))).lookup topic = some route) :
    ∃ d ∈ buildDescriptions choices, ∃ channel ∈ d.channels, channel.2.set.isSome ∧
      topic = commandTopic d.key channel.1 ∧ route.entity = d.entity python ∧ route.channelName = channel.1 := by
  have hmem := lookup_dictUpdate_mem h
  obtain ⟨entity, hentity, hroute⟩ := List.mem_flatMap.mp hmem
  obtain ⟨d, hd, rfl⟩ := List.mem_map.mp hentity
  obtain ⟨htopic, hrouteEntity, hset⟩ := mem_entityRoutes hroute
  obtain ⟨channel, hc, heq⟩ := List.mem_map.mp hset
  obtain ⟨hname, hconversion⟩ := Prod.mk.inj heq
  refine ⟨d, hd, channel, hc, ?_, by rw [hname]; exact htopic, hrouteEntity, hname.symm⟩
  cases hsome : channel.2.set with
  | none => simp [hsome] at hconversion
  | some _ => rfl

end Routes

/-- **What is announced works.** Whatever was published before, after `announce` the broker
keeps for each entity what is announced of it, and nothing of the entities retired; the
command topic announced for a channel is subscribed to, and a message on it is queued for that
channel. No other message is queued, but the request of Home Assistant to publish all again. -/
theorem announced_and_routed {retained : List Publication → String → Option String} {isFor : String → String → Prop}
    (hbroker : Broker retained isFor) (python : Python) (choices : Choices) (before : List Publication) :
    (∀ d ∈ buildDescriptions choices,
      retained (before ++ (announce (buildDescriptions choices)).1) (discovery d).1 =
        some (PyJson.dumps (.obj (discovery d).2))) ∧
    (∀ topic ∈ retiredDiscoveryTopics,
      retained (before ++ (announce (buildDescriptions choices)).1) topic = none) ∧
    (∀ d ∈ buildDescriptions choices, ∀ channel ∈ d.channels, channel.2.get.isSome →
      (JsonValue.obj (discovery d).2).get? (channelPart channel.1 ++ "state_topic") =
        some (.str (stateTopic d.key channel.1))) ∧
    (∀ d ∈ buildDescriptions choices, ∀ channel ∈ d.channels, ∀ conversion, channel.2.set = some conversion →
      (JsonValue.obj (discovery d).2).get? (channelPart channel.1 ++ "command_topic") =
          some (.str (commandTopic d.key channel.1)) ∧
        (∃ filter ∈ subscriptions, isFor filter (commandTopic d.key channel.1)) ∧
        ∀ payload, ∃ route, onMessage (buildDescriptions choices)
            (routes ((buildDescriptions choices).map (Description.entity python)))
            (commandTopic d.key channel.1) payload = ([], [.command route payload]) ∧
          route.entity = d.entity python ∧ route.channelName = channel.1 ∧ route.set = conversion.set python) ∧
    ∀ topic payload, ∀ item ∈ (onMessage (buildDescriptions choices)
        (routes ((buildDescriptions choices).map (Description.entity python))) topic payload).2,
      (topic = discoveryPrefix ++ "/status" ∧ payload = "online" ∧ item = .republish) ∨
        ∃ d ∈ buildDescriptions choices, ∃ channel ∈ d.channels, ∃ route,
          topic = commandTopic d.key channel.1 ∧ item = .command route payload ∧
            route.entity = d.entity python ∧ route.channelName = channel.1 := by
  refine ⟨fun d hd => ?_, fun topic htopic => ?_, fun d hd channel hc hget => (discovery_topics hd hc).2 hget,
    fun d hd channel hc conversion hset => ?_, fun topic payload item hitem => ?_⟩
  · have hmem : { topic := (discovery d).1, payload := PyJson.dumps (.obj (discovery d).2) } ∈
        (announce (buildDescriptions choices)).1 := by
      simp only [announce, List.mem_append, List.mem_map]
      exact .inl (.inr ⟨d, hd, rfl⟩)
    have hkept := hbroker.retains_unique before hmem fun q hq => announce_unique hmem hq
    rwa [if_neg (PyJson.dumps_obj _)] at hkept
  · have hmem : { topic, payload := "" } ∈ (announce (buildDescriptions choices)).1 := by
      simp only [announce, List.mem_append, List.mem_map]
      exact .inr ⟨topic, htopic, rfl⟩
    have hkept := hbroker.retains_unique before hmem fun q hq => announce_unique hmem hq
    rwa [if_pos rfl] at hkept
  · obtain ⟨hkey, hname⟩ := channel_slash hd hc
    obtain ⟨filter, hfilter, hcovers⟩ := commandTopic_subscribed hkey hname
    refine ⟨(discovery_topics hd hc).1 (by simp [hset]),
      ⟨filter, hfilter, hbroker.covered filter _ commandTopic_head hcovers⟩, fun payload => ?_⟩
    obtain ⟨route, hroute, hentity, hrouteName, hrouteSet⟩ := @routes_lookup python _ _ _ hd hc _ hset
    refine ⟨route, ?_, hentity, hrouteName, hrouteSet⟩
    rw [onMessage, if_neg (commandTopic_ne_status hkey hname), hroute]
  · unfold onMessage at hitem
    split at hitem
    · next htopic =>
      split at hitem
      · next hpayload => exact .inl ⟨htopic, hpayload, List.mem_singleton.mp hitem⟩
      · cases hitem
    · split at hitem
      · next route hroute =>
        obtain ⟨d, hd, channel, hc, -, htopic, hentity, hname⟩ := routes_mem hroute
        exact .inr ⟨d, hd, channel, hc, route, htopic, List.mem_singleton.mp hitem, hentity, hname⟩
      · cases hitem

/-- The last message on a topic, unless it is empty. -/
def lastMessage (published : List Publication) (topic : String) : Option String :=
  match (published.filter fun p => p.topic = topic).getLast? with
  | some p => if p.payload = "" then none else some p.payload
  | none => none

theorem lastMessage_broker : Broker lastMessage Covers := by
  refine ⟨fun published p topic => ?_, fun _ _ _ hcovers => hcovers⟩
  unfold lastMessage
  by_cases htopic : p.topic = topic
  · simp [htopic]
  · simp [htopic]

/-- The main light. -/
theorem announced_and_routed_light :
    lastMessage (announce (buildDescriptions [])).1 (discovery lampe[0]).1 =
        some (PyJson.dumps (.obj (discovery lampe[0]).2)) ∧
      ∃ filter ∈ subscriptions, Covers filter (commandTopic "light" "") := by
  obtain ⟨hkept, -, -, hcommands, -⟩ := announced_and_routed lastMessage_broker ⟨PyFloat.ofText, id⟩ [] []
  have hlight : lampe[0] ∈ buildDescriptions [] := by simp [buildDescriptions, lampe]
  exact ⟨hkept _ hlight, (hcommands _ hlight _ List.mem_cons_self _ rfl).2.1⟩

end AmlService.Channels
