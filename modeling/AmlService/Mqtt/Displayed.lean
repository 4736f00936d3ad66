import AmlService.Mqtt.Publishing

/-!
# AmlService.Mqtt.Displayed

**What Home Assistant shows, over a whole run of the bridge**: on every topic of a state, the
last value published is what the bridge reads in the states it read last (`run_displays`); the
AML is told to be there if and only if the service said so last; and nothing is published twice
in a row (`run_recorded`).

A reading depends on its group only, and publishing it does not disturb what the other topics
show. So a group that is published after it has changed is shown, and the other groups stay.
-/

namespace AmlService

open Effect Channels

/-! ### What a reading depends on -/

namespace Channels

/-- The group a reading looks at. -/
def Getter.group : Getter → Option String
  | .onOff path | .text path | .orNone path | .phase path => path.head?
  | .day _ _ | .nextAlarm => some "Alarm"
  | .clock => some "status"

/-- Whether a reading depends on the time. -/
def Getter.timed : Getter → Bool
  | .clock => true
  | _ => false

theorem valueIn_congr {cache cache' : JsonValue} {group : String} (h : cache.get? group = cache'.get? group)
    {path : List String} (hpath : path.head? = some group) : valueIn cache path = valueIn cache' path := by
  obtain ⟨first, rest⟩ : ∃ rest, path = group :: rest := by
    cases path with
    | nil => cases hpath
    | cons first rest => exact ⟨rest, by rw [Option.some.inj hpath]⟩
  subst rest
  simp only [valueIn, h]

/-- **A reading depends on its group only**, and not on when it is made. -/
theorem Getter.get_congr (py : PyValues) {getter : Getter} {group : String} {cache cache' : JsonValue}
    (hgroup : getter.group = some group) (htimed : getter.timed = false)
    (h : cache.get? group = cache'.get? group) (reads reads' : Nat) :
    getter.get py reads cache = getter.get py reads' cache' := by
  cases getter with
  | onOff path | text path | orNone path | phase path =>
    have hvalue := valueIn_congr h hgroup
    simp only [Getter.get, hvalue]
  | day number bit =>
    obtain rfl := Option.some.inj hgroup
    have hvalue : valueIn cache ["Alarm", toString number, "days"] =
        valueIn cache' ["Alarm", toString number, "days"] := valueIn_congr h rfl
    simp only [Getter.get, dayState, hvalue]
  | nextAlarm =>
    obtain rfl := Option.some.inj hgroup
    have hentries : alarmEntries cache = alarmEntries cache' := by
      funext n
      have hvalue : valueIn cache ["Alarm", n] = valueIn cache' ["Alarm", n] := valueIn_congr h rfl
      simp only [alarmEntries, hvalue]
    simp only [Getter.get, Channels.nextAlarm, hentries]
  | clock => cases htimed

end Channels

namespace Publisher

/-! ### The last message of a topic -/

/-- The last message, on a topic, after one more emission. -/
def onTopic (topic : String) (last : Option String) : Emission → Option String
  | .message t payload => if t = topic then some payload else last
  | .removed t => if t = topic then none else last
  | .cleared => last

/-- The same, when what was published is forgotten. -/
def since (topic : String) (last : Option String) : Emission → Option String
  | .message t payload => if t = topic then some payload else last
  | .removed t => if t = topic then none else last
  | .cleared => none

/-- What is shown on a topic: the last message, retained by the broker. -/
def shown (emissions : List Emission) (topic : String) : Option String :=
  emissions.foldl (onTopic topic) none

/-- The last message on a topic, since `published` was cleared. -/
def sinceCleared (emissions : List Emission) (topic : String) : Option String :=
  emissions.foldl (since topic) none

@[simp] theorem shown_message (emissions : List Emission) (t payload topic : String) :
    shown (emissions ++ [.message t payload]) topic = if t = topic then some payload else shown emissions topic := by
  simp [shown, onTopic]

@[simp] theorem shown_cleared (emissions : List Emission) (topic : String) :
    shown (emissions ++ [.cleared]) topic = shown emissions topic := by
  simp [shown, onTopic]

@[simp] theorem sinceCleared_message (emissions : List Emission) (t payload topic : String) :
    sinceCleared (emissions ++ [.message t payload]) topic =
      if t = topic then some payload else sinceCleared emissions topic := by
  simp [sinceCleared, since]

@[simp] theorem sinceCleared_cleared (emissions : List Emission) (topic : String) :
    sinceCleared (emissions ++ [.cleared]) topic = none := by
  simp [sinceCleared, since]

theorem shown_of_sinceCleared {emissions : List Emission} {topic payload : String} :
    sinceCleared emissions topic = some payload → shown emissions topic = some payload := by
  induction emissions using List.reverseRecOn with
  | nil =>
    intro h
    cases h
  | append_singleton emissions last ih =>
    cases last with
    | message t value =>
      rw [sinceCleared_message, shown_message]
      split
      · exact fun h => h
      · exact ih
    | removed t =>
      simp only [sinceCleared, Publisher.shown, List.foldl_append, List.foldl_cons, List.foldl_nil, since, onTopic]
      split
      · exact fun h => h
      · exact ih
    | cleared =>
      intro h
      rw [sinceCleared_cleared] at h
      cases h

/-- **`published` is right**: it holds the last message of each topic since it was cleared, and
each message differs from the one before it on its topic. -/
structure Recorded {σ : Type} (p : Publisher σ) : Prop where
  published : ∀ topic, p.published.lookup topic = sinceCleared p.emissions topic
  fresh : ∀ before topic payload after, p.emissions = before ++ .message topic payload :: after →
    sinceCleared before topic ≠ some payload

section Recorded

variable {σ : Type} {p q : Publisher σ} {topic payload : String}

theorem Recorded.start (service : σ) : Recorded (Publisher.start service) := by
  refine ⟨fun _ => rfl, ?_⟩
  intro before topic payload after h
  have hnil : [] = before ++ Emission.message topic payload :: after := h
  simp at hnil

theorem Recorded.same (h : Recorded p) (hpublished : q.published = p.published)
    (hemissions : q.emissions = p.emissions) : Recorded q := by
  refine ⟨?_, ?_⟩
  · rw [hpublished, hemissions]
    exact h.published
  · rw [hemissions]
    exact h.fresh

theorem Recorded.shown (h : Recorded p) (hpublished : p.published.lookup topic = some payload) :
    shown p.emissions topic = some payload :=
  shown_of_sinceCleared ((h.published topic).symm.trans hpublished)

theorem Recorded.clear (h : Recorded p) :
    Recorded { p with published := [], emissions := p.emissions ++ [.cleared] } := by
  refine ⟨fun topic => by simp, ?_⟩
  intro before topic payload after heq
  rcases List.eq_nil_or_concat after with rfl | ⟨after, last, rfl⟩
  · have hlast := List.append_inj_right' heq rfl
    cases hlast
  · have hsplit : p.emissions ++ [.cleared] = (before ++ .message topic payload :: after) ++ [last] := by
      simpa using heq
    exact h.fresh before topic payload after (List.append_inj_left' hsplit rfl)

theorem Recorded.message (h : Recorded p) (hnew : p.published.lookup topic ≠ some payload) :
    Recorded { p with
      published := dictSet topic payload p.published
      emissions := p.emissions ++ [.message topic payload] } := by
  refine ⟨?_, ?_⟩
  · intro t
    simp only [lookup_dictSet, sinceCleared_message, h.published t]
  · intro before t value after heq
    rcases List.eq_nil_or_concat after with rfl | ⟨after, last, rfl⟩
    · have hlast := List.append_inj_right' heq rfl
      have hbefore := List.append_inj_left' heq rfl
      obtain ⟨rfl, rfl⟩ : topic = t ∧ payload = value := by simpa using hlast
      rw [← hbefore, ← h.published]
      exact hnew
    · have hsplit : p.emissions ++ [.message topic payload] = (before ++ .message t value :: after) ++ [last] := by
        simpa using heq
      exact h.fresh before t value after (List.append_inj_left' hsplit rfl)

/-- What `publish` does: the payload is shown on its topic, and nothing else changes. -/
theorem publish_spec (h : Recorded p) (topic payload : String) :
    ∃ q, publish topic payload p = (.ok (), q) ∧ q.bridge = p.bridge ∧ Recorded q ∧
      ∀ t, Publisher.shown q.emissions t = if topic = t then some payload else Publisher.shown p.emissions t := by
  by_cases hnew : p.published.lookup topic ≠ some payload
  · have hrun : publish topic payload p = (.ok (), { p with
        published := dictSet topic payload p.published
        emissions := p.emissions ++ [.message topic payload] }) :=
      congrArg (Prod.mk (Except.ok ())) (if_pos hnew)
    exact ⟨_, hrun, rfl, h.message hnew, fun t => shown_message _ _ _ _⟩
  · have hrun : publish topic payload p = (.ok (), p) := congrArg (Prod.mk (Except.ok ())) (if_neg hnew)
    refine ⟨p, hrun, rfl, h, fun t => ?_⟩
    split
    · next heq =>
      subst heq
      exact h.shown (not_not.mp hnew)
    · rfl

end Recorded

/-! ### What the topics should show -/

section Tells

variable (py : PyValues) (entities : List Description)

/-- A channel that gives a value, whatever the time. -/
def ChannelTells (cache : JsonValue) (key : String) (channel : String × Channels.Channel)
    (topic value : String) : Prop :=
  ∃ getter, channel.2.get = some getter ∧ topic = stateTopic key channel.1 ∧
    ∃ reads, getter.get py reads cache = .ok (some value)

/-- **What the entities of a group say**: one of them reads the value, and shows it on the topic.
Those whose value changes with the time are left out. -/
def Tells (cache : JsonValue) (group topic value : String) : Prop :=
  ∃ d ∈ entities, d.live = false ∧ d.group = some group ∧
    ∃ channel ∈ d.channels, ChannelTells py cache d.key channel topic value

/-- What the entities say whose value changes with the time. -/
def LiveTells (cache : JsonValue) (topic value : String) : Prop :=
  ∃ d ∈ entities, d.live = true ∧ ∃ channel ∈ d.channels, ChannelTells py cache d.key channel topic value

end Tells

/-! ### The table -/

/-- What an entity reads. -/
structure Readings where
  group : Option String
  live : Bool
  getters : List (Option Getter)

def readings (d : Description) : Readings where
  group := d.group
  live := d.live
  getters := d.channels.map fun channel => channel.2.get

theorem readings_fit : ∀ r ∈ (buildDescriptions []).map readings, ∀ get ∈ r.getters,
    (∀ getter ∈ get, getter.group = r.group ∧ r.live = getter.timed) ∧ (r.live = true → get.isSome = true) := by
  decide +kernel

section Table

variable {choices : Choices} {d d' : Description} {channel channel' : String × Channels.Channel}
  {getter : Getter}

theorem buildDescriptions_readings : (buildDescriptions choices).map readings = (buildDescriptions []).map readings :=
  rfl

/-- A channel reads in the group of its entity; the entities that change with the time read the
clock. -/
theorem getter_fits (hd : d ∈ buildDescriptions choices) (hchannel : channel ∈ d.channels) :
    (∀ getter, channel.2.get = some getter → getter.group = d.group ∧ d.live = getter.timed) ∧
      (d.live = true → channel.2.get.isSome = true) := by
  have hmem : readings d ∈ (buildDescriptions choices).map readings := List.mem_map_of_mem hd
  rw [buildDescriptions_readings] at hmem
  exact readings_fit _ hmem _ (List.mem_map_of_mem hchannel)

/-- **A live entity reads the clock**, which has always something to show. -/
theorem live_clock (hd : d ∈ buildDescriptions choices) (hlive : d.live = true) (hchannel : channel ∈ d.channels) :
    channel.2.get = some .clock ∧ ∀ py reads cache, Getter.clock.get py reads cache ≠ .ok none := by
  obtain ⟨hfits, hsome⟩ := getter_fits hd hchannel
  obtain ⟨getter, hget⟩ := Option.isSome_iff_exists.mp (hsome hlive)
  have htimed := (hfits getter hget).2
  rw [hlive] at htimed
  constructor
  · cases getter <;> first | exact hget | cases htimed
  · intro py reads cache h
    simp only [Getter.get] at h
    cases hclock : amlClock py reads cache <;> rw [hclock] at h <;> cases h

theorem channelNames_state : ∀ a ∈ channelNames, ∀ b ∈ channelNames,
    (if a = "" then "state" else a) = (if b = "" then "state" else b) → a = b := by
  decide

theorem stateTopic_injective (hd : d ∈ buildDescriptions choices) (hd' : d' ∈ buildDescriptions choices)
    (hchannel : channel ∈ d.channels) (hchannel' : channel' ∈ d'.channels)
    (htopic : stateTopic d.key channel.1 = stateTopic d'.key channel'.1) : d = d' ∧ channel.1 = channel'.1 := by
  obtain ⟨hkey, hname⟩ := channel_slash hd hchannel
  obtain ⟨hkey', hname'⟩ := channel_slash hd' hchannel'
  have hlevels := congrArg levels htopic
  rw [levels_stateTopic hkey hname, levels_stateTopic hkey' hname'] at hlevels
  simp only [List.cons.injEq, true_and, and_true] at hlevels
  refine ⟨eq_of_key hd hd' hlevels.1, ?_⟩
  exact channelNames_state _ (description_channels hd _ hchannel) _ (description_channels hd' _ hchannel') hlevels.2

theorem stateTopic_ne_amlTopic (hd : d ∈ buildDescriptions choices) (hchannel : channel ∈ d.channels) :
    stateTopic d.key channel.1 ≠ amlTopic := by
  intro heq
  have hlevels : levels amlTopic = ["sweetdawn", "aml005", "status"] := by decide +kernel
  obtain ⟨hkey, hname⟩ := channel_slash hd hchannel
  rw [← heq, levels_stateTopic hkey hname] at hlevels
  simp at hlevels

/-- A channel has one name. -/
theorem channel_eq (hd : d ∈ buildDescriptions choices) (hchannel : channel ∈ d.channels)
    (hchannel' : channel' ∈ d.channels) (hname : channel.1 = channel'.1) : channel = channel' :=
  List.inj_on_of_nodup_map (buildDescriptions_fits d hd).nodup hchannel hchannel' hname

end Table

section Tells

variable {py : PyValues} {choices : Choices} {cache cache' : JsonValue} {group group' topic value value' : String}

/-- **One value for each topic.** -/
theorem Tells.unique (h : Tells py (buildDescriptions choices) cache group topic value)
    (h' : Tells py (buildDescriptions choices) cache group' topic value') : value = value' := by
  obtain ⟨d, hd, hlive, hgroup, channel, hchannel, getter, hget, htopic, reads, hvalue⟩ := h
  obtain ⟨d', hd', -, -, channel', hchannel', getter', hget', htopic', reads', hvalue'⟩ := h'
  obtain ⟨rfl, hname⟩ := stateTopic_injective hd hd' hchannel hchannel' (htopic.symm.trans htopic')
  obtain rfl := channel_eq hd hchannel hchannel' hname
  obtain rfl := Option.some.inj (hget.symm.trans hget')
  obtain ⟨hwithin, htimed⟩ := (getter_fits hd hchannel).1 getter hget
  rw [Getter.get_congr py (hwithin.trans hgroup) (htimed.symm.trans hlive) rfl reads reads'] at hvalue
  exact Option.some.inj (Except.ok.inj (hvalue.symm.trans hvalue'))

/-- What a group says depends on its states only. -/
theorem Tells.congr (h : Tells py (buildDescriptions choices) cache group topic value)
    (hcache : cache.get? group = cache'.get? group) :
    Tells py (buildDescriptions choices) cache' group topic value := by
  obtain ⟨d, hd, hlive, hgroup, channel, hchannel, getter, hget, htopic, reads, hvalue⟩ := h
  refine ⟨d, hd, hlive, hgroup, channel, hchannel, getter, hget, htopic, reads, ?_⟩
  obtain ⟨hwithin, htimed⟩ := (getter_fits hd hchannel).1 getter hget
  rw [← Getter.get_congr py (hwithin.trans hgroup) (htimed.symm.trans hlive) hcache reads reads]
  exact hvalue

/-- The topics of the states are not the one of the AML. -/
theorem Tells.ne_amlTopic (h : Tells py (buildDescriptions choices) cache group topic value) : topic ≠ amlTopic := by
  obtain ⟨d, hd, -, -, channel, hchannel, getter, -, htopic, -⟩ := h
  rw [htopic]
  exact stateTopic_ne_amlTopic hd hchannel

theorem LiveTells.ne_amlTopic (h : LiveTells py (buildDescriptions choices) cache topic value) : topic ≠ amlTopic := by
  obtain ⟨d, hd, -, channel, hchannel, getter, -, htopic, -⟩ := h
  rw [htopic]
  exact stateTopic_ne_amlTopic hd hchannel

/-- The topics of the values that change with the time are others. -/
theorem Tells.not_live (h : Tells py (buildDescriptions choices) cache group topic value) :
    ¬ LiveTells py (buildDescriptions choices) cache' topic value' := by
  intro h'
  obtain ⟨d, hd, hlive, -, channel, hchannel, getter, -, htopic, -⟩ := h
  obtain ⟨d', hd', hlive', channel', hchannel', getter', -, htopic', -⟩ := h'
  obtain ⟨rfl, -⟩ := stateTopic_injective hd hd' hchannel hchannel' (htopic.symm.trans htopic')
  rw [hlive] at hlive'
  cases hlive'

end Tells

/-! ### Publishing a group -/

section Progress

variable {σ : Type} {py : PyValues} {choices : Choices}

/-- How far the bridge is with publishing what it reads, from a state on: what was shown and
should be is still shown, and so is what is `done`. -/
structure Progress (py : PyValues) (choices : Choices) (p : Publisher σ) (done : String → String → Prop)
    (q : Publisher σ) : Prop where
  bridge : q.bridge = p.bridge
  recorded : Recorded q
  aml : shown q.emissions amlTopic = shown p.emissions amlTopic
  states : ∀ group topic value, Tells py (buildDescriptions choices) p.cache group topic value →
    (shown p.emissions topic = some value ∨ done topic value) → shown q.emissions topic = some value

variable {p q : Publisher σ} {done done' : String → String → Prop}

theorem cache_congr (h : q.bridge = p.bridge) : q.cache = p.cache := by
  unfold cache
  rw [h]

theorem Progress.start (h : Recorded p) : Progress py choices p (fun _ _ => False) p :=
  ⟨rfl, h, rfl, fun _ _ _ _ hdone => hdone.resolve_right id⟩

theorem Progress.mono (h : Progress py choices p done q) (hdone : ∀ group topic value,
    Tells py (buildDescriptions choices) p.cache group topic value → done' topic value → done topic value) :
    Progress py choices p done' q :=
  ⟨h.bridge, h.recorded, h.aml, fun group topic value htells hshown =>
    h.states group topic value htells (hshown.imp_right (hdone group topic value htells))⟩

/-- A value that nothing contradicts. -/
theorem publish_progress {topic value : String} (haml : topic ≠ amlTopic)
    (hagrees : ∀ group value', Tells py (buildDescriptions choices) p.cache group topic value' → value' = value) :
    Ensures (Progress py choices p done) (publish topic value)
      (fun _ => Progress py choices p fun t v => done t v ∨ t = topic) (fun _ => Recorded) := by
  intro q hq
  obtain ⟨q', hrun, hbridge, hrecorded, hshown⟩ := publish_spec hq.recorded topic value
  rw [hrun]
  refine ⟨hbridge.trans hq.bridge, hrecorded, ?_, ?_⟩
  · rw [hshown, if_neg haml, hq.aml]
  · intro group t v htells hdone
    rw [hshown]
    split
    · next heq =>
      subst heq
      rw [hagrees group v htells]
    · next hne =>
      refine hq.states group t v htells (hdone.imp_right fun h => h.resolve_right ?_)
      exact fun heq => hne heq.symm

/-- A reading of the bridge. -/
theorem getState_progress (getter : Getter) :
    Ensures (Progress py choices p done) (getState py getter : PublisherM σ (Option String))
      (fun value q => Progress py choices p done q ∧ ∃ reads, getter.get py reads p.cache = .ok value)
      (fun _ => Recorded) := by
  intro q hq
  have hcache : q.cache = p.cache := cache_congr hq.bridge
  unfold getState
  cases hget : getter.get py q.reads q.cache with
  | error e => exact hq.recorded
  | ok value =>
    rw [hcache] at hget
    exact ⟨⟨hq.bridge, hq.recorded.same rfl rfl, hq.aml, hq.states⟩, q.reads, hget⟩

variable {d : Description} {group : String}

/-- **The channels of an entity**, one after the other. -/
theorem publishChannels_progress (hd : d ∈ buildDescriptions choices) (hgroup : d.group = some group)
    {channels : List (String × Channels.Channel)} (hchannels : ∀ channel ∈ channels, channel ∈ d.channels) :
    Ensures (Progress py choices p done) (publishChannels py d.key channels)
      (fun _ => Progress py choices p fun t v => done t v ∨
        d.live = false ∧ ∃ channel ∈ channels, ChannelTells py p.cache d.key channel t v)
      (fun _ => Recorded) := by
  induction channels generalizing done with
  | nil =>
    refine Ensures.pure fun q hq => hq.mono ?_
    intro _ _ _ _ h
    rcases h with h | ⟨-, channel, hmem, -⟩
    · exact h
    · cases hmem
  | cons channel channels ih =>
    obtain ⟨hchannel, hrest⟩ := List.forall_mem_cons.mp hchannels
    have ih := fun done => @ih done hrest
    -- what the first channel tells is done by `hfirst`
    have hmono : ∀ {more : String → String → Prop} {q : Publisher σ},
        (∀ topic value, d.live = false → ChannelTells py p.cache d.key channel topic value → more topic value) →
        (∀ topic value, done topic value → more topic value) →
        Progress py choices p (fun t v => more t v ∨
          d.live = false ∧ ∃ channel ∈ channels, ChannelTells py p.cache d.key channel t v) q →
        Progress py choices p (fun t v => done t v ∨
          d.live = false ∧ ∃ channel' ∈ channel :: channels, ChannelTells py p.cache d.key channel' t v) q := by
      intro more q hfirst hdone hq
      refine hq.mono ?_
      intro _ t v _ h
      rcases h with h | ⟨hlive, channel', hmem, htells⟩
      · exact .inl (hdone t v h)
      · rcases List.mem_cons.mp hmem with rfl | hmem
        · exact .inl (hfirst t v hlive htells)
        · exact .inr ⟨hlive, channel', hmem, htells⟩
    obtain ⟨name, get, set⟩ := channel
    cases get with
    | none =>
      refine (ih done).imp (fun _ h => h) (fun _ q hq => hmono ?_ (fun _ _ h => h) hq) (fun _ _ h => h)
      intro _ _ _ htells
      obtain ⟨getter, hget, -⟩ := htells
      cases hget
    | some getter =>
      obtain ⟨hwithin, htimed⟩ := (getter_fits hd hchannel).1 getter rfl
      refine (getState_progress getter).bind fun value => ?_
      intro q hq
      obtain ⟨hq, reads, hvalue⟩ := hq
      -- at another time, a value that does not depend on it is the same
      have hsame : d.live = false → ∀ {topic value'},
          ChannelTells py p.cache d.key (name, ⟨some getter, set⟩) topic value' → value = some value' := by
        intro hlive topic value' htells
        obtain ⟨getter', hget, -, reads', hvalue'⟩ := htells
        obtain rfl := Option.some.inj hget
        rw [Getter.get_congr py (hwithin.trans hgroup) (htimed.symm.trans hlive) rfl reads reads', hvalue'] at hvalue
        exact (Except.ok.inj hvalue).symm
      cases value with
      | none =>
        refine ((ih done).imp (fun _ h => h) (fun _ q hq => hmono ?_ (fun _ _ h => h) hq) (fun _ _ h => h)) q hq
        intro _ _ hlive htells
        cases hsame hlive htells
      | some value =>
        have htells : ChannelTells py p.cache d.key (name, ⟨some getter, set⟩) (stateTopic d.key name) value :=
          ⟨getter, rfl, rfl, reads, hvalue⟩
        have hagrees : ∀ group value', Tells py (buildDescriptions choices) p.cache group (stateTopic d.key name)
            value' → value' = value := by
          intro group' value' htells'
          cases hlive : d.live with
          | false => exact htells'.unique ⟨d, hd, hlive, hgroup, _, hchannel, htells⟩
          | true => exact absurd ⟨d, hd, hlive, _, hchannel, htells⟩ htells'.not_live
        have hpublish := @publish_progress σ py choices p done _ _ (stateTopic_ne_amlTopic hd hchannel) hagrees
        refine ((hpublish.bind fun _ => ih _).imp (fun _ h => h) (fun _ q hq => hmono ?_ ?_ hq) (fun _ _ h => h)) q hq
        · intro topic value' _ htells'
          obtain ⟨_, _, htopic, _⟩ := htells'
          exact .inr htopic
        · exact fun _ _ h => .inl h

/-- **A group that is published is shown**, and the others stay. -/
theorem publishGroup_progress {entities : List Description}
    (hentities : ∀ d ∈ entities, d ∈ buildDescriptions choices) :
    Ensures (Progress py choices p done) (publishEntities py group entities)
      (fun _ => Progress py choices p fun t v => done t v ∨ Tells py entities p.cache group t v)
      (fun _ => Recorded) := by
  induction entities generalizing done with
  | nil =>
    refine Ensures.pure fun q hq => hq.mono ?_
    intro _ _ _ _ h
    rcases h with h | ⟨d, hmem, -⟩
    · exact h
    · cases hmem
  | cons d entities ih =>
    obtain ⟨hd, hrest⟩ := List.forall_mem_cons.mp hentities
    unfold publishEntities
    refine Ensures.ite (fun hne => ?_) fun heq => ?_
    · refine (ih hrest).imp (fun _ h => h) (fun _ q hq => hq.mono ?_) (fun _ _ h => h)
      intro _ _ _ _ h
      refine h.imp_right fun htells => ?_
      obtain ⟨d', hmem, hlive, hgroup, htells⟩ := htells
      rcases List.mem_cons.mp hmem with rfl | hmem
      · exact absurd hgroup hne
      · exact ⟨d', hmem, hlive, hgroup, htells⟩
    · have hgroup := not_not.mp heq
      refine ((publishChannels_progress hd hgroup fun _ h => h).bind fun _ => ih hrest).imp (fun _ h => h)
        (fun _ q hq => hq.mono ?_) (fun _ _ h => h)
      intro _ _ _ _ h
      rcases h with h | ⟨d', hmem, hlive, hgroup', htells⟩
      · exact .inl (.inl h)
      · rcases List.mem_cons.mp hmem with rfl | hmem
        · exact .inl (.inr ⟨hlive, htells⟩)
        · exact .inr ⟨d', hmem, hlive, hgroup', htells⟩

/-! ### Publishing what changes with the time -/

/-- The topic shows a value of a live entity. -/
def ShowsLive (py : PyValues) (choices : Choices) (q : Publisher σ) (topic : String) : Prop :=
  ∃ value, LiveTells py (buildDescriptions choices) q.cache topic value ∧ shown q.emissions topic = some value

/-- How far the bridge is with publishing the live entities, whose topics are `done`. -/
structure LiveProgress (py : PyValues) (choices : Choices) (p : Publisher σ) (done : String → Prop)
    (q : Publisher σ) : Prop where
  progress : Progress py choices p (fun _ _ => False) q
  live : ∀ topic, done topic → ShowsLive py choices q topic

variable {doneLive : String → Prop}

theorem publish_live {topic value : String} (hlive : LiveTells py (buildDescriptions choices) p.cache topic value) :
    Ensures (LiveProgress py choices p doneLive) (publish topic value)
      (fun _ => LiveProgress py choices p fun t => doneLive t ∨ t = topic) (fun _ => Recorded) := by
  intro q hq
  have hagrees : ∀ group value', Tells py (buildDescriptions choices) p.cache group topic value' →
      value' = value := fun _ _ htells => absurd hlive htells.not_live
  have hprogress := @publish_progress σ py choices p (fun _ _ => False) _ _ hlive.ne_amlTopic hagrees q hq.progress
  obtain ⟨q', hrun, hbridge, hrecorded, hshown⟩ := publish_spec hq.progress.recorded topic value
  rw [hrun] at hprogress ⊢
  have hcache : q'.cache = q.cache := cache_congr hbridge
  have hstart : q.cache = p.cache := cache_congr hq.progress.bridge
  refine ⟨hprogress.mono fun _ _ _ _ h => .inl h, ?_⟩
  intro t ht
  unfold ShowsLive
  rw [hshown, hcache, hstart]
  by_cases heq : topic = t
  · subst heq
    exact ⟨value, hlive, if_pos rfl⟩
  · rw [if_neg heq, ← hstart]
    exact hq.live t (ht.resolve_right fun h => heq h.symm)

/-- A reading takes a time, and shows nothing. -/
theorem getState_live (getter : Getter) :
    Ensures (LiveProgress py choices p doneLive) (getState py getter)
      (fun value q => LiveProgress py choices p doneLive q ∧ ∃ reads, getter.get py reads p.cache = .ok value)
      (fun _ => Recorded) := by
  intro q hq
  have hprogress := @getState_progress _ py _ _ _ getter q hq.progress
  have hbridge : ∀ value q', getState py getter q = (.ok value, q') → q'.bridge = q.bridge ∧
      q'.emissions = q.emissions := by
    intro value q' h
    unfold getState at h
    split at h <;> cases h
    exact ⟨rfl, rfl⟩
  rcases hrun : getState py getter q with ⟨e | value, q'⟩ <;> rw [hrun] at hprogress
  · exact hprogress
  · obtain ⟨hprogress, hvalue⟩ := hprogress
    obtain ⟨hsame, hemissions⟩ := hbridge value q' hrun
    refine ⟨⟨hprogress, fun t ht => ?_⟩, hvalue⟩
    have h := hq.live t ht
    unfold ShowsLive cache at h ⊢
    rwa [hsame, hemissions]

/-- The channels of a live entity. -/
theorem publishLiveChannels_progress (hd : d ∈ buildDescriptions choices) (hlive : d.live = true)
    {channels : List (String × Channels.Channel)} (hchannels : ∀ channel ∈ channels, channel ∈ d.channels) :
    Ensures (LiveProgress py choices p doneLive) (publishLiveChannels py d.key channels)
      (fun _ => LiveProgress py choices p fun t => doneLive t ∨
        ∃ channel ∈ channels, t = stateTopic d.key channel.1)
      (fun _ => Recorded) := by
  induction channels generalizing doneLive with
  | nil =>
    refine Ensures.pure fun q hq => ⟨hq.progress, fun t ht => hq.live t (ht.resolve_right ?_)⟩
    intro h
    obtain ⟨_, hmem, -⟩ := h
    cases hmem
  | cons channel channels ih =>
    obtain ⟨hchannel, hrest⟩ := List.forall_mem_cons.mp hchannels
    obtain ⟨hclock, hsome⟩ := live_clock hd hlive hchannel
    obtain ⟨name, get, set⟩ := channel
    obtain rfl : get = some .clock := hclock
    refine (getState_live .clock).bind fun value => ?_
    intro q hq
    obtain ⟨hq, reads, hvalue⟩ := hq
    cases value with
    | none => exact absurd hvalue (hsome py reads p.cache)
    | some value =>
      have htells : LiveTells py (buildDescriptions choices) p.cache (stateTopic d.key name) value :=
        ⟨d, hd, hlive, _, hchannel, .clock, rfl, rfl, reads, hvalue⟩
      refine (((publish_live htells).bind fun _ => ih hrest).imp (fun _ h => h) (fun _ q hq => ?_) fun _ _ h => h)
        q hq
      refine ⟨hq.progress, fun t ht => hq.live t ?_⟩
      rcases ht with ht | ⟨channel, hmem, ht⟩
      · exact .inl (.inl ht)
      · rcases List.mem_cons.mp hmem with rfl | hmem
        · exact .inl (.inr ht)
        · exact .inr ⟨channel, hmem, ht⟩

theorem publishLiveEntities_progress {entities : List Description}
    (hentities : ∀ d ∈ entities, d ∈ buildDescriptions choices) :
    Ensures (LiveProgress py choices p doneLive) (publishLiveEntities py entities)
      (fun _ => LiveProgress py choices p fun t => doneLive t ∨
        ∃ d ∈ entities, d.live = true ∧ ∃ channel ∈ d.channels, t = stateTopic d.key channel.1)
      (fun _ => Recorded) := by
  induction entities generalizing doneLive with
  | nil =>
    refine Ensures.pure fun q hq => ⟨hq.progress, fun t ht => hq.live t (ht.resolve_right ?_)⟩
    intro h
    obtain ⟨_, hmem, -⟩ := h
    cases hmem
  | cons d entities ih =>
    obtain ⟨hd, hrest⟩ := List.forall_mem_cons.mp hentities
    unfold publishLiveEntities
    split
    · next hlive =>
      refine ((publishLiveChannels_progress hd hlive fun _ h => h).bind fun _ => ih hrest).imp (fun _ h => h)
        (fun _ q hq => ⟨hq.progress, fun t ht => hq.live t ?_⟩) (fun _ _ h => h)
      rcases ht with ht | ⟨d', hmem, hlive', htopic⟩
      · exact .inl (.inl ht)
      · rcases List.mem_cons.mp hmem with rfl | hmem
        · exact .inl (.inr htopic)
        · exact .inr ⟨d', hmem, hlive', htopic⟩
    · next hlive =>
      refine (ih hrest).imp (fun _ h => h) (fun _ q hq => ⟨hq.progress, fun t ht => hq.live t ?_⟩) (fun _ _ h => h)
      refine ht.imp_right fun h => ?_
      obtain ⟨d', hmem, hlive', htopic⟩ := h
      rcases List.mem_cons.mp hmem with rfl | hmem
      · exact absurd hlive' hlive
      · exact ⟨d', hmem, hlive', htopic⟩

end Progress

/-! ### What is displayed -/

section Displayed

variable {σ : Type} {py : PyValues} {choices : Choices} {request : ServiceRequest σ} {p q p' : Publisher σ}

/-- Whether the service said last that the AML is connected. -/
def connected (p : Publisher σ) : Bool := truthy (valueIn p.cache ["status", "connected"])

/-- **What Home Assistant shows is what was read last**: the AML is there if and only if the states
say that it is connected, and the entities of each group show what these states say. -/
structure Displayed (py : PyValues) (choices : Choices) (p : Publisher σ) : Prop where
  recorded : Recorded p
  available : shown p.emissions amlTopic = some "online" ↔ connected p = true
  states : ∀ group, (p.cache.get? group).isSome = true → ∀ topic value,
    Tells py (buildDescriptions choices) p.cache group topic value → shown p.emissions topic = some value

theorem Displayed.start (service : σ) : Displayed py choices (Publisher.start service) where
  recorded := .start service
  available := ⟨fun h => (by cases h), fun h => (by cases h)⟩
  states := fun _ h => (by cases h)

/-- What does not concern what is displayed. -/
theorem Displayed.same (h : Displayed py choices p) (hcache : q.bridge.cache = p.bridge.cache)
    (hpublished : q.published = p.published) (hemissions : q.emissions = p.emissions) :
    Displayed py choices q := by
  have hsame : q.cache = p.cache := by
    unfold cache
    rw [hcache]
  refine ⟨h.recorded.same hpublished hemissions, ?_, ?_⟩
  · unfold connected
    rw [hemissions, hsame]
    exact h.available
  · rw [hemissions, hsame]
    exact h.states

/-- What is shown stays when it is to be published again. -/
theorem Displayed.cleared (h : Displayed py choices p) : Displayed py choices { p with
    published := []
    emissions := p.emissions ++ [.cleared]
    bridge.nextPoll := 0 } := by
  refine ⟨h.recorded.clear.same rfl rfl, ?_, ?_⟩
  · rw [shown_cleared]
    exact h.available
  · intro group hgroup topic value htells
    rw [shown_cleared]
    exact h.states group hgroup topic value htells

/-- **Some groups have changed, and are published**: `p'` is the state with what changed, where
the availability is right already. -/
theorem Displayed.update (h : Displayed py choices p) {changed : String → Prop}
    (hstates : ∀ topic ≠ amlTopic, shown p'.emissions topic = shown p.emissions topic)
    (hother : ∀ group, ¬ changed group → p'.cache.get? group = p.cache.get? group)
    (havailable : shown p'.emissions amlTopic = some "online" ↔ connected p' = true)
    (hprogress : Progress py choices p'
      (fun t v => ∃ group, changed group ∧ Tells py (buildDescriptions choices) p'.cache group t v) q) :
    Displayed py choices q := by
  have hcache : q.cache = p'.cache := cache_congr hprogress.bridge
  refine ⟨hprogress.recorded, ?_, ?_⟩
  · unfold connected
    rw [hprogress.aml, hcache]
    exact havailable
  · intro group hgroup topic value htells
    rw [hcache] at hgroup htells
    refine hprogress.states group topic value htells ?_
    by_cases hchanged : changed group
    · exact .inr ⟨group, hchanged, htells⟩
    · have hsame := hother group hchanged
      rw [hsame] at hgroup
      rw [hstates topic htells.ne_amlTopic]
      exact .inl (h.states group hgroup topic value (htells.congr hsame))

/-! ### The loop -/

abbrev Shows {α : Type} (py : PyValues) (choices : Choices) (m : PublisherM σ α) : Prop :=
  Ensures (Displayed py choices) m (fun _ => Displayed py choices) (fun _ => Recorded)

theorem get_dictDel (key key' : String) (entries : List (String × JsonValue)) :
    (JsonValue.obj (dictDel key entries)).get? key' =
      if key = key' then none else (JsonValue.obj entries).get? key' := by
  simp only [JsonValue.get?]
  induction entries with
  | nil => by_cases h : key = key' <;> simp [dictDel, h]
  | cons entry entries ih =>
    unfold dictDel at ih ⊢
    by_cases hentry : entry.1 = key
    · rw [List.filter_cons_of_neg (by simp [hentry]), ih]
      by_cases h : key = key'
      · simp [h]
      · simp [h, hentry]
    · rw [List.filter_cons_of_pos (by simp [hentry])]
      by_cases hkey : entry.1 = key'
      · have hne : key ≠ key' := fun h => hentry (hkey.trans h.symm)
        simp [hkey, hne]
      · simpa [List.find?_cons, hkey] using ih

theorem connected_congr (h : q.cache.get? "status" = p.cache.get? "status") : connected q = connected p :=
  congrArg truthy (valueIn_congr h rfl)

@[simp] theorem get_put (group other : String) (value : JsonValue) (p : Publisher σ) :
    (put group value p).cache.get? other = if group = other then some value else p.cache.get? other :=
  get_dictSet group other value p.bridge.cache

/-- Nothing of what is published is touched. -/
theorem act_shows {f : Publisher σ → Publisher σ} (hcache : ∀ p, (f p).bridge.cache = p.bridge.cache)
    (hpublished : ∀ p, (f p).published = p.published) (hemissions : ∀ p, (f p).emissions = p.emissions) :
    Shows py choices (Fallible.act f) :=
  .act fun p hp => hp.same (hcache p) (hpublished p) (hemissions p)

theorem ofBridge_shows {α : Type} {m : BridgeM σ α} (hm : ∀ b, (m b).2.cache = b.cache) :
    Shows py choices (ofBridge m) := by
  intro p hp
  unfold ofBridge
  have hcache := hm p.bridge
  rcases hrun : m p.bridge with ⟨e | a, bridge⟩ <;> rw [hrun] at hcache
  · exact hp.recorded.same rfl rfl
  · exact hp.same hcache rfl rfl

/-- One group has changed, and is published. -/
theorem publishGroup_shows (hp : Displayed py choices p) {group : String} (hrecorded : Recorded p')
    (hstates : ∀ topic ≠ amlTopic, shown p'.emissions topic = shown p.emissions topic)
    (hother : ∀ other ≠ group, p'.cache.get? other = p.cache.get? other)
    (havailable : shown p'.emissions amlTopic = some "online" ↔ connected p' = true) :
    Ensures (fun q => q = p') (publishGroup py (buildDescriptions choices) group)
      (fun _ => Displayed py choices) (fun _ => Recorded) := by
  have hstart : ∀ q, q = p' → Progress py choices p' (fun _ _ => False) q := by
    intro q hq
    subst hq
    exact .start hrecorded
  refine (publishGroup_progress fun _ h => h).imp hstart (fun _ q hq => ?_) (fun _ _ h => h)
  refine @Displayed.update _ _ _ _ _ _ hp (fun other => other = group) hstates hother havailable (hq.mono ?_)
  intro _ _ _ _ h
  obtain ⟨other, rfl, htells⟩ := h
  exact .inr htells

/-- What `refresh` does with what the service answers. -/
theorem keep_shows (group : String) (result : JsonValue) :
    Shows py choices (keep py (buildDescriptions choices) group result : PublisherM σ Unit) := by
  intro p hp
  unfold keep
  rw [bind_run_ok (rfl : Fallible.act _ p = (.ok (), put group result p))]
  have hrecorded : Recorded (put group result p) := hp.recorded.same rfl rfl
  have hother : ∀ other ≠ group, (put group result p).cache.get? other = p.cache.get? other := by
    intro other hne
    rw [get_put, if_neg hne.symm]
  by_cases hstatus : group = "status"
  · subst hstatus
    rw [if_pos (by rfl)]
    cases result with
    | obj fields =>
      have hrun : ofBridge (dictGet (.obj fields) "connected" (.bool false)) (put "status" (.obj fields) p) =
          (.ok (((JsonValue.obj fields).get? "connected").getD (.bool false)), put "status" (.obj fields) p) := rfl
      have hconnected : truthy (((JsonValue.obj fields).get? "connected").getD (.bool false)) =
          connected (put "status" (.obj fields) p) := by
        simp only [connected, valueIn, get_put, if_true]
        cases (JsonValue.obj fields).get? "connected" <;> rfl
      obtain ⟨q, hpublish, hbridge, hrecorded, hshown⟩ :=
        publish_spec hrecorded amlTopic (if connected (put "status" (.obj fields) p) then "online" else "offline")
      have hcache : q.cache = (put "status" (.obj fields) p).cache := cache_congr hbridge
      rw [bind_run_ok hrun, hconnected, bind_run_ok hpublish]
      refine publishGroup_shows hp hrecorded ?_ ?_ ?_ q rfl
      · intro topic hne
        rw [hshown, if_neg hne.symm]
        rfl
      · rw [hcache]
        exact hother
      · rw [hshown, if_pos rfl, connected_congr (congrArg (·.get? "status") hcache)]
        cases connected (put "status" (.obj fields) p) <;> simp
    | _ => exact hrecorded
  · rw [if_neg (by simpa using hstatus)]
    refine publishGroup_shows hp hrecorded (fun _ _ => rfl) hother ?_ _ rfl
    rw [connected_congr (hother "status" (Ne.symm hstatus))]
    exact hp.available

/-- **`refresh`**: the service answers, refuses, or cannot be reached. -/
theorem refresh_shows (group : String) : Shows py choices (refresh py (buildDescriptions choices) request group) := by
  intro p hp
  unfold refresh
  have hcache : (Bridge.serviceRequest request group none p.bridge).2.cache = p.bridge.cache := rfl
  rcases hrun : Bridge.serviceRequest request group none p.bridge with ⟨e | result, bridge⟩ <;> rw [hrun] at hcache
  · have hsame : Displayed py choices { p with bridge } := hp.same hcache rfl rfl
    cases e with
    | serviceError code message => exact hsame
    | osError message =>
      -- the states are forgotten, and the AML is not there
      dsimp only
      generalize hgone :
        ({ p with bridge := { bridge with cache := dictDel "status" bridge.cache } } : Publisher σ) = p'
      have hrecorded : Recorded p' := hgone ▸ hp.recorded.same rfl rfl
      have hget : ∀ other, p'.cache.get? other = if "status" = other then none else p.cache.get? other := by
        intro other
        rw [← hgone]
        show (JsonValue.obj (dictDel "status" bridge.cache)).get? other = _
        rw [get_dictDel, hcache]
        rfl
      have hemissions : p'.emissions = p.emissions := by
        rw [← hgone]
      obtain ⟨q, hpublish, hbridge, hrecorded, hshown⟩ := publish_spec hrecorded amlTopic "offline"
      rw [hpublish]
      have hqcache : q.cache = p'.cache := cache_congr hbridge
      refine ⟨hrecorded, ?_, ?_⟩
      · have hnot : connected q = false := by
          simp only [connected, valueIn, hqcache, hget, if_true]
          rfl
        rw [hshown, if_pos rfl, hnot]
        decide
      · intro other hother topic value htells
        rw [hqcache] at hother htells
        rw [hshown, if_neg htells.ne_amlTopic.symm, hemissions]
        have hne : ¬ "status" = other := by
          intro heq
          rw [hget, if_pos heq] at hother
          cases hother
        have hsame : p'.cache.get? other = p.cache.get? other := by
          rw [hget, if_neg hne]
        rw [hsame] at hother
        exact hp.states other hother topic value (htells.congr hsame)
    | _ => exact hsame.recorded
  · exact keep_shows group result _ (hp.same hcache rfl rfl)

theorem alreadyOn_shows (entity : Entity) :
    Shows py choices (alreadyOn py (buildDescriptions choices) request entity) :=
  .bind (refresh_shows _) fun _ => .get fun _ => .pure fun _ h => h.1

/-- A part of the bridge that leaves the states alone. -/
abbrev Leaves {α : Type} (states : List (String × JsonValue)) (m : BridgeM σ α) : Prop :=
  Ensures (fun b => b.cache = states) m (fun _ b => b.cache = states) (fun _ b => b.cache = states)

theorem sendAll_leaves (commands : List (String × Option String)) (states : List (String × JsonValue)) :
    Leaves states (Bridge.sendAll request commands) := by
  induction commands with
  | nil => exact .pure fun _ h => h
  | cons first commands ih =>
    refine .bind (show Ensures _ _ (fun _ b => b.cache = states) _ from ?_) fun _ => ih
    intro b hb
    rw [serviceRequest_run]
    rcases (request first.1 first.2 b.service).1 with e | result <;> exact hb

theorem attempt_leaves {m : BridgeM σ Unit} {states : List (String × JsonValue)} (hm : Leaves states m) :
    Leaves states (Bridge.attempt m) := by
  intro b hb
  have hrun := hm b hb
  unfold Bridge.attempt
  rcases hmb : m b with ⟨e | _, b'⟩ <;> rw [hmb] at hrun
  · cases e <;> exact hrun
  · exact hrun

/-- The commands leave the states alone. -/
theorem send_leaves (route : Route) (payload : String) (now : Int) (states : List (String × JsonValue)) :
    Leaves states (Bridge.send request route payload now) := by
  refine .bind (attempt_leaves ?_) fun _ => ?_
  · refine .get fun b => Ensures.imp ?_ (fun _ h => h.1) (fun _ _ h => h) fun _ _ h => h
    cases route.set payload (.obj b.cache) with
    | ok commands => exact sendAll_leaves commands states
    | error e => exact .throw fun _ h => h
  · cases route.entity.group with
    | none => exact .pure fun _ h => h
    | some group => exact .act fun _ h => h

theorem execute_shows (route : Route) (payload : String) (now : Int) :
    Shows py choices (execute py (buildDescriptions choices) request route payload now) := by
  have hrest : ∀ skip : Bool, Shows py choices
      (if skip then return () else ofBridge (Bridge.send request route payload now)) := by
    intro skip
    cases skip with
    | true => exact .pure fun _ h => h
    | false => exact ofBridge_shows fun b => (send_leaves route payload now b.cache).snd rfl
  exact Ensures.ite (fun _ => .bind (alreadyOn_shows _) hrest) fun _ => .bind (.pure fun _ h => h) hrest

theorem get_eq_lookup (entries : List (String × JsonValue)) (key : String) :
    (JsonValue.obj entries).get? key = entries.lookup key := by
  simp only [JsonValue.get?]
  induction entries with
  | nil => rfl
  | cons entry entries ih =>
    obtain ⟨first, value⟩ := entry
    by_cases h : first = key
    · simp [h]
    · have hne : (key == first) = false := by simpa using Ne.symm h
      simpa [List.lookup_cons, List.find?_cons, h, hne] using ih

theorem connected_eq (p : Publisher σ) :
    connected p = truthy (valueIn ((p.cache.get? "status").getD (.obj [])) ["connected"]) := by
  unfold connected
  rw [valueIn]
  cases p.cache.get? "status" <;> rfl

/-- An alarm that changes: the other states of `status` stay. -/
theorem alarmState_shows {fields : List (String × JsonValue)} (hp : Displayed py choices p)
    (hstatus : (p.bridge.cache.lookup "status").getD (.obj []) = .obj fields) (data : JsonValue) :
    Ensures (fun q => q = p) (do
        Fallible.act (put "status" (.obj (dictSet "alarm_state" data fields)))
        publishGroup py (buildDescriptions choices) "status")
      (fun _ => Displayed py choices) (fun _ => Recorded) := by
  intro q hq
  subst hq
  rw [bind_run_ok (rfl : Fallible.act _ q = (.ok (), put "status" (.obj (dictSet "alarm_state" data fields)) q))]
  have hrecorded : Recorded (put "status" (.obj (dictSet "alarm_state" data fields)) q) := hp.recorded.same rfl rfl
  refine publishGroup_shows hp hrecorded (fun _ _ => rfl) ?_ ?_ _ rfl
  · intro other hne
    rw [get_put, if_neg hne.symm]
  · have hsame : connected (put "status" (.obj (dictSet "alarm_state" data fields)) q) = connected q := by
      rw [← get_eq_lookup] at hstatus
      rw [connected_eq, connected_eq q, get_put, if_pos rfl, Option.getD_some, valueIn_dictSet, if_neg (by decide)]
      exact congrArg (fun status => truthy (valueIn status ["connected"])) hstatus.symm
    rw [hsame]
    exact hp.available

/-- The lights that change: both groups come with the event. -/
theorem lightChanged_shows (fields : List (String × JsonValue)) :
    Shows py choices (do
      let light ← ofBridge (dictGet (.obj fields) "light" (.obj []))
      Fallible.act (put "Light" light)
      let mood ← ofBridge (dictGet (.obj fields) "mood" (.obj []))
      Fallible.act (put "Mood" mood)
      publishGroup py (buildDescriptions choices) "Light"
      publishGroup py (buildDescriptions choices) "Mood" : PublisherM σ Unit) := by
  intro p hp
  let field (key : String) := ((JsonValue.obj fields).get? key).getD (.obj [])
  have hget : ∀ key (q : Publisher σ), ofBridge (dictGet (.obj fields) key (.obj [])) q = (.ok (field key), q) :=
    fun _ _ => rfl
  let p' := put "Mood" (field "mood") (put "Light" (field "light") p)
  rw [bind_run_ok (hget "light" p), bind_run_ok (rfl : Fallible.act _ p = (.ok (), put "Light" (field "light") p)),
    bind_run_ok (hget "mood" _), bind_run_ok (rfl : Fallible.act _ _ = (.ok (), p'))]
  have hpublish : Ensures (Progress py choices p' fun _ _ => False) (do
      publishGroup py (buildDescriptions choices) "Light"
      publishGroup py (buildDescriptions choices) "Mood")
      (fun _ => Displayed py choices) (fun _ => Recorded) := by
    refine .bind (publishGroup_progress fun _ h => h) fun _ => ?_
    refine (publishGroup_progress fun _ h => h).imp (fun _ h => h) (fun _ q hq => ?_) (fun _ _ h => h)
    refine @Displayed.update _ _ _ _ _ p' hp (fun group => group = "Light" ∨ group = "Mood") (fun _ _ => rfl) ?_ ?_
      (hq.mono ?_)
    · intro group hgroup
      simp only [not_or] at hgroup
      rw [get_put, if_neg (Ne.symm hgroup.2), get_put, if_neg (Ne.symm hgroup.1)]
    · have hsame : connected p' = connected p := connected_congr (by simp [p'])
      rw [hsame]
      exact hp.available
    · intro _ _ _ _ h
      obtain ⟨group, rfl | rfl, htells⟩ := h
      · exact .inl (.inr htells)
      · exact .inr htells
  exact hpublish p' (.start (hp.recorded.same rfl rfl))

/-- **The events**: the states that came with one are put in the cache, and published. -/
theorem handleEvent_shows (message : JsonValue) :
    Shows py choices (handleEvent py (buildDescriptions choices) request message) := by
  unfold handleEvent
  generalize eventData message = data
  generalize message.get? "event" = event
  dsimp only
  split
  · intro p hp
    rw [bind_run_ok (get_run p)]
    cases hstatus : (p.bridge.cache.lookup "status").getD (.obj []) with
    | obj fields =>
      exact alarmState_shows hp hstatus data p rfl
    | _ => exact hp.recorded
  · cases data with
    | obj fields => exact lightChanged_shows fields
    | _ => exact fun p hp => hp.recorded
  · refine .bind (show Ensures _ _ (fun _ => Displayed py choices) _ from
      ofBridge_shows fun b => by cases data <;> rfl) fun timer => ?_
    rcases timerGroup timer with e | _ | group
    · exact .throw fun _ h => h.recorded
    · exact .pure fun _ h => h
    · exact refresh_shows group
  · exact .pure fun _ h => h

theorem refreshEach_shows (groups : List String) :
    Shows py choices (refreshEach py (buildDescriptions choices) request groups) := by
  induction groups with
  | nil => exact .pure fun _ h => h
  | cons group groups ih => exact .bind (refresh_shows group) fun _ => ih

theorem refreshAll_shows : Shows py choices (refreshAll py (buildDescriptions choices) request) := by
  refine .bind (refresh_shows _) fun _ => .get fun p => Ensures.imp ?_ (fun _ h => h.1) (fun _ _ h => h) fun _ _ h => h
  exact .ite (fun _ => refreshEach_shows groups) fun _ => .pure fun _ h => h

theorem refreshDueGroups_shows (now : Int) (due : List (String × Int)) :
    Shows py choices (refreshDueGroups py (buildDescriptions choices) request now due) := by
  induction due with
  | nil => exact .pure fun _ h => h
  | cons entry due ih =>
    refine .ite (fun _ => ?_) fun _ => ih
    exact .bind (act_shows (fun _ => rfl) (fun _ => rfl) fun _ => rfl) fun _ => .bind (refresh_shows _) fun _ => ih

theorem handle_shows (turn : Turn) :
    Shows py choices (handle py (buildDescriptions choices) request turn) := by
  obtain ⟨item, executed, now⟩ := turn
  cases item with
  | none => exact .pure fun _ h => h
  | some item =>
    cases item with
    | republish => exact .act fun p hp => hp.cleared
    | event message => exact handleEvent_shows message
    | command route payload => exact execute_shows route payload executed

theorem poll_shows (pollMs now : Int) :
    Shows py choices (poll py (buildDescriptions choices) request pollMs now) := by
  refine .get fun p => Ensures.imp ?_ (fun _ h => h.1) (fun _ _ h => h) fun _ _ h => h
  refine .ite (fun _ => ?_) fun _ => .pure fun _ h => h
  exact .bind refreshAll_shows fun _ => act_shows (fun _ => rfl) (fun _ => rfl) fun _ => rfl

/-- Every live entity shows a value. -/
def LiveShown (py : PyValues) (choices : Choices) (p : Publisher σ) : Prop :=
  ∀ d ∈ buildDescriptions choices, d.live = true → ∀ channel ∈ d.channels,
    ShowsLive py choices p (stateTopic d.key channel.1)

theorem publishLive_shows : Ensures (Displayed py choices) (publishLive py (buildDescriptions choices))
    (fun _ (p : Publisher σ) => Displayed py choices p ∧ LiveShown py choices p) (fun _ => Recorded) := by
  intro p hp
  have hlive := @publishLiveEntities_progress _ py choices p (fun _ => False) _
    (fun _ h => h) p ⟨.start hp.recorded, fun _ h => h.elim⟩
  unfold publishLive
  rcases hrun : publishLiveEntities py (buildDescriptions choices) p with ⟨e | _, q⟩ <;> rw [hrun] at hlive
  · exact hlive
  · refine ⟨@Displayed.update _ _ _ _ _ _ hp (fun _ => False) (fun _ _ => rfl) (fun _ _ => rfl) hp.available
      (hlive.progress.mono ?_), ?_⟩
    · intro _ _ _ _ h
      obtain ⟨_, hfalse, -⟩ := h
      exact hfalse
    · intro d hd hd' channel hchannel
      exact hlive.live _ (.inr ⟨d, hd, hd', channel, hchannel, rfl⟩)

/-- **One turn.** -/
theorem turn_shows (pollMs : Int) (first : Turn) :
    Ensures (Displayed py choices) (turn py (buildDescriptions choices) request pollMs first)
      (fun _ p => Displayed py choices p ∧ LiveShown py choices p) (fun _ => Recorded) := by
  refine .bind (handle_shows first) fun _ => .get fun p => ?_
  refine Ensures.imp ?_ (fun _ h => h.1) (fun _ _ h => h) fun _ _ h => h
  exact .bind (refreshDueGroups_shows _ _) fun _ => .bind (poll_shows _ _) fun _ => publishLive_shows

/-- Every turn leaves what is displayed right, and its live entities. -/
theorem run_shows (pollMs : Int) (turns : List Turn) :
    Ensures (Displayed py choices) (run py (buildDescriptions choices) request pollMs turns)
      (fun _ p => Displayed py choices p ∧ (turns ≠ [] → LiveShown py choices p)) (fun _ => Recorded) := by
  induction turns with
  | nil => exact .pure fun _ h => ⟨h, fun hne => absurd rfl hne⟩
  | cons first turns ih =>
    refine .bind (turn_shows pollMs first) fun _ p hp => ?_
    have hrest := ih p hp.1
    cases turns with
    | nil => exact ⟨hp.1, fun _ => hp.2⟩
    | cons second turns =>
      rcases hrun : run py (buildDescriptions choices) request pollMs (second :: turns) p with ⟨e | _, q⟩ <;>
        rw [hrun] at hrest
      · exact hrest
      · exact ⟨hrest.1, fun _ => hrest.2 (List.cons_ne_nil _ _)⟩

variable {service : σ} {pollMs : Int} {turns : List Turn}

/-- **`published` is right, in every run**, even one that an exception ends: it holds the last message
of each topic since it was cleared, and no message repeats the one before it on its topic, unless
`published` was cleared in between. -/
theorem run_recorded (py : PyValues) (choices : Choices) (request : ServiceRequest σ) (pollMs : Int)
    (turns : List Turn) (service : σ) :
    Recorded (run py (buildDescriptions choices) request pollMs turns (start service)).2 := by
  have hrun : Ensures (Displayed py choices) (run py (buildDescriptions choices) request pollMs turns)
      (fun _ => Recorded) (fun _ => Recorded) :=
    (run_shows pollMs turns).imp (fun _ h => h) (fun _ _ h => h.1.recorded) fun _ _ h => h
  exact hrun.snd (.start service)

/-- **What Home Assistant shows is what was read last**, after any turns of the loop. The AML is shown
as there if and only if the states read last say that it is connected; a group that was read, and
that is not forgotten, is shown as it was read; and what changes with the time shows one of the
values that it has. -/
theorem run_displays
    (h : run py (buildDescriptions choices) request pollMs turns (start service) = (.ok (), p)) :
    (shown p.emissions amlTopic = some "online" ↔ truthy (valueIn p.cache ["status", "connected"]) = true) ∧
      (∀ group, (p.cache.get? group).isSome = true → ∀ topic value,
        Tells py (buildDescriptions choices) p.cache group topic value → shown p.emissions topic = some value) ∧
      (turns ≠ [] → ∀ d ∈ buildDescriptions choices, d.live = true → ∀ channel ∈ d.channels,
        ∃ value, LiveTells py (buildDescriptions choices) p.cache (stateTopic d.key channel.1) value ∧
          shown p.emissions (stateTopic d.key channel.1) = some value) := by
  have hrun := (run_shows pollMs turns).ok (.start service) h
  exact ⟨hrun.1.available, hrun.1.states, hrun.2⟩

end Displayed

/-- Whole numbers in order, and a clock that stands still. -/
def plainValues : PyValues where
  str _ := ""
  lessThan
    | .int a, .int b => .ok (decide (a < b))
    | _, _ => .error .typeError
  clock _ _ := .ok "07:30"

/-- A service with a lamp that is on. -/
def lampService : ServiceRequest Unit := fun command _ service =>
  match command with
  | "status" => (.ok (.obj [("connected", .bool true)]), service)
  | "Light" => (.ok (.obj [("enable", .bool true), ("brightness", .int 40)]), service)
  | _ => (.error (.serviceError "aml_timeout" ""), service)

/-- One turn of a bridge with that service. -/
def lampRun : Except PublishError Unit × Publisher Unit :=
  run plainValues (buildDescriptions defaultChoices) lampService 30000 [⟨none, 0, 0⟩] (start ())

theorem run_displays_lamp : lampRun.1 = .ok () ∧ shown lampRun.2.emissions amlTopic = some "online" ∧
    shown lampRun.2.emissions (stateTopic "light" "brightness") = some "40" := by
  have hok : lampRun.1 = .ok () := by decide +kernel
  have hrun : lampRun = (.ok (), lampRun.2) := by rw [← hok]
  obtain ⟨haml, hstates, -⟩ := run_displays hrun
  have hconnected : truthy (valueIn lampRun.2.cache ["status", "connected"]) = true := by decide +kernel
  have hlight : (lampRun.2.cache.get? "Light").isSome = true := by decide +kernel
  have hvalue : (Getter.text ["Light", "brightness"]).get plainValues 0 lampRun.2.cache = .ok (some "40") := by
    decide +kernel
  refine ⟨hok, haml.mpr hconnected, hstates "Light" hlight _ _ ?_⟩
  refine ⟨(buildDescriptions defaultChoices)[0], List.getElem_mem _, rfl, rfl, ?_⟩
  exact ⟨_, List.mem_cons_of_mem _ List.mem_cons_self, _, rfl, rfl, 0, hvalue⟩

end Publisher

end AmlService
