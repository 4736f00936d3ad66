import AmlService.Core.Requests

/-!
# AmlService.Core.Control

One function for each operation of the AML005 (`core/control.c`): it lays out the
bytes of the command, sends it, and decodes the response if there is one. The null
pointers that the source refuses have no counterpart here.
-/

namespace AmlService

open Effect

variable {σ : Type}

/-- Bytes of the envelope around the data of a response. -/
abbrev frameOverhead : Nat := 12

abbrev radioSeekTimeoutMs : Int := 15000

abbrev alarmIndex1 : UInt8 := 0x01
abbrev alarmIndex2 : UInt8 := 0x07
abbrev alarmReadFlag : UInt8 := 0x80

/-- `demander`: the data of the response, at least `minData` bytes. -/
def demander (requestCode : UInt8) (arguments : List UInt8) (responseCode : UInt8)
    (timeoutMs : Int) (minData : Nat) : AmlM σ (List UInt8) := do
  let response ← envoyerRequete requestCode responseCode.toNat timeoutMs arguments
    amlProtocolMaxFrameSize
  if response.length < frameOverhead + minData then throw .protocol
  else return frameData response

/-- `envoyer`: a command the AML does not answer. -/
def envoyer (requestCode : UInt8) (arguments : List UInt8) : AmlM σ Unit := do
  let _ ← envoyerRequete requestCode sweetdawnNoResponse 0 arguments 0
  return ()

/-! ### Settings and clock -/

/-- The five settings, in the order of the settings reply. -/
def AmlState.bytes (settings : AmlState) : List UInt8 :=
  [settings.display, settings.date, settings.time, settings.feedback, settings.fade]

/-- `control_settings_write` -/
def controlSettingsWrite (settings : AmlState) : AmlM σ Unit := do
  let _ ← demander amlReqWriteSettings settings.bytes amlRspWriteSettings 0 0
  Fallible.act fun app => recordSettings app (stateUpdateSettings settings.display settings.date
    settings.time settings.feedback settings.fade) .settingsWritten

/-- A byte of a broken-down time: the cast keeps the low eight bits. -/
def tmByte (n : Int) : UInt8 := UInt8.ofInt n

/-- The eight bytes of the time command. -/
def timeBytes (now : Tm) : List UInt8 :=
  [tmByte now.sec, tmByte now.min, tmByte now.hour, tmByte now.wday, tmByte now.mday,
    tmByte (now.mon + 1), tmByte (now.year - 100), 0x02]

/-- `control_sync_time` -/
def controlSyncTime (now : Tm) : AmlM σ Unit :=
  -- before 2000 the year does not fit
  if now.year < 100 then throw .generic
  else do
    let _ ← demander amlReqSyncTime (timeBytes now) amlRspSyncTime 0 0
    return ()

/-! ### Lights -/

inductive ControlLightTarget
  | light
  | mood
  deriving Repr, DecidableEq

def ControlLightTarget.byte : ControlLightTarget → UInt8
  | .light => 1
  | .mood => 2

structure ControlLight where
  enable : Bool
  brightness : UInt8
  timerEnable : Bool
  timerMinutes : UInt8
  red : UInt8
  green : UInt8
  blue : UInt8
  scene : UInt8
  deriving Repr, DecidableEq

/-- The data of a light reply; color and scene only come with nine bytes. -/
def decodeLight (d : List UInt8) : ControlLight :=
  let full := decide (9 ≤ d.length)
  { enable := octet d 1 == 1
    brightness := octet d 2
    timerEnable := octet d 3 == 1
    timerMinutes := octet d 4
    red := if full then octet d 5 else 0
    green := if full then octet d 6 else 0
    blue := if full then octet d 7 else 0
    scene := if full then octet d 8 else 0 }

/-- `control_light_query` -/
def controlLightQuery (target : ControlLightTarget) : AmlM σ ControlLight := do
  let d ← demander amlReqLightQuery [target.byte] amlRspLightQuery 0 5
  if octet d 0 ≠ target.byte then throw .protocol
  else return decodeLight d

/-- `control_light_enable` -/
def controlLightEnable (target : ControlLightTarget) (enable : Bool) : AmlM σ Unit :=
  envoyer (if enable then amlReqLightOn else amlReqLightOff) [target.byte]

/-- `control_light_brightness` -/
def controlLightBrightness (target : ControlLightTarget) (brightness : UInt8) : AmlM σ Unit :=
  if brightness > 100 then throw .generic
  else envoyer amlReqLightBrightness [target.byte, brightness]

/-- `control_light_timer_enable` -/
def controlLightTimerEnable (target : ControlLightTarget) (enable : Bool) : AmlM σ Unit :=
  envoyer (if enable then amlReqLightTimerOn else amlReqLightTimerOff) [target.byte]

/-- `control_light_timer` -/
def controlLightTimer (target : ControlLightTarget) (minutes : UInt8) : AmlM σ Unit :=
  envoyer amlReqLightTimer [target.byte, minutes]

/-- `control_mood_color` -/
def controlMoodColor (red green blue : UInt8) : AmlM σ Unit :=
  envoyer amlReqMoodColor [red, green, blue]

/-- `control_mood_scene` -/
def controlMoodScene (scene : UInt8) : AmlM σ Unit := envoyer amlReqMoodScene [scene]

/-! ### Alarms -/

structure ControlAlarm where
  enable : Bool
  hour : UInt8
  minute : UInt8
  days : UInt8
  tone : UInt8
  volume : UInt8
  snooze : UInt8
  sunriseEnable : Bool
  sunriseMinutes : UInt8
  sunriseBrightness : UInt8
  deriving Repr, DecidableEq

/-- One of the two alarms: `0` is alarm 1. -/
abbrev Alarme := Fin 2

/-- So that `0` and `1` are alarms. -/
instance deuxAlarmes : @NeZero Nat Zero.ofOfNat0 2 := Nat.instNeZeroSucc

/-- `index_alarme`, for the two numbers that have an index. -/
def indexAlarme (number : Alarme) : UInt8 := if number = 0 then alarmIndex1 else alarmIndex2

/-- The data of an alarm reply; the minute comes before the hour. -/
def decodeAlarm (d : List UInt8) : ControlAlarm where
  enable := octet d 1 == 1
  minute := octet d 2
  hour := octet d 3
  days := octet d 4 &&& 0x7F
  tone := octet d 5
  volume := octet d 6
  snooze := octet d 7
  sunriseEnable := octet d 8 == 1
  sunriseMinutes := octet d 9
  sunriseBrightness := octet d 10

/-- `control_alarm_query` -/
def controlAlarmQuery (number : Alarme) : AmlM σ ControlAlarm := do
  let d ← demander amlReqAlarm [indexAlarme number ||| alarmReadFlag, 0x02] amlRspAlarm 0 11
  if octet d 0 &&& 0x7F ≠ indexAlarme number then throw .protocol
  else return decodeAlarm d

def boolByte (b : Bool) : UInt8 := if b then 1 else 0

/-- The payload of an alarm write, in the order of the reply. -/
def alarmBytes (number : Alarme) (alarm : ControlAlarm) : List UInt8 :=
  [indexAlarme number, boolByte alarm.enable, alarm.minute, alarm.hour, alarm.days &&& 0x7F,
    alarm.tone, alarm.volume, alarm.snooze, boolByte alarm.sunriseEnable, alarm.sunriseMinutes,
    alarm.sunriseBrightness]

/-- `control_alarm_write` -/
def controlAlarmWrite (number : Alarme) (alarm : ControlAlarm) : AmlM σ Unit :=
  if alarm.hour > 23 ∨ alarm.minute > 59 then throw .generic
  else do
    let _ ← demander amlReqAlarm (alarmBytes number alarm) amlRspAlarm 0 0
    return ()

/-- `control_alarm_status`: which alarm is in its sunrise, which one rings. -/
def controlAlarmStatus : AmlM σ (UInt8 × UInt8) := do
  let d ← demander amlReqAlarmStatus [] amlRspAlarmStatus 0 2
  return (octet d 0, octet d 1)

/-- `control_alarm_stop` -/
def controlAlarmStop : AmlM σ Unit := do
  let _ ← demander amlReqAlarmStop [] amlRspAlarmStop 0 0
  return ()

/-- `control_alarm_snooze` -/
def controlAlarmSnooze : AmlM σ Unit := do
  let _ ← demander amlReqAlarmSnooze [] amlRspAlarmSnooze 0 0
  return ()

/-! ### Radio and speaker -/

structure ControlRadio where
  enable : Bool
  channel : UInt8
  frequency : Nat
  volume : UInt8
  timerEnable : Bool
  timerMinutes : UInt8
  deriving Repr, DecidableEq

/-- Two bytes, the high one first. -/
def word (high low : UInt8) : Nat := high.toNat * 256 + low.toNat

/-- `control_radio_query` -/
def controlRadioQuery : AmlM σ ControlRadio := do
  let d ← demander amlReqRadioQuery [0x02] amlRspRadioQuery 0 7
  return { enable := octet d 0 == 1
           channel := octet d 1
           frequency := word (octet d 2) (octet d 3)
           volume := octet d 4
           timerEnable := octet d 5 == 1
           timerMinutes := octet d 6 }

/-- `control_radio_enable` -/
def controlRadioEnable (enable : Bool) : AmlM σ Unit := do
  let _ ← demander amlReqRadioEnable [boolByte enable] amlRspRadioEnable 0 0
  return ()

inductive ControlTune
  | tuneUp
  | tuneDown
  | seekUp
  | seekDown
  deriving Repr, DecidableEq

/-- `control_radio_tune`: the new frequency. -/
def controlRadioTune (direction : ControlTune) : AmlM σ Nat := do
  let seek := direction == .seekUp || direction == .seekDown
  let down := direction == .tuneDown || direction == .seekDown
  let d ← demander amlReqRadioTune [boolByte seek, boolByte down] amlRspRadioTune
    (if seek then radioSeekTimeoutMs else 0) 4
  return word (octet d 2) (octet d 3)

/-- `control_radio_preset` -/
def controlRadioPreset (channel : UInt8) : AmlM σ Unit :=
  if channel < 1 ∨ channel > 10 then throw .generic
  else do
    let _ ← demander amlReqRadioPreset [channel] amlRspRadioPreset 0 0
    return ()

/-- `control_radio_volume` -/
def controlRadioVolume (volume : UInt8) : AmlM σ Unit := envoyer amlReqRadioVolume [volume]

/-- `control_radio_timer_enable` -/
def controlRadioTimerEnable (enable : Bool) : AmlM σ Unit :=
  envoyer amlReqRadioTimerEnable [boolByte enable]

/-- `control_radio_timer` -/
def controlRadioTimer (minutes : UInt8) : AmlM σ Unit := envoyer amlReqRadioTimer [minutes]

/-- `control_speaker_enable`: only switching on is answered. -/
def controlSpeakerEnable (enable : Bool) : AmlM σ Unit :=
  if ¬ enable then envoyer amlReqSpeakerOff []
  else do
    let _ ← demander amlReqSpeakerOn [] amlRspSpeakerOn 0 0
    return ()

/-! ### What they do -/

section Specs

/-- A code the AML answers with. -/
abbrev Answers (responseCode : UInt8) : Prop := estEvenement (UInt8.ofInt responseCode.toNat) = false

theorem demander_talks (requestCode : UInt8) (arguments : List UInt8) {responseCode : UInt8}
    (hanswers : Answers responseCode) (timeoutMs : Int) (minData : Nat) :
    Keeps (Talks (· = requestCode))
      (demander requestCode arguments responseCode timeoutMs minData : AmlM σ (List UInt8)) :=
  .bind (envoyerRequete_talks hanswers timeoutMs arguments) fun _ =>
    .ite (fun _ => .throw _) fun _ => .pure _

/-- Checking the response leaves the application alone. -/
theorem demander_snd (requestCode : UInt8) (arguments : List UInt8) (responseCode : UInt8)
    (timeoutMs : Int) (minData : Nat) (app : SweetDawn σ) :
    (demander requestCode arguments responseCode timeoutMs minData app).2 =
      (envoyerRequete requestCode responseCode.toNat timeoutMs arguments amlProtocolMaxFrameSize app).2 :=
  bind_run_snd (fun _ _ => by split <;> rfl) app

/-- The exchange of a request that is answered. -/
theorem demander_requested {requestCode : UInt8} (arguments : List UInt8) {responseCode : UInt8}
    (hanswers : Answers responseCode) (timeoutMs : Int) (minData : Nat) (app : SweetDawn σ) :
    ∃ added r, Requested requestCode responseCode.toNat arguments added app
      (demander requestCode arguments responseCode timeoutMs minData app).2 r := by
  rcases hrequest : envoyerRequete requestCode responseCode.toNat timeoutMs arguments
    amlProtocolMaxFrameSize app with ⟨r, later⟩
  obtain ⟨added, hreq⟩ := envoyerRequete_requested (fun _ => Nat.le_refl _) hanswers hrequest
  refine ⟨added, r, ?_⟩
  rwa [demander_snd, hrequest]

/-- A response long enough was read. -/
theorem demander_inv {requestCode : UInt8} {arguments : List UInt8} {responseCode : UInt8}
    (hanswers : Answers responseCode) {timeoutMs : Int} {minData : Nat} {app app' : SweetDawn σ}
    {d : List UInt8}
    (h : demander requestCode arguments responseCode timeoutMs minData app = (.ok d, app')) :
    ∃ added response, Requested requestCode responseCode.toNat arguments added app app' (.ok response) ∧
      frameOverhead + minData ≤ response.length ∧ d = frameData response := by
  obtain ⟨response, later, hrequest, hcheck⟩ := bind_run_inv h
  obtain ⟨added, hreq⟩ := envoyerRequete_requested (fun _ => Nat.le_refl _) hanswers hrequest
  split at hcheck
  · cases hcheck
  · next hlength =>
    obtain ⟨hd, rfl⟩ := Prod.mk.inj hcheck
    cases hd
    exact ⟨added, response, hreq, Nat.not_lt.mp hlength, rfl⟩

/-- A code is not the absence of a response. -/
theorem code_expected (responseCode : UInt8) : (responseCode.toNat : Int) ≠ sweetdawnNoResponse := by
  show (responseCode.toNat : Int) ≠ -1
  omega

/-- One request goes out, and nothing else. -/
theorem demander_sent {requestCode : UInt8} {arguments : List UInt8} {responseCode : UInt8}
    (hanswers : Answers responseCode) {timeoutMs : Int} {minData : Nat} {app app' : SweetDawn σ}
    {d : List UInt8}
    (h : demander requestCode arguments responseCode timeoutMs minData app = (.ok d, app')) :
    ∃ before request after, Exchange (before ++ .sent request :: after) app app' ∧
      protocolBuildRequest requestCode arguments requestBufferSize = some request ∧
      SentCodes noCode before ∧ SentCodes noCode after := by
  obtain ⟨added, response, hreq, -, -⟩ := demander_inv hanswers h
  obtain ⟨hex, hdialogue, -⟩ := hreq
  generalize hresult : (Except.ok response : Except AmlErr (List UInt8)) = result at hdialogue
  cases hdialogue with
  | unsent _ => cases hresult
  | sent _ hno => exact absurd hno (code_expected responseCode)
  | waited hbuild _ hbefore hafter => exact ⟨_, _, _, hex, hbuild, hbefore, hafter⟩

theorem envoyer_talks (requestCode : UInt8) (arguments : List UInt8) :
    Keeps (Talks (· = requestCode)) (envoyer requestCode arguments : AmlM σ Unit) := by
  refine .bind (fun app => ?_) fun _ => .pure _
  obtain ⟨added, hreq⟩ := envoyerRequete_requested (fun hne => absurd rfl hne) (by decide)
    (rfl : envoyerRequete requestCode sweetdawnNoResponse 0 arguments 0 app = _)
  exact ⟨added, hreq.exchange, hreq.codes⟩

/-- Settings written are recorded. -/
theorem controlSettingsWrite_serves (settings : AmlState) :
    Keeps (Serves (· = amlReqWriteSettings)) (controlSettingsWrite settings : AmlM σ Unit) :=
  .bind ((demander_talks _ _ (by decide) 0 0).mono Talks.serves) fun _ =>
    .act fun app => recordSettings_serves (fun _ => .inr rfl) _ app _

/-- Settings written: one write goes out, and they are the settings held. -/
theorem controlSettingsWrite_ok {settings : AmlState} {app app' : SweetDawn σ}
    (h : controlSettingsWrite settings app = (.ok (), app')) :
    ∃ before request after, Served (before ++ .sent request :: after) app app' ∧
      protocolBuildRequest amlReqWriteSettings settings.bytes requestBufferSize = some request ∧
      SentCodes noCode before ∧ SentCodes noCode after ∧
      app'.state = stateUpdateSettings settings.display settings.date settings.time settings.feedback
        settings.fade := by
  obtain ⟨d, later, hwrite, hrecord⟩ := bind_run_inv h
  obtain ⟨before, request, after, hex, hbuild, hbefore, hafter⟩ := demander_sent (by decide) hwrite
  obtain ⟨-, rfl⟩ := Prod.mk.inj hrecord
  have hwhole := hex.toServed.trans
    (recordSettings_served (o := .settingsWritten) (fun _ => .inr rfl) later
      (stateUpdateSettings settings.display settings.date settings.time settings.feedback settings.fade))
  rw [List.append_assoc, List.cons_append] at hwhole
  exact ⟨before, request, _, hwhole, hbuild, hbefore, hafter.append fun r hr => by simp at hr, rfl⟩

theorem controlSyncTime_talks (now : Tm) :
    Keeps (Talks (· = amlReqSyncTime)) (controlSyncTime now : AmlM σ Unit) :=
  .ite (fun _ => .throw _) fun _ => .bind (demander_talks _ _ (by decide) 0 0) fun _ => .pure _

theorem controlLightQuery_talks (target : ControlLightTarget) :
    Keeps (Talks (· = amlReqLightQuery)) (controlLightQuery target : AmlM σ ControlLight) :=
  .bind (demander_talks _ _ (by decide) 0 5) fun _ => .ite (fun _ => .throw _) fun _ => .pure _

theorem controlLightEnable_talks (target : ControlLightTarget) (enable : Bool) :
    Keeps (Talks (· = if enable then amlReqLightOn else amlReqLightOff))
      (controlLightEnable target enable : AmlM σ Unit) :=
  envoyer_talks _ _

theorem controlLightBrightness_talks (target : ControlLightTarget) (brightness : UInt8) :
    Keeps (Talks (· = amlReqLightBrightness))
      (controlLightBrightness target brightness : AmlM σ Unit) :=
  .ite (fun _ => .throw _) fun _ => envoyer_talks _ _

theorem controlLightTimerEnable_talks (target : ControlLightTarget) (enable : Bool) :
    Keeps (Talks (· = if enable then amlReqLightTimerOn else amlReqLightTimerOff))
      (controlLightTimerEnable target enable : AmlM σ Unit) :=
  envoyer_talks _ _

theorem controlLightTimer_talks (target : ControlLightTarget) (minutes : UInt8) :
    Keeps (Talks (· = amlReqLightTimer)) (controlLightTimer target minutes : AmlM σ Unit) :=
  envoyer_talks _ _

theorem controlMoodColor_talks (red green blue : UInt8) :
    Keeps (Talks (· = amlReqMoodColor)) (controlMoodColor red green blue : AmlM σ Unit) :=
  envoyer_talks _ _

theorem controlMoodScene_talks (scene : UInt8) :
    Keeps (Talks (· = amlReqMoodScene)) (controlMoodScene scene : AmlM σ Unit) :=
  envoyer_talks _ _

theorem controlAlarmQuery_talks (number : Alarme) :
    Keeps (Talks (· = amlReqAlarm)) (controlAlarmQuery number : AmlM σ ControlAlarm) :=
  .bind (demander_talks _ _ (by decide) 0 11) fun _ => .ite (fun _ => .throw _) fun _ => .pure _

theorem controlAlarmWrite_talks (number : Alarme) (alarm : ControlAlarm) :
    Keeps (Talks (· = amlReqAlarm)) (controlAlarmWrite number alarm : AmlM σ Unit) :=
  .ite (fun _ => .throw _) fun _ => .bind (demander_talks _ _ (by decide) 0 0) fun _ => .pure _

theorem controlAlarmStatus_talks :
    Keeps (Talks (· = amlReqAlarmStatus)) (controlAlarmStatus : AmlM σ (UInt8 × UInt8)) :=
  .bind (demander_talks _ _ (by decide) 0 2) fun _ => .pure _

theorem controlAlarmStop_talks :
    Keeps (Talks (· = amlReqAlarmStop)) (controlAlarmStop : AmlM σ Unit) :=
  .bind (demander_talks _ _ (by decide) 0 0) fun _ => .pure _

theorem controlAlarmSnooze_talks :
    Keeps (Talks (· = amlReqAlarmSnooze)) (controlAlarmSnooze : AmlM σ Unit) :=
  .bind (demander_talks _ _ (by decide) 0 0) fun _ => .pure _

theorem controlRadioQuery_talks :
    Keeps (Talks (· = amlReqRadioQuery)) (controlRadioQuery : AmlM σ ControlRadio) :=
  .bind (demander_talks _ _ (by decide) 0 7) fun _ => .pure _

theorem controlRadioEnable_talks (enable : Bool) :
    Keeps (Talks (· = amlReqRadioEnable)) (controlRadioEnable enable : AmlM σ Unit) :=
  .bind (demander_talks _ _ (by decide) 0 0) fun _ => .pure _

theorem controlRadioTune_talks (direction : ControlTune) :
    Keeps (Talks (· = amlReqRadioTune)) (controlRadioTune direction : AmlM σ Nat) :=
  .bind (demander_talks _ _ (by decide) _ 4) fun _ => .pure _

theorem controlRadioPreset_talks (channel : UInt8) :
    Keeps (Talks (· = amlReqRadioPreset)) (controlRadioPreset channel : AmlM σ Unit) :=
  .ite (fun _ => .throw _) fun _ => .bind (demander_talks _ _ (by decide) 0 0) fun _ => .pure _

theorem controlRadioVolume_talks (volume : UInt8) :
    Keeps (Talks (· = amlReqRadioVolume)) (controlRadioVolume volume : AmlM σ Unit) :=
  envoyer_talks _ _

theorem controlRadioTimerEnable_talks (enable : Bool) :
    Keeps (Talks (· = amlReqRadioTimerEnable)) (controlRadioTimerEnable enable : AmlM σ Unit) :=
  envoyer_talks _ _

theorem controlRadioTimer_talks (minutes : UInt8) :
    Keeps (Talks (· = amlReqRadioTimer)) (controlRadioTimer minutes : AmlM σ Unit) :=
  envoyer_talks _ _

/-- Any code of the speaker, on or off. -/
theorem controlSpeakerEnable_talks (enable : Bool) :
    Keeps (Talks fun c => c = amlReqSpeakerOn ∨ c = amlReqSpeakerOff)
      (controlSpeakerEnable enable : AmlM σ Unit) :=
  .ite (fun _ => (envoyer_talks _ _).mono fun h => h.mono fun _ => .inr) fun _ =>
    .bind ((demander_talks _ _ (by decide) 0 0).mono fun h => h.mono fun _ => .inl) fun _ =>
      .pure _

end Specs

end AmlService
