import AmlService.App.Conversions

/-!
# AmlService.App.Evenements

Spontaneous messages, and the tracking of the two alarms (`app/handlers.c`, section
Événements). The handler only notes what the AML says; the periodic task works it off
later, reads again what has to be, and tells the clients.

An alarm goes through `repos`, `lever`, `sonne`, `snooze`. The AML says when a sunrise
starts and when an alarm rings, but not when it is snoozed or stopped on the device,
so its state is read again as long as one of the alarms is not at rest.
-/

namespace AmlService

abbrev alarmWatchMs : Int := 1000
abbrev eventQueueSize : Nat := 16
abbrev snoozeMarginMs : Int := 60000

/-- Snooze durations, in the order of the choices of `Alarm/<n>/Snooze`. -/
def snoozeMinutes : List Int := [1, 2, 5, 10, 20, 30]

/-- The state of an alarm. -/
inductive EtatReveil
  | repos
  | lever
  | sonne
  | snooze
  deriving Repr, DecidableEq

/-- `NOMS_REVEIL` -/
def EtatReveil.nom : EtatReveil → String
  | .repos => "idle"
  | .lever => "sunrise"
  | .sonne => "ringing"
  | .snooze => "snoozed"

/-- `priorite` -/
def priorite : EtatReveil → Nat
  | .repos => 0
  | .lever => 1
  | .sonne => 3
  | .snooze => 2

/-- Tracking of one alarm. `aSonne`: it has rung since it was last at rest; past
`finSnoozeMs` a snooze without a new ringing was a stop. -/
structure SuiviAlarme where
  etat : EtatReveil
  aSonne : Bool
  finSnoozeMs : Int
  deriving Repr, DecidableEq

/-- A message noted by the handler: its code and its first data byte. -/
structure Evenement where
  code : UInt8
  value : UInt8
  deriving Repr, DecidableEq

/-- Messages noted and not yet processed. -/
structure FileEvenements where
  entries : List Evenement
  borne : entries.length ≤ eventQueueSize

/-- The static variables of `app/handlers.c`: `evenements`, and the date of the next
attempt of `entretenir_horloge`. `diffuser` says that a broadcast function is
registered. -/
structure HandlersState where
  file : FileEvenements
  eclairageChange : Bool
  alarmes : Alarme → SuiviAlarme
  reveilChange : Bool
  surveiller : Bool
  prochaineLectureMs : Int
  arretDemande : Bool
  connexions : UInt32
  diffuser : Bool
  nextAttemptMs : Int

/-- The whole service, apart from its IPC server. -/
abbrev Service := SweetDawn HandlersState

/-- Changes the static variables. -/
def SweetDawn.note (s : Service) (f : HandlersState → HandlersState) : Service :=
  { s with eventContext := f s.eventContext }

/-! ### Noting a message -/

/-- Adds a message to the queue, unless it is full. -/
def FileEvenements.push (file : FileEvenements) (e : Evenement) : FileEvenements :=
  if h : file.entries.length < eventQueueSize then
    ⟨file.entries ++ [e], by rw [List.length_append]; exact h⟩
  else file

def FileEvenements.vide : FileEvenements := ⟨[], Nat.zero_le _⟩

/-- `handlers_on_event` -/
def handlersOnEvent (context : HandlersState) (code : UInt8) (data : List UInt8) : HandlersState :=
  if code = amlEvtLightRefresh then { context with eclairageChange := true }
  else { context with file := context.file.push { code, value := data.headD 0 } }

/-! ### Telling the clients -/

/-- `diffuser` -/
def diffuser (name : String) (data : JsonValue) (s : Service) : Service :=
  if s.eventContext.diffuser then { s with world := s.world.log (.broadcast name data) } else s

/-- The alarm that the summary is about: the most advanced one, the first of equals. -/
def principale (alarmes : Alarme → SuiviAlarme) : Option Alarme :=
  let step (best : Option Alarme) (n : Alarme) : Option Alarme :=
    if (alarmes n).etat = .repos then best
    else
      match best with
      | none => some n
      | some m => if priorite (alarmes n).etat > priorite (alarmes m).etat then some n else best
  step (step none 0) 1

/-- `reveil_json` -/
def reveilJson (alarmes : Alarme → SuiviAlarme) : JsonValue :=
  .obj [
    ("state", .str ((principale alarmes).elim EtatReveil.repos fun n => (alarmes n).etat).nom),
    ("alarm", (principale alarmes).elim .null fun n => .int (n.val + 1)),
    ("alarms", .obj [("1", .str (alarmes 0).etat.nom), ("2", .str (alarmes 1).etat.nom)])]

/-- `diffuser_reveil` -/
def diffuserReveil (s : Service) : Service :=
  if s.eventContext.reveilChange then
    diffuser "alarm_state" (reveilJson s.eventContext.alarmes)
      (s.note fun e => { e with reveilChange := false })
  else s

/-! ### Tracking the alarms -/

/-- Changes the tracking of one alarm. -/
def HandlersState.modifier (e : HandlersState) (n : Alarme) (f : SuiviAlarme → SuiviAlarme) :
    HandlersState :=
  { e with alarmes := Function.update e.alarmes n (f (e.alarmes n)) }

/-- `changer_alarme` -/
def changerAlarme (numero : Alarme) (etat : EtatReveil) (e : HandlersState) : HandlersState :=
  if (e.alarmes numero).etat = etat then e
  else { e.modifier numero fun a => { a with etat } with reveilChange := true }

/-- `surveiller_alarme_bientot` -/
def surveillerAlarmeBientot (e : HandlersState) : HandlersState :=
  { e with surveiller := true, prochaineLectureMs := 0 }

/-- `noter_arret_demande` -/
def noterArretDemande (e : HandlersState) : HandlersState := { e with arretDemande := true }

/-- `presumer_snooze` -/
def presumerSnooze (numero : Alarme) (now : Int) (s : Service) : Service :=
  let (alarm, s) := controlAlarmQuery numero s
  let minutes : Int :=
    match alarm with
    | .ok alarm => snoozeMinutes.getD alarm.snooze.toNat 30
    | .error _ => 30
  s.note fun e => changerAlarme numero .snooze
    (e.modifier numero fun a => { a with finSnoozeMs := now + minutes * 60000 + snoozeMarginMs })

/-- The alarm a byte of the AML designates, if it designates one. -/
def designe (value : UInt8) (n : Alarme) : Bool := value.toNat == n.val + 1

/-- One turn of the loop of `suivre_reveil`: what a reading (`lever` in its sunrise,
`sonne` ringing) says of alarm `n`. -/
def suivreAlarme (lever sonne : UInt8) (now : Int) (n : Alarme) (s : Service) : Service :=
  let e := s.eventContext
  let a := e.alarmes n
  if designe sonne n then
    s.note fun e => changerAlarme n .sonne
      (e.modifier n fun a => { a with aSonne := true, finSnoozeMs := 0 })
  else if designe lever n && !e.arretDemande then
    s.note (changerAlarme n (if a.aSonne then .snooze else .lever))
  else if a.etat = .sonne && !e.arretDemande then presumerSnooze n now s
  else if a.etat = .snooze && !e.arretDemande && decide (now < a.finSnoozeMs) then
    -- presumed snooze: wait for it to ring again or not
    s
  else
    s.note fun e => changerAlarme n .repos
      (e.modifier n fun a => { a with aSonne := false, finSnoozeMs := 0 })

/-- Something is going on for alarm `n`. -/
def enCours (s : Service) (n : Alarme) : Bool := (s.eventContext.alarmes n).etat != .repos

/-- What `suivre_reveil` does with a reading. -/
def appliquerLecture (lever sonne : UInt8) (now : Int) (s : Service) : Service :=
  let s := suivreAlarme lever sonne now 0 s
  let premiere := enCours s 0
  let s := suivreAlarme lever sonne now 1 s
  let s :=
    if premiere || enCours s 1 then s
    else s.note fun e => { e with surveiller := false, arretDemande := false }
  diffuserReveil s

/-- `suivre_reveil` -/
def suivreReveil (now : Int) (s : Service) : Service :=
  if !s.eventContext.surveiller || decide (now < s.eventContext.prochaineLectureMs) then s
  else
    match controlAlarmStatus
        (s.note fun e => { e with prochaineLectureMs := now + alarmWatchMs }) with
    | (.error _, s) => s
    | (.ok (lever, sonne), s) => appliquerLecture lever sonne now s

/-! ### Working off the messages -/

/-- The data of a `light_changed` event. -/
def eclairageJson (light mood : ControlLight) : JsonValue :=
  .obj [("light", lumiereJson lightGroup light), ("mood", lumiereJson moodGroup mood)]

/-- `relire_eclairage` -/
def relireEclairage (s : Service) : Service :=
  match controlLightQuery .light s with
  | (.error _, s) => s
  | (.ok light, s) =>
    match controlLightQuery .mood s with
    | (.error _, s) => s
    | (.ok mood, s) => diffuser "light_changed" (eclairageJson light mood) s

/-- The alarm of a message, if its value is the number of one. -/
def alarmeDe (value : UInt8) : Option Alarme :=
  if value = 1 then some 0 else if value = 2 then some 1 else none

/-- A sunrise or a ringing begins: whatever the alarm, its state is to be watched. -/
def surveillerDepuis (now : Int) (e : HandlersState) : HandlersState :=
  { e with
    arretDemande := false, surveiller := true, prochaineLectureMs := now + alarmWatchMs }

/-- `case AML_EVT_SUNRISE_START` -/
def debutLever (now : Int) (value : UInt8) (e : HandlersState) : HandlersState :=
  surveillerDepuis now <|
    match alarmeDe value with
    | some n => changerAlarme n .lever (e.modifier n fun a => { a with aSonne := false })
    | none => e

/-- `case AML_EVT_ALARM_RING` -/
def debutSonnerie (now : Int) (value : UInt8) (e : HandlersState) : HandlersState :=
  surveillerDepuis now <|
    match alarmeDe value with
    | some n => changerAlarme n .sonne
        (e.modifier n fun a => { a with aSonne := true, finSnoozeMs := 0 })
    | none => e

/-- The data of a `timer_ended` event. -/
def minuteurJson (timer : String) : JsonValue := .obj [("timer", .str timer)]

/-- One message of the queue. -/
def traiterEvenement (now : Int) (s : Service) (e : Evenement) : Service :=
  if e.code = amlEvtSunriseStart then s.note (debutLever now e.value)
  else if e.code = amlEvtAlarmRing then s.note (debutSonnerie now e.value)
  else if e.code = amlEvtLightTimerEnd then
    diffuser "timer_ended" (minuteurJson "light")
      (s.note fun e => { e with eclairageChange := true })
  else if e.code = amlEvtMoodTimerEnd then
    diffuser "timer_ended" (minuteurJson "mood")
      (s.note fun e => { e with eclairageChange := true })
  else if e.code = amlEvtRadioTimerEnd then diffuser "timer_ended" (minuteurJson "radio") s
  else if e.code = amlEvtMusicTimerEnd then diffuser "timer_ended" (minuteurJson "music") s
  else s

/-- `traiter_evenements` -/
def traiterEvenements (now : Int) (s : Service) : Service :=
  let s := s.eventContext.file.entries.foldl (traiterEvenement now) s
  -- emptied before the readings, which may add to it
  let s := s.note fun e => { e with file := .vide }
  let s := diffuserReveil s
  if s.eventContext.eclairageChange then
    relireEclairage (s.note fun e => { e with eclairageChange := false })
  else s

end AmlService
