import AmlService.App.Horloge

/-!
# AmlService.App.Handlers

The requests of the clients and the periodic task (`app/handlers.c`). A handler gets
the command of the tree it was called for, the parent of that command and, for a
setting, the value, already validated by the tree.
-/

namespace AmlService

open Effect

/-- The error of a request: a code and a text. -/
structure HandlerError where
  code : String
  message : String
  deriving Repr, DecidableEq

/-- A handler: an error, or its result. What it has done to the service stays, error or not. -/
abbrev HandlerM (α : Type) := Fallible HandlerError Service α

/-- `echec`: ends the request with an error. -/
def echec {α : Type} (code message : String) : HandlerM α := throw { code, message }

/-- The error that `verifier` makes of a code of the AML. -/
def erreurAml : AmlErr → HandlerError
  | .disconnected => ⟨"AML_DISCONNECTED", "L'AML n'est pas connecte pour le moment"⟩
  | .timeout => ⟨"AML_TIMEOUT", "L'AML n'a pas repondu"⟩
  | .protocol => ⟨"AML_PROTOCOL_ERROR", "Reponse de l'AML inattendue"⟩
  | .generic | .io => ⟨"AML_ERROR", "Echec de la commande AML"⟩

/-- `verifier`: a failed exchange ends the request. -/
def verifier {α : Type} (m : AmlM HandlersState α) : HandlerM α := m.mapError erreurAml

/-- `localtime_r` of the current time. -/
def heureLocale (s : Service) : Tm × Service :=
  let (t, s) := heureSysteme s
  (s.world.zone.localtime t, s)

/-! ### Settings

The AML takes its five settings in one request. To change one of them, the others have to be
known: they are those that were read or written last. -/

/-- Settings are to be known before they can be written. -/
def reglagesInconnus {α : Type} : HandlerM α :=
  echec "STATE_UNKNOWN" "Reglages pas encore lus : reessayer apres connexion"

/-- `lire_reglages`: the settings are read again for each request. -/
def lireReglages (command : Command) : HandlerM JsonValue := do
  let s ← get
  if !sweetdawnIsConnected s then throw (erreurAml .disconnected)
  else do
    verifier sweetdawnRefresh
    let s ← get
    return reglagesJson command s.state

/-- The first half of `envoyer_heure`: in `manual` mode the AML ignores the time it is
sent, so it is brought back to `auto` first. -/
def repasserEnAuto : HandlerM Unit := do
  let s ← get
  if s.state.time != 0 then verifier (controlSettingsWrite { s.state with time := 0 })
  else return ()

/-- `envoyer_heure`: sends a time, and notes what the clock of the AML now shows. -/
def envoyerHeure (tm : Tm) : HandlerM Unit := do
  let s ← get
  if !s.state.known then reglagesInconnus
  else do
    repasserEnAuto
    verifier (controlSyncTime tm)
    Fallible.act (noterHeure tm)

/-- The settings with one changed, as `Settings/<name>` does. -/
def changerReglage (command : Command) (value : String) (settings : AmlState) : AmlState :=
  let index := UInt8.ofInt (indexChoix command value)
  if command.name == "Feedback" then
    { settings with feedback := if lireBooleen value then 0 else 1 }
  else if command.name == "Fade" then { settings with fade := if lireBooleen value then 0 else 1 }
  else if command.name == "Display brightness" then { settings with display := index }
  else if command.name == "Display time" then { settings with date := index }
  else { settings with time := index }

/-- `ecrire_reglage`; back to `auto`, the clock is set as well. -/
def ecrireReglage (command : Command) (value : String) : HandlerM Unit := do
  let s ← get
  if !s.state.known then reglagesInconnus
  else do
    let settings := changerReglage command value s.state
    verifier (controlSettingsWrite settings)
    if command.name == "Time" && settings.time == 0 then do
      let tm ← Fallible.lift heureLocale
      envoyerHeure tm
    else return ()

/-- `synchroniser_heure`: the time of the system. -/
def synchroniserHeure : HandlerM Unit := do
  let tm ← Fallible.lift heureLocale
  envoyerHeure tm

/-- `regler_heure`: a time chosen by the client, in one of the forms of `lireDateHeure`. -/
def reglerHeure (value : String) : HandlerM Unit := do
  let now ← Fallible.lift heureSysteme
  let s ← get
  match lireDateHeure s.world.zone value now with
  | none => echec "INVALID_VALUE" "Heure attendue : HH:MM, HH:MM:SS ou AAAA-MM-JJ HH:MM"
  | some chosen => envoyerHeure chosen

/-! ### Alarms

The AML takes an alarm whole: to change one setting of it, the alarm is read first and written
back with that setting changed. -/

/-- `numero_alarme`: the group of the command says which alarm it is about. -/
def numeroAlarme (alarmGroup : Command) : Alarme := if alarmGroup.name == "2" then 1 else 0

/-- `lire_alarme` -/
def lireAlarme (command : Command) : HandlerM JsonValue := do
  let alarm ← verifier (controlAlarmQuery (numeroAlarme command))
  Fallible.lift (alarmeJson command alarm)

/-- A child of a group, or an empty group. -/
def enfant (command : Command) (name : String) : Command :=
  (commandFindChild command name).getD (groupe name "" [])

/-- `lire_alarmes`: both alarms, or an error if one cannot be read. -/
def lireAlarmes (command : Command) : HandlerM JsonValue := do
  let alarm1 ← verifier (controlAlarmQuery 0)
  let object1 ← Fallible.lift (alarmeJson (enfant command "1") alarm1)
  let alarm2 ← verifier (controlAlarmQuery 1)
  let object2 ← Fallible.lift (alarmeJson (enfant command "2") alarm2)
  return .obj [("1", object1), ("2", object2)]

/-- An alarm with one setting changed, as `Alarm/<n>/<setting>` does; `time` is the value
of the setting `Time`, already read. -/
def changerReglageAlarme (command : Command) (value : String) (time : UInt8 × UInt8)
    (alarm : ControlAlarm) : ControlAlarm :=
  if command.name == "Enable" then { alarm with enable := lireBooleen value }
  else if command.name == "Time" then { alarm with hour := time.1, minute := time.2 }
  else if command.name == "Days" then { alarm with days := lireEntier value }
  else if command.name == "Snooze" then
    { alarm with snooze := UInt8.ofInt (indexChoix command value) }
  else if command.name == "Tone" then { alarm with tone := UInt8.ofInt (indexChoix command value) }
  else if command.name == "Tone volume" then { alarm with volume := lireEntier value }
  else if command.name == "Sunrise" then { alarm with sunriseEnable := lireBooleen value }
  else if command.name == "Sunrise duration" then { alarm with sunriseMinutes := lireEntier value }
  else { alarm with sunriseBrightness := lireEntier value }

/-- `ecrire_alarme`; a time that cannot be read is refused before anything is sent. -/
def ecrireAlarme (command parent : Command) (value : String) : HandlerM Unit :=
  let heure := lireHeure value
  if command.name == "Time" && heure.isNone then
    echec "INVALID_VALUE" "Heure attendue au format HH:MM"
  else do
    let number := numeroAlarme parent
    let alarm ← verifier (controlAlarmQuery number)
    verifier (controlAlarmWrite number
      (changerReglageAlarme command value (heure.getD (0, 0)) alarm))

/-- `agir_sur_alarme`: `Alarm/Stop` and `Alarm/Snooze`. The alarms are to be read again even if
the AML did not answer; only a stop that it acknowledged is noted. -/
def agirSurAlarme (command : Command) : HandlerM Unit := fun s =>
  let stop := command.name == "Stop"
  let (code, s) := if stop then controlAlarmStop s else controlAlarmSnooze s
  let s := s.note surveillerAlarmeBientot
  match code with
  | .ok () => (.ok (), if stop then s.note noterArretDemande else s)
  | .error code => (.error (erreurAml code), s)

/-! ### Lights, radio, speaker

Most of these requests have no response: that the AML took them is not known. -/

/-- `lire_lumiere` -/
def lireLumiere (command : Command) : HandlerM JsonValue := do
  let light ← verifier (controlLightQuery (cible command))
  return lumiereJson command light

/-- `ecrire_lumiere`, for the lamp (`Sunset`) and for the mood light (`Timer`, `Color`, `Scene`). -/
def ecrireLumiere (command parent : Command) (value : String) : HandlerM Unit :=
  let target := cible parent
  let name := command.name
  if name == "Enable" then verifier (controlLightEnable target (lireBooleen value))
  else if name == "Brightness" then verifier (controlLightBrightness target (lireEntier value))
  else if name == "Sunset" || name == "Timer" then
    verifier (controlLightTimerEnable target (lireBooleen value))
  else if name == "Sunset duration" || name == "Timer duration" then
    verifier (controlLightTimer target (lireEntier value))
  else if name == "Color" then
    match lireCouleur value with
    | none => echec "INVALID_VALUE" "Couleur attendue au format R,G,B (0 a 255)"
    | some (red, green, blue) => verifier (controlMoodColor red green blue)
  else verifier (controlMoodScene (UInt8.ofInt (indexChoix command value)))

/-- `lire_radio` -/
def lireRadio : HandlerM JsonValue := do
  let radio ← verifier controlRadioQuery
  return radioJson radio

/-- `changer_frequence`: one step, or the next station; the new frequency is the result. -/
def changerFrequence (command : Command) : HandlerM JsonValue := do
  let direction : ControlTune :=
    if command.name == ">" then .tuneUp
    else if command.name == "<" then .tuneDown
    else if command.name == ">>" then .seekUp
    else .seekDown
  let frequency ← verifier (controlRadioTune direction)
  return .obj [("frequency", frequenceJson frequency)]

/-- `ecrire_radio` -/
def ecrireRadio (command : Command) (value : String) : HandlerM Unit :=
  let name := command.name
  if name == "Enable" then verifier (controlRadioEnable (lireBooleen value))
  else if name == "Channel" then verifier (controlRadioPreset (lireEntier value))
  else if name == "Volume" then verifier (controlRadioVolume (lireEntier value))
  else if name == "Sleep timer" then verifier (controlRadioTimerEnable (lireBooleen value))
  else verifier (controlRadioTimer (lireEntier value))

/-- `ecrire_haut_parleur` -/
def ecrireHautParleur (value : String) : HandlerM Unit :=
  verifier (controlSpeakerEnable (lireBooleen value))

/-! ### The handlers of the tree

A node of the tree has at most one handler: a group reads its values, a setting is written, an
action is carried out. `CommandHandler` names the functions that stand in the tree, and `call`
is the call through the pointer. -/

/-- The handlers that `handlers_attach` puts in the tree. -/
inductive CommandHandler
  | lireReglages
  | ecrireReglage
  | synchroniserHeure
  | reglerHeure
  | lireAlarmes
  | lireAlarme
  | ecrireAlarme
  | agirSurAlarme
  | lireLumiere
  | ecrireLumiere
  | lireRadio
  | changerFrequence
  | ecrireRadio
  | ecrireHautParleur
  deriving Repr, DecidableEq

/-- The result of a handler that sets none. -/
def sansResultat (m : HandlerM Unit) : HandlerM JsonValue := do
  m
  return .obj []

/-- Calls a handler. -/
def CommandHandler.call (handler : CommandHandler) (command parent : Command) (value : String) :
    HandlerM JsonValue :=
  match handler with
  | lireReglages => AmlService.lireReglages command
  | ecrireReglage => sansResultat (AmlService.ecrireReglage command value)
  | synchroniserHeure => sansResultat AmlService.synchroniserHeure
  | reglerHeure => sansResultat (AmlService.reglerHeure value)
  | lireAlarmes => AmlService.lireAlarmes command
  | lireAlarme => AmlService.lireAlarme command
  | ecrireAlarme => sansResultat (AmlService.ecrireAlarme command parent value)
  | agirSurAlarme => sansResultat (AmlService.agirSurAlarme command)
  | lireLumiere => AmlService.lireLumiere command
  | ecrireLumiere => sansResultat (AmlService.ecrireLumiere command parent value)
  | lireRadio => AmlService.lireRadio
  | changerFrequence => AmlService.changerFrequence command
  | ecrireRadio => sansResultat (AmlService.ecrireRadio command value)
  | ecrireHautParleur => sansResultat (AmlService.ecrireHautParleur value)

/-- `status_json`: what is known without asking the AML. -/
def statusJson (s : Service) : JsonValue × Service :=
  let (settings, s) : List (String × JsonValue) × Service :=
    if s.state.known then
      let (age, s) := sweetdawnStateAgeMs s
      ([("age_ms", .int age), ("authorization", .int s.authorization.toNat),
        ("settings", reglagesJson settingsGroup s.state)], s)
    else ([], s)
  let (amlNow, s) := horlogeAml s
  let clock : List (String × JsonValue) :=
    match amlNow with
    | none => [("known", .bool false)]
    | some t => [("known", .bool true), ("time", .str (formatIso s.world.zone t)),
        ("offset_s", .int s.clockOffsetS)]
  (.obj ([("connected", .bool (sweetdawnIsConnected s)), ("known", .bool s.state.known)] ++
      settings ++ [("clock", .obj clock), ("alarm_state", reveilJson s.eventContext.alarmes)]), s)

/-! ### The periodic task

`service_tick` calls `sweetdawn_tick`, then `handlers_tick`: the second deals with the messages that the
first has noted, follows the alarms and keeps the clock of the AML right. -/

/-- `handlers_tick` notices a new connection: the state of the alarms may have changed. -/
def noterConnexion (s : Service) : Service :=
  if s.connectCount ≠ s.eventContext.connexions then
    s.note fun e => surveillerAlarmeBientot { e with connexions := s.connectCount }
  else s

/-- `handlers_tick` -/
def handlersTick (s : Service) : Service :=
  if !sweetdawnIsConnected s then s
  else
    let (now, s) := maintenant s
    let s := traiterEvenements now (noterConnexion s)
    entretenirHorloge now (suivreReveil now s)

/-- The static variables after `handlers_attach` and `handlers_set_broadcast`. -/
def handlersAttach : HandlersState where
  file := .vide
  eclairageChange := false
  alarmes _ := { etat := .repos, aSonne := false, finSnoozeMs := 0 }
  reveilChange := false
  surveiller := false
  prochaineLectureMs := 0
  arretDemande := false
  connexions := 0
  diffuser := true
  nextAttemptMs := 0

/-- The service once `main` has set it up. -/
def serviceInit (device : AmlConfig) (world : World) : Service :=
  sweetdawnInit device (some handlersOnEvent) handlersAttach world

/-! ### Runs

A run is any list of steps: a property of every run holds for every order in which the
service, the clients and the AML can have them happen. -/

/-- A step of the service: a message of the AML noted, a request of a client, the two
halves of the periodic task. -/
inductive Action
  | event (code : UInt8) (data : List UInt8)
  | request (handler : CommandHandler) (command parent : Command) (value : String)
  | status
  | sweetdawnTick
  | handlersTick

/-- One step. -/
def act (s : Service) : Action → Service
  | .event code data =>
    { s with
      eventContext := handlersOnEvent s.eventContext code data
      world := s.world.log (.event code data) }
  | .request handler command parent value => (handler.call command parent value s).2
  | .status => (statusJson s).2
  | .sweetdawnTick => sweetdawnTick s
  | .handlersTick => handlersTick s

/-- A run. -/
def run (s : Service) (actions : List Action) : Service := actions.foldl act s

theorem run_append (s : Service) (actions actions' : List Action) :
    run s (actions ++ actions') = run (run s actions) actions' :=
  List.foldl_append

/-! ### A scripted AML -/

/-- The answers to a first periodic task: no alarm is on, the time is accepted. -/
def premiereTache : List Reception :=
  [.quiet, .reply amlRspAlarmStatus [0, 0], .quiet, .reply amlRspSyncTime []]

end AmlService
