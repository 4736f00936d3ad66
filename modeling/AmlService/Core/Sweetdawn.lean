import AmlService.Aml.Link
import AmlService.Lib.Effect

/-!
# AmlService.Core.Sweetdawn

The core of the service (`core/sweetdawn.c`): supervision of the link, spontaneous
messages, one request and its response, periodic reading of the settings.

`SweetDawn σ` is the application state; `σ` is what the event handler works on (the
`event_context` of the source). The world the service runs in travels with it, since
every function here may look at the clock or at the link.
-/

namespace AmlService

open Effect

/-- The application state. `connectCount` wraps around, like the source's `unsigned`;
`clockSet`, `clockOffsetS` and `clockSyncedMs` are what is known of the AML clock. -/
structure SweetDawn (σ : Type) where
  device : AmlConfig
  connection : AmlConnection
  state : AmlState
  initialized : Bool
  connected : Bool
  authorization : UInt8
  lastRefreshMs : Int
  nextRefreshMs : Int
  nextConnectMs : Int
  connectBackoffMs : Int
  consecutiveFailures : Nat
  connectCount : UInt32
  clockSet : Bool
  clockOffsetS : Int
  clockSyncedMs : Int
  onEvent : Option (σ → UInt8 → List UInt8 → σ)
  eventContext : σ
  world : World

abbrev requestBufferSize : Nat := amlProtocolMaxFrameSize
abbrev responseBufferSize : Nat := amlProtocolMaxFrameSize

/-- The wait for a response, when the caller gives none. -/
abbrev amlResponseTimeoutMs : Int := 5000

/-- The time between two readings of the settings, which are also what finds a dead link. -/
abbrev sweetdawnRefreshIntervalMs : Int := 60000

/-- The time before a failed reading is tried again. -/
abbrev sweetdawnRefreshRetryMs : Int := 5000

abbrev sweetdawnBackoffMinMs : Int := 1000
abbrev sweetdawnBackoffMaxMs : Int := 30000

/-- The failures in a row after which the link is given up. -/
abbrev sweetdawnMaxFailures : Nat := 3

/-- Value of `expected_code` for a request without response. -/
abbrev sweetdawnNoResponse : Int := -1

/-- A function of the source that returns 0 or an `AML_ERR_*` code. -/
abbrev AmlM (σ α : Type) := Fallible AmlErr (SweetDawn σ) α

variable {σ : Type}

/-! ### Time -/

/-- `maintenant`, also known as `sweetdawn_now_ms` -/
def maintenant (app : SweetDawn σ) : Int × SweetDawn σ :=
  let (now, world) := app.world.monotonicMs
  (now, { app with world })

/-! ### Supervision of the link

A link that the system says is gone is closed at once. A response that does not come, or that
makes no sense, is only counted: it takes three in a row to close the link. Once closed, it is
opened again after a wait that grows with each attempt that fails. -/

/-- The wait before the next attempt, doubled at each failure. -/
def nextBackoff (backoffMs : Int) : Int :=
  if backoffMs ≤ 0 then sweetdawnBackoffMinMs
  else if backoffMs ≥ sweetdawnBackoffMaxMs / 2 then sweetdawnBackoffMaxMs
  else backoffMs * 2

/-- `programmer_reconnexion`: the next attempt is dated from now. -/
def programmerReconnexion (app : SweetDawn σ) : SweetDawn σ :=
  let app := { app with connectBackoffMs := nextBackoff app.connectBackoffMs }
  let (now, app) := maintenant app
  { app with nextConnectMs := now + app.connectBackoffMs }

/-- `abandonner_liaison`: closes the link, and has it opened again later. -/
def abandonnerLiaison (app : SweetDawn σ) : SweetDawn σ :=
  let (connection, world) := amlDisconnect app.connection app.world
  programmerReconnexion
    { app with connection, world, connected := false, consecutiveFailures := 0 }

/-- `traiter_echec_liaison`: what a failed exchange does to the link. -/
def traiterEchecLiaison (app : SweetDawn σ) (code : AmlErr) : SweetDawn σ :=
  if code = .disconnected ∨ code = .io then abandonnerLiaison app
  else
    let app := { app with consecutiveFailures := app.consecutiveFailures + 1 }
    if app.consecutiveFailures ≥ sweetdawnMaxFailures then abandonnerLiaison app else app

/-! ### Spontaneous messages

The AML may speak at any time, in the middle of an exchange too. What it says is handed to
`onEvent`, which may change its own context but sends nothing. -/

/-- `est_evenement`: the codes that are never those of a response. -/
def estEvenement (code : UInt8) : Bool :=
  code == amlEvtSunriseStart || code == amlEvtAlarmRing || code == amlEvtLightRefresh ||
    code == amlEvtLightTimerEnd || code == amlEvtMoodTimerEnd || code == amlEvtRadioTimerEnd ||
    code == amlEvtMusicTimerEnd

/-- A response frame with a spontaneous code. -/
def spontaneous (frame : List UInt8) : Bool :=
  octet frame 2 == amlFrameTypeResponse && estEvenement (octet frame amlFrameCodeOffset)

/-- The bytes between the envelope of a frame: eight before, four after. -/
def frameData (frame : List UInt8) : List UInt8 :=
  (frame.drop amlFrameDataOffset).take (frame.length - amlFrameDataOffset - 4)

/-- `transmettre_evenement`: whether the frame was a spontaneous message. -/
def transmettreEvenement (app : SweetDawn σ) (frame : List UInt8) : Bool × SweetDawn σ :=
  if amlFrameDataOffset + 4 ≤ frame.length ∧ spontaneous frame then
    match app.onEvent with
    | none => (true, app)
    | some handler =>
      let code := octet frame amlFrameCodeOffset
      let data := frameData frame
      (true, { app with
        eventContext := handler app.eventContext code data
        world := app.world.log (.event code data) })
  else (false, app)

/-- `aml_receive` on the link of the application. -/
def recevoir (app : SweetDawn σ) (outputCapacity : Nat) (timeoutMs : Int) :
    Except AmlErr (List UInt8) × SweetDawn σ :=
  let (result, connection, world) := amlReceive app.connection outputCapacity timeoutMs app.world
  (result, { app with connection, world })

/-- `lire_evenements`, with at most `turns` more frames to read. -/
def lireEvenementsLoop (turns : Nat) (app : SweetDawn σ) : SweetDawn σ :=
  match turns with
  | 0 => app
  | turns + 1 =>
    if app.connected then
      match recevoir app responseBufferSize 0 with
      | (.error .timeout, app) => app
      | (.error code, app) => traiterEchecLiaison app code
      -- a frame that is not spontaneous is ignored
      | (.ok frame, app) => lireEvenementsLoop turns (transmettreEvenement app frame).2
    else app

/-- `lire_evenements` -/
def lireEvenements (app : SweetDawn σ) : SweetDawn σ := lireEvenementsLoop 16 app

/-! ### Exchanges

One request is in flight at a time. Before it is sent, what has arrived is read, at most sixteen
frames; then the frames are read until the one with the expected code, and the others are
handed on or ignored. The wait ends at a date, whatever arrives. -/

/-- The response to wait for: a response frame with the expected code. -/
def isResponse (expectedCode : UInt8) (frame : List UInt8) : Bool :=
  decide (amlFrameCodeOffset < frame.length) && octet frame 2 == amlFrameTypeResponse &&
    octet frame amlFrameCodeOffset == expectedCode

/-- Handing a frame on reads nothing. -/
theorem transmettreEvenement_pending (app : SweetDawn σ) (frame : List UInt8) :
    pendingBytes (transmettreEvenement app frame).2.connection
        (transmettreEvenement app frame).2.world = pendingBytes app.connection app.world := by
  unfold transmettreEvenement
  split
  · split <;> rfl
  · rfl

/-- A frame that is received is read from what was pending: the wait loop ends. -/
theorem recevoir_pending_lt {app app' : SweetDawn σ} {outputCapacity : Nat} {timeoutMs : Int}
    {frame : List UInt8} (h : recevoir app outputCapacity timeoutMs = (.ok frame, app')) :
    pendingBytes app'.connection app'.world < pendingBytes app.connection app.world := by
  unfold recevoir at h
  obtain ⟨hok, rfl⟩ := Prod.mk.inj h
  exact amlReceive_pending_lt hok

/-- The wait loop of `envoyer_requete`. -/
def attendreReponse (expectedCode : UInt8) (deadlineMs : Int) (responseCapacity : Nat)
    (app : SweetDawn σ) : Except AmlErr (List UInt8) × SweetDawn σ :=
  let reading := maintenant app
  let remaining := deadlineMs - reading.1
  if remaining ≤ 0 then (.error .timeout, reading.2)
  else
    match _h : recevoir reading.2 responseCapacity remaining with
    | (.error code, app) => (.error code, app)
    | (.ok response, app) =>
      if isResponse expectedCode response then
        (.ok response, { app with consecutiveFailures := 0 })
      else attendreReponse expectedCode deadlineMs responseCapacity
        (transmettreEvenement app response).2
termination_by pendingBytes app.connection app.world
decreasing_by
  rw [transmettreEvenement_pending]
  have hlt := recevoir_pending_lt _h
  exact hlt

/-- `envoyer_requete`, also known as `sweetdawn_request`. -/
def envoyerRequete (requestCode : UInt8) (expectedCode : Int) (timeoutMs : Int)
    (arguments : List UInt8) (responseCapacity : Nat) : AmlM σ (List UInt8) := fun app =>
  if ¬ app.initialized then (.error .generic, app)
  else if ¬ app.connected then (.error .disconnected, app)
  else
    let timeoutMs := if timeoutMs ≤ 0 then amlResponseTimeoutMs else timeoutMs
    match protocolBuildRequest requestCode arguments requestBufferSize with
    | none => (.error .generic, app)
    | some request =>
      let app := lireEvenements app
      if ¬ app.connected then (.error .disconnected, app)
      else
        match amlSend app.connection request app.world with
        | (.error code, world) => (.error code, traiterEchecLiaison { app with world } code)
        | (.ok (), world) =>
          let app := { app with world }
          if expectedCode = sweetdawnNoResponse then (.ok [], app)
          else
            let (now, app) := maintenant app
            match attendreReponse (UInt8.ofInt expectedCode) (now + timeoutMs) responseCapacity
                app with
            | (.ok response, app) => (.ok response, app)
            | (.error code, app) => (.error code, traiterEchecLiaison app code)

/-- `demander_statut`: the authorization, the first byte of data. -/
def demanderStatut : AmlM σ UInt8 := do
  let response ← envoyerRequete amlReqStatus amlRspStatus.toNat 0 [amlStatusArg] responseBufferSize
  if response.length < amlFrameDataOffset + 1 then throw .protocol
  else return octet response amlFrameDataOffset

/-- Records settings, and that they were read or written. -/
def recordSettings (app : SweetDawn σ) (state : AmlState) (o : AmlState → Obs) : SweetDawn σ :=
  { app with state, world := app.world.log (o state) }

/-- `demander_parametres`: the five settings, the first bytes of data. -/
def demanderParametres : AmlM σ Unit := do
  let response ← envoyerRequete amlReqReadSettings amlRspReadSettings.toNat 0 [] responseBufferSize
  if response.length < amlFrameDataOffset + 6 then throw .protocol
  else
    let data := response.drop amlFrameDataOffset
    let settings := stateUpdateSettings (octet data 0) (octet data 1) (octet data 2)
      (octet data 3) (octet data 4)
    Fallible.act fun app => recordSettings app settings .settingsRead

/-! ### The interface

The service calls `sweetdawn_tick` again and again, and the handlers call `sweetdawn_request`
(`envoyerRequete`) in between. -/

/-- The application after a successful `sweetdawn_init`. -/
def sweetdawnInit (device : AmlConfig) (onEvent : Option (σ → UInt8 → List UInt8 → σ))
    (eventContext : σ) (world : World) : SweetDawn σ where
  device := device
  connection := { socketFd := -1, parser := protocolParserInit }
  state := stateInit
  initialized := true
  connected := false
  authorization := 0
  lastRefreshMs := -1
  nextRefreshMs := 0
  nextConnectMs := 0
  connectBackoffMs := 0
  consecutiveFailures := 0
  connectCount := 0
  clockSet := false
  clockOffsetS := 0
  clockSyncedMs := 0
  onEvent := onEvent
  eventContext := eventContext
  world := { world with journal := [] }

/-- `sweetdawn_connect`; a new link has its settings read at once. -/
def sweetdawnConnect : AmlM σ Unit := fun app =>
  if ¬ app.initialized then (.error .generic, app)
  else if app.connected then (.ok (), app)
  else
    match amlConnect app.connection app.device app.world with
    | (.error code, connection, world) => (.error code, { app with connection, world })
    | (.ok (), connection, world) =>
      (.ok (), { app with
        connection, world, connected := true, consecutiveFailures := 0, nextRefreshMs := 0 })

/-- The two readings of `sweetdawn_refresh`. -/
def lireEtat : AmlM σ Unit := do
  let autorisation ← demanderStatut
  Fallible.act fun app => { app with authorization := autorisation }
  demanderParametres

/-- `sweetdawn_refresh`: the next reading is dated from the end of this one. Only a reading that
succeeds brings the wait between two attempts back to its first value. -/
def sweetdawnRefresh : AmlM σ Unit := fun app =>
  if ¬ app.initialized ∨ ¬ app.connected then (.error .generic, app)
  else
    match lireEtat app with
    | (.error code, app) =>
      let (now, app) := maintenant app
      (.error code, { app with nextRefreshMs := now + sweetdawnRefreshRetryMs })
    | (.ok (), app) =>
      let (now, app) := maintenant app
      (.ok (), { app with
        lastRefreshMs := now
        nextRefreshMs := now + sweetdawnRefreshIntervalMs
        connectBackoffMs := 0 })

/-- `sweetdawn_tick`: one turn, on a link that is closed or open. -/
def sweetdawnTick (app : SweetDawn σ) : SweetDawn σ :=
  if ¬ app.initialized then app
  else
    let (now, app) := maintenant app
    if ¬ app.connected then
      if now < app.nextConnectMs then app
      else
        match sweetdawnConnect app with
        -- a failed attempt is dated from its end: it can be long
        | (.error _, app) => programmerReconnexion app
        | (.ok (), app) => (sweetdawnRefresh { app with connectCount := app.connectCount + 1 }).2
    else
      let app := lireEvenements app
      if app.connected ∧ now ≥ app.nextRefreshMs then (sweetdawnRefresh app).2 else app

/-- `sweetdawn_is_connected` -/
def sweetdawnIsConnected (app : SweetDawn σ) : Bool := app.initialized && app.connected

/-- `sweetdawn_state_age_ms`: -1 as long as nothing has been read. -/
def sweetdawnStateAgeMs (app : SweetDawn σ) : Int × SweetDawn σ :=
  if ¬ app.initialized ∨ app.lastRefreshMs < 0 then (-1, app)
  else
    let (now, app) := maintenant app
    (now - app.lastRefreshMs, app)

end AmlService
