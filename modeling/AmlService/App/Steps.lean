import AmlService.App.Handlers
import AmlService.Lib.Run

/-!
# AmlService.App.Steps

What each function of the handlers does to the service. Three kinds of steps:

* `Notes`: the messages received are noted, and nothing else changes in the static
  variables. So do all requests but `Alarm/Stop` and `Alarm/Snooze`, and the tick of
  the core.
* `Handles`: no settings, no clock. So do the first two parts of the periodic task.
* `Records`: settings and clock follow the journal. So does every step.
-/

namespace AmlService

open Effect

/-! ### Noting messages -/

/-- The handler of the events is the one that the service registers. -/
def Attached (s : Service) : Prop := s.onEvent = some handlersOnEvent

/-- What the queue keeps of a message. -/
def noterTrame (file : FileEvenements) (ev : UInt8 × List UInt8) : FileEvenements :=
  if ev.1 = amlEvtLightRefresh then file else file.push { code := ev.1, value := ev.2.headD 0 }

theorem handlersOnEvent_file (e : HandlersState) (ev : UInt8 × List UInt8) :
    (handlersOnEvent e ev.1 ev.2).file = noterTrame e.file ev := by
  unfold handlersOnEvent noterTrame
  split <;> rfl

/-- Messages were noted: in the queue, or by the flag of the lights. -/
structure Noted (events : List (UInt8 × List UInt8)) (e e' : HandlersState) : Prop where
  same : e' = { e with file := e'.file, eclairageChange := e'.eclairageChange }
  file : e'.file = events.foldl noterTrame e.file
  queued : ∃ more, e'.file.entries = e.file.entries ++ more ∧ ∀ x ∈ more, x.code ∈ events.map Prod.fst
  eclairageChange : e'.eclairageChange =
    (e.eclairageChange || events.any fun ev => ev.1 == amlEvtLightRefresh)

theorem Noted.refl (e : HandlersState) : Noted [] e e :=
  ⟨rfl, rfl, ⟨[], (List.append_nil _).symm, by simp⟩, (Bool.or_false _).symm⟩

theorem Noted.trans {events events' : List (UInt8 × List UInt8)} {e e' e'' : HandlersState}
    (h : Noted events e e') (h' : Noted events' e' e'') : Noted (events ++ events') e e'' where
  same := by rw [h'.same, h.same]
  file := by rw [h'.file, h.file, List.foldl_append]
  queued := by
    obtain ⟨more, hmore, hcodes⟩ := h.queued
    obtain ⟨more', hmore', hcodes'⟩ := h'.queued
    refine ⟨more ++ more', by rw [hmore', hmore, List.append_assoc], ?_⟩
    intro x hx
    rw [List.map_append, List.mem_append]
    exact (List.mem_append.mp hx).imp (hcodes x) (hcodes' x)
  eclairageChange := by
    rw [h'.eclairageChange, h.eclairageChange, List.any_append, Bool.or_assoc]

theorem FileEvenements.push_entries (file : FileEvenements) (e : Evenement) :
    (file.push e).entries = file.entries ++ [e] ∨ (file.push e).entries = file.entries := by
  unfold FileEvenements.push
  split
  · exact .inl rfl
  · exact .inr rfl

theorem handlersOnEvent_noted (e : HandlersState) (ev : UInt8 × List UInt8) :
    Noted [ev] e (handlersOnEvent e ev.1 ev.2) := by
  have hfile := handlersOnEvent_file e ev
  unfold handlersOnEvent at hfile ⊢
  split at hfile
  · next hcode =>
    rw [if_pos hcode]
    exact ⟨rfl, hfile, ⟨[], (List.append_nil _).symm, by simp⟩, by simp [hcode]⟩
  · next hcode =>
    rw [if_neg hcode]
    refine ⟨rfl, hfile, ?_, by simp [hcode]⟩
    rcases e.file.push_entries { code := ev.1, value := ev.2.headD 0 } with h | h
    · exact ⟨_, h, by simp⟩
    · exact ⟨[], by rw [h, List.append_nil], by simp⟩

theorem foldl_noted (events : List (UInt8 × List UInt8)) (e : HandlersState) :
    Noted events e (events.foldl (handle (some handlersOnEvent)) e) := by
  induction events generalizing e with
  | nil => exact .refl e
  | cons ev events ih =>
    have hfirst := handlersOnEvent_noted e ev
    exact hfirst.trans (ih _)

theorem Traced.noted {added : List Obs} {a b : Service} (h : Traced added a b) (ha : Attached a) :
    Noted (eventsOf added) a.eventContext b.eventContext := by
  rw [h.context, ha]
  exact foldl_noted _ _

/-! ### Steps that note messages -/

/-- Messages noted, and in the journal nothing outside `P`. -/
def Notes (P : Obs → Prop) (a b : Service) : Prop :=
  Attached a → ∃ added, Recorded added a b ∧
    Noted (eventsOf added) a.eventContext b.eventContext ∧ ∀ o ∈ added, P o

instance (P : Obs → Prop) : IsPreorder Service (Notes P) where
  refl a := fun _ => ⟨[], .refl a, .refl _, by simp⟩
  trans a b c := by
    intro h h' ha
    obtain ⟨added, hrec, hnoted, hall⟩ := h ha
    obtain ⟨added', hrec', hnoted', hall'⟩ := h' (hrec.onEvent.trans ha)
    refine ⟨added ++ added', hrec.trans hrec', ?_, ?_⟩
    · rw [eventsOf_append]
      exact hnoted.trans hnoted'
    · intro o ho
      exact (List.mem_append.mp ho).elim (hall o) (hall' o)

theorem Notes.mono {P Q : Obs → Prop} (hsub : ∀ o, P o → Q o) {a b : Service} (h : Notes P a b) :
    Notes Q a b := by
  intro ha
  obtain ⟨added, hrec, hnoted, hall⟩ := h ha
  exact ⟨added, hrec, hnoted, fun o ho => hsub o (hall o ho)⟩

/-- What the core may leave in the journal. -/
abbrev OfCore (o : Obs) : Prop := o.ofCore = true

/-- Anything but a broadcast; an offset noted is rounded. -/
def Silent : Obs → Prop
  | .broadcast _ _ => False
  | .clockNoted offset _ => arrondir offset = offset
  | _ => True

theorem silent_of_ofCore (o : Obs) (h : OfCore o) : Silent o := by
  cases o <;> trivial

theorem arrondir_arrondir (offset : Int) : arrondir (arrondir offset) = arrondir offset := by
  by_cases h : -1 ≤ offset ∧ offset ≤ 1
  · simp [arrondir, h]
  · simp [arrondir, h]

theorem Runs.notes {a b : Service} (h : Runs a b) : Notes OfCore a b := by
  intro ha
  obtain ⟨added, htraced⟩ := h
  exact ⟨added, htraced.toRecorded, htraced.noted ha, htraced.core⟩

/-- Readings of the clocks: nothing for the journal. -/
theorem Recorded.of_clock {s : Service} {world : World} (h : World.Extends [] s.world world) :
    Recorded [] s { s with world } where
  world := h
  state := rfl
  clock := rfl
  onEvent := rfl
  device := rfl
  initialized := rfl
  wired hw := hw.kept rfl rfl (h.journal.trans (List.append_nil _))

theorem maintenant_recorded (s : Service) : Recorded [] s (maintenant s).2 :=
  .of_clock (.monotonicMs s.world)

theorem heureSysteme_recorded (s : Service) : Recorded [] s (heureSysteme s).2 :=
  .of_clock (.time s.world)

/-- A step that leaves the static variables alone. -/
theorem Recorded.notes {P : Obs → Prop} {added : List Obs} {a b : Service} (h : Recorded added a b)
    (hcontext : b.eventContext = a.eventContext) (hevents : eventsOf added = [])
    (hall : ∀ o ∈ added, P o) : Notes P a b := by
  intro _
  refine ⟨added, h, ?_, hall⟩
  rw [hcontext, hevents]
  exact .refl _

theorem heureSysteme_notes (P : Obs → Prop) (s : Service) : Notes P s (heureSysteme s).2 :=
  (heureSysteme_recorded s).notes rfl rfl (by simp)

/-- What `noter_heure` leaves in the journal. -/
def heureNotee (tm : Tm) (s : Service) : Obs :=
  .clockNoted (arrondir ((s.world.zone.mktime { tm with isdst := -1 }).1 -
    s.world.wall s.world.wallReads)) (s.world.clock s.world.clockReads)

/-- `noter_heure` says in the journal what it records. -/
theorem noterHeure_recorded (tm : Tm) (s : Service) :
    Recorded [heureNotee tm s] s (noterHeure tm s) where
  world := ⟨rfl, rfl, rfl, rfl, Nat.le_succ _, Nat.le_succ _⟩
  state := rfl
  clock := rfl
  onEvent := rfl
  device := rfl
  initialized := rfl
  wired hw := hw.logged rfl rfl rfl fun _ _ => id

theorem noterHeure_notes (tm : Tm) (s : Service) : Notes Silent s (noterHeure tm s) :=
  (noterHeure_recorded tm s).notes rfl rfl (by simp [heureNotee, Silent, arrondir_arrondir])

/-! ### The requests -/

section Requests

variable {P : Obs → Prop} {codes : UInt8 → Prop}

theorem verifier_ok {α : Type} {m : AmlM HandlersState α} {a : α} {s s' : Service}
    (h : m s = (.ok a, s')) : verifier m s = (.ok a, s') :=
  mapError_ok.mpr h

theorem verifier_error {α : Type} {m : AmlM HandlersState α} {code : AmlErr} {s s' : Service}
    (h : m s = (.error code, s')) : verifier m s = (.error (erreurAml code), s') :=
  mapError_error h

/-- What it gives comes from what the core gives. -/
theorem verifier_inv {α : Type} {m : AmlM HandlersState α} {r : Except HandlerError α} {s s' : Service}
    (h : verifier m s = (r, s')) : ∃ result, m s = (result, s') ∧ r = result.mapError erreurAml := by
  rcases hm : m s with ⟨code | a, later⟩
  · rw [verifier_error hm] at h
    obtain ⟨rfl, rfl⟩ := Prod.mk.inj h
    exact ⟨_, rfl, rfl⟩
  · rw [verifier_ok hm] at h
    obtain ⟨rfl, rfl⟩ := Prod.mk.inj h
    exact ⟨_, rfl, rfl⟩

theorem verifier_notes {α : Type} {m : AmlM HandlersState α} (h : Keeps (Serves codes) m) :
    Keeps (Notes OfCore) (verifier m) :=
  (h.mono fun hserves => hserves.runs.notes).mapError erreurAml

/-- The same, for a request that records no settings. -/
theorem verifier_talks {α : Type} {m : AmlM HandlersState α} (h : Keeps (Talks codes) m) :
    Keeps (Notes OfCore) (verifier m) :=
  verifier_notes (h.mono Talks.serves)

theorem heureLocale_notes : Keeps (Notes P) (Fallible.lift heureLocale : HandlerM Tm) :=
  fun s => heureSysteme_notes P s

theorem lireReglages_notes (command : Command) : Keeps (Notes OfCore) (lireReglages command) :=
  .bind .get fun _ => .ite (fun _ => .throw _) fun _ =>
    .bind (verifier_notes sweetdawnRefresh_serves) fun _ => .bind .get fun _ => .pure _

theorem repasserEnAuto_notes : Keeps (Notes OfCore) repasserEnAuto :=
  .bind .get fun _ => .ite (fun _ => verifier_notes (controlSettingsWrite_serves _)) fun _ => .pure _

theorem envoyerHeure_notes (tm : Tm) : Keeps (Notes Silent) (envoyerHeure tm) := by
  have hcore : ∀ {α : Type} {m : HandlerM α}, Keeps (Notes OfCore) m → Keeps (Notes Silent) m :=
    fun h => h.mono fun hn => hn.mono silent_of_ofCore
  refine .bind .get fun _ => .ite (fun _ => .throw _) fun _ => ?_
  refine .bind (hcore repasserEnAuto_notes) fun _ => ?_
  exact .bind (hcore (verifier_talks (controlSyncTime_talks tm))) fun _ => .act (noterHeure_notes tm)

/-- Without its second half, `Settings/Time`, a setting written is nothing but core. -/
theorem ecrireReglage_core {command : Command} (hname : command.name ≠ "Time") (value : String) :
    Keeps (Notes OfCore) (ecrireReglage command value) := by
  refine .bind .get fun s => .ite (fun _ => .throw _) fun _ => ?_
  refine .bind (verifier_notes (controlSettingsWrite_serves _)) fun _ => .ite ?_ fun _ => .pure _
  intro hboth
  simp [hname] at hboth

theorem ecrireReglage_notes (command : Command) (value : String) :
    Keeps (Notes Silent) (ecrireReglage command value) := by
  refine .bind .get fun s => .ite (fun _ => .throw _) fun _ => ?_
  refine .bind ((verifier_notes (controlSettingsWrite_serves _)).mono
    fun hn => hn.mono silent_of_ofCore) fun _ => ?_
  exact .ite (fun _ => .bind heureLocale_notes envoyerHeure_notes) fun _ => .pure _

theorem synchroniserHeure_notes : Keeps (Notes Silent) synchroniserHeure :=
  .bind heureLocale_notes envoyerHeure_notes

theorem reglerHeure_notes (value : String) : Keeps (Notes Silent) (reglerHeure value) := by
  refine .bind (.lift (heureSysteme_notes Silent)) fun now => .bind .get fun s => ?_
  cases lireDateHeure s.world.zone value now with
  | none => exact .throw _
  | some chosen => exact envoyerHeure_notes chosen

theorem horlogeAml_notes (s : Service) : Notes P s (horlogeAml s).2 := by
  unfold horlogeAml
  split
  · exact refl_of (Notes P) s
  · exact heureSysteme_notes P s

theorem prochaineAlarme_notes (alarm : ControlAlarm) (s : Service) :
    Notes P s (prochaineAlarme alarm s).2 := by
  unfold prochaineAlarme
  split
  · exact refl_of (Notes P) s
  · have hclock : Notes P s (horlogeAml s).2 := horlogeAml_notes s
    rcases hc : horlogeAml s with ⟨_ | amlNow, later⟩ <;> rw [hc] at hclock <;> exact hclock

theorem alarmeJson_notes (group : Command) (alarm : ControlAlarm) :
    Keeps (Notes P) (Fallible.lift (alarmeJson group alarm) : HandlerM JsonValue) := by
  intro s
  show Notes P s (alarmeJson group alarm s).2
  unfold alarmeJson
  have hnext : Notes P s (prochaineAlarme alarm s).2 := prochaineAlarme_notes alarm s
  rcases hp : prochaineAlarme alarm s with ⟨_ | delay, later⟩ <;> rw [hp] at hnext
  · exact hnext
  · exact trans_of (Notes P) hnext (heureSysteme_notes P later)

theorem lireAlarme_notes (command : Command) : Keeps (Notes OfCore) (lireAlarme command) :=
  .bind (verifier_talks (controlAlarmQuery_talks _)) fun _ => alarmeJson_notes command _

theorem lireAlarmes_notes (command : Command) : Keeps (Notes OfCore) (lireAlarmes command) :=
  .bind (verifier_talks (controlAlarmQuery_talks 0)) fun _ => .bind (alarmeJson_notes _ _) fun _ =>
    .bind (verifier_talks (controlAlarmQuery_talks 1)) fun _ => .bind (alarmeJson_notes _ _) fun _ =>
      .pure _

theorem ecrireAlarme_notes (command parent : Command) (value : String) :
    Keeps (Notes OfCore) (ecrireAlarme command parent value) :=
  .ite (fun _ => .throw _) fun _ => .bind (verifier_talks (controlAlarmQuery_talks _)) fun _ =>
    verifier_talks (controlAlarmWrite_talks _ _)

theorem lireLumiere_notes (command : Command) : Keeps (Notes OfCore) (lireLumiere command) :=
  .bind (verifier_talks (controlLightQuery_talks _)) fun _ => .pure _

theorem ecrireLumiere_notes (command parent : Command) (value : String) :
    Keeps (Notes OfCore) (ecrireLumiere command parent value) := by
  refine .ite (fun _ => verifier_talks (controlLightEnable_talks _ _)) fun _ => ?_
  refine .ite (fun _ => verifier_talks (controlLightBrightness_talks _ _)) fun _ => ?_
  refine .ite (fun _ => verifier_talks (controlLightTimerEnable_talks _ _)) fun _ => ?_
  refine .ite (fun _ => verifier_talks (controlLightTimer_talks _ _)) fun _ => ?_
  refine .ite (fun _ => ?_) fun _ => verifier_talks (controlMoodScene_talks _)
  cases lireCouleur value with
  | none => exact .throw _
  | some color => exact verifier_talks (controlMoodColor_talks _ _ _)

theorem lireRadio_notes : Keeps (Notes OfCore) lireRadio :=
  .bind (verifier_talks controlRadioQuery_talks) fun _ => .pure _

theorem changerFrequence_notes (command : Command) : Keeps (Notes OfCore) (changerFrequence command) :=
  .bind (verifier_talks (controlRadioTune_talks _)) fun _ => .pure _

theorem ecrireRadio_notes (command : Command) (value : String) :
    Keeps (Notes OfCore) (ecrireRadio command value) := by
  refine .ite (fun _ => verifier_talks (controlRadioEnable_talks _)) fun _ => ?_
  refine .ite (fun _ => verifier_talks (controlRadioPreset_talks _)) fun _ => ?_
  refine .ite (fun _ => verifier_talks (controlRadioVolume_talks _)) fun _ => ?_
  refine .ite (fun _ => verifier_talks (controlRadioTimerEnable_talks _)) fun _ => ?_
  exact verifier_talks (controlRadioTimer_talks _)

theorem ecrireHautParleur_notes (value : String) :
    Keeps (Notes OfCore) (ecrireHautParleur value) :=
  verifier_talks (controlSpeakerEnable_talks _)

theorem sansResultat_run {m : HandlerM Unit} (s : Service) : (sansResultat m s).2 = (m s).2 := by
  unfold sansResultat
  rw [bind_run]
  rcases m s with ⟨_ | _, later⟩ <;> rfl

theorem sansResultat_ok {m : HandlerM Unit} {result : JsonValue} {s s' : Service}
    (h : sansResultat m s = (.ok result, s')) : m s = (.ok (), s') := by
  obtain ⟨_, later, hm, hresult⟩ := bind_run_inv h
  obtain ⟨-, rfl⟩ := Prod.mk.inj hresult
  exact hm

theorem sansResultat_notes {m : HandlerM Unit} (h : Keeps (Notes P) m) :
    Keeps (Notes P) (sansResultat m) :=
  .bind h fun _ => .pure _

/-- A request that sets the time of the AML, or its time mode. -/
def CommandHandler.setsTime (handler : CommandHandler) (command : Command) : Bool :=
  match handler with
  | .ecrireReglage => command.name == "Time"
  | .synchroniserHeure | .reglerHeure => true
  | _ => false

def Action.setsTime : Action → Bool
  | .request handler command _ _ => handler.setsTime command
  | _ => false

/-- **A request that does not act on the alarms, nor on the time.** -/
theorem call_core {handler : CommandHandler} {command : Command} (halarm : handler ≠ .agirSurAlarme)
    (htime : handler.setsTime command = false) (parent : Command) (value : String) :
    Keeps (Notes OfCore) (handler.call command parent value) := by
  cases handler with
  | lireReglages => exact lireReglages_notes command
  | ecrireReglage =>
    exact sansResultat_notes (ecrireReglage_core (by simpa [CommandHandler.setsTime] using htime) value)
  | synchroniserHeure | reglerHeure => cases htime
  | lireAlarmes => exact lireAlarmes_notes command
  | lireAlarme => exact lireAlarme_notes command
  | ecrireAlarme => exact sansResultat_notes (ecrireAlarme_notes command parent value)
  | agirSurAlarme => exact absurd rfl halarm
  | lireLumiere => exact lireLumiere_notes command
  | ecrireLumiere => exact sansResultat_notes (ecrireLumiere_notes command parent value)
  | lireRadio => exact lireRadio_notes
  | changerFrequence => exact changerFrequence_notes command
  | ecrireRadio => exact sansResultat_notes (ecrireRadio_notes command value)
  | ecrireHautParleur => exact sansResultat_notes (ecrireHautParleur_notes value)

/-- **A request that does not act on the alarms.** -/
theorem call_notes {handler : CommandHandler} (halarm : handler ≠ .agirSurAlarme)
    (command parent : Command) (value : String) :
    Keeps (Notes Silent) (handler.call command parent value) := by
  cases htime : handler.setsTime command with
  | false =>
    exact (call_core halarm htime parent value).mono fun hn => hn.mono silent_of_ofCore
  | true =>
    cases handler with
    | ecrireReglage => exact sansResultat_notes (ecrireReglage_notes command value)
    | synchroniserHeure => exact sansResultat_notes synchroniserHeure_notes
    | reglerHeure => exact sansResultat_notes (reglerHeure_notes value)
    | _ => cases htime

theorem statusJson_notes (s : Service) : Notes P s (statusJson s).2 := by
  have hage : Notes P s (sweetdawnStateAgeMs s).2 := by
    unfold sweetdawnStateAgeMs
    split
    · exact refl_of (Notes P) s
    · exact (maintenant_recorded s).notes rfl rfl (by simp)
  unfold statusJson
  dsimp only
  split
  · exact trans_of (Notes P) hage (horlogeAml_notes _)
  · exact horlogeAml_notes s

end Requests

end AmlService
