import AmlService.App.Steps

/-!
# AmlService.App.Periodic

The parts of the periodic task, as steps. The first two, `traiter_evenements` and
`suivre_reveil`, neither record settings nor touch the clock (`Handles`); whatever the
step, settings and clock follow the journal (`Records`).
-/

namespace AmlService

open Effect

/-! ### Steps without settings or clock -/

/-- Nothing about settings, the clock, or a connection. -/
def Obs.neutral : Obs → Bool
  | .opened | .settingsRead _ | .settingsWritten _ | .clockNoted _ _ => false
  | _ => true

theorem settingsAfter_of_neutral {added : List Obs} (h : ∀ o ∈ added, o.neutral = true)
    (state : AmlState) : settingsAfter state added = state := by
  refine Run.foldl_fixed (fun o ho state => ?_) state
  have hneutral := h o ho
  cases o <;> first | rfl | cases hneutral

theorem clockAfter_of_core {added : List Obs} (h : ∀ o ∈ added, ∀ offset ms, o ≠ .clockNoted offset ms)
    (clock : ClockKnowledge) : clockAfter clock added = clock := by
  refine Run.foldl_fixed (fun o ho clock => ?_) clock
  have hcore := h o ho
  cases o with
  | clockNoted offset ms => exact absurd rfl (hcore offset ms)
  | _ => rfl

/-- A step of the handlers on an open link, which may be lost. -/
structure Handled (added : List Obs) (a b : Service) : Prop extends Recorded added a b where
  connectCount : b.connectCount = a.connectCount
  wallReads : b.world.wallReads = a.world.wallReads
  stays : b.connected = true → a.connected = true
  closed : Wired a → a.connected = true → b.connected = false → .closed ∈ added
  neutral : ∀ o ∈ added, o.neutral = true
  nextAttemptMs : b.eventContext.nextAttemptMs = a.eventContext.nextAttemptMs

section Composition

variable {added added' : List Obs} {a b c : Service}

theorem Handled.refl (a : Service) : Handled [] a a :=
  { Recorded.refl a with
    connectCount := rfl, wallReads := rfl, stays := id, neutral := by simp, nextAttemptMs := rfl
    closed := fun _ hc hn => absurd (hc.symm.trans hn) (by simp) }

theorem Handled.trans (h : Handled added a b) (h' : Handled added' b c) :
    Handled (added ++ added') a c where
  toRecorded := h.toRecorded.trans h'.toRecorded
  connectCount := h'.connectCount.trans h.connectCount
  wallReads := h'.wallReads.trans h.wallReads
  stays hc := h.stays (h'.stays hc)
  closed := by
    intro hw ha hc
    cases hb : b.connected with
    | false => exact List.mem_append_left _ (h.closed hw ha hb)
    | true => exact List.mem_append_right _ (h'.closed (h.wired hw) hb hc)
  neutral := by
    intro o ho
    exact (List.mem_append.mp ho).elim (h.neutral o) (h'.neutral o)
  nextAttemptMs := h'.nextAttemptMs.trans h.nextAttemptMs

theorem Handled.state_eq (h : Handled added a b) : b.state = a.state := by
  rw [h.state, settingsAfter_of_neutral h.neutral]

theorem Handled.clock_eq (h : Handled added a b) : b.clockKnowledge = a.clockKnowledge := by
  rw [h.clock, clockAfter_of_core]
  intro o ho offset ms hn
  have hneutral := h.neutral o ho
  rw [hn] at hneutral
  cases hneutral

theorem Exchange.handled (h : Exchange added a b) (ha : Attached a) : Handled added a b where
  toRecorded := h.toRecorded
  connectCount := h.connectCount
  wallReads := h.wallReads
  stays := h.stays
  closed := h.closed
  neutral := by
    intro o ho
    have hlink := h.onLink o ho
    cases o <;> first | rfl | cases hlink
  nextAttemptMs := by rw [(h.toTraced.noted ha).same]

end Composition

/-- Such a step, that sends no other codes than `codes`. -/
def Handles (codes : UInt8 → Prop) (a b : Service) : Prop :=
  Attached a → ∃ added, Handled added a b ∧ SentCodes codes added

instance (codes : UInt8 → Prop) : IsPreorder Service (Handles codes) where
  refl a := fun _ => ⟨[], .refl a, .nil codes⟩
  trans a b c := by
    intro h h' ha
    obtain ⟨added, hstep, hcodes⟩ := h ha
    obtain ⟨added', hstep', hcodes'⟩ := h' (hstep.onEvent.trans ha)
    exact ⟨added ++ added', hstep.trans hstep', hcodes.append hcodes'⟩

theorem Handles.mono {codes codes' : UInt8 → Prop} {a b : Service} (hsub : ∀ c, codes c → codes' c)
    (h : Handles codes a b) : Handles codes' a b := by
  intro ha
  obtain ⟨added, hstep, hcodes⟩ := h ha
  exact ⟨added, hstep, fun r hr => hsub _ (hcodes r hr)⟩

/-- A light-change frame was received. -/
def LightEvent (added : List Obs) : Prop := ∃ ev ∈ eventsOf added, ev.1 = amlEvtLightRefresh

instance : DecidablePred LightEvent := fun added =>
  inferInstanceAs (Decidable (∃ ev ∈ eventsOf added, ev.1 = amlEvtLightRefresh))

/-- Such a step, that does not forget that the lights are to be read. -/
structure Attentive (added : List Obs) (a b : Service) : Prop extends Handled added a b where
  eclairage : a.eventContext.eclairageChange = true ∨ LightEvent added →
    b.eventContext.eclairageChange = true

theorem LightEvent.append {added added' : List Obs} :
    LightEvent (added ++ added') ↔ LightEvent added ∨ LightEvent added' := by
  simp only [LightEvent, eventsOf_append, List.mem_append, or_and_right, exists_or]

theorem Attentive.refl (a : Service) : Attentive [] a a :=
  { Handled.refl a with eclairage := fun h => h.resolve_right (by simp [LightEvent, eventsOf]) }

theorem Attentive.trans {added added' : List Obs} {a b c : Service} (h : Attentive added a b)
    (h' : Attentive added' b c) : Attentive (added ++ added') a c where
  toHandled := h.toHandled.trans h'.toHandled
  eclairage := by
    rw [LightEvent.append, ← or_assoc]
    exact fun hset => h'.eclairage (hset.imp_left h.eclairage)

theorem Noted.eclairage {added : List Obs} {e e' : HandlersState} (h : Noted (eventsOf added) e e')
    (hset : e.eclairageChange = true ∨ LightEvent added) : e'.eclairageChange = true := by
  rw [h.eclairageChange, Bool.or_eq_true]
  refine hset.imp_right fun hlight => ?_
  obtain ⟨ev, hev, hcode⟩ := hlight
  exact List.any_eq_true.mpr ⟨ev, hev, by rw [hcode]; rfl⟩

theorem Exchange.attentive {added : List Obs} {a b : Service} (h : Exchange added a b)
    (ha : Attached a) : Attentive added a b :=
  { h.handled ha with eclairage := (h.toTraced.noted ha).eclairage }

def Attends (codes : UInt8 → Prop) (a b : Service) : Prop :=
  Attached a → ∃ added, Attentive added a b ∧ SentCodes codes added

instance (codes : UInt8 → Prop) : IsPreorder Service (Attends codes) where
  refl a := fun _ => ⟨[], .refl a, .nil codes⟩
  trans a b c := by
    intro h h' ha
    obtain ⟨added, hstep, hcodes⟩ := h ha
    obtain ⟨added', hstep', hcodes'⟩ := h' (hstep.onEvent.trans ha)
    exact ⟨added ++ added', hstep.trans hstep', hcodes.append hcodes'⟩

theorem Attends.handles {codes : UInt8 → Prop} {a b : Service} (h : Attends codes a b) :
    Handles codes a b :=
  fun ha => (h ha).imp fun _ hstep => ⟨hstep.1.toHandled, hstep.2⟩

theorem Talks.attends {codes : UInt8 → Prop} {a b : Service} (h : Talks codes a b) :
    Attends codes a b := by
  intro ha
  obtain ⟨added, hex, hcodes⟩ := h
  exact ⟨added, hex.attentive ha, hcodes⟩

theorem note_recorded (s : Service) (f : HandlersState → HandlersState) : Recorded [] s (s.note f) where
  world := .refl s.world
  state := rfl
  clock := rfl
  onEvent := rfl
  device := rfl
  initialized := rfl
  wired hw := ⟨hw.descriptor, hw.scanned⟩

/-- A note that changes other things than the lights and the clock. -/
theorem note_attends (codes : UInt8 → Prop) (s : Service) {f : HandlersState → HandlersState}
    (hf : ∀ e, (f e).nextAttemptMs = e.nextAttemptMs ∧
      (e.eclairageChange = true → (f e).eclairageChange = true)) : Attends codes s (s.note f) := by
  intro _
  refine ⟨[], ?_, .nil codes⟩
  exact { note_recorded s f with
    connectCount := rfl, wallReads := rfl, stays := id, neutral := by simp
    nextAttemptMs := (hf s.eventContext).1
    closed := fun _ hc hn => absurd (hc.symm.trans hn) (by simp)
    eclairage := fun h => (hf s.eventContext).2 (h.resolve_right (by simp [LightEvent, eventsOf])) }

/-- A change of the tracking: neither the queue, nor the lights, nor the clock. -/
structure Aside (f : HandlersState → HandlersState) : Prop where
  file : ∀ e, (f e).file = e.file
  eclairageChange : ∀ e, (f e).eclairageChange = e.eclairageChange
  nextAttemptMs : ∀ e, (f e).nextAttemptMs = e.nextAttemptMs

theorem Aside.attends {f : HandlersState → HandlersState} (h : Aside f) (codes : UInt8 → Prop)
    (s : Service) : Attends codes s (s.note f) :=
  note_attends codes s fun e => ⟨h.nextAttemptMs e, fun hset => (h.eclairageChange e).trans hset⟩

/-- What `diffuser` leaves in the journal. -/
def diffusion (name : String) (data : JsonValue) (s : Service) : List Obs :=
  if s.eventContext.diffuser then [.broadcast name data] else []

theorem diffuser_journal (name : String) (data : JsonValue) (s : Service) :
    (diffuser name data s).world.journal = s.world.journal ++ diffusion name data s := by
  unfold diffuser diffusion
  split
  · rfl
  · simp

theorem diffuser_recorded (name : String) (data : JsonValue) (s : Service) :
    Recorded (diffusion name data s) s (diffuser name data s) := by
  unfold diffuser diffusion
  split
  · exact {
      world := .log s.world _
      state := rfl
      clock := rfl
      onEvent := rfl
      device := rfl
      initialized := rfl
      wired := fun hw => hw.logged rfl rfl rfl fun _ _ => id }
  · exact .refl s

@[simp] theorem diffuser_eventContext (name : String) (data : JsonValue) (s : Service) :
    (diffuser name data s).eventContext = s.eventContext := by
  unfold diffuser
  split <;> rfl

theorem diffuser_attends (codes : UInt8 → Prop) (name : String) (data : JsonValue) (s : Service) :
    Attends codes s (diffuser name data s) := by
  intro _
  refine ⟨diffusion name data s, ?_, ?_⟩
  · unfold diffuser diffusion
    split
    · next hon =>
      have hrec := diffuser_recorded name data s
      rw [diffuser, diffusion, if_pos hon, if_pos hon] at hrec
      exact { hrec with
        connectCount := rfl, wallReads := rfl, stays := id
        neutral := by simp [Obs.neutral], nextAttemptMs := rfl
        closed := fun _ hc hn => absurd (hc.symm.trans hn) (by simp)
        eclairage := fun h => h.resolve_right (by simp [LightEvent, eventsOf, Obs.event?]) }
    · exact .refl s
  · intro request hr
    unfold diffusion at hr
    split at hr <;> simp at hr

/-! ### The parts of the periodic task -/

section Parts

/-- The code of a reading of the lights. -/
abbrev lightCodes : UInt8 → Prop := fun c => c = amlReqLightQuery

/-- The codes of the tracking of the alarms. -/
abbrev alarmCodes : UInt8 → Prop := fun c => c = amlReqAlarmStatus ∨ c = amlReqAlarm

variable {codes : UInt8 → Prop}

/-- The clients are told. -/
theorem annonce_aside : Aside fun e => { e with reveilChange := false } :=
  ⟨fun _ => rfl, fun _ => rfl, fun _ => rfl⟩

theorem diffuserReveil_attends (s : Service) : Attends codes s (diffuserReveil s) := by
  unfold diffuserReveil
  split
  · exact trans_of (Attends codes) (annonce_aside.attends codes s) (diffuser_attends codes _ _ _)
  · exact refl_of (Attends codes) s

theorem changerAlarme_aside (n : Alarme) (etat : EtatReveil) : Aside (changerAlarme n etat) := by
  constructor <;>
    · intro e
      unfold changerAlarme
      split <;> rfl

theorem changerAlarme_modifier_aside (n : Alarme) (etat : EtatReveil) (f : SuiviAlarme → SuiviAlarme) :
    Aside fun e => changerAlarme n etat (e.modifier n f) where
  file e := (changerAlarme_aside n etat).file (e.modifier n f)
  eclairageChange e := (changerAlarme_aside n etat).eclairageChange (e.modifier n f)
  nextAttemptMs e := (changerAlarme_aside n etat).nextAttemptMs (e.modifier n f)

theorem surveillerDepuis_aside {f : HandlersState → HandlersState} (h : Aside f) (now : Int) :
    Aside fun e => surveillerDepuis now (f e) :=
  ⟨h.file, h.eclairageChange, h.nextAttemptMs⟩

theorem Aside.refl : Aside fun e => e := ⟨fun _ => rfl, fun _ => rfl, fun _ => rfl⟩

theorem debutLever_aside (now : Int) (value : UInt8) : Aside (debutLever now value) := by
  unfold debutLever
  cases alarmeDe value with
  | none => exact surveillerDepuis_aside .refl now
  | some n => exact surveillerDepuis_aside (changerAlarme_modifier_aside n _ _) now

theorem debutSonnerie_aside (now : Int) (value : UInt8) : Aside (debutSonnerie now value) := by
  unfold debutSonnerie
  cases alarmeDe value with
  | none => exact surveillerDepuis_aside .refl now
  | some n => exact surveillerDepuis_aside (changerAlarme_modifier_aside n _ _) now

/-- A sunrise or a ringing. -/
def debute (code : UInt8) : Bool := code == amlEvtSunriseStart || code == amlEvtAlarmRing

/-- The timer whose end a message tells. -/
def minuteurDe (e : Evenement) : Option String :=
  if e.code = amlEvtLightTimerEnd then some "light"
  else if e.code = amlEvtMoodTimerEnd then some "mood"
  else if e.code = amlEvtRadioTimerEnd then some "radio"
  else if e.code = amlEvtMusicTimerEnd then some "music"
  else none

/-- The end of this timer changes the lights. -/
def minuteurEclairage (e : Evenement) : Bool :=
  e.code == amlEvtLightTimerEnd || e.code == amlEvtMoodTimerEnd

/-- A sunrise or a ringing is not the end of a timer. -/
theorem minuteur_of_debute {e : Evenement} (h : debute e.code = true) :
    minuteurDe e = none ∧ minuteurEclairage e = false := by
  simp only [debute, Bool.or_eq_true, beq_iff_eq] at h
  unfold minuteurDe minuteurEclairage
  rcases h with hcode | hcode <;> rw [hcode] <;> decide

/-- **What a message does**: a sunrise or a ringing is noted, the end of a timer told; other
messages do nothing. -/
theorem traiterEvenement_cases (now : Int) (s : Service) (e : Evenement) :
    (e.code = amlEvtSunriseStart ∧ traiterEvenement now s e = s.note (debutLever now e.value)) ∨
    (e.code = amlEvtAlarmRing ∧ traiterEvenement now s e = s.note (debutSonnerie now e.value)) ∨
    debute e.code = false ∧
      ((minuteurEclairage e = true ∧ ∃ minuteur, minuteurDe e = some minuteur ∧ traiterEvenement now s e =
          diffuser "timer_ended" (minuteurJson minuteur) (s.note fun e => { e with eclairageChange := true })) ∨
        (minuteurEclairage e = false ∧ ∃ minuteur, minuteurDe e = some minuteur ∧
          traiterEvenement now s e = diffuser "timer_ended" (minuteurJson minuteur) s) ∨
        (minuteurEclairage e = false ∧ minuteurDe e = none ∧ traiterEvenement now s e = s)) := by
  unfold traiterEvenement debute minuteurDe minuteurEclairage
  by_cases hlever : e.code = amlEvtSunriseStart
  · exact .inl ⟨hlever, if_pos hlever⟩
  by_cases hsonne : e.code = amlEvtAlarmRing
  · exact .inr (.inl ⟨hsonne, by rw [if_neg hlever, if_pos hsonne]⟩)
  refine .inr (.inr ⟨by simp [hlever, hsonne], ?_⟩)
  rw [if_neg hlever, if_neg hsonne]
  by_cases hlight : e.code = amlEvtLightTimerEnd
  · exact .inl ⟨by simp [hlight], "light", if_pos hlight, if_pos hlight⟩
  rw [if_neg hlight, if_neg hlight]
  by_cases hmood : e.code = amlEvtMoodTimerEnd
  · exact .inl ⟨by simp [hmood], "mood", if_pos hmood, if_pos hmood⟩
  rw [if_neg hmood, if_neg hmood]
  have hother : (e.code == amlEvtLightTimerEnd || e.code == amlEvtMoodTimerEnd) = false := by
    simp [hlight, hmood]
  by_cases hradio : e.code = amlEvtRadioTimerEnd
  · exact .inr (.inl ⟨hother, "radio", if_pos hradio, if_pos hradio⟩)
  rw [if_neg hradio, if_neg hradio]
  by_cases hmusic : e.code = amlEvtMusicTimerEnd
  · exact .inr (.inl ⟨hother, "music", if_pos hmusic, if_pos hmusic⟩)
  · exact .inr (.inr ⟨hother, if_neg hmusic, if_neg hmusic⟩)

theorem traiterEvenement_attends (now : Int) (s : Service) (e : Evenement) :
    Attends codes s (traiterEvenement now s e) := by
  rcases traiterEvenement_cases now s e with ⟨-, heq⟩ | ⟨-, heq⟩ |
    ⟨-, ⟨-, minuteur, -, heq⟩ | ⟨-, minuteur, -, heq⟩ | ⟨-, -, heq⟩⟩ <;> rw [heq]
  · exact (debutLever_aside now e.value).attends codes s
  · exact (debutSonnerie_aside now e.value).attends codes s
  · have hnote : Attends codes s (s.note fun e => { e with eclairageChange := true }) :=
      note_attends codes s fun e => ⟨rfl, fun _ => rfl⟩
    exact trans_of (Attends codes) hnote (diffuser_attends codes _ _ _)
  · exact diffuser_attends codes _ _ s
  · exact refl_of (Attends codes) s

/-- The two lights are asked for, and the clients told if both have answered. -/
theorem relireEclairage_inv (s : Service) :
    ∃ later, Talks lightCodes s later ∧
      (relireEclairage s = later ∨ ∃ data, relireEclairage s = diffuser "light_changed" data later) := by
  have hlight : Talks lightCodes s (controlLightQuery .light s).2 := controlLightQuery_talks .light s
  unfold relireEclairage
  rcases hl : controlLightQuery .light s with ⟨_ | light, s₁⟩ <;> rw [hl] at hlight
  · exact ⟨s₁, hlight, .inl rfl⟩
  have hmood : Talks lightCodes s₁ (controlLightQuery .mood s₁).2 := controlLightQuery_talks .mood s₁
  dsimp only
  rcases hm : controlLightQuery .mood s₁ with ⟨_ | mood, s₂⟩ <;> rw [hm] at hmood
  · exact ⟨s₂, trans_of (Talks lightCodes) hlight hmood, .inl rfl⟩
  · exact ⟨s₂, trans_of (Talks lightCodes) hlight hmood, .inr ⟨_, rfl⟩⟩

/-- What relation covers the requests and the event covers `relire_eclairage`. -/
theorem relireEclairage_rel {R : Service → Service → Prop} [IsPreorder Service R]
    (htalks : ∀ {a b}, Talks lightCodes a b → R a b)
    (hdiffuser : ∀ data s, R s (diffuser "light_changed" data s)) (s : Service) :
    R s (relireEclairage s) := by
  obtain ⟨later, htold, heq | ⟨data, heq⟩⟩ := relireEclairage_inv s <;> rw [heq]
  · exact htalks htold
  · exact trans_of R (htalks htold) (hdiffuser data later)

theorem relireEclairage_attends (s : Service) : Attends lightCodes s (relireEclairage s) :=
  relireEclairage_rel Talks.attends (diffuser_attends lightCodes _) s

theorem foldl_traiterEvenement_attends (now : Int) (s : Service) (entries : List Evenement) :
    Attends codes s (entries.foldl (traiterEvenement now) s) :=
  Run.foldl_rel (traiterEvenement_attends now) s entries

/-- The messages worked off, and the clients told; the lights are still to be read. -/
def depouiller (now : Int) (s : Service) : Service :=
  diffuserReveil ((s.eventContext.file.entries.foldl (traiterEvenement now) s).note
    fun e => { e with file := .vide })

/-- The flag of the lights, taken before they are read. -/
def SweetDawn.prendreEclairage (s : Service) : Service :=
  s.note fun e => { e with eclairageChange := false }

theorem traiterEvenements_eq (now : Int) (s : Service) :
    traiterEvenements now s =
      if (depouiller now s).eventContext.eclairageChange then
        relireEclairage (depouiller now s).prendreEclairage
      else depouiller now s := rfl

theorem depouiller_attends (now : Int) (s : Service) : Attends codes s (depouiller now s) :=
  trans_of (Attends codes) (foldl_traiterEvenement_attends now s s.eventContext.file.entries)
    (trans_of (Attends codes) (note_attends codes _ (by intro e; exact ⟨rfl, id⟩))
      (diffuserReveil_attends _))

theorem prendreEclairage_handles (s : Service) : Handles codes s s.prendreEclairage := by
  intro _
  refine ⟨[], ?_, .nil codes⟩
  exact { note_recorded s fun e => { e with eclairageChange := false } with
    connectCount := rfl, wallReads := rfl, stays := id, neutral := by simp, nextAttemptMs := rfl
    closed := fun _ hc hn => absurd (hc.symm.trans hn) (by simp) }

theorem traiterEvenements_handles (now : Int) (s : Service) :
    Handles lightCodes s (traiterEvenements now s) := by
  rw [traiterEvenements_eq]
  split
  · exact trans_of (Handles lightCodes) (depouiller_attends now s).handles
      (trans_of (Handles lightCodes) (prendreEclairage_handles _) (relireEclairage_attends _).handles)
  · exact (depouiller_attends now s).handles

/-- `presumer_snooze`: an exchange, then the alarm is taken for snoozed. -/
theorem presumerSnooze_inv (n : Alarme) (now : Int) (s : Service) :
    ∃ later fin, Talks (· = amlReqAlarm) s later ∧ presumerSnooze n now s =
      later.note fun e => changerAlarme n .snooze (e.modifier n fun a => { a with finSnoozeMs := fin }) := by
  have htalks := controlAlarmQuery_talks n s
  unfold presumerSnooze
  rcases hq : controlAlarmQuery n s with ⟨_ | alarm, later⟩ <;> rw [hq] at htalks <;>
    exact ⟨later, _, htalks, rfl⟩

/-- The reading of the state of the alarms that `suivre_reveil` asks for. -/
def lireStatut (now : Int) (s : Service) : Except AmlErr (UInt8 × UInt8) × Service :=
  controlAlarmStatus (s.note fun e => { e with prochaineLectureMs := now + alarmWatchMs })

/-- The relation covers what the tracking of the alarms is made of: requests about the
alarms, changes of the tracking, and broadcasts. -/
structure CouvreSuivi (R : Service → Service → Prop) [IsPreorder Service R] : Prop where
  talks : ∀ {a b}, Talks alarmCodes a b → R a b
  note : ∀ (s : Service) {f}, Aside f → R s (s.note f)
  diffuser : ∀ name data s, R s (diffuser name data s)

section Tracking

variable {R : Service → Service → Prop} [IsPreorder Service R]

theorem CouvreSuivi.diffuserReveil (h : CouvreSuivi R) (s : Service) : R s (diffuserReveil s) := by
  unfold AmlService.diffuserReveil
  split
  · exact trans_of R (h.note s annonce_aside) (h.diffuser _ _ _)
  · exact refl_of R s

theorem CouvreSuivi.suivreAlarme (h : CouvreSuivi R) (lever sonne : UInt8) (now : Int) (n : Alarme)
    (s : Service) : R s (suivreAlarme lever sonne now n s) := by
  unfold AmlService.suivreAlarme
  dsimp only
  split
  · exact h.note s (changerAlarme_modifier_aside n _ _)
  split
  · exact h.note s (changerAlarme_aside n _)
  split
  · obtain ⟨later, fin, htalks, heq⟩ := presumerSnooze_inv n now s
    rw [heq]
    exact trans_of R (h.talks (htalks.mono fun _ => .inr)) (h.note later (changerAlarme_modifier_aside n _ _))
  split
  · exact refl_of R s
  · exact h.note s (changerAlarme_modifier_aside n _ _)

theorem CouvreSuivi.appliquerLecture (h : CouvreSuivi R) (lever sonne : UInt8) (now : Int)
    (s : Service) : R s (appliquerLecture lever sonne now s) := by
  have hboth : R s _ :=
    trans_of R (h.suivreAlarme lever sonne now 0 s) (h.suivreAlarme lever sonne now 1 _)
  unfold AmlService.appliquerLecture
  dsimp only
  split
  · exact trans_of R hboth (h.diffuserReveil _)
  · refine trans_of R hboth (trans_of R (h.note _ ?_) (h.diffuserReveil _))
    exact ⟨fun _ => rfl, fun _ => rfl, fun _ => rfl⟩

theorem CouvreSuivi.lireStatut (h : CouvreSuivi R) (now : Int) (s : Service) :
    R s (lireStatut now s).2 := by
  refine trans_of R (h.note s ?_) (h.talks ((controlAlarmStatus_talks _).mono fun _ => .inl))
  exact ⟨fun _ => rfl, fun _ => rfl, fun _ => rfl⟩

theorem CouvreSuivi.suivreReveil (h : CouvreSuivi R) (now : Int) (s : Service) :
    R s (suivreReveil now s) := by
  have hread : R s (AmlService.lireStatut now s).2 := h.lireStatut now s
  unfold AmlService.suivreReveil
  split
  · exact refl_of R s
  · rw [← AmlService.lireStatut]
    rcases hl : AmlService.lireStatut now s with ⟨_ | ⟨lever, sonne⟩, later⟩ <;> rw [hl] at hread
    · exact hread
    · exact trans_of R hread (h.appliquerLecture lever sonne now later)

end Tracking

theorem attends_couvre : CouvreSuivi (Attends alarmCodes) where
  talks := Talks.attends
  note s _ hf := hf.attends alarmCodes s
  diffuser := diffuser_attends alarmCodes

theorem appliquerLecture_attends (lever sonne : UInt8) (now : Int) (s : Service) :
    Attends alarmCodes s (appliquerLecture lever sonne now s) :=
  attends_couvre.appliquerLecture lever sonne now s

theorem suivreReveil_attends (now : Int) (s : Service) : Attends alarmCodes s (suivreReveil now s) :=
  attends_couvre.suivreReveil now s

theorem noterConnexion_attends (s : Service) : Attends codes s (noterConnexion s) := by
  unfold noterConnexion
  split
  · exact note_attends codes s (by intro e; exact ⟨rfl, id⟩)
  · exact refl_of (Attends codes) s

theorem maintenant_attends (s : Service) : Attends codes s (maintenant s).2 :=
  Talks.attends ⟨[], maintenant_exchange s, .nil codes⟩

end Parts

/-! ### The settings and the clock -/

/-- Settings and clock follow the journal. -/
def Records (a b : Service) : Prop := Attached a → ∃ added, Recorded added a b

instance : IsPreorder Service Records where
  refl a := fun _ => ⟨[], .refl a⟩
  trans a b c := by
    intro h h' ha
    obtain ⟨added, hrec⟩ := h ha
    obtain ⟨added', hrec'⟩ := h' (hrec.onEvent.trans ha)
    exact ⟨added ++ added', hrec.trans hrec'⟩

theorem Handles.records {codes : UInt8 → Prop} {a b : Service} (h : Handles codes a b) : Records a b :=
  fun ha => (h ha).imp fun _ hstep => hstep.1.toRecorded

theorem Notes.records {P : Obs → Prop} {a b : Service} (h : Notes P a b) : Records a b :=
  fun ha => (h ha).imp fun _ hstep => hstep.1

/-- The time that `entretenir_horloge` sets the AML to. -/
def heureVisee (s : Service) : Tm :=
  s.world.zone.localtime (cibleHorloge s (s.world.wall s.world.wallReads))

/-- What `entretenir_horloge` does once the AML has answered, or has not. -/
def conclureHorloge (nowMs : Int) (tm : Tm) : Except AmlErr Unit × Service → Service
  | (.ok (), s) => noterHeure tm s
  | (.error _, s) => s.note fun e => { e with nextAttemptMs := nowMs + clockRetryMs }

/-- `entretenir_horloge` leaves the clock alone, or sets it. -/
theorem entretenirHorloge_cases (nowMs : Int) (s : Service) :
    (s.state.auto = true ∧ horlogeRecente s nowMs = false ∧
      entretenirHorloge nowMs s =
        conclureHorloge nowMs (heureVisee s) (controlSyncTime (heureVisee s) (heureSysteme s).2)) ∨
    ((s.state.auto = true → horlogeRecente s nowMs = true) ∧ entretenirHorloge nowMs s = s) := by
  unfold entretenirHorloge
  split
  · next hmode =>
    refine .inr ⟨fun hauto => ?_, rfl⟩
    simp only [AmlState.auto, Bool.and_eq_true, beq_iff_eq] at hauto
    simp [hauto.1, hauto.2] at hmode
  · next hmode =>
    have hauto : s.state.auto = true := by
      simpa [AmlState.auto] using hmode
    split
    · next hrecent => exact .inr ⟨fun _ => hrecent, rfl⟩
    · next hrecent =>
      refine .inl ⟨hauto, by simpa using hrecent, ?_⟩
      rcases hsync : controlSyncTime (heureVisee s) (heureSysteme s).2 with ⟨_ | _, later⟩
      all_goals
        have hsync' : controlSyncTime ((heureSysteme s).2.world.zone.localtime
            (cibleHorloge (heureSysteme s).2 (heureSysteme s).1)) (heureSysteme s).2 = _ := hsync
        dsimp only
        rw [hsync']
        rfl

/-- **The upkeep of the clock** is one exchange, then the clock or the failure noted: what
relation covers these covers it. -/
theorem entretenirHorloge_rel {R : Service → Service → Prop} [IsPreorder Service R]
    (htalks : ∀ {a b}, Talks (· = amlReqSyncTime) a b → R a b) (hnotes : ∀ {a b}, Notes Silent a b → R a b)
    (hnote : ∀ (s : Service) (date : Int), R s (s.note fun e => { e with nextAttemptMs := date }))
    (nowMs : Int) (s : Service) : R s (entretenirHorloge nowMs s) := by
  rcases entretenirHorloge_cases nowMs s with ⟨-, -, heq⟩ | ⟨-, heq⟩ <;> rw [heq]
  · have hread : R s (heureSysteme s).2 := hnotes (heureSysteme_notes Silent s)
    have hsync := htalks (controlSyncTime_talks (heureVisee s) (heureSysteme s).2)
    refine trans_of R hread (trans_of R hsync ?_)
    rcases controlSyncTime (heureVisee s) (heureSysteme s).2 with ⟨_ | _, later⟩
    · exact hnote later _
    · exact hnotes (noterHeure_notes _ later)
  · exact refl_of R s

theorem entretenirHorloge_records (nowMs : Int) (s : Service) :
    Records s (entretenirHorloge nowMs s) :=
  entretenirHorloge_rel (fun htalks => htalks.attends.handles.records) Notes.records
    (fun s date _ => ⟨[], note_recorded s fun e => { e with nextAttemptMs := date }⟩) nowMs s

/-- The instant of the periodic task. -/
def instant (s : Service) : Int := s.world.clock s.world.clockReads

/-- The service when the periodic task has worked off the messages. -/
def apresEvenements (s : Service) : Service :=
  traiterEvenements (instant s) (noterConnexion (maintenant s).2)

/-- The service when the periodic task comes to the clock. -/
def avantHorloge (s : Service) : Service := suivreReveil (instant s) (apresEvenements s)

theorem handlersTick_eq {s : Service} (hc : sweetdawnIsConnected s = true) :
    handlersTick s = entretenirHorloge (instant s) (avantHorloge s) := by
  rw [handlersTick, hc]
  rfl

theorem handlersTick_disconnected {s : Service} (hc : sweetdawnIsConnected s = false) :
    handlersTick s = s := by
  rw [handlersTick, hc]
  rfl

theorem apresEvenements_handles (s : Service) : Handles lightCodes s (apresEvenements s) :=
  trans_of (Handles lightCodes) (maintenant_attends s).handles
    (trans_of (Handles lightCodes) (noterConnexion_attends _).handles (traiterEvenements_handles _ _))

/-- The codes of the first two parts. -/
abbrev followUpCodes : UInt8 → Prop := fun c => lightCodes c ∨ alarmCodes c

theorem avantHorloge_handles (s : Service) : Handles followUpCodes s (avantHorloge s) :=
  trans_of (Handles followUpCodes) ((apresEvenements_handles s).mono fun _ => .inl)
    ((suivreReveil_attends _ _).handles.mono fun _ => .inr)

theorem handlersTick_records (s : Service) : Records s (handlersTick s) := by
  cases hc : sweetdawnIsConnected s with
  | false => rw [handlersTick_disconnected hc]; exact refl_of Records s
  | true =>
    rw [handlersTick_eq hc]
    exact trans_of Records (avantHorloge_handles s).records (entretenirHorloge_records _ _)

/-- What `agir_sur_alarme` notes, apart from messages. -/
def noterAction (stopped : Bool) (e : HandlersState) : HandlersState :=
  if stopped then noterArretDemande (surveillerAlarmeBientot e) else surveillerAlarmeBientot e

theorem noterAction_eq (stopped : Bool) (e : HandlersState) :
    noterAction stopped e = { e with
      surveiller := true, prochaineLectureMs := 0, arretDemande := stopped || e.arretDemande } := by
  cases stopped <;> rfl

/-- The codes of `Alarm/Stop` and `Alarm/Snooze`. -/
abbrev alarmActionCodes : UInt8 → Prop := fun c => c = amlReqAlarmStop ∨ c = amlReqAlarmSnooze

/-- `Alarm/Stop` and `Alarm/Snooze`: an exchange, then a note. -/
theorem agirSurAlarme_inv {command : Command} {s s' : Service} {r : Except HandlerError Unit}
    (h : agirSurAlarme command s = (r, s')) :
    ∃ later, Talks alarmActionCodes s later ∧
      s' = later.note (noterAction (command.name == "Stop" && r.isOk)) := by
  unfold agirSurAlarme at h
  dsimp only at h
  cases hstop : command.name == "Stop" with
  | true =>
    rw [hstop, if_pos rfl] at h
    refine ⟨(controlAlarmStop s).2, (controlAlarmStop_talks s).mono fun _ => .inl, ?_⟩
    rcases hx : controlAlarmStop s with ⟨_ | _, later⟩ <;> rw [hx] at h <;>
      (obtain ⟨rfl, rfl⟩ := Prod.mk.inj h; rfl)
  | false =>
    rw [hstop, if_neg (by simp)] at h
    refine ⟨(controlAlarmSnooze s).2, (controlAlarmSnooze_talks s).mono fun _ => .inr, ?_⟩
    rcases hx : controlAlarmSnooze s with ⟨_ | _, later⟩ <;> rw [hx] at h <;>
      (obtain ⟨rfl, rfl⟩ := Prod.mk.inj h; rfl)

/-! ### Every step -/

/-- A message noted outside any exchange. -/
theorem event_notes (s : Service) (code : UInt8) (data : List UInt8) :
    Notes OfCore s (act s (.event code data)) := by
  intro _
  refine ⟨[.event code data], ?_, handlersOnEvent_noted s.eventContext (code, data), ?_⟩
  · exact {
      world := .log s.world _
      state := rfl
      clock := rfl
      onEvent := rfl
      device := rfl
      initialized := rfl
      wired := fun hw => hw.logged rfl rfl rfl fun _ _ => id }
  · intro o ho
    obtain rfl : o = .event code data := by simpa using ho
    rfl

/-- What a step can be: the periodic task, a request that acts on the alarms, or a step
that notes messages, and sets the clock only for a client that asks for it. -/
theorem act_cases (s : Service) (action : Action) :
    action = .handlersTick ∨
    (∃ command parent value later stopped, action = .request .agirSurAlarme command parent value ∧
      Talks alarmActionCodes s later ∧ act s action = later.note (noterAction stopped)) ∨
    (action ≠ .handlersTick ∧ Notes Silent s (act s action) ∧
      (action.setsTime = false → Notes OfCore s (act s action))) := by
  have hcore : ∀ {action : Action}, action ≠ .handlersTick → Notes OfCore s (act s action) →
      action ≠ .handlersTick ∧ Notes Silent s (act s action) ∧
        (action.setsTime = false → Notes OfCore s (act s action)) :=
    fun hne hnotes => ⟨hne, hnotes.mono silent_of_ofCore, fun _ => hnotes⟩
  cases action with
  | handlersTick => exact .inl rfl
  | event code data => exact .inr (.inr (hcore (by simp) (event_notes s code data)))
  | status => exact .inr (.inr (hcore (by simp) (statusJson_notes s)))
  | sweetdawnTick => exact .inr (.inr (hcore (by simp) (sweetdawnTick_runs s).notes))
  | request handler command parent value =>
    by_cases halarm : handler = .agirSurAlarme
    · subst halarm
      rcases hact : agirSurAlarme command s with ⟨r, s'⟩
      obtain ⟨later, htalks, hnoted⟩ := agirSurAlarme_inv hact
      refine .inr (.inl ⟨command, parent, value, later, command.name == "Stop" && r.isOk, rfl, htalks, ?_⟩)
      show (sansResultat (agirSurAlarme command) s).2 = _
      rw [sansResultat_run, hact]
      exact hnoted
    · exact .inr (.inr ⟨by simp, call_notes halarm command parent value s,
        fun htime => call_core halarm htime parent value s⟩)

/-- **Every step.** -/
theorem act_records (s : Service) (action : Action) : Records s (act s action) := by
  rcases act_cases s action with rfl | ⟨command, parent, value, later, stopped, -, htalks, heq⟩ |
    ⟨-, hnotes, -⟩
  · exact handlersTick_records s
  · rw [heq]
    exact trans_of Records htalks.attends.handles.records fun _ => ⟨_, note_recorded later _⟩
  · exact hnotes.records

theorem run_records (s : Service) (actions : List Action) : Records s (run s actions) :=
  Run.foldl_rel act_records s actions

theorem serviceInit_attached (device : AmlConfig) (world : World) :
    Attached (serviceInit device world) := rfl

end AmlService
