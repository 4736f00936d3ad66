import AmlService.App.Periodic

/-!
# AmlService.App.AlarmTracking

The tracking of the alarms, in every state that a run reaches: it has rung if and only
if it rings or is snoozed, an alarm that is not at rest is watched, and the clients
have been told the state that they would read.

One invariant on the static variables (`Suivi`), with the last announcement as a
parameter, is carried through each part of the periodic task; `Suivie` is the same on
the service.
-/

namespace AmlService

open Effect

/-! ### What the clients were told -/

/-- The data of an `alarm_state` event. -/
def Obs.annonce? : Obs → Option JsonValue
  | .broadcast name data => if name = "alarm_state" then some data else none
  | _ => none

/-- The last `alarm_state` event of the journal, or the summary of alarms at rest. -/
def derniereAnnonce (journal : List Obs) : JsonValue :=
  (journal.filterMap Obs.annonce?).getLastD (reveilJson handlersAttach.alarmes)

/-- Not an `alarm_state` event. -/
def Muet (o : Obs) : Prop := o.annonce? = none

theorem muet_of_silent (o : Obs) (h : Silent o) : Muet o := by
  cases o with
  | broadcast name data => cases h
  | _ => rfl

theorem derniereAnnonce_append {journal added : List Obs} (h : ∀ o ∈ added, Muet o) :
    derniereAnnonce (journal ++ added) = derniereAnnonce journal := by
  have hnone : added.filterMap Obs.annonce? = [] := List.filterMap_eq_nil_iff.mpr h
  rw [derniereAnnonce, List.filterMap_append, hnone, List.append_nil, derniereAnnonce]

theorem derniereAnnonce_concat (journal : List Obs) (data : JsonValue) :
    derniereAnnonce (journal ++ [.broadcast "alarm_state" data]) = data := by
  simp [derniereAnnonce, Obs.annonce?]

/-- The summary is about the states only. -/
theorem reveilJson_congr {alarmes alarmes' : Alarme → SuiviAlarme}
    (h : ∀ n, (alarmes n).etat = (alarmes' n).etat) : reveilJson alarmes = reveilJson alarmes' := by
  simp only [reveilJson, principale, h]

/-! ### The invariant -/

/-- The alarm rings, or is snoozed after it rang. -/
def EtatReveil.sonneOuSnooze (etat : EtatReveil) : Prop := etat = .sonne ∨ etat = .snooze

structure Suivi (annonce : JsonValue) (e : HandlersState) : Prop where
  aSonne : ∀ n, (e.alarmes n).aSonne = true ↔ (e.alarmes n).etat.sonneOuSnooze
  surveillee : ∀ n, (e.alarmes n).etat ≠ .repos → e.surveiller = true
  annonce : e.reveilChange = false → annonce = reveilJson e.alarmes
  diffuser : e.diffuser = true

theorem suivi_attach : Suivi (derniereAnnonce []) handlersAttach where
  aSonne n := by simp [handlersAttach, EtatReveil.sonneOuSnooze]
  surveillee n h := absurd rfl h
  annonce _ := rfl
  diffuser := rfl

section Changes

variable {annonce : JsonValue} {e e' : HandlersState}

/-- Changes of the flags that do not stop the watch. -/
theorem Suivi.flags (h : Suivi annonce e) (halarmes : e'.alarmes = e.alarmes)
    (hsurveiller : e.surveiller = true → e'.surveiller = true)
    (hchange : e'.reveilChange = e.reveilChange) (hdiffuser : e'.diffuser = e.diffuser) :
    Suivi annonce e' where
  aSonne := by rw [halarmes]; exact h.aSonne
  surveillee := by
    rw [halarmes]
    intro n hn
    exact hsurveiller (h.surveillee n hn)
  annonce := by rw [halarmes, hchange]; exact h.annonce
  diffuser := hdiffuser.trans h.diffuser

@[simp] theorem modifier_alarmes (e : HandlersState) (n m : Alarme) (f : SuiviAlarme → SuiviAlarme) :
    (e.modifier n f).alarmes m = if m = n then f (e.alarmes n) else e.alarmes m :=
  Function.update_apply ..

@[simp] theorem changerAlarme_alarmes (n m : Alarme) (etat : EtatReveil) (e : HandlersState) :
    (changerAlarme n etat e).alarmes m =
      if m = n then { e.alarmes n with etat } else e.alarmes m := by
  unfold changerAlarme
  split
  · next hsame =>
    split
    · next hm => rw [hm, ← hsame]
    · rfl
  · show (e.modifier n fun a => { a with etat }).alarmes m = _
    rw [modifier_alarmes]

theorem changerAlarme_reveilChange (n : Alarme) (etat : EtatReveil) (e : HandlersState) :
    (changerAlarme n etat e).reveilChange = false ↔
      e.reveilChange = false ∧ (e.alarmes n).etat = etat := by
  unfold changerAlarme
  split
  · next hsame => simp [hsame]
  · next hdiff => simp [hdiff]

@[simp] theorem changerAlarme_surveiller (n : Alarme) (etat : EtatReveil) (e : HandlersState) :
    (changerAlarme n etat e).surveiller = e.surveiller := by
  unfold changerAlarme
  split <;> rfl

@[simp] theorem changerAlarme_arretDemande (n : Alarme) (etat : EtatReveil) (e : HandlersState) :
    (changerAlarme n etat e).arretDemande = e.arretDemande := by
  unfold changerAlarme
  split <;> rfl

@[simp] theorem changerAlarme_file (n : Alarme) (etat : EtatReveil) (e : HandlersState) :
    (changerAlarme n etat e).file = e.file := by
  unfold changerAlarme
  split <;> rfl

@[simp] theorem changerAlarme_diffuser (n : Alarme) (etat : EtatReveil) (e : HandlersState) :
    (changerAlarme n etat e).diffuser = e.diffuser := by
  unfold changerAlarme
  split <;> rfl

/-- **One alarm changes**, while it is watched or because it comes to rest. -/
theorem Suivi.changer (h : Suivi annonce e) {n : Alarme} {etat : EtatReveil}
    {f : SuiviAlarme → SuiviAlarme} (hwatch : etat ≠ .repos → e.surveiller = true)
    (hetat : (f (e.alarmes n)).etat = (e.alarmes n).etat)
    (hrang : (f (e.alarmes n)).aSonne = true ↔ etat.sonneOuSnooze) :
    Suivi annonce (changerAlarme n etat (e.modifier n f)) where
  aSonne := by
    intro m
    by_cases hm : m = n
    · simpa [hm] using hrang
    · simpa [hm] using h.aSonne m
  surveillee := by
    intro m hm
    rw [changerAlarme_surveiller]
    by_cases hmn : m = n
    · simp only [hmn, changerAlarme_alarmes, if_true] at hm
      exact hwatch hm
    · simp only [hmn, changerAlarme_alarmes, modifier_alarmes, if_false] at hm
      exact h.surveillee m hm
  annonce := by
    rw [changerAlarme_reveilChange]
    rintro ⟨hchange, hsame⟩
    have hsame : (e.alarmes n).etat = etat := by simpa [hetat] using hsame
    rw [h.annonce hchange]
    refine reveilJson_congr fun m => ?_
    by_cases hm : m = n
    · simp [hm, hsame]
    · simp [hm]
  diffuser := by
    rw [changerAlarme_diffuser]
    exact h.diffuser

/-- The same, without a change of the other fields of the alarm. -/
theorem modifier_id (e : HandlersState) (n : Alarme) : e.modifier n id = e := by
  simp [HandlersState.modifier]

theorem Suivi.changer_etat (h : Suivi annonce e) {n : Alarme} {etat : EtatReveil}
    (hwatch : etat ≠ .repos → e.surveiller = true)
    (hrang : (e.alarmes n).aSonne = true ↔ etat.sonneOuSnooze) :
    Suivi annonce (changerAlarme n etat e) := by
  have hchanged := h.changer (f := id) hwatch rfl hrang
  rwa [modifier_id] at hchanged

end Changes

/-- What a sunrise, or a ringing, makes of the alarms. -/
theorem debutLever_alarmes (now : Int) (value : UInt8) (e : HandlersState) (n : Alarme) :
    (debutLever now value e).alarmes n =
      if alarmeDe value = some n then { e.alarmes n with etat := .lever, aSonne := false }
      else e.alarmes n := by
  unfold debutLever surveillerDepuis
  cases alarmeDe value with
  | none => simp
  | some m =>
    by_cases hm : n = m
    · simp [hm]
    · simp [hm, Ne.symm hm]

theorem debutSonnerie_alarmes (now : Int) (value : UInt8) (e : HandlersState) (n : Alarme) :
    (debutSonnerie now value e).alarmes n =
      if alarmeDe value = some n then { etat := .sonne, aSonne := true, finSnoozeMs := 0 }
      else e.alarmes n := by
  unfold debutSonnerie surveillerDepuis
  cases alarmeDe value with
  | none => simp
  | some m =>
    by_cases hm : n = m
    · simp [hm]
    · simp [hm, Ne.symm hm]

/-- What a message makes of alarm `n`. -/
def messageAlarme (n : Alarme) (a : SuiviAlarme) (e : Evenement) : SuiviAlarme :=
  if alarmeDe e.value = some n then
    if e.code = amlEvtSunriseStart then { a with etat := .lever, aSonne := false }
    else if e.code = amlEvtAlarmRing then { etat := .sonne, aSonne := true, finSnoozeMs := 0 }
    else a
  else a

theorem messageAlarme_autre {e : Evenement} (he : debute e.code = false) (n : Alarme) (a : SuiviAlarme) :
    messageAlarme n a e = a := by
  simp only [debute, Bool.or_eq_false_iff, beq_eq_false_iff_ne] at he
  simp [messageAlarme, he.1, he.2]

theorem traiterEvenement_alarme (now : Int) (s : Service) (e : Evenement) (n : Alarme) :
    (traiterEvenement now s e).eventContext.alarmes n =
      messageAlarme n (s.eventContext.alarmes n) e := by
  rcases traiterEvenement_cases now s e with ⟨hcode, heq⟩ | ⟨hcode, heq⟩ |
    ⟨hautre, ⟨-, minuteur, -, heq⟩ | ⟨-, minuteur, -, heq⟩ | ⟨-, -, heq⟩⟩ <;> rw [heq]
  · simp [messageAlarme, hcode, SweetDawn.note, debutLever_alarmes]
  · have hne : amlEvtAlarmRing ≠ amlEvtSunriseStart := by decide
    simp [messageAlarme, hcode, hne, SweetDawn.note, debutSonnerie_alarmes]
  · rw [messageAlarme_autre hautre]
    simp [SweetDawn.note]
  · rw [messageAlarme_autre hautre]
    simp
  · rw [messageAlarme_autre hautre]

/-! ### Steps that leave the tracking alone -/

/-- The alarms, and what is known and told of them, are as before; messages received
have joined the queue. -/
structure AlarmsKept (a b : Service) : Prop where
  attached : Attached b
  received : ∃ added more, b.world.journal = a.world.journal ++ added ∧ (∀ o ∈ added, Muet o) ∧
    b.eventContext.file.entries = a.eventContext.file.entries ++ more ∧
      ∀ x ∈ more, x.code ∈ (eventsOf added).map Prod.fst
  alarmes : b.eventContext.alarmes = a.eventContext.alarmes
  reveilChange : b.eventContext.reveilChange = a.eventContext.reveilChange
  surveiller : b.eventContext.surveiller = a.eventContext.surveiller
  arretDemande : b.eventContext.arretDemande = a.eventContext.arretDemande
  diffuser : b.eventContext.diffuser = a.eventContext.diffuser

def KeepsAlarms (a b : Service) : Prop := Attached a → AlarmsKept a b

theorem AlarmsKept.told {a b : Service} (h : AlarmsKept a b) :
    derniereAnnonce b.world.journal = derniereAnnonce a.world.journal := by
  obtain ⟨added, -, hjournal, hmuet, -⟩ := h.received
  rw [hjournal, derniereAnnonce_append hmuet]

theorem AlarmsKept.trans {a b c : Service} (h : AlarmsKept a b) (h' : AlarmsKept b c) :
    AlarmsKept a c where
  attached := h'.attached
  received := by
    obtain ⟨added, more, hjournal, hmuet, hentries, hcodes⟩ := h.received
    obtain ⟨added', more', hjournal', hmuet', hentries', hcodes'⟩ := h'.received
    refine ⟨added ++ added', more ++ more', ?_, ?_, ?_, ?_⟩
    · rw [hjournal', hjournal, List.append_assoc]
    · intro o ho
      exact (List.mem_append.mp ho).elim (hmuet o) (hmuet' o)
    · rw [hentries', hentries, List.append_assoc]
    · intro x hx
      rw [eventsOf_append, List.map_append, List.mem_append]
      exact (List.mem_append.mp hx).imp (hcodes x) (hcodes' x)
  alarmes := h'.alarmes.trans h.alarmes
  reveilChange := h'.reveilChange.trans h.reveilChange
  surveiller := h'.surveiller.trans h.surveiller
  arretDemande := h'.arretDemande.trans h.arretDemande
  diffuser := h'.diffuser.trans h.diffuser

/-- A note that is not about the alarms. -/
theorem note_keepsAlarms (s : Service) {f : HandlersState → HandlersState}
    (hf : ∀ e, ∃ lights date attempt, f e = { e with
      eclairageChange := lights, prochaineLectureMs := date, nextAttemptMs := attempt }) :
    KeepsAlarms s (s.note f) := by
  intro ha
  obtain ⟨lights, date, attempt, heq⟩ := hf s.eventContext
  refine ⟨ha, ⟨[], [], (List.append_nil _).symm, by simp, ?_, by simp⟩, ?_, ?_, ?_, ?_, ?_⟩ <;>
    rw [SweetDawn.note, heq]
  exact (List.append_nil _).symm

instance : IsPreorder Service KeepsAlarms where
  refl a := fun ha => ⟨ha, ⟨[], [], (List.append_nil _).symm, by simp, (List.append_nil _).symm,
    by simp⟩, rfl, rfl, rfl, rfl, rfl⟩
  trans a b c := by
    intro h h' ha
    have hab := h ha
    exact hab.trans (h' hab.attached)

theorem Notes.keepsAlarms {P : Obs → Prop} (hP : ∀ o, P o → Muet o) {a b : Service}
    (h : Notes P a b) : KeepsAlarms a b := by
  intro ha
  obtain ⟨added, hrec, hnoted, hall⟩ := h ha
  obtain ⟨more, hmore, hcodes⟩ := hnoted.queued
  refine ⟨hrec.onEvent.trans ha, ⟨added, more, hrec.world.journal, fun o ho => hP o (hall o ho),
    hmore, hcodes⟩, ?_, ?_, ?_, ?_, ?_⟩
  all_goals rw [hnoted.same]

theorem muet_of_ofCore (o : Obs) (h : OfCore o) : Muet o := muet_of_silent o (silent_of_ofCore o h)

theorem Talks.keepsAlarms {codes : UInt8 → Prop} {a b : Service} (h : Talks codes a b) :
    KeepsAlarms a b :=
  h.serves.runs.notes.keepsAlarms muet_of_ofCore

theorem diffuser_keepsAlarms {name : String} (hname : name ≠ "alarm_state") (data : JsonValue)
    (s : Service) : KeepsAlarms s (diffuser name data s) := by
  intro ha
  refine ⟨(diffuser_recorded name data s).onEvent.trans ha, ⟨diffusion name data s, [],
    diffuser_journal name data s, ?_, ?_, by simp⟩, ?_, ?_, ?_, ?_, ?_⟩
  · intro o ho
    unfold diffusion at ho
    split at ho
    · obtain rfl : o = .broadcast name data := by simpa using ho
      simp [Muet, Obs.annonce?, hname]
    · cases ho
  all_goals rw [diffuser_eventContext]
  exact (List.append_nil _).symm

theorem relireEclairage_keepsAlarms (s : Service) : KeepsAlarms s (relireEclairage s) :=
  relireEclairage_rel Talks.keepsAlarms (fun _ _ => diffuser_keepsAlarms (by decide) _ _) s

theorem entretenirHorloge_keepsAlarms (nowMs : Int) (s : Service) :
    KeepsAlarms s (entretenirHorloge nowMs s) :=
  entretenirHorloge_rel Talks.keepsAlarms (Notes.keepsAlarms muet_of_silent)
    (fun s _ => note_keepsAlarms s fun e => ⟨e.eclairageChange, e.prochaineLectureMs, _, rfl⟩) nowMs s

/-! ### The invariant on the service -/

structure Suivie (s : Service) : Prop where
  attached : Attached s
  suivi : Suivi (derniereAnnonce s.world.journal) s.eventContext

section Service

variable {s : Service}

theorem Suivie.keeps (h : Suivie s) {s' : Service} (hstep : KeepsAlarms s s') : Suivie s' := by
  have hkept := hstep h.attached
  refine ⟨hkept.attached, ?_⟩
  rw [hkept.told]
  exact h.suivi.flags hkept.alarmes (fun hw => hkept.surveiller.trans hw) hkept.reveilChange
    hkept.diffuser

theorem Suivie.note (h : Suivie s) {f : HandlersState → HandlersState}
    (hf : Suivi (derniereAnnonce s.world.journal) (f s.eventContext)) : Suivie (s.note f) :=
  ⟨h.attached, hf⟩

theorem diffuserReveil_eventContext (s : Service) :
    (diffuserReveil s).eventContext = { s.eventContext with reveilChange := false } := by
  unfold diffuserReveil
  split
  · rw [diffuser_eventContext]
    rfl
  · next hno =>
    have hfalse : s.eventContext.reveilChange = false := by simpa using hno
    rw [← hfalse]

/-- The summary is broadcast if something changed since the last one. -/
theorem diffuserReveil_suivie (h : Suivie s) : Suivie (diffuserReveil s) := by
  have hdiffuser := h.suivi.diffuser
  unfold diffuserReveil
  split
  · have htold : diffuser "alarm_state" (reveilJson s.eventContext.alarmes)
        (s.note fun e => { e with reveilChange := false }) =
          { (s.note fun e => { e with reveilChange := false }) with
            world := s.world.log (.broadcast "alarm_state" (reveilJson s.eventContext.alarmes)) } :=
      if_pos hdiffuser
    rw [htold]
    refine ⟨h.attached, ?_⟩
    rw [World.log_journal, derniereAnnonce_concat]
    exact ⟨h.suivi.aSonne, h.suivi.surveillee, fun _ => rfl, hdiffuser⟩
  · exact h

theorem surveillerDepuis_changer (now : Int) (n : Alarme) (etat : EtatReveil)
    (f : SuiviAlarme → SuiviAlarme) (e : HandlersState) :
    surveillerDepuis now (changerAlarme n etat (e.modifier n f)) =
      changerAlarme n etat ((surveillerDepuis now e).modifier n f) := by
  unfold changerAlarme
  split
  · next hsame => exact (if_pos hsame).symm
  · next hdiff => exact (if_neg hdiff).symm

/-- A sunrise or a ringing begins. -/
theorem Suivi.debut {annonce : JsonValue} {e : HandlersState} (h : Suivi annonce e) (now : Int)
    (value : UInt8) : Suivi annonce (debutLever now value e) ∧ Suivi annonce (debutSonnerie now value e) := by
  have hwatched : Suivi annonce (surveillerDepuis now e) := h.flags rfl (fun _ => rfl) rfl rfl
  unfold debutLever debutSonnerie
  cases alarmeDe value with
  | none => exact ⟨hwatched, hwatched⟩
  | some n =>
    dsimp only
    rw [surveillerDepuis_changer, surveillerDepuis_changer]
    refine ⟨hwatched.changer (fun _ => rfl) rfl ?_, hwatched.changer (fun _ => rfl) rfl ?_⟩
    · simp [EtatReveil.sonneOuSnooze]
    · simp [EtatReveil.sonneOuSnooze]

theorem traiterEvenement_suivie (now : Int) (h : Suivie s) (e : Evenement) :
    Suivie (traiterEvenement now s e) := by
  rcases traiterEvenement_cases now s e with ⟨-, heq⟩ | ⟨-, heq⟩ |
    ⟨-, ⟨-, minuteur, -, heq⟩ | ⟨-, minuteur, -, heq⟩ | ⟨-, -, heq⟩⟩ <;> rw [heq]
  · exact h.note (h.suivi.debut now e.value).1
  · exact h.note (h.suivi.debut now e.value).2
  · have hlights : Suivie (s.note fun e => { e with eclairageChange := true }) :=
      h.note (h.suivi.flags rfl id rfl rfl)
    exact hlights.keeps (diffuser_keepsAlarms (by decide) _ _)
  · exact h.keeps (diffuser_keepsAlarms (by decide) _ s)
  · exact h

theorem depouiller_eventContext (now : Int) (s : Service) :
    (depouiller now s).eventContext =
      { (s.eventContext.file.entries.foldl (traiterEvenement now) s).eventContext with
        file := .vide, reveilChange := false } := by
  rw [depouiller, diffuserReveil_eventContext]
  rfl

theorem depouiller_suivie (now : Int) (h : Suivie s) : Suivie (depouiller now s) := by
  have hqueue : Suivie (s.eventContext.file.entries.foldl (traiterEvenement now) s) :=
    List.foldlRecOn _ _ h fun s hs e _ => traiterEvenement_suivie now hs e
  exact diffuserReveil_suivie (hqueue.note (hqueue.suivi.flags rfl id rfl rfl))

theorem prendreEclairage_keepsAlarms (s : Service) : KeepsAlarms s s.prendreEclairage :=
  note_keepsAlarms s fun e => ⟨_, e.prochaineLectureMs, e.nextAttemptMs, rfl⟩

/-- After the messages, only the lights are read. -/
theorem traiterEvenements_keepsAlarms (now : Int) (s : Service) :
    KeepsAlarms (depouiller now s) (traiterEvenements now s) := by
  rw [traiterEvenements_eq]
  split
  · exact trans_of KeepsAlarms (prendreEclairage_keepsAlarms _) (relireEclairage_keepsAlarms _)
  · exact refl_of KeepsAlarms _

/-- Once the messages are worked off, the clients know. -/
theorem traiterEvenements_suivie (now : Int) (h : Suivie s) :
    Suivie (traiterEvenements now s) ∧ (traiterEvenements now s).eventContext.reveilChange = false := by
  have hworked := depouiller_suivie now h
  have hkept := traiterEvenements_keepsAlarms now s hworked.attached
  refine ⟨hworked.keeps fun _ => hkept, hkept.reveilChange.trans ?_⟩
  rw [depouiller_eventContext]

/-- The alarm a reading is about comes to a state that its past explains. -/
theorem suivreAlarme_suivie (lever sonne : UInt8) (now : Int) (n : Alarme) (h : Suivie s)
    (hwatch : s.eventContext.surveiller = true) :
    Suivie (suivreAlarme lever sonne now n s) ∧
      (suivreAlarme lever sonne now n s).eventContext.surveiller = true := by
  unfold suivreAlarme
  dsimp only
  split
  · refine ⟨h.note (h.suivi.changer (fun _ => hwatch) rfl ?_), ?_⟩
    · simp [EtatReveil.sonneOuSnooze]
    · exact (changerAlarme_surveiller n _ _).trans hwatch
  split
  · refine ⟨h.note (h.suivi.changer_etat (fun _ => hwatch) ?_), ?_⟩
    · cases (s.eventContext.alarmes n).aSonne <;> simp [EtatReveil.sonneOuSnooze]
    · exact (changerAlarme_surveiller n _ _).trans hwatch
  split
  · next hring =>
    -- a presumed snooze: the alarm rang, so it has rung
    obtain ⟨later, fin, htalks, heq⟩ := presumerSnooze_inv n now s
    have hkept := htalks.keepsAlarms h.attached
    have hlater := h.keeps fun _ => hkept
    have hwatch' : later.eventContext.surveiller = true := hkept.surveiller.trans hwatch
    have hrang : (later.eventContext.alarmes n).aSonne = true := by
      rw [hkept.alarmes, h.suivi.aSonne]
      simp only [Bool.and_eq_true, decide_eq_true_eq] at hring
      exact .inl hring.1
    rw [heq]
    refine ⟨hlater.note (hlater.suivi.changer (fun _ => hwatch') rfl ?_), ?_⟩
    · simp [hrang, EtatReveil.sonneOuSnooze]
    · exact (changerAlarme_surveiller n _ _).trans hwatch'
  split
  · exact ⟨h, hwatch⟩
  · refine ⟨h.note (h.suivi.changer (fun hr => absurd rfl hr) rfl ?_), ?_⟩
    · simp [EtatReveil.sonneOuSnooze]
    · exact (changerAlarme_surveiller n _ _).trans hwatch

/-- A reading about one alarm leaves the other one alone. -/
theorem suivreAlarme_other (ha : Attached s) {n m : Alarme} (hm : m ≠ n) (lever sonne : UInt8)
    (now : Int) : (suivreAlarme lever sonne now n s).eventContext.alarmes m =
      s.eventContext.alarmes m := by
  unfold suivreAlarme
  dsimp only
  split
  · simp [SweetDawn.note, hm]
  split
  · simp [SweetDawn.note, hm]
  split
  · obtain ⟨later, fin, htalks, heq⟩ := presumerSnooze_inv n now s
    rw [heq]
    simp [SweetDawn.note, hm, (htalks.keepsAlarms ha).alarmes]
  split
  · rfl
  · simp [SweetDawn.note, hm]

/-- It is taken for snoozed only if it rang, or was snoozed already. -/
theorem suivreAlarme_snooze (h : Suivie s) {lever sonne : UInt8} {now : Int} {n : Alarme}
    (hsnooze : ((suivreAlarme lever sonne now n s).eventContext.alarmes n).etat = .snooze) :
    (s.eventContext.alarmes n).etat.sonneOuSnooze := by
  unfold suivreAlarme at hsnooze
  dsimp only at hsnooze
  split at hsnooze
  · simp [SweetDawn.note] at hsnooze
  split at hsnooze
  · rw [← h.suivi.aSonne]
    simpa [SweetDawn.note] using hsnooze
  split at hsnooze
  · next hring =>
    simp only [Bool.and_eq_true, decide_eq_true_eq] at hring
    exact .inl hring.1
  split at hsnooze
  · exact .inr hsnooze
  · simp [SweetDawn.note] at hsnooze

theorem enCours_iff (s : Service) (n : Alarme) :
    enCours s n = true ↔ (s.eventContext.alarmes n).etat ≠ .repos := by
  simp [enCours]

/-- A reading about the two alarms, one after the other. -/
def suivreAlarmes (lever sonne : UInt8) (now : Int) (s : Service) : Service :=
  suivreAlarme lever sonne now 1 (suivreAlarme lever sonne now 0 s)

/-- The watch goes on as long as an alarm is not at rest, and stops when both are. -/
theorem appliquerLecture_cases (lever sonne : UInt8) (now : Int) (h : Suivie s)
    (hwatch : s.eventContext.surveiller = true) :
    ((∃ n, ((suivreAlarmes lever sonne now s).eventContext.alarmes n).etat ≠ .repos) ∧
      appliquerLecture lever sonne now s = diffuserReveil (suivreAlarmes lever sonne now s)) ∨
    ((∀ n, ((suivreAlarmes lever sonne now s).eventContext.alarmes n).etat = .repos) ∧
      appliquerLecture lever sonne now s = diffuserReveil ((suivreAlarmes lever sonne now s).note
        fun e => { e with surveiller := false, arretDemande := false })) := by
  obtain ⟨hfirst, -⟩ := suivreAlarme_suivie lever sonne now 0 h hwatch
  have hzero := suivreAlarme_other hfirst.attached (by decide : (0 : Alarme) ≠ 1) lever sonne now
  unfold appliquerLecture suivreAlarmes
  dsimp only
  -- the first alarm is looked at before the second one is tracked, which leaves it alone
  split
  · next hbusy =>
    rw [Bool.or_eq_true, enCours_iff, enCours_iff, ← hzero] at hbusy
    exact .inl ⟨hbusy.elim (fun h0 => ⟨0, h0⟩) fun h1 => ⟨1, h1⟩, rfl⟩
  · next hidle =>
    rw [Bool.or_eq_true, enCours_iff, enCours_iff, ← hzero, not_or, not_not, not_not] at hidle
    refine .inr ⟨fun n => ?_, rfl⟩
    rcases Fin.exists_fin_two.mp ⟨n, rfl⟩ with rfl | rfl
    · exact hidle.1
    · exact hidle.2

theorem suivreAlarmes_suivie (lever sonne : UInt8) (now : Int) (h : Suivie s)
    (hwatch : s.eventContext.surveiller = true) :
    Suivie (suivreAlarmes lever sonne now s) ∧
      (suivreAlarmes lever sonne now s).eventContext.surveiller = true := by
  obtain ⟨hfirst, hwatch₁⟩ := suivreAlarme_suivie lever sonne now 0 h hwatch
  exact suivreAlarme_suivie lever sonne now 1 hfirst hwatch₁

theorem suivreAlarmes_snooze (lever sonne : UInt8) (now : Int) (h : Suivie s)
    (hwatch : s.eventContext.surveiller = true) {n : Alarme}
    (hsnooze : ((suivreAlarmes lever sonne now s).eventContext.alarmes n).etat = .snooze) :
    (s.eventContext.alarmes n).etat.sonneOuSnooze := by
  obtain ⟨hfirst, -⟩ := suivreAlarme_suivie lever sonne now 0 h hwatch
  rw [suivreAlarmes] at hsnooze
  rcases Fin.exists_fin_two.mp ⟨n, rfl⟩ with rfl | rfl
  · rw [suivreAlarme_other hfirst.attached (by decide)] at hsnooze
    exact suivreAlarme_snooze h hsnooze
  · have hone := suivreAlarme_snooze hfirst hsnooze
    rwa [suivreAlarme_other h.attached (by decide)] at hone

/-- **A reading applied.** The clients know; the watch goes on as long as an alarm is not
at rest, and stops when both are. -/
theorem appliquerLecture_suivie (lever sonne : UInt8) (now : Int) (h : Suivie s)
    (hwatch : s.eventContext.surveiller = true) :
    Suivie (appliquerLecture lever sonne now s) ∧
      (appliquerLecture lever sonne now s).eventContext.reveilChange = false ∧
      ((appliquerLecture lever sonne now s).eventContext.surveiller = true ↔
        ∃ n, ((appliquerLecture lever sonne now s).eventContext.alarmes n).etat ≠ .repos) := by
  obtain ⟨hboth, hwatch₂⟩ := suivreAlarmes_suivie lever sonne now h hwatch
  rcases appliquerLecture_cases lever sonne now h hwatch with ⟨hbusy, heq⟩ | ⟨hrest, heq⟩
  · rw [heq]
    refine ⟨diffuserReveil_suivie hboth, by rw [diffuserReveil_eventContext], ?_⟩
    rw [diffuserReveil_eventContext]
    exact iff_of_true hwatch₂ hbusy
  · rw [heq]
    have hstopped := hboth.note (f := fun e => { e with surveiller := false, arretDemande := false })
      { hboth.suivi with surveillee := fun n hn => absurd (hrest n) hn }
    refine ⟨diffuserReveil_suivie hstopped, by rw [diffuserReveil_eventContext], ?_⟩
    rw [diffuserReveil_eventContext]
    refine iff_of_false (by simp [SweetDawn.note]) ?_
    rintro ⟨n, hn⟩
    exact hn (hrest n)

theorem appliquerLecture_alarmes (lever sonne : UInt8) (now : Int) (h : Suivie s)
    (hwatch : s.eventContext.surveiller = true) :
    (appliquerLecture lever sonne now s).eventContext.alarmes =
      (suivreAlarmes lever sonne now s).eventContext.alarmes := by
  rcases appliquerLecture_cases lever sonne now h hwatch with ⟨-, heq⟩ | ⟨-, heq⟩
  · rw [heq, diffuserReveil_eventContext]
  · rw [heq, diffuserReveil_eventContext]
    rfl

end Service

/-! ### The reading of a tick -/

/-- The successful reading of the state of the alarms that a tick makes, if it makes one:
which alarm is in its sunrise, which one rings, and the service it is applied to. -/
def lectureDuTick (s : Service) : Option (UInt8 × UInt8 × Service) :=
  let e := (apresEvenements s).eventContext
  if !sweetdawnIsConnected s || !e.surveiller || decide (instant s < e.prochaineLectureMs) then none
  else
    match lireStatut (instant s) (apresEvenements s) with
    | (.error _, _) => none
    | (.ok (lever, sonne), lu) => some (lever, sonne, lu)

/-- What `suivre_reveil` does, by the reading it makes. -/
theorem avantHorloge_cases {s : Service} (hc : sweetdawnIsConnected s = true) :
    (∃ lever sonne lu, lectureDuTick s = some (lever, sonne, lu) ∧
      (apresEvenements s).eventContext.surveiller = true ∧
      lu = (lireStatut (instant s) (apresEvenements s)).2 ∧
      avantHorloge s = appliquerLecture lever sonne (instant s) lu) ∨
    (lectureDuTick s = none ∧ (avantHorloge s = apresEvenements s ∨
      avantHorloge s = (lireStatut (instant s) (apresEvenements s)).2)) := by
  unfold lectureDuTick avantHorloge suivreReveil
  simp only [hc, Bool.not_true, Bool.false_or]
  split
  · exact .inr ⟨rfl, .inl rfl⟩
  · next hread =>
    rw [← lireStatut]
    rcases lireStatut (instant s) (apresEvenements s) with ⟨_ | ⟨lever, sonne⟩, lu⟩
    · exact .inr ⟨rfl, .inr rfl⟩
    · refine .inl ⟨lever, sonne, lu, rfl, ?_, rfl, rfl⟩
      simp only [Bool.or_eq_true, not_or] at hread
      simpa using hread.1

end AmlService
