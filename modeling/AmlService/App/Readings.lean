import AmlService.App.StopRequests

/-!
# AmlService.App.Readings

What a periodic task makes of one alarm. The messages that wait change its record one
after the other (`messageAlarme`), then a reading, if one is made, changes it once more
(`lectureAlarme`). A sunrise or a ringing among the messages puts the reading off, so a
task that makes a reading finds each alarm as the task began with it
(`handlersTick_lecture`).
-/

namespace AmlService

open Effect

/-! ### The messages -/

theorem foldl_traiterEvenement_alarme (now : Int) (s : Service) (entries : List Evenement)
    (n : Alarme) :
    (entries.foldl (traiterEvenement now) s).eventContext.alarmes n =
      entries.foldl (messageAlarme n) (s.eventContext.alarmes n) := by
  induction entries generalizing s with
  | nil => rfl
  | cons e entries ih =>
    rw [List.foldl_cons, ih, traiterEvenement_alarme, List.foldl_cons]

theorem foldl_messageAlarme {n : Alarme} {entries : List Evenement}
    (h : ∀ e ∈ entries, debute e.code = false) (a : SuiviAlarme) :
    entries.foldl (messageAlarme n) a = a :=
  Run.foldl_fixed (fun e he => messageAlarme_autre (h e he) n) a

theorem noterConnexion_alarmes (s : Service) :
    (noterConnexion (maintenant s).2).eventContext.alarmes = s.eventContext.alarmes ∧
      (noterConnexion (maintenant s).2).eventContext.file = s.eventContext.file ∧
      (noterConnexion (maintenant s).2).eventContext.arretDemande = s.eventContext.arretDemande := by
  unfold noterConnexion
  split <;> exact ⟨rfl, rfl, rfl⟩

/-- **The messages worked off**, alarm by alarm. -/
theorem apresEvenements_alarme {s : Service} (h : Suivie s) (n : Alarme) :
    (apresEvenements s).eventContext.alarmes n =
      s.eventContext.file.entries.foldl (messageAlarme n) (s.eventContext.alarmes n) := by
  have hnoted := noterConnexion_suivie (h.keeps (maintenant_keepsAlarms s))
  obtain ⟨halarmes, hfile, -⟩ := noterConnexion_alarmes s
  rw [apresEvenements, traiterEvenements_alarmes _ hnoted, foldl_traiterEvenement_alarme, halarmes,
    hfile]

/-! ### The date of the next reading -/

theorem traiterEvenement_date (now : Int) (s : Service) (e : Evenement) :
    (traiterEvenement now s e).eventContext.prochaineLectureMs =
      if debute e.code then now + alarmWatchMs else s.eventContext.prochaineLectureMs := by
  rcases traiterEvenement_cases now s e with ⟨hcode, heq⟩ | ⟨hcode, heq⟩ |
    ⟨hautre, ⟨-, minuteur, -, heq⟩ | ⟨-, minuteur, -, heq⟩ | ⟨-, -, heq⟩⟩
  · simp [heq, hcode, debute, SweetDawn.note, debutLever, surveillerDepuis]
  · simp [heq, hcode, debute, SweetDawn.note, debutSonnerie, surveillerDepuis]
  · simp [heq, hautre, SweetDawn.note]
  · simp [heq, hautre]
  · simp [heq, hautre]

theorem foldl_traiterEvenement_date (now : Int) (s : Service) (entries : List Evenement) :
    (entries.foldl (traiterEvenement now) s).eventContext.prochaineLectureMs =
      if entries.any (fun e => debute e.code) then now + alarmWatchMs
      else s.eventContext.prochaineLectureMs := by
  induction entries generalizing s with
  | nil => rfl
  | cons e entries ih =>
    rw [List.foldl_cons, ih, traiterEvenement_date]
    cases he : debute e.code <;> simp [he]

theorem relireEclairage_date {s : Service} (ha : Attached s) :
    (relireEclairage s).eventContext.prochaineLectureMs = s.eventContext.prochaineLectureMs := by
  obtain ⟨later, htalks, hlights⟩ := relireEclairage_inv s
  obtain ⟨_, -, hnoted, -⟩ := htalks.serves.runs.notes ha
  have hlater : later.eventContext.prochaineLectureMs = s.eventContext.prochaineLectureMs := by
    rw [hnoted.same]
  rcases hlights with heq | ⟨data, heq⟩
  · rw [heq, hlater]
  · rw [heq, diffuser_eventContext, hlater]

theorem traiterEvenements_date (now : Int) {s : Service} (h : Suivie s) :
    (traiterEvenements now s).eventContext.prochaineLectureMs =
      if s.eventContext.file.entries.any (fun e => debute e.code) then now + alarmWatchMs
      else s.eventContext.prochaineLectureMs := by
  have hworked : (depouiller now s).eventContext.prochaineLectureMs =
      (s.eventContext.file.entries.foldl (traiterEvenement now) s).eventContext.prochaineLectureMs := by
    rw [depouiller_eventContext]
  rw [← foldl_traiterEvenement_date, ← hworked, traiterEvenements_eq]
  split
  · exact relireEclairage_date (prendreEclairage_keepsAlarms _ (depouiller_suivie now h).attached).attached
  · rfl

/-- A sunrise or a ringing worked off puts the reading off: none waited when one is made. -/
theorem lectureDuTick_sansDebut {s lu : Service} (h : Suivie s) {lever sonne : UInt8}
    (hlu : lectureDuTick s = some (lever, sonne, lu)) : SansDebut s := by
  have hdate := traiterEvenements_date (instant s)
    (noterConnexion_suivie (h.keeps (maintenant_keepsAlarms s)))
  obtain ⟨-, hfile, -⟩ := noterConnexion_alarmes s
  rw [hfile] at hdate
  cases hwaits : s.eventContext.file.entries.any (fun e => debute e.code) with
  | false =>
    intro e he
    simpa using List.any_eq_false.mp hwaits e he
  | true =>
    have hlater : (apresEvenements s).eventContext.prochaineLectureMs = instant s + alarmWatchMs := by
      rw [apresEvenements, hdate]
      exact if_pos hwaits
    have hearly : instant s < (apresEvenements s).eventContext.prochaineLectureMs := by
      rw [hlater]
      exact Int.lt_add_of_pos_right _ (by decide)
    simp [lectureDuTick, hearly] at hlu

theorem apresEvenements_arret {s : Service} (h : Suivie s) (hnone : SansDebut s) :
    (apresEvenements s).eventContext.arretDemande = s.eventContext.arretDemande := by
  have hnoted := noterConnexion_suivie (h.keeps (maintenant_keepsAlarms s))
  have hkept := traiterEvenements_keepsAlarms (instant s) _ (depouiller_suivie (instant s) hnoted).attached
  obtain ⟨-, hfile, harret⟩ := noterConnexion_alarmes s
  rw [apresEvenements, hkept.arretDemande, depouiller_eventContext, hfile]
  dsimp only
  rw [foldl_traiterEvenement_arret _ hnone, harret]

/-! ### The reading -/

/-- The snooze duration that `presumer_snooze` goes by, in minutes: the longest one where
that of the alarm cannot be read. -/
def minutesSnooze (n : Alarme) (s : Service) : Int :=
  match (controlAlarmQuery n s).1 with
  | .ok alarm => snoozeMinutes.getD alarm.snooze.toNat 30
  | .error _ => 30

/-- What a reading makes of an alarm. -/
def lectureAlarme (lever sonne arret : Bool) (now minutes : Int) (a : SuiviAlarme) : SuiviAlarme :=
  if sonne then { etat := .sonne, aSonne := true, finSnoozeMs := 0 }
  else if lever && !arret then { a with etat := if a.aSonne then .snooze else .lever }
  else if a.etat = .sonne && !arret then
    { a with etat := .snooze, finSnoozeMs := now + minutes * 60000 + snoozeMarginMs }
  else if a.etat = .snooze && !arret && decide (now < a.finSnoozeMs) then a
  else { etat := .repos, aSonne := false, finSnoozeMs := 0 }

theorem presumerSnooze_alarme {s : Service} (ha : Attached s) (now : Int) (n : Alarme) :
    (presumerSnooze n now s).eventContext.alarmes n =
      { s.eventContext.alarmes n with
        etat := .snooze, finSnoozeMs := now + minutesSnooze n s * 60000 + snoozeMarginMs } ∧
    (presumerSnooze n now s).eventContext.arretDemande = s.eventContext.arretDemande := by
  have hkept := (controlAlarmQuery_talks n s).keepsAlarms ha
  have halarmes := hkept.alarmes
  have harret := hkept.arretDemande
  unfold presumerSnooze minutesSnooze
  rcases hq : controlAlarmQuery n s with ⟨_ | alarm, later⟩ <;> rw [hq] at halarmes harret <;>
    dsimp only at halarmes harret
  · simp [SweetDawn.note, HandlersState.modifier, halarmes, harret]
  · simp [SweetDawn.note, HandlersState.modifier, halarmes, harret]

/-- One turn of the loop. -/
theorem suivreAlarme_alarme {s : Service} (ha : Attached s) (lever sonne : UInt8) (now : Int)
    (n : Alarme) :
    (suivreAlarme lever sonne now n s).eventContext.alarmes n =
      lectureAlarme (designe lever n) (designe sonne n) s.eventContext.arretDemande now
        (minutesSnooze n s) (s.eventContext.alarmes n) ∧
    (suivreAlarme lever sonne now n s).eventContext.arretDemande = s.eventContext.arretDemande := by
  unfold suivreAlarme lectureAlarme
  dsimp only
  split
  · simp [SweetDawn.note, HandlersState.modifier]
  split
  · simp [SweetDawn.note]
  split
  · exact presumerSnooze_alarme ha now n
  split
  · exact ⟨rfl, rfl⟩
  · simp [SweetDawn.note, HandlersState.modifier]

/-- The service when a reading comes to alarm `n`. -/
def venuA (n : Alarme) (lever sonne : UInt8) (now : Int) (lu : Service) : Service :=
  if n = 0 then lu else suivreAlarme lever sonne now 0 lu

/-- The two turns, alarm by alarm. -/
theorem suivreAlarmes_alarme {s : Service} (h : Suivie s) (hwatch : s.eventContext.surveiller = true)
    (lever sonne : UInt8) (now : Int) (n : Alarme) :
    (suivreAlarmes lever sonne now s).eventContext.alarmes n =
      lectureAlarme (designe lever n) (designe sonne n) s.eventContext.arretDemande now
        (minutesSnooze n (venuA n lever sonne now s)) (s.eventContext.alarmes n) := by
  obtain ⟨hfirst, -⟩ := suivreAlarme_suivie lever sonne now 0 h hwatch
  obtain ⟨hzero, harret⟩ := suivreAlarme_alarme h.attached lever sonne now 0
  rw [suivreAlarmes]
  rcases Fin.exists_fin_two.mp ⟨n, rfl⟩ with rfl | rfl
  · rw [suivreAlarme_other hfirst.attached (by decide)]
    exact hzero
  · rw [(suivreAlarme_alarme hfirst.attached lever sonne now 1).1, harret,
      suivreAlarme_other h.attached (by decide)]
    rfl

/-- **A task that makes a reading**, alarm by alarm. The watch goes on as long as one is not
at rest. -/
theorem handlersTick_lecture {s lu : Service} (h : Suivie s) {lever sonne : UInt8}
    (hlu : lectureDuTick s = some (lever, sonne, lu)) :
    (∀ n, (handlersTick s).eventContext.alarmes n =
      lectureAlarme (designe lever n) (designe sonne n) s.eventContext.arretDemande (instant s)
        (minutesSnooze n (venuA n lever sonne (instant s) lu)) (s.eventContext.alarmes n)) ∧
    ((handlersTick s).eventContext.surveiller = true ↔ ∃ n, etatDe (handlersTick s) n ≠ .repos) := by
  have hc : sweetdawnIsConnected s = true := by
    by_contra hc
    simp [lectureDuTick, hc] at hlu
  have hnone := lectureDuTick_sansDebut h hlu
  have hevents := apresEvenements_annoncee h
  have hlast := entretenirHorloge_keepsAlarms (instant s) (avantHorloge s)
    (avantHorloge_annoncee h hc).attached
  rcases avantHorloge_cases hc with ⟨lever', sonne', lu', hlu', hwatch, rfl, heq⟩ | ⟨hno, -⟩
  · rw [hlu] at hlu'
    cases hlu'
    have hkept := lireStatut_keepsAlarms (instant s) (apresEvenements s) hevents.attached
    have hlue := hevents.toSuivie.keeps fun _ => hkept
    have hwatched := hkept.surveiller.trans hwatch
    obtain ⟨-, -, hwatching⟩ := appliquerLecture_suivie lever sonne (instant s) hlue hwatched
    simp only [etatDe]
    rw [handlersTick_eq hc, hlast.alarmes, hlast.surveiller, heq]
    refine ⟨fun n => ?_, hwatching⟩
    rw [appliquerLecture_alarmes lever sonne (instant s) hlue hwatched,
      suivreAlarmes_alarme hlue hwatched, hkept.arretDemande, hkept.alarmes,
      apresEvenements_arret h hnone, apresEvenements_alarme h, foldl_messageAlarme hnone]
  · rw [hlu] at hno
    cases hno

/-- A task that makes none: only the messages count. -/
theorem handlersTick_sansLecture {s : Service} (h : Suivie s) (hc : sweetdawnIsConnected s = true)
    (hlu : lectureDuTick s = none) (n : Alarme) :
    (handlersTick s).eventContext.alarmes n =
      s.eventContext.file.entries.foldl (messageAlarme n) (s.eventContext.alarmes n) := by
  have hevents := apresEvenements_annoncee h
  have hlast := entretenirHorloge_keepsAlarms (instant s) (avantHorloge s)
    (avantHorloge_annoncee h hc).attached
  rw [handlersTick_eq hc, hlast.alarmes]
  rcases avantHorloge_cases hc with ⟨lever, sonne, lu, hsome, -⟩ | ⟨-, heq | heq⟩
  · rw [hlu] at hsome
    cases hsome
  · rw [heq]
    exact apresEvenements_alarme h n
  · rw [heq, (lireStatut_keepsAlarms (instant s) (apresEvenements s) hevents.attached).alarmes]
    exact apresEvenements_alarme h n

end AmlService
