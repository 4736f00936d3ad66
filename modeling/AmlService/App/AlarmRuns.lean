import AmlService.App.AlarmTracking

/-!
# AmlService.App.AlarmRuns

The tracking of the alarms over whole runs: what is known of an alarm is consistent in
every state reached, a snoozed alarm has rung, and a client that follows the
`alarm_state` events sees what a client that asks for the status sees.
-/

namespace AmlService

open Effect

/-! ### Between two steps -/

/-- Between two steps, the clients have been told everything. -/
structure Annoncee (s : Service) : Prop extends Suivie s where
  reveilChange : s.eventContext.reveilChange = false

section Steps

variable {s : Service}

theorem Annoncee.keeps (h : Annoncee s) {s' : Service} (hstep : KeepsAlarms s s') : Annoncee s' :=
  ⟨h.toSuivie.keeps hstep, (hstep h.attached).reveilChange.trans h.reveilChange⟩

theorem maintenant_keepsAlarms (s : Service) : KeepsAlarms s (maintenant s).2 :=
  Talks.keepsAlarms ⟨[], maintenant_exchange s, .nil noCode⟩

theorem noterConnexion_suivie (h : Suivie s) : Suivie (noterConnexion s) := by
  unfold noterConnexion
  split
  · exact h.note (h.suivi.flags rfl (fun _ => rfl) rfl rfl)
  · exact h

theorem apresEvenements_annoncee (h : Suivie s) : Annoncee (apresEvenements s) := by
  have hnow := noterConnexion_suivie (h.keeps (maintenant_keepsAlarms s))
  obtain ⟨hsuivie, hchange⟩ := traiterEvenements_suivie (instant s) hnow
  exact ⟨hsuivie, hchange⟩

/-- The reading is applied to alarms that are as the messages left them. -/
theorem lireStatut_keepsAlarms (now : Int) (s : Service) : KeepsAlarms s (lireStatut now s).2 := by
  refine trans_of KeepsAlarms (note_keepsAlarms s fun e => ?_) (controlAlarmStatus_talks _).keepsAlarms
  exact ⟨e.eclairageChange, _, e.nextAttemptMs, rfl⟩

theorem avantHorloge_annoncee (h : Suivie s) (hc : sweetdawnIsConnected s = true) :
    Annoncee (avantHorloge s) := by
  have hevents := apresEvenements_annoncee h
  have hread := lireStatut_keepsAlarms (instant s) (apresEvenements s)
  rcases avantHorloge_cases hc with ⟨lever, sonne, lu, -, hwatch, rfl, heq⟩ | ⟨-, heq | heq⟩
  · have hwatched := (hread hevents.attached).surveiller.trans hwatch
    obtain ⟨hsuivie, hchange, -⟩ :=
      appliquerLecture_suivie lever sonne (instant s) (hevents.toSuivie.keeps hread) hwatched
    rw [heq]
    exact ⟨hsuivie, hchange⟩
  · rw [heq]
    exact hevents
  · rw [heq]
    exact hevents.keeps hread

theorem handlersTick_annoncee (h : Annoncee s) : Annoncee (handlersTick s) := by
  cases hc : sweetdawnIsConnected s with
  | false =>
    rw [handlersTick_disconnected hc]
    exact h
  | true =>
    rw [handlersTick_eq hc]
    exact (avantHorloge_annoncee h.toSuivie hc).keeps (entretenirHorloge_keepsAlarms _ _)

/-- A stop or a snooze has the alarms watched. -/
theorem Annoncee.noterAction (h : Annoncee s) (stopped : Bool) :
    Annoncee (s.note (noterAction stopped)) := by
  rw [SweetDawn.note, noterAction_eq]
  exact ⟨h.toSuivie.note (f := fun e => { e with
      surveiller := true, prochaineLectureMs := 0, arretDemande := stopped || e.arretDemande })
    (h.suivi.flags rfl (fun _ => rfl) rfl rfl), h.reveilChange⟩

/-- **One step.** -/
theorem act_annoncee (h : Annoncee s) (action : Action) : Annoncee (act s action) := by
  rcases act_cases s action with rfl | ⟨command, parent, value, later, stopped, -, htalks, heq⟩ |
    ⟨-, hnotes, -⟩
  · exact handlersTick_annoncee h
  · rw [heq]
    exact (h.keeps htalks.keepsAlarms).noterAction stopped
  · exact h.keeps (hnotes.keepsAlarms muet_of_silent)

theorem run_annoncee (h : Annoncee s) (actions : List Action) : Annoncee (run s actions) :=
  List.foldlRecOn actions act h fun _ hs action _ => act_annoncee hs action

end Steps

theorem serviceInit_annoncee (device : AmlConfig) (world : World) :
    Annoncee (serviceInit device world) :=
  ⟨⟨serviceInit_attached device world, suivi_attach⟩, rfl⟩

/-! ### The states gone through -/

/-- The states after each of the messages that `traiter_evenements` works off. -/
def messages (now : Int) (s : Service) (entries : List Evenement) : List Service :=
  Run.path (fun t e => [traiterEvenement now t e]) (traiterEvenement now) s entries

/-- The states an alarm goes through during a step. In the periodic task: after a new
connection is noticed, after each message, after the reading, at the end. -/
def etapes (s : Service) : Action → List Service
  | .handlersTick =>
    if sweetdawnIsConnected s then
      let debut := noterConnexion (maintenant s).2
      debut :: (messages (instant s) debut debut.eventContext.file.entries ++
        [avantHorloge s, handlersTick s])
    else [s]
  | action => [act s action]

/-- The states gone through by a run. -/
def parcours (s : Service) (actions : List Action) : List Service := Run.path etapes act s actions

/-- The state of an alarm. -/
def etatDe (s : Service) (n : Alarme) : EtatReveil := (s.eventContext.alarmes n).etat

/-- From one state to the next, an alarm gets snoozed only if it rang. -/
def Enchainees (n : Alarme) (a b : Service) : Prop :=
  etatDe b n = .snooze → etatDe a n = .sonne ∨ etatDe a n = .snooze

theorem enchainees_of_kept {a b : Service} (n : Alarme)
    (h : b.eventContext.alarmes = a.eventContext.alarmes) : Enchainees n a b := by
  intro hsnooze
  rw [etatDe, h] at hsnooze
  exact .inr hsnooze

theorem traiterEvenement_enchainees (n : Alarme) (now : Int) (s : Service) (e : Evenement) :
    Enchainees n s (traiterEvenement now s e) := by
  intro hsnooze
  rw [etatDe, traiterEvenement_alarme] at hsnooze
  unfold messageAlarme at hsnooze
  split at hsnooze
  · split at hsnooze
    · cases hsnooze
    split at hsnooze
    · cases hsnooze
    · exact .inr hsnooze
  · exact .inr hsnooze

/-- What comes after the messages in `traiter_evenements` leaves the alarms alone. -/
theorem traiterEvenements_alarmes (now : Int) {s : Service} (hs : Suivie s) :
    (traiterEvenements now s).eventContext.alarmes =
      (s.eventContext.file.entries.foldl (traiterEvenement now) s).eventContext.alarmes := by
  rw [(traiterEvenements_keepsAlarms now s (depouiller_suivie now hs).attached).alarmes,
    depouiller_eventContext]

theorem avantHorloge_enchainees (n : Alarme) {s : Service} (h : Suivie s)
    (hc : sweetdawnIsConnected s = true) : Enchainees n (apresEvenements s) (avantHorloge s) := by
  have hevents := apresEvenements_annoncee h
  have hread := lireStatut_keepsAlarms (instant s) (apresEvenements s)
  have hkept := hread hevents.attached
  rcases avantHorloge_cases hc with ⟨lever, sonne, lu, -, hwatch, rfl, heq⟩ | ⟨-, heq | heq⟩ <;>
    rw [heq]
  · intro hsnooze
    have hlu := hevents.toSuivie.keeps hread
    have hwatched := hkept.surveiller.trans hwatch
    rw [etatDe, appliquerLecture_alarmes lever sonne _ hlu hwatched] at hsnooze
    have hrang := suivreAlarmes_snooze lever sonne (instant s) hlu hwatched hsnooze
    rwa [hkept.alarmes] at hrang
  · exact enchainees_of_kept n rfl
  · exact enchainees_of_kept n hkept.alarmes

/-- The periodic task: first the connection, then the messages one after the other, then
the reading, then the clock. -/
theorem isChain_handlersTick (n : Alarme) {s : Service} (h : Annoncee s) :
    (s :: etapes s .handlersTick).IsChain (Enchainees n) := by
  unfold etapes
  dsimp only
  split
  · next hc =>
    have hnow := h.toSuivie.keeps (maintenant_keepsAlarms s)
    have hdebut := noterConnexion_suivie hnow
    have hlast := avantHorloge_annoncee h.toSuivie hc
    generalize hentries : (noterConnexion (maintenant s).2).eventContext.file.entries = entries
    have hqueue : (noterConnexion (maintenant s).2 :: messages (instant s)
        (noterConnexion (maintenant s).2) entries).IsChain (Enchainees n) :=
      Run.isChain_path (I := fun _ => True)
        (fun t e _ => by simpa using traiterEvenement_enchainees n (instant s) t e)
        (fun _ _ => rfl) (fun _ _ _ => trivial) trivial entries
    have hafter : (messages (instant s) (noterConnexion (maintenant s).2) entries).getLastD
        (noterConnexion (maintenant s).2) =
          entries.foldl (traiterEvenement (instant s)) (noterConnexion (maintenant s).2) :=
      Run.getLastD_path (fun _ _ => rfl) _ entries
    refine List.isChain_cons_cons.mpr ⟨?_, ?_⟩
    · refine enchainees_of_kept n ?_
      unfold noterConnexion
      split <;> exact (maintenant_keepsAlarms s h.attached).alarmes
    · rw [← List.cons_append]
      refine List.isChain_append.mpr ⟨hqueue, ?_, ?_⟩
      · refine List.isChain_cons_cons.mpr ⟨?_, .singleton _⟩
        rw [handlersTick_eq hc]
        exact enchainees_of_kept n (entretenirHorloge_keepsAlarms _ _ hlast.attached).alarmes
      · -- the reading starts from the state that the last message left
        intro t ht u hu
        rw [List.getLast?_cons, ← List.getLastD_eq_getLast?, hafter] at ht
        obtain rfl := Option.some.inj ht
        obtain rfl : avantHorloge s = u := by simpa using hu
        have hstep := avantHorloge_enchainees n h.toSuivie hc
        rwa [Enchainees, etatDe, etatDe, apresEvenements, traiterEvenements_alarmes _ hdebut,
          hentries] at hstep
  · exact List.isChain_cons_cons.mpr ⟨enchainees_of_kept n rfl, .singleton _⟩

theorem etapes_of_ne (s : Service) {action : Action} (h : action ≠ .handlersTick) :
    etapes s action = [act s action] := by
  cases action with
  | handlersTick => exact absurd rfl h
  | _ => rfl

theorem isChain_etapes (n : Alarme) {s : Service} (h : Annoncee s) (action : Action) :
    (s :: etapes s action).IsChain (Enchainees n) := by
  rcases act_cases s action with rfl | ⟨command, parent, value, later, stopped, rfl, htalks, heq⟩ |
    ⟨hne, hnotes, -⟩
  · exact isChain_handlersTick n h
  · rw [etapes_of_ne s (by simp), heq]
    refine List.isChain_cons_cons.mpr ⟨enchainees_of_kept n ?_, .singleton _⟩
    rw [SweetDawn.note, noterAction_eq]
    exact (htalks.keepsAlarms h.attached).alarmes
  · rw [etapes_of_ne s hne]
    refine List.isChain_cons_cons.mpr ⟨enchainees_of_kept n ?_, .singleton _⟩
    exact (hnotes.keepsAlarms muet_of_silent h.attached).alarmes

theorem getLastD_etapes (s : Service) (action : Action) : (etapes s action).getLastD s = act s action := by
  cases action with
  | handlersTick =>
    unfold etapes
    dsimp only
    split
    · rw [List.getLastD_cons, Run.getLastD_append]
      rfl
    · next hc => exact (handlersTick_disconnected (by simpa using hc)).symm
  | _ => rfl

/-- **The tracking of the alarms over a run.** In every state reached, an alarm has rung
exactly if it rings or is snoozed, and is watched unless it is at rest. After the
successful reading of a tick the watch goes on exactly if an alarm is not at rest. And
an alarm that is snoozed at some point of a run has been since it rang. -/
theorem alarmes_suivies (device : AmlConfig) (world : World) (actions : List Action) :
    let init := serviceInit device world
    let s := run init actions
    (∀ n, (s.eventContext.alarmes n).aSonne = true ↔ etatDe s n = .sonne ∨ etatDe s n = .snooze) ∧
    (∀ n, etatDe s n ≠ .repos → s.eventContext.surveiller = true) ∧
    (∀ lever sonne lu, lectureDuTick s = some (lever, sonne, lu) →
      let apres := appliquerLecture lever sonne (instant s) lu
      handlersTick s = entretenirHorloge (instant s) apres ∧
        (apres.eventContext.surveiller = true ↔ ∃ n, etatDe apres n ≠ .repos)) ∧
    ∀ n before t after, parcours init actions = before ++ t :: after → etatDe t n = .snooze →
      ∃ first u between, init :: before = first ++ u :: between ∧ etatDe u n = .sonne ∧
        ∀ v ∈ between, etatDe v n = .snooze := by
  intro init s
  have hinit : Annoncee init := serviceInit_annoncee device world
  have hs : Annoncee s := run_annoncee hinit actions
  refine ⟨hs.suivi.aSonne, hs.suivi.surveillee, ?_, ?_⟩
  · intro lever sonne lu hlu
    have hc : sweetdawnIsConnected s = true := by
      by_contra hc
      simp [lectureDuTick, hc] at hlu
    have hevents := apresEvenements_annoncee hs.toSuivie
    have hread := lireStatut_keepsAlarms (instant s) (apresEvenements s)
    rcases avantHorloge_cases hc with ⟨lever', sonne', lu', hlu', hwatch, rfl, heq⟩ | ⟨hnone, -⟩
    · rw [hlu] at hlu'
      cases hlu'
      obtain ⟨-, -, hiff⟩ := appliquerLecture_suivie lever sonne (instant s)
        (hevents.toSuivie.keeps hread) ((hread hevents.attached).surveiller.trans hwatch)
      exact ⟨by rw [handlersTick_eq hc, heq], hiff⟩
    · rw [hlu] at hnone
      cases hnone
  · intro n before t after hsplit ht
    refine Run.since ?_ ?_ hsplit ht
    · exact Run.isChain_path (fun s a hs => isChain_etapes n hs a) getLastD_etapes
        (fun s a hs => act_annoncee hs a) hinit actions
    · intro hsnooze
      cases hsnooze

@[simp] theorem horlogeAml_eventContext (s : Service) :
    (horlogeAml s).2.eventContext = s.eventContext := by
  unfold horlogeAml
  split <;> rfl

@[simp] theorem sweetdawnStateAgeMs_eventContext (s : Service) :
    (sweetdawnStateAgeMs s).2.eventContext = s.eventContext := by
  unfold sweetdawnStateAgeMs
  split <;> rfl

theorem statusJson_alarmState (s : Service) :
    (statusJson s).1.get? "alarm_state" = some (reveilJson s.eventContext.alarmes) := by
  unfold statusJson
  dsimp only
  split <;> simp [JsonValue.get?]

/-- **Subscribers see what the status says.** In every state that a run reaches between
two steps, after a tick or after any other step, the last `alarm_state` event is the
`alarm_state` object that a status request returns. -/
theorem reveil_annonce (device : AmlConfig) (world : World) (actions : List Action) :
    let s := run (serviceInit device world) actions
    (statusJson s).1.get? "alarm_state" = some (derniereAnnonce s.world.journal) := by
  have h := run_annoncee (serviceInit_annoncee device world) actions
  dsimp only
  rw [statusJson_alarmState, h.suivi.annonce h.reveilChange]

end AmlService
