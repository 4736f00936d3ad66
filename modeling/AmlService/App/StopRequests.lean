import AmlService.App.AlarmRuns

/-!
# AmlService.App.StopRequests

After `Alarm/Stop`. The request takes effect at once (`arret_demande`), but messages
are worked off at the next tick: a sunrise or a ringing received before the stop and
still in the queue ends the effect of the stop, and the alarm can be taken for snoozed.
Otherwise the stop holds: as long as no new sunrise or ringing comes, a reading that
reports nothing leaves both alarms at rest.

The invariant is `Prise`: the stop is noted and no such message waits, or the messages
that wait leave no alarm ringing or snoozed.
-/

namespace AmlService

open Effect

/-! ### What waits in the queue -/

/-- What a message makes of the state of alarm `n`. -/
def etatMessage (n : Alarme) (etat : EtatReveil) (e : Evenement) : EtatReveil :=
  if alarmeDe e.value = some n then
    if e.code = amlEvtSunriseStart then .lever
    else if e.code = amlEvtAlarmRing then .sonne
    else etat
  else etat

/-- What the messages that wait will make of it. -/
def etatPrevu (s : Service) (n : Alarme) : EtatReveil :=
  s.eventContext.file.entries.foldl (etatMessage n) (etatDe s n)

/-- No sunrise or ringing waits. -/
def SansDebut (s : Service) : Prop := ∀ e ∈ s.eventContext.file.entries, debute e.code = false

/-- **The stop holds.** -/
def Prise (s : Service) : Prop :=
  (s.eventContext.arretDemande = true ∧ SansDebut s) ∨ ∀ n, ¬ (etatPrevu s n).sonneOuSnooze

/-- The same, when no sunrise or ringing waits. -/
def Tenue (s : Service) : Prop :=
  SansDebut s ∧ (s.eventContext.arretDemande = true ∨ ∀ n, ¬ (etatDe s n).sonneOuSnooze)

theorem foldl_etatMessage {n : Alarme} {entries : List Evenement}
    (h : ∀ e ∈ entries, debute e.code = false) (etat : EtatReveil) :
    entries.foldl (etatMessage n) etat = etat := by
  induction entries generalizing etat with
  | nil => rfl
  | cons e entries ih =>
    have he := h e List.mem_cons_self
    simp only [debute, Bool.or_eq_false_iff, beq_eq_false_iff_ne] at he
    have hstep : etatMessage n etat e = etat := by
      simp [etatMessage, he.1, he.2]
    rw [List.foldl_cons, hstep]
    exact ih (fun f hf => h f (List.mem_cons_of_mem e hf)) etat

theorem Tenue.prise {s : Service} (h : Tenue s) : Prise s := by
  obtain ⟨hqueue, harret | hcalm⟩ := h
  · exact .inl ⟨harret, hqueue⟩
  · right
    intro n
    rw [etatPrevu, foldl_etatMessage hqueue]
    exact hcalm n

/-! ### Steps without a new sunrise or ringing -/

/-- No sunrise or ringing was received. -/
def SansAlarme (added : List Obs) : Prop := ∀ ev ∈ eventsOf added, debute ev.1 = false

instance : DecidablePred SansAlarme := fun added =>
  inferInstanceAs (Decidable (∀ ev ∈ eventsOf added, debute ev.1 = false))

theorem SansAlarme.append {added added' : List Obs} :
    SansAlarme (added ++ added') ↔ SansAlarme added ∧ SansAlarme added' := by
  simp only [SansAlarme, eventsOf_append, List.mem_append, or_imp, forall_and]

/-- The step leads from `I` to `J`, unless a sunrise or a ringing is received. -/
def Mene (I J : Service → Prop) (a b : Service) : Prop :=
  ∃ added, b.world.journal = a.world.journal ++ added ∧ (SansAlarme added → I a → J b)

section Steps

variable {I J K : Service → Prop} {a b c : Service}

theorem Mene.trans (h : Mene I J a b) (h' : Mene J K b c) : Mene I K a c := by
  obtain ⟨added, hjournal, hstep⟩ := h
  obtain ⟨added', hjournal', hstep'⟩ := h'
  refine ⟨added ++ added', by rw [hjournal', hjournal, List.append_assoc], ?_⟩
  intro hquiet hI
  obtain ⟨hfirst, hsecond⟩ := SansAlarme.append.mp hquiet
  exact hstep' hsecond (hstep hfirst hI)

theorem Mene.mono (h : Mene I J a b) (hJ : J b → K b) : Mene I K a b := by
  obtain ⟨added, hjournal, hstep⟩ := h
  exact ⟨added, hjournal, fun hquiet hI => hJ (hstep hquiet hI)⟩

/-- A step that is not about messages. -/
theorem Handles.mene {codes : UInt8 → Prop} (h : Handles codes a b) (ha : Attached a)
    (hstep : I a → J b) : Mene I J a b := by
  obtain ⟨added, hhandled, -⟩ := h ha
  exact ⟨added, hhandled.world.journal, fun _ => hstep⟩

theorem SansAlarme.queued {added : List Obs} {more : List Evenement} (hquiet : SansAlarme added)
    (hcodes : ∀ x ∈ more, x.code ∈ (eventsOf added).map Prod.fst) :
    ∀ x ∈ more, debute x.code = false := by
  intro x hx
  obtain ⟨ev, hev, hcode⟩ := List.mem_map.mp (hcodes x hx)
  rw [← hcode]
  exact hquiet ev hev

theorem AlarmsKept.etatDe_eq (h : AlarmsKept a b) (n : Alarme) : etatDe b n = etatDe a n := by
  rw [etatDe, etatDe, h.alarmes]

theorem AlarmsKept.sansDebut {more : List Evenement} (hmore : ∀ x ∈ more, debute x.code = false)
    (hentries : b.eventContext.file.entries = a.eventContext.file.entries ++ more)
    (h : SansDebut a) : SansDebut b := by
  intro e he
  rw [hentries] at he
  exact (List.mem_append.mp he).elim (h e) (hmore e)

/-- What leaves the alarms alone leaves the effect of the stop alone. -/
theorem KeepsAlarms.mene_prise (h : KeepsAlarms a b) (ha : Attached a) : Mene Prise Prise a b := by
  have hkept := h ha
  obtain ⟨added, more, hjournal, -, hentries, hcodes⟩ := hkept.received
  refine ⟨added, hjournal, fun hquiet hprise => ?_⟩
  have hmore := hquiet.queued hcodes
  rcases hprise with ⟨harret, hqueue⟩ | hcalm
  · exact .inl ⟨hkept.arretDemande.trans harret, AlarmsKept.sansDebut hmore hentries hqueue⟩
  · right
    intro n
    rw [etatPrevu, hentries, List.foldl_append, foldl_etatMessage hmore, hkept.etatDe_eq]
    exact hcalm n

theorem KeepsAlarms.mene_tenue (h : KeepsAlarms a b) (ha : Attached a) : Mene Tenue Tenue a b := by
  have hkept := h ha
  obtain ⟨added, more, hjournal, -, hentries, hcodes⟩ := hkept.received
  refine ⟨added, hjournal, fun hquiet htenue => ?_⟩
  refine ⟨AlarmsKept.sansDebut (hquiet.queued hcodes) hentries htenue.1, ?_⟩
  rw [hkept.arretDemande]
  exact htenue.2.imp_right fun hcalm n => by rw [hkept.etatDe_eq]; exact hcalm n

end Steps

/-! ### The messages worked off -/

theorem traiterEvenement_etat (now : Int) (s : Service) (e : Evenement) (n : Alarme) :
    etatDe (traiterEvenement now s e) n = etatMessage n (etatDe s n) e := by
  rw [etatDe, traiterEvenement_alarme, etatDe]
  unfold messageAlarme etatMessage
  split
  · split
    · rfl
    split <;> rfl
  · rfl

theorem traiterEvenement_arret (now : Int) (s : Service) {e : Evenement}
    (he : debute e.code = false) :
    (traiterEvenement now s e).eventContext.arretDemande = s.eventContext.arretDemande := by
  rcases traiterEvenement_cases now s e with ⟨hcode, -⟩ | ⟨hcode, -⟩ |
    ⟨-, ⟨-, minuteur, -, heq⟩ | ⟨-, minuteur, -, heq⟩ | ⟨-, -, heq⟩⟩
  · rw [hcode] at he
    cases he
  · rw [hcode] at he
    cases he
  · simp [heq, SweetDawn.note]
  · simp [heq]
  · rw [heq]

theorem foldl_traiterEvenement_etat (now : Int) (s : Service) (entries : List Evenement) (n : Alarme) :
    etatDe (entries.foldl (traiterEvenement now) s) n = entries.foldl (etatMessage n) (etatDe s n) := by
  induction entries generalizing s with
  | nil => rfl
  | cons e entries ih => rw [List.foldl_cons, ih, traiterEvenement_etat, List.foldl_cons]

theorem foldl_traiterEvenement_arret (now : Int) {entries : List Evenement}
    (h : ∀ e ∈ entries, debute e.code = false) (s : Service) :
    (entries.foldl (traiterEvenement now) s).eventContext.arretDemande =
      s.eventContext.arretDemande := by
  induction entries generalizing s with
  | nil => rfl
  | cons e entries ih =>
    rw [List.foldl_cons, ih fun f hf => h f (List.mem_cons_of_mem e hf),
      traiterEvenement_arret now s (h e List.mem_cons_self)]

/-- **Working off the messages** leaves a stop that holds. -/
theorem depouiller_mene (now : Int) {s : Service} (ha : Attached s) :
    Mene Prise Tenue s (depouiller now s) := by
  refine Handles.mene (depouiller_attends now s : Attends noCode _ _).handles ha fun hprise => ⟨?_, ?_⟩
  · rw [SansDebut, depouiller_eventContext]
    simp [FileEvenements.vide]
  · rw [depouiller_eventContext]
    rcases hprise with ⟨harret, hnone⟩ | hcalm
    · exact .inl ((foldl_traiterEvenement_arret now hnone s).trans harret)
    · right
      intro n
      have hetat := foldl_traiterEvenement_etat now s s.eventContext.file.entries n
      rw [etatDe] at hetat
      rw [etatDe, depouiller_eventContext, hetat]
      exact hcalm n

theorem traiterEvenements_mene (now : Int) {s : Service} (h : Suivie s) :
    Mene Prise Tenue s (traiterEvenements now s) :=
  (depouiller_mene now h.attached).trans
    ((traiterEvenements_keepsAlarms now s).mene_tenue (depouiller_suivie now h).attached)

/-! ### The reading -/

/-- The reading of one alarm, while the stop holds: no request is made, and it comes to
rest if the reading reports nothing. -/
theorem suivreAlarme_tenue {s s' : Service} (h : Suivie s) {lever sonne : UInt8} {now : Int}
    {n : Alarme} (heq : suivreAlarme lever sonne now n s = s')
    (hheld : s.eventContext.arretDemande = true ∨ ¬ (etatDe s n).sonneOuSnooze)
    (hring : designe sonne n = true → s.eventContext.arretDemande = true) :
    s'.eventContext.arretDemande = s.eventContext.arretDemande ∧
      s'.eventContext.file = s.eventContext.file ∧
      (s.eventContext.arretDemande = true ∨ ¬ (etatDe s' n).sonneOuSnooze) ∧
      (designe lever n = false → designe sonne n = false → etatDe s' n = .repos) := by
  unfold suivreAlarme at heq
  dsimp only at heq
  split at heq
  · next hsonne =>
    subst heq
    refine ⟨?_, ?_, .inl (hring hsonne), ?_⟩
    · simp [SweetDawn.note, HandlersState.modifier]
    · simp [SweetDawn.note, HandlersState.modifier]
    · intro _ hno
      exact absurd (hsonne.symm.trans hno) (by simp)
  split at heq
  · next hlever =>
    subst heq
    simp only [Bool.and_eq_true, Bool.not_eq_true'] at hlever
    -- the stop is forgotten and the alarm does not ring: it has not rung
    have hquiet : (s.eventContext.alarmes n).aSonne = false := by
      rw [Bool.eq_false_iff, Ne, h.suivi.aSonne]
      exact hheld.resolve_left (by simp [hlever.2])
    refine ⟨?_, ?_, .inr ?_, ?_⟩
    · simp [SweetDawn.note]
    · simp [SweetDawn.note]
    · simp [SweetDawn.note, etatDe, hquiet, EtatReveil.sonneOuSnooze]
    · intro hno
      exact absurd (hlever.1.symm.trans hno) (by simp)
  split at heq
  · next hrang =>
    simp only [Bool.and_eq_true, decide_eq_true_eq, Bool.not_eq_true'] at hrang
    exact absurd (.inl hrang.1) (hheld.resolve_left (by simp [hrang.2]))
  split at heq
  · next hwait =>
    simp only [Bool.and_eq_true, decide_eq_true_eq, Bool.not_eq_true'] at hwait
    exact absurd (.inr hwait.1.1) (hheld.resolve_left (by simp [hwait.1.2]))
  · subst heq
    refine ⟨?_, ?_, .inr ?_, ?_⟩
    · simp [SweetDawn.note, HandlersState.modifier]
    · simp [SweetDawn.note, HandlersState.modifier]
    · simp [SweetDawn.note, etatDe, EtatReveil.sonneOuSnooze]
    · intro _ _
      simp [SweetDawn.note, etatDe]

/-- The same for both alarms. -/
theorem suivreAlarmes_tenue {s : Service} (h : Suivie s) (hwatch : s.eventContext.surveiller = true)
    (lever : UInt8) {sonne : UInt8} (now : Int)
    (hheld : s.eventContext.arretDemande = true ∨ ∀ n, ¬ (etatDe s n).sonneOuSnooze)
    (hring : ∀ n, designe sonne n = true → s.eventContext.arretDemande = true) :
    (suivreAlarmes lever sonne now s).eventContext.file = s.eventContext.file ∧
      ((suivreAlarmes lever sonne now s).eventContext.arretDemande = true ∨
        ∀ n, ¬ (etatDe (suivreAlarmes lever sonne now s) n).sonneOuSnooze) ∧
      ∀ n, designe lever n = false → designe sonne n = false →
        etatDe (suivreAlarmes lever sonne now s) n = .repos := by
  obtain ⟨hfirst, -⟩ := suivreAlarme_suivie lever sonne now 0 h hwatch
  have hone := suivreAlarme_other h.attached (by decide : (1 : Alarme) ≠ 0) lever sonne now
  have hzero := suivreAlarme_other hfirst.attached (by decide : (0 : Alarme) ≠ 1) lever sonne now
  unfold suivreAlarmes
  generalize hs₁ : suivreAlarme lever sonne now 0 s = s₁ at hfirst hone hzero ⊢
  obtain ⟨harret₁, hfile₁, hcalm₁, hrest₁⟩ :=
    suivreAlarme_tenue h hs₁ (hheld.imp_right fun hall => hall 0) (hring 0)
  have hetat₁ : etatDe s₁ 1 = etatDe s 1 := by
    rw [etatDe, hone, etatDe]
  generalize hs₂ : suivreAlarme lever sonne now 1 s₁ = s₂ at hzero ⊢
  obtain ⟨harret₂, hfile₂, hcalm₂, hrest₂⟩ :=
    suivreAlarme_tenue hfirst hs₂ (by rw [harret₁, hetat₁]; exact hheld.imp_right fun hall => hall 1)
      (by rw [harret₁]; exact hring 1)
  have hetat₂ : etatDe s₂ 0 = etatDe s₁ 0 := by
    rw [etatDe, hzero, etatDe]
  refine ⟨hfile₂.trans hfile₁, ?_, fun n => ?_⟩
  · rw [harret₂, harret₁] at *
    rcases hcalm₁ with hset | hcalm₁
    · exact .inl hset
    rcases hcalm₂ with hset | hcalm₂
    · exact .inl hset
    right
    intro n
    rcases Fin.exists_fin_two.mp ⟨n, rfl⟩ with rfl | rfl
    · rwa [hetat₂]
    · exact hcalm₂
  · rcases Fin.exists_fin_two.mp ⟨n, rfl⟩ with rfl | rfl
    · rw [hetat₂]
      exact hrest₁
    · exact hrest₂

/-- **A reading while the stop holds** leaves it so, unless it reports a ringing that the
stop has been forgotten for; and a reading that reports nothing leaves both alarms at
rest. -/
theorem appliquerLecture_tenue {s : Service} (h : Suivie s) (hwatch : s.eventContext.surveiller = true)
    (htenue : Tenue s) {lever sonne : UInt8} (now : Int)
    (hring : ∀ n, designe sonne n = true → s.eventContext.arretDemande = true) :
    Tenue (appliquerLecture lever sonne now s) ∧
      ((∀ n, designe lever n = false ∧ designe sonne n = false) →
        ∀ n, etatDe (appliquerLecture lever sonne now s) n = .repos) := by
  obtain ⟨hqueue, hheld⟩ := htenue
  obtain ⟨hfile, hcalm, hrest⟩ := suivreAlarmes_tenue h hwatch lever now hheld hring
  have hetat : ∀ n, etatDe (appliquerLecture lever sonne now s) n =
      etatDe (suivreAlarmes lever sonne now s) n := by
    intro n
    rw [etatDe, appliquerLecture_alarmes lever sonne now h hwatch, etatDe]
  rw [SansDebut, ← hfile] at hqueue
  refine ⟨?_, fun hnone n => (hetat n).trans (hrest n (hnone n).1 (hnone n).2)⟩
  simp only [Tenue, hetat]
  rcases appliquerLecture_cases lever sonne now h hwatch with ⟨-, heq⟩ | ⟨hidle, heq⟩
  · rw [heq, SansDebut, diffuserReveil_eventContext]
    exact ⟨hqueue, hcalm⟩
  · -- the watch stops and the stop is forgotten, with both alarms at rest
    rw [heq, SansDebut, diffuserReveil_eventContext]
    refine ⟨hqueue, .inr fun n => ?_⟩
    rw [etatDe, hidle n]
    simp [EtatReveil.sonneOuSnooze]

/-! ### Runs after a stop -/

/-- The reading of a tick reports no ringing, unless the stop is still noted. -/
def SonnerieCouverte (s : Service) : Prop :=
  ∀ lever sonne lu, lectureDuTick s = some (lever, sonne, lu) →
    ∀ n, designe sonne n = true → lu.eventContext.arretDemande = true

theorem apresEvenements_mene {s : Service} (h : Suivie s) :
    Mene Prise Tenue s (apresEvenements s) := by
  have hnow : Suivie (maintenant s).2 := h.keeps (maintenant_keepsAlarms s)
  have hnoted : Mene Prise Prise (maintenant s).2 (noterConnexion (maintenant s).2) := by
    refine (noterConnexion_attends _ : Attends noCode _ _).handles.mene hnow.attached fun hprise => ?_
    unfold noterConnexion
    split
    · exact hprise
    · exact hprise
  exact ((maintenant_keepsAlarms s).mene_prise h.attached).trans
    (hnoted.trans (traiterEvenements_mene (instant s) (noterConnexion_suivie hnow)))

theorem lectureDuTick_mene {s lu : Service} (h : Suivie s) {lever sonne : UInt8}
    (hlu : lectureDuTick s = some (lever, sonne, lu)) : Mene Prise Tenue s lu := by
  have hc : sweetdawnIsConnected s = true := by
    by_contra hc
    simp [lectureDuTick, hc] at hlu
  rcases avantHorloge_cases hc with ⟨lever', sonne', lu', hlu', -, rfl, -⟩ | ⟨hnone, -⟩
  · rw [hlu] at hlu'
    cases hlu'
    exact (apresEvenements_mene h).trans ((lireStatut_keepsAlarms _ _).mene_tenue
      (apresEvenements_annoncee h).attached)
  · rw [hlu] at hnone
    cases hnone

/-- The reading of a tick, while the stop holds. -/
theorem lectureDuTick_tenue {s lu : Service} (h : Suivie s) {lever sonne : UInt8}
    (hlu : lectureDuTick s = some (lever, sonne, lu)) (hcover : SonnerieCouverte s) (htenue : Tenue lu) :
    avantHorloge s = appliquerLecture lever sonne (instant s) lu ∧
    Tenue (avantHorloge s) ∧
      ((∀ n, designe lever n = false ∧ designe sonne n = false) → ∀ n, etatDe (avantHorloge s) n = .repos) := by
  have hc : sweetdawnIsConnected s = true := by
    by_contra hc
    simp [lectureDuTick, hc] at hlu
  have hevents := apresEvenements_annoncee h
  have hread := lireStatut_keepsAlarms (instant s) (apresEvenements s)
  rcases avantHorloge_cases hc with ⟨lever', sonne', lu', hlu', hwatch, rfl, heq⟩ | ⟨hnone, -⟩
  · rw [hlu] at hlu'
    cases hlu'
    rw [heq]
    exact ⟨rfl, appliquerLecture_tenue (hevents.toSuivie.keeps hread)
      ((hread hevents.attached).surveiller.trans hwatch) htenue _ (hcover lever sonne _ hlu)⟩
  · rw [hlu] at hnone
    cases hnone

theorem avantHorloge_mene {s : Service} (h : Suivie s) (hc : sweetdawnIsConnected s = true)
    (hcover : SonnerieCouverte s) : Mene Prise Tenue s (avantHorloge s) := by
  have hevents := apresEvenements_annoncee h
  have hread := lireStatut_keepsAlarms (instant s) (apresEvenements s)
  rcases avantHorloge_cases hc with ⟨lever, sonne, lu, hlu, hwatch, rfl, heq⟩ | ⟨-, heq | heq⟩
  · have hlast : Mene Tenue Tenue (lireStatut (instant s) (apresEvenements s)).2 (avantHorloge s) := by
      rw [heq]
      refine (appliquerLecture_attends lever sonne (instant s) _).handles.mene (hread hevents.attached).attached ?_
      intro htenue
      rw [← heq]
      exact (lectureDuTick_tenue h hlu hcover htenue).2.1
    exact (lectureDuTick_mene h hlu).trans hlast
  · rw [heq]
    exact apresEvenements_mene h
  · rw [heq]
    exact (apresEvenements_mene h).trans (hread.mene_tenue hevents.attached)

/-- **One step** keeps the effect of a stop, unless a sunrise or a ringing is received. -/
theorem act_mene {s : Service} (h : Annoncee s) (action : Action)
    (hcover : action = .handlersTick → SonnerieCouverte s) : Mene Prise Prise s (act s action) := by
  rcases act_cases s action with rfl | ⟨command, parent, value, later, stopped, -, htalks, heq⟩ |
    ⟨-, hnotes, -⟩
  · show Mene Prise Prise s (handlersTick s)
    cases hc : sweetdawnIsConnected s with
    | false =>
      rw [handlersTick_disconnected hc]
      exact (refl_of KeepsAlarms s).mene_prise h.attached
    | true =>
      rw [handlersTick_eq hc]
      have hlast := avantHorloge_annoncee h.toSuivie hc
      exact ((avantHorloge_mene h.toSuivie hc (hcover rfl)).trans
        ((entretenirHorloge_keepsAlarms _ _).mene_tenue hlast.attached)).mono Tenue.prise
  · obtain ⟨added, hjournal, hstep⟩ := htalks.keepsAlarms.mene_prise h.attached
    rw [heq]
    refine ⟨added, hjournal, fun hquiet hprise => ?_⟩
    have hlater := hstep hquiet hprise
    -- a snooze does not undo the stop, another stop does not either
    rw [SweetDawn.note, noterAction_eq]
    exact hlater.imp_left fun hheld => ⟨by simp [hheld.1], hheld.2⟩
  · exact (hnotes.keepsAlarms muet_of_silent).mene_prise h.attached

/-- A run. -/
theorem run_mene {s : Service} (h : Annoncee s) {actions : List Action}
    (hcover : Run.Steps act (fun s action => action = .handlersTick → SonnerieCouverte s) s actions) :
    Mene Prise Prise s (run s actions) := by
  have hrun : Annoncee (run s actions) ∧ Mene Prise Prise s (run s actions) := by
    refine Run.Steps.invariant (I := fun t => Annoncee t ∧ Mene Prise Prise s t) ?_ hcover
      ⟨h, (refl_of KeepsAlarms s).mene_prise h.attached⟩
    rintro t action ⟨ht, hmene⟩ hcover
    exact ⟨act_annoncee ht action, hmene.trans (act_mene ht action hcover)⟩
  exact hrun.2

/-- A stop that has succeeded is noted. -/
theorem agirSurAlarme_stop {before s : Service} (h : Annoncee before) {command : Command}
    (hname : command.name = "Stop") (hstop : agirSurAlarme command before = (.ok (), s)) :
    Annoncee s ∧ s.eventContext.arretDemande = true := by
  obtain ⟨later, htalks, hnoted⟩ := agirSurAlarme_inv hstop
  rw [hnoted, hname]
  exact ⟨(h.keeps htalks.keepsAlarms).noterAction _, rfl⟩

/-- **After a stop.** `Alarm/Stop` has succeeded, and the messages that waited when it was
acknowledged held no sunrise or ringing, or leave no alarm ringing or snoozed. Then,
whatever steps follow, as long as no sunrise or ringing is received and no reading reports
a ringing once the stop is forgotten, a reading that reports nothing leaves both alarms
at rest. -/
theorem arret_tient (device : AmlConfig) (world : World) (before after : List Action)
    {command : Command} (hname : command.name = "Stop") {s : Service}
    (hstop : agirSurAlarme command (run (serviceInit device world) before) = (.ok (), s))
    (hwaiting : SansDebut s ∨ ∀ n, ¬ (etatPrevu s n).sonneOuSnooze)
    (hcover : Run.Steps act (fun t action => action = .handlersTick → SonnerieCouverte t) s after)
    {lu : Service} (hlu : lectureDuTick (run s after) = some (0, 0, lu))
    (hquiet : SansAlarme (lu.world.journal.drop s.world.journal.length)) :
    ∀ n, etatDe (handlersTick (run s after)) n = .repos := by
  have hbefore := run_annoncee (serviceInit_annoncee device world) before
  obtain ⟨hs, harret⟩ := agirSurAlarme_stop hbefore hname hstop
  have hprise : Prise s := hwaiting.imp_left fun hnone => ⟨harret, hnone⟩
  have hlast := run_annoncee hs after
  obtain ⟨added, hjournal, hstep⟩ :=
    (run_mene hs hcover).trans (lectureDuTick_mene hlast.toSuivie hlu)
  rw [hjournal, List.drop_left] at hquiet
  have hdesigne : ∀ n, designe 0 n = false := by decide
  have hlast_cover : SonnerieCouverte (run s after) := by
    intro lever sonne lu' hlu' n hring
    rw [hlu] at hlu'
    cases hlu'
    rw [hdesigne] at hring
    cases hring
  obtain ⟨-, -, hrest⟩ :=
    lectureDuTick_tenue hlast.toSuivie hlu hlast_cover (hstep hquiet hprise)
  have hc : sweetdawnIsConnected (run s after) = true := by
    by_contra hc
    simp [lectureDuTick, hc] at hlu
  have hbeforeClock := avantHorloge_annoncee hlast.toSuivie hc
  intro n
  rw [handlersTick_eq hc, (entretenirHorloge_keepsAlarms _ _ hbeforeClock.attached).etatDe_eq]
  exact hrest (fun n => ⟨hdesigne n, hdesigne n⟩) n

/-- The reading of a tick, and whether a sunrise or a ringing was received since `s`. -/
def lectureDepuis (s t : Service) : Option (UInt8 × UInt8 × Bool) :=
  (lectureDuTick t).map fun (lever, sonne, lu) =>
    (lever, sonne, decide (SansAlarme (lu.world.journal.drop s.world.journal.length)))

theorem agirSurAlarme_of_isOk {command : Command} {s : Service}
    (h : (agirSurAlarme command s).1.isOk = true) :
    agirSurAlarme command s = (.ok (), (agirSurAlarme command s).2) := by
  rcases hact : agirSurAlarme command s with ⟨_ | _, later⟩
  · rw [hact] at h
    cases h
  · rfl

/-- An alarm rings, is seen ringing, and is stopped. -/
theorem arret_tient_sonnerie :
    let world := World.answering 1 300 [.reply 0xC7 [1], .quiet, .quiet, .reply 0xC9 [], .quiet,
      .quiet, .reply 0xC5 [0, 0], .quiet, .quiet]
    let s := (agirSurAlarme (action "Stop" "")
      (run (serviceInit amlScripted world) [.sweetdawnTick, .sweetdawnTick, .handlersTick])).2
    etatDe s 0 = .sonne ∧ lectureDepuis s (run s [.sweetdawnTick]) = some (0, 0, true) ∧
      ∀ n, etatDe (handlersTick (run s [.sweetdawnTick])) n = .repos := by
  intro world s
  have hread : lectureDepuis s (run s [.sweetdawnTick]) = some (0, 0, true) := by decide +kernel
  refine ⟨by decide +kernel, hread, ?_⟩
  obtain ⟨⟨lever, sonne, lu⟩, hlu, heq⟩ := Option.map_eq_some_iff.mp hread
  simp only [Prod.mk.injEq, decide_eq_true_eq] at heq
  obtain ⟨rfl, rfl, hquiet⟩ := heq
  have hstop := agirSurAlarme_of_isOk (by decide +kernel : (agirSurAlarme (action "Stop" "")
    (run (serviceInit amlScripted world) [.sweetdawnTick, .sweetdawnTick, .handlersTick])).1.isOk = true)
  have hnone : ∀ e ∈ s.eventContext.file.entries, debute e.code = false := by decide +kernel
  exact arret_tient amlScripted world _ [.sweetdawnTick] rfl hstop (.inl hnone)
    ⟨nofun, trivial⟩ hlu hquiet

/-- The ringing is received before the stop, and still waits when the stop is
acknowledged: nothing is received since, and the alarm is taken for snoozed. -/
theorem arret_oublie :
    let world := World.answering 1 300 [.reply 0xC7 [1], .quiet, .reply 0xC9 [], .quiet, .quiet,
      .reply 0xC5 [0, 0], .quiet, .quiet]
    let stop := agirSurAlarme (action "Stop" "")
      (run (serviceInit amlScripted world) [.sweetdawnTick])
    let s := run stop.2 [.handlersTick, .sweetdawnTick]
    stop.1.isOk = true ∧ lectureDepuis stop.2 s = some (0, 0, true) ∧
      etatDe (handlersTick s) 0 = .snooze := by
  decide +kernel

end AmlService
