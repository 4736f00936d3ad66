import AmlService.App.Readings

/-!
# AmlService.App.SeparateAlarms

An alarm in its sunrise while the other one is stopped. The stop is noted in one flag for
both alarms, and a reading taken while it is noted brings every alarm that does not ring to
rest: the sunrise is tracked on only if the flag was cleared before. The first reading after
the stop always finds it noted, unless a sunrise or a ringing was worked off since.
-/

namespace AmlService

open Effect

/-! ### After a stop -/

/-- Only a tick forgets a stop. -/
theorem act_arret {s : Service} (ha : Attached s) {action : Action} (hne : action ≠ .handlersTick)
    (harret : s.eventContext.arretDemande = true) :
    (act s action).eventContext.arretDemande = true := by
  rcases act_cases s action with rfl | ⟨command, parent, value, later, stopped, -, htalks, heq⟩ |
    ⟨-, hnotes, -⟩
  · exact absurd rfl hne
  · rw [heq, SweetDawn.note, noterAction_eq]
    simp [(htalks.keepsAlarms ha).arretDemande, harret]
  · rw [(hnotes.keepsAlarms muet_of_silent ha).arretDemande, harret]

theorem run_arret {s : Service} (h : Annoncee s) {actions : List Action}
    (hnotick : Action.handlersTick ∉ actions) (harret : s.eventContext.arretDemande = true) :
    (run s actions).eventContext.arretDemande = true := by
  induction actions generalizing s with
  | nil => exact harret
  | cons action actions ih =>
    rw [List.mem_cons, not_or] at hnotick
    exact ih (act_annoncee h action) hnotick.2 (act_arret h.attached (Ne.symm hnotick.1) harret)

/-- An alarm that holds the lamp without ringing stays in its sunrise, and watched, if the
stop is forgotten and it has not rung. -/
theorem handlersTick_lever {s lu : Service} (h : Annoncee s) {n : Alarme} {lever sonne : UInt8}
    (hlu : lectureDuTick s = some (lever, sonne, lu)) (hlever : designe lever n = true)
    (hsonne : designe sonne n = false) :
    (etatDe (handlersTick s) n = .lever ∧ (handlersTick s).eventContext.surveiller = true) ↔
      s.eventContext.arretDemande = false ∧ ¬ (etatDe s n).sonneOuSnooze := by
  obtain ⟨hread, hwatch⟩ := handlersTick_lecture h.toSuivie hlu
  have hetat : etatDe (handlersTick s) n = .lever ↔
      s.eventContext.arretDemande = false ∧ ¬ (etatDe s n).sonneOuSnooze := by
    have hrang := h.suivi.aSonne n
    rw [← etatDe] at hrang
    rw [etatDe, hread n, hlever, hsonne, ← hrang]
    cases harret : s.eventContext.arretDemande with
    | false => cases haSonne : (s.eventContext.alarmes n).aSonne <;> simp [lectureAlarme, haSonne]
    | true => simp [lectureAlarme]
  rw [← hetat, hwatch]
  -- an alarm in its sunrise is watched
  refine ⟨And.left, fun hsunrise => ⟨hsunrise, n, ?_⟩⟩
  simp [hsunrise]

/-- **Stopping one alarm while the other is in its sunrise.** `Alarm/Stop` has succeeded,
whatever came before and comes after. A reading that reports alarm `n` as holding the lamp
without ringing leaves it in its sunrise, and watched, if and only if the stop is forgotten
by then and the alarm has not rung. It is noted until the first periodic task. -/
theorem lever_suivi_apres_arret (device : AmlConfig) (world : World) (before after : List Action)
    {command : Command} (hname : command.name = "Stop") {s : Service}
    (hstop : agirSurAlarme command (run (serviceInit device world) before) = (.ok (), s))
    {n : Alarme} {lever sonne : UInt8} {lu : Service}
    (hlu : lectureDuTick (run s after) = some (lever, sonne, lu))
    (hlever : designe lever n = true) (hsonne : designe sonne n = false) :
    let t := run s after
    ((etatDe (handlersTick t) n = .lever ∧ (handlersTick t).eventContext.surveiller = true) ↔
      t.eventContext.arretDemande = false ∧ ¬ (etatDe t n).sonneOuSnooze) ∧
    (Action.handlersTick ∉ after → t.eventContext.arretDemande = true) := by
  intro t
  have hbefore := run_annoncee (serviceInit_annoncee device world) before
  obtain ⟨hs, harret⟩ := agirSurAlarme_stop hbefore hname hstop
  exact ⟨handlersTick_lever (run_annoncee hs after) hlu hlever hsonne,
    fun hnotick => run_arret hs hnotick harret⟩

/-- Alarm 1 rings while alarm 2 is in its sunrise, and is stopped; the sunrise is told once
more, and worked off before the reading. -/
theorem lever_suivi_apres_arret_annonce :
    let world := World.answering 1 300 [.reply 0xC6 [2], .reply 0xC7 [1], .quiet, .quiet,
      .reply 0xC6 [2], .reply 0xC9 [], .quiet, .quiet, .quiet, .reply 0xC5 [2, 0], .quiet, .quiet]
    let before := run (serviceInit amlScripted world) [.sweetdawnTick, .sweetdawnTick, .handlersTick]
    let t := run (agirSurAlarme (action "Stop" "") before).2 [.handlersTick, .sweetdawnTick, .sweetdawnTick]
    etatDe before 0 = .sonne ∧ etatDe before 1 = .lever ∧
      etatDe (handlersTick t) 1 = .lever ∧ (handlersTick t).eventContext.surveiller = true := by
  intro world before t
  have hread : lectureDepuis t t = some (2, 0, true) := by decide +kernel
  obtain ⟨⟨lever, sonne, lu⟩, hlu, heq⟩ := Option.map_eq_some_iff.mp hread
  simp only [Prod.mk.injEq] at heq
  obtain ⟨rfl, rfl, -⟩ := heq
  have hstop := agirSurAlarme_of_isOk
    (by decide +kernel : (agirSurAlarme (action "Stop" "") before).1.isOk = true)
  have hforgotten : t.eventContext.arretDemande = false := by decide +kernel
  have hsunrise : etatDe t 1 = .lever := by decide +kernel
  obtain ⟨hiff, -⟩ := lever_suivi_apres_arret amlScripted world _
    [.handlersTick, .sweetdawnTick, .sweetdawnTick] rfl hstop hlu
    (by decide : designe 2 1 = true) (by decide : designe 0 1 = false)
  refine ⟨by decide +kernel, by decide +kernel, hiff.mpr ⟨hforgotten, ?_⟩⟩
  rw [hsunrise]
  simp [EtatReveil.sonneOuSnooze]

/-- Without that message, the sunrise of alarm 2 is lost: the AML still reports it, and
nothing is read any more. -/
theorem lever_perdu_apres_arret :
    let world := World.answering 1 300 [.reply 0xC6 [2], .reply 0xC7 [1], .quiet, .quiet,
      .reply 0xC9 [], .quiet, .quiet, .reply 0xC5 [2, 0], .quiet, .quiet]
    let before := run (serviceInit amlScripted world) [.sweetdawnTick, .sweetdawnTick, .handlersTick]
    let stop := agirSurAlarme (action "Stop" "") before
    let t := run stop.2 [.sweetdawnTick]
    etatDe before 0 = .sonne ∧ etatDe before 1 = .lever ∧ stop.1.isOk = true ∧
      lectureDepuis stop.2 t = some (2, 0, true) ∧ etatDe (handlersTick t) 1 = .repos ∧
      (handlersTick t).eventContext.surveiller = false := by
  decide +kernel

end AmlService
