import AmlService.App.Readings
import Mathlib.Data.List.Infix

/-!
# AmlService.App.SnoozeBound

How long an alarm can be taken for snoozed. The AML does not say when a ringing ends: the
first reading that finds it over has the alarm snoozed, for its snooze duration plus a
margin counted from that reading. Readings are impossible while the link is down, so the
ringing may have ended long before.

The invariant is `Bornee`: an alarm that has rung was seen ringing, and the end of its
presumed snooze, if one is set, is within the bound of that.
-/

namespace AmlService

open Effect

/-- The longest snooze, in milliseconds. -/
abbrev snoozeMaxMs : Int := 30 * 60000

/-- The longest time from the last sight of a ringing to a reading that leaves the alarm
snoozed: the longest snooze, its margin, a period of the watch. -/
abbrev delaiSnoozeMs : Int := snoozeMaxMs + snoozeMarginMs + alarmWatchMs

/-! ### The sight of a ringing -/

/-- A message that alarm `n` rings. -/
def annonceSonnerie (n : Alarme) (e : Evenement) : Bool :=
  e.code == amlEvtAlarmRing && alarmeDe e.value == some n

/-- A periodic task that starts in `s` sees alarm `n` ringing: it works off a message that
says so, or makes a reading that does. -/
def voitSonner (n : Alarme) (s : Service) : Bool :=
  sweetdawnIsConnected s && (s.eventContext.file.entries.any (annonceSonnerie n) ||
    (lectureDuTick s).any fun (_, sonne, _) => designe sonne n)

/-- The states of a run where a periodic task starts that sees alarm `n` ringing. -/
def sonneries (n : Alarme) (s : Service) (actions : List Action) : List Service :=
  Run.path (fun s action => match action with
    | .handlersTick => if voitSonner n s then [s] else []
    | _ => []) act s actions

/-- The snooze duration, in minutes, read by a periodic task whose reading finds that alarm
`n` does not ring any more. -/
def snoozeLu (n : Alarme) (s : Service) : Option Int :=
  match lectureDuTick s with
  | none => none
  | some (lever, sonne, lu) =>
    if !designe lever n && !designe sonne n && etatDe s n == .sonne && !s.eventContext.arretDemande then
      some (minutesSnooze n (venuA n lever sonne (instant s) lu))
    else none

/-- When alarm `n` was last seen ringing. -/
def vueSonner (n : Alarme) (s : Service) (actions : List Action) : Option Int :=
  (sonneries n s actions).getLast?.map instant

/-- The end of a ringing is noticed in time: what the snooze leaves of the longest one
covers the time since the ringing was last seen. -/
def FinVueATemps (n : Alarme) (init : Service) (before : List Action) : Prop :=
  ∀ minutes ∈ snoozeLu n (run init before), ∀ vue ∈ vueSonner n init before,
    instant (run init before) - vue ≤ snoozeMaxMs - minutes * 60000 + alarmWatchMs + 1

instance (n : Alarme) (init : Service) (before : List Action) : Decidable (FinVueATemps n init before) :=
  inferInstanceAs (Decidable (∀ minutes ∈ snoozeLu n (run init before), ∀ vue ∈ vueSonner n init before,
    instant (run init before) - vue ≤ snoozeMaxMs - minutes * 60000 + alarmWatchMs + 1))

/-! ### One alarm -/

/-- The alarm has rung only if it was seen ringing, and a presumed snooze ends within the
bound of that. -/
def Bornee (vue : Option Int) (a : SuiviAlarme) : Prop :=
  a.aSonne = true → ∃ t, vue = some t ∧ (a.finSnoozeMs = 0 ∨ a.finSnoozeMs ≤ t + delaiSnoozeMs + 1)

theorem foldl_messageAlarme_sonnerie {n : Alarme} {entries : List Evenement}
    (h : entries.any (annonceSonnerie n) = true) (a : SuiviAlarme) :
    (entries.foldl (messageAlarme n) a).finSnoozeMs = 0 := by
  -- backwards: the last ringing sets it, nothing after it changes it
  induction entries using List.reverseRecOn with
  | nil => cases h
  | append_singleton entries e ih =>
    rw [List.foldl_append, List.foldl_cons, List.foldl_nil]
    rw [List.any_append, Bool.or_eq_true] at h
    cases he : annonceSonnerie n e with
    | true =>
      simp only [annonceSonnerie, Bool.and_eq_true, beq_iff_eq] at he
      simp [messageAlarme, he.1, he.2, amlEvtSunriseStart, amlEvtAlarmRing]
    | false =>
      have hbefore := ih (h.resolve_right (by simp [he]))
      unfold messageAlarme
      split
      · split
        · exact hbefore
        split
        · rfl
        · exact hbefore
      · exact hbefore

theorem foldl_messageAlarme_sansSonnerie {n : Alarme} {entries : List Evenement}
    (h : entries.any (annonceSonnerie n) = false) (a : SuiviAlarme)
    (hrang : (entries.foldl (messageAlarme n) a).aSonne = true) :
    a.aSonne = true ∧ (entries.foldl (messageAlarme n) a).finSnoozeMs = a.finSnoozeMs := by
  induction entries generalizing a with
  | nil => exact ⟨hrang, rfl⟩
  | cons e entries ih =>
    rw [List.any_cons, Bool.or_eq_false_iff] at h
    obtain ⟨hfirst, hfin⟩ := ih h.2 _ hrang
    rw [List.foldl_cons, hfin]
    -- the message is no ringing of this alarm, and a sunrise would have it not rung
    unfold messageAlarme at hfirst ⊢
    split at hfirst
    · next hvalue =>
      split at hfirst
      · cases hfirst
      next hlever =>
      split at hfirst
      · next hcode => simp [annonceSonnerie, hvalue, hcode] at h
      · next hcode => simpa [hvalue, hlever, hcode] using hfirst
    · next hvalue => simpa [hvalue] using hfirst

theorem Bornee.messages {vue : Option Int} {a : SuiviAlarme} (h : Bornee vue a) (n : Alarme)
    (entries : List Evenement) (now : Int) :
    Bornee (if entries.any (annonceSonnerie n) then some now else vue)
      (entries.foldl (messageAlarme n) a) := by
  intro hrang
  cases hany : entries.any (annonceSonnerie n) with
  | true => exact ⟨now, rfl, .inl (foldl_messageAlarme_sonnerie hany a)⟩
  | false =>
    obtain ⟨hbefore, hfin⟩ := foldl_messageAlarme_sansSonnerie hany a hrang
    rw [hfin]
    exact h hbefore

/-- A reading keeps the bound, if an end of ringing is noticed in time. -/
theorem Bornee.lecture {vue : Option Int} {a : SuiviAlarme} (h : Bornee vue a)
    {lever sonne arret : Bool} {now minutes : Int}
    (hcesse : lever = false → sonne = false → a.etat = .sonne → arret = false → ∀ t ∈ vue,
      now - t ≤ snoozeMaxMs - minutes * 60000 + alarmWatchMs + 1) :
    Bornee (if sonne then some now else vue) (lectureAlarme lever sonne arret now minutes a) := by
  unfold lectureAlarme
  split
  · intro _
    exact ⟨now, rfl, .inl rfl⟩
  next hsonne =>
  have hsonne : sonne = false := by simpa using hsonne
  split
  · exact h
  next hlever =>
  split
  · next hring =>
    intro hrang
    simp only [Bool.and_eq_true, decide_eq_true_eq, Bool.not_eq_true'] at hring
    have hlever : lever = false := by simpa [hring.2] using hlever
    obtain ⟨t, rfl, -⟩ := h hrang
    have hdelay := hcesse hlever hsonne hring.1 hring.2 t rfl
    refine ⟨t, rfl, .inr ?_⟩
    unfold delaiSnoozeMs
    dsimp only
    omega
  split
  · exact h
  · intro hrang
    cases hrang

/-- A reading that reports nothing leaves the alarm snoozed only within the bound. -/
theorem Bornee.snooze {vue : Option Int} {a : SuiviAlarme} (h : Bornee vue a)
    (hrang : a.aSonne = true ↔ a.etat.sonneOuSnooze) {arret : Bool} {now minutes : Int}
    (hnow : 0 ≤ now) (hminutes : 0 ≤ minutes)
    (hcesse : a.etat = .sonne → arret = false → ∀ t ∈ vue,
      now - t ≤ snoozeMaxMs - minutes * 60000 + alarmWatchMs + 1)
    (hsnooze : (lectureAlarme false false arret now minutes a).etat = .snooze) :
    ∃ t, vue = some t ∧ now - t ≤ delaiSnoozeMs := by
  unfold lectureAlarme at hsnooze
  split at hsnooze
  · cases hsnooze
  split at hsnooze
  · next hlever => simp at hlever
  split at hsnooze
  · next hring =>
    -- the end of the ringing is noticed now
    simp only [Bool.and_eq_true, decide_eq_true_eq, Bool.not_eq_true'] at hring
    obtain ⟨t, rfl, -⟩ := h (hrang.mpr (.inl hring.1))
    have hdelay := hcesse hring.1 hring.2 t rfl
    have hmargin : 1 ≤ snoozeMarginMs := by decide
    exact ⟨t, rfl, by unfold delaiSnoozeMs; omega⟩
  split at hsnooze
  · next hwait =>
    -- it was noticed before, and the presumed snooze is not over
    simp only [Bool.and_eq_true, decide_eq_true_eq] at hwait
    obtain ⟨t, rfl, hzero | hfin⟩ := h (hrang.mpr (.inr hsnooze))
    · omega
    · exact ⟨t, rfl, by omega⟩
  · cases hsnooze

/-! ### Runs -/

theorem minutesSnooze_nonneg (n : Alarme) (s : Service) : 0 ≤ minutesSnooze n s := by
  unfold minutesSnooze
  split
  · next alarm _ =>
    rw [List.getD_eq_getElem?_getD]
    cases hminutes : snoozeMinutes[alarm.snooze.toNat]? with
    | none => decide
    | some minutes =>
      have hall : ∀ m ∈ snoozeMinutes, 0 ≤ m := by decide
      exact hall minutes (List.mem_of_getElem? hminutes)
  · decide

theorem vueSonner_concat (n : Alarme) (s : Service) (actions : List Action) (action : Action) :
    vueSonner n s (actions ++ [action]) =
      match action with
      | .handlersTick =>
        if voitSonner n (run s actions) then some (instant (run s actions)) else vueSonner n s actions
      | _ => vueSonner n s actions := by
  unfold vueSonner sonneries
  rw [Run.path_append, Run.path, Run.path, List.append_nil]
  cases action with
  | handlersTick =>
    dsimp only
    rw [← run]
    split
    · simp
    · simp
  | _ => simp

/-- What a reading that finds the end of a ringing has to meet. -/
theorem snoozeLu_eq {n : Alarme} {s lu : Service} {lever sonne : UInt8}
    (hlu : lectureDuTick s = some (lever, sonne, lu)) (hlever : designe lever n = false)
    (hsonne : designe sonne n = false) (hetat : etatDe s n = .sonne)
    (harret : s.eventContext.arretDemande = false) :
    snoozeLu n s = some (minutesSnooze n (venuA n lever sonne (instant s) lu)) := by
  simp [snoozeLu, hlu, hlever, hsonne, hetat, harret]

theorem voitSonner_lecture {n : Alarme} {s lu : Service} (h : Suivie s) {lever sonne : UInt8}
    (hlu : lectureDuTick s = some (lever, sonne, lu)) : voitSonner n s = designe sonne n := by
  have hc : sweetdawnIsConnected s = true := by
    by_contra hc
    simp [lectureDuTick, hc] at hlu
  have hnone : s.eventContext.file.entries.any (annonceSonnerie n) = false := by
    refine List.any_eq_false.mpr fun e he => ?_
    have hcode := lectureDuTick_sansDebut h hlu e he
    simp only [debute, Bool.or_eq_false_iff, beq_eq_false_iff_ne] at hcode
    simp [annonceSonnerie, hcode.2]
  simp [voitSonner, hc, hnone, hlu]

/-- **One step.** -/
theorem act_bornee {init : Service} (hinit : Annoncee init) {n : Alarme} {before : List Action}
    (hbounded : Bornee (vueSonner n init before) ((run init before).eventContext.alarmes n))
    (action : Action) (hcesse : action = .handlersTick → FinVueATemps n init before) :
    Bornee (vueSonner n init (before ++ [action]))
      ((act (run init before) action).eventContext.alarmes n) := by
  have hs := run_annoncee hinit before
  rw [vueSonner_concat]
  generalize hrun : run init before = s at hs hbounded ⊢
  rcases act_cases s action with rfl | ⟨command, parent, value, later, stopped, rfl, htalks, heq⟩ |
    ⟨hne, hnotes, -⟩
  · show Bornee (if voitSonner n s then some (instant s) else vueSonner n init before)
      ((handlersTick s).eventContext.alarmes n)
    cases hc : sweetdawnIsConnected s with
    | false =>
      rw [handlersTick_disconnected hc]
      simpa [voitSonner, hc] using hbounded
    | true =>
      cases hread : lectureDuTick s with
      | none =>
        rw [handlersTick_sansLecture hs.toSuivie hc hread]
        have hseen : voitSonner n s = s.eventContext.file.entries.any (annonceSonnerie n) := by
          simp [voitSonner, hc, hread]
        rw [hseen]
        exact hbounded.messages n _ _
      | some reading =>
        obtain ⟨lever, sonne, lu⟩ := reading
        rw [(handlersTick_lecture hs.toSuivie hread).1 n, voitSonner_lecture hs.toSuivie hread]
        refine hbounded.lecture fun hlever hsonne hetat harret t ht => ?_
        have hintime := hcesse rfl _ (by rw [hrun]; exact snoozeLu_eq hread hlever hsonne hetat harret) t ht
        rwa [hrun] at hintime
  · rw [heq, SweetDawn.note, noterAction_eq, (htalks.keepsAlarms hs.attached).alarmes]
    exact hbounded
  · rw [(hnotes.keepsAlarms muet_of_silent hs.attached).alarmes]
    cases action with
    | handlersTick => exact absurd rfl hne
    | _ => exact hbounded

theorem run_bornee {init : Service} (hinit : Annoncee init) {n : Alarme}
    (hrest : (init.eventContext.alarmes n).aSonne = false) {actions : List Action}
    (hcesse : ∀ before, before ++ [.handlersTick] <+: actions → FinVueATemps n init before) :
    Bornee (vueSonner n init actions) ((run init actions).eventContext.alarmes n) := by
  induction actions using List.reverseRecOn with
  | nil =>
    intro hrang
    exact absurd hrang (by simp [run, hrest])
  | append_singleton before action ih =>
    have hbefore := ih fun b hb => hcesse b (hb.trans (List.prefix_append _ _))
    rw [run_append]
    refine act_bornee hinit hbefore action ?_
    rintro rfl
    exact hcesse before (List.prefix_refl _)

/-- **The time an alarm can be taken for snoozed.** If each end of a ringing of alarm `n` is
noticed in time, then whenever a reading that reports neither a sunrise nor a ringing of the
alarm leaves it snoozed, it was last seen ringing at most 31 minutes and a second before. -/
theorem snooze_borne (device : AmlConfig) (world : World) (hclock : ∀ k, 0 ≤ world.clock k)
    (n : Alarme) (actions : List Action)
    (hcesse : ∀ before, before ++ [.handlersTick] <+: actions ++ [.handlersTick] →
      FinVueATemps n (serviceInit device world) before)
    {lever sonne : UInt8} {lu : Service}
    (hlu : lectureDuTick (run (serviceInit device world) actions) = some (lever, sonne, lu))
    (hlever : designe lever n = false) (hsonne : designe sonne n = false)
    (hsnooze : etatDe (handlersTick (run (serviceInit device world) actions)) n = .snooze) :
    ∃ vue, vueSonner n (serviceInit device world) actions = some vue ∧
      instant (run (serviceInit device world) actions) - vue ≤ delaiSnoozeMs := by
  have hinit := serviceInit_annoncee device world
  have hs := run_annoncee hinit actions
  have hbounded := run_bornee (n := n) hinit rfl
    fun before hb => hcesse before (hb.trans (List.prefix_append _ _))
  obtain ⟨_, hrec⟩ := run_records (serviceInit device world) actions (serviceInit_attached device world)
  have hnow : 0 ≤ instant (run (serviceInit device world) actions) := by
    rw [instant, hrec.world.clock]
    exact hclock _
  rw [etatDe, (handlersTick_lecture hs.toSuivie hlu).1 n, hlever, hsonne] at hsnooze
  refine hbounded.snooze (hs.suivi.aSonne n) hnow (minutesSnooze_nonneg _ _) ?_ hsnooze
  intro hetat harret
  exact hcesse actions (List.prefix_refl _) _ (snoozeLu_eq hlu hlever hsonne hetat harret)

/-- The ringing ends, which is noticed at once; the alarm has a snooze of 10 minutes. -/
theorem snooze_borne_dix_minutes :
    let world := World.answering 1 300 [.reply 0xC7 [1], .quiet, .quiet, .quiet, .reply 0xC5 [0, 0],
      .quiet, .reply amlRspAlarm [0x81, 1, 0, 7, 62, 1, 7, 3, 1, 20, 80], .quiet, .quiet,
      .reply 0xC5 [0, 0], .quiet]
    let init := serviceInit amlScripted world
    let actions : List Action := [.sweetdawnTick, .sweetdawnTick, .handlersTick, .sweetdawnTick,
      .handlersTick, .sweetdawnTick]
    etatDe (handlersTick (run init actions)) 0 = .snooze ∧
      ∃ vue, vueSonner 0 init actions = some vue ∧ instant (run init actions) - vue ≤ delaiSnoozeMs := by
  intro world init actions
  have hread : lectureDepuis (run init actions) (run init actions) = some (0, 0, true) := by decide +kernel
  obtain ⟨⟨lever, sonne, lu⟩, hlu, heq⟩ := Option.map_eq_some_iff.mp hread
  simp only [Prod.mk.injEq] at heq
  obtain ⟨rfl, rfl, -⟩ := heq
  have hsnooze : etatDe (handlersTick (run init actions)) 0 = .snooze := by decide +kernel
  have hall : ∀ before ∈ (actions ++ [Action.handlersTick]).inits, FinVueATemps 0 init before := by
    decide +kernel
  refine ⟨hsnooze, snooze_borne amlScripted world ?_ 0 actions ?_ hlu (by decide) (by decide) hsnooze⟩
  · intro k
    exact Int.mul_nonneg (by decide) (Int.natCast_nonneg k)
  · intro before hbefore
    exact hall before ((List.mem_inits _ _).mpr ((List.prefix_append _ _).trans hbefore))

/-- The link is lost while the alarm rings, and found again 100 minutes later: the alarm,
which does not ring any more, is taken for snoozed. -/
theorem snooze_apres_panne :
    let world := { World.answering 1 300 ([.reply 0xC7 [1], .quiet, .failed .disconnected] ++ releve 1 ++
      [.quiet, .reply 0xC5 [0, 0], .quiet, .reply amlRspAlarm [0x81, 1, 0, 7, 62, 1, 7, 3, 1, 20, 80],
        .quiet]) with
      connects := [.established 3, .established 4]
      clock := fun k => 300 * k + if k < 27 then 0 else 6000000 }
    let init := serviceInit amlScripted world
    let actions : List Action := [.sweetdawnTick, .sweetdawnTick, .handlersTick, .sweetdawnTick,
      .sweetdawnTick]
    let t := run init actions
    lectureDepuis t t = some (0, 0, true) ∧ etatDe (handlersTick t) 0 = .snooze ∧
      vueSonner 0 init actions = some 6600 ∧ delaiSnoozeMs < instant t - 6600 := by
  decide +kernel

end AmlService
