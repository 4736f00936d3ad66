import AmlService.App.Periodic
import AmlService.Core.Events

/-!
# AmlService.App.ClockSetting

When the service sets the clock by itself. Two timers decide: a day since the clock was
last set, ten minutes since the last attempt that failed. A new connection starts
neither of them again, and stops neither.

The first timer is read off the journal (`reglages`), the second off the run (`echecs`).
-/

namespace AmlService

open Effect

/-- The codes of the requests sent. -/
def codesEnvoyes (added : List Obs) : List UInt8 := added.filterMap fun
  | .sent request => some (octet request amlFrameCodeOffset)
  | _ => none

theorem mem_codesEnvoyes {added : List Obs} {code : UInt8} :
    code ∈ codesEnvoyes added ↔
      ∃ request, .sent request ∈ added ∧ octet request amlFrameCodeOffset = code := by
  simp only [codesEnvoyes, List.mem_filterMap]
  constructor
  · rintro ⟨o, ho, hcode⟩
    cases o with
    | sent request => exact ⟨request, ho, Option.some.inj hcode⟩
    | _ => cases hcode
  · rintro ⟨request, ho, rfl⟩
    exact ⟨_, ho, rfl⟩

/-- The time setting was sent. -/
def HeureEnvoyee (added : List Obs) : Prop := amlReqSyncTime ∈ codesEnvoyes added

theorem not_heureEnvoyee {codes : UInt8 → Prop} {added : List Obs} (h : SentCodes codes added)
    (hcodes : ¬ codes amlReqSyncTime) : ¬ HeureEnvoyee added := by
  intro hsent
  obtain ⟨request, hmem, hcode⟩ := mem_codesEnvoyes.mp hsent
  have := h request hmem
  rw [hcode] at this
  exact hcodes this

theorem HeureEnvoyee.append {added added' : List Obs} :
    HeureEnvoyee (added ++ added') ↔ HeureEnvoyee added ∨ HeureEnvoyee added' := by
  simp only [HeureEnvoyee, codesEnvoyes, List.filterMap_append, List.mem_append]

/-! ### One setting -/

/-- A time from 2000 on is sent over an open link, unless the link is lost first. -/
theorem controlSyncTime_sends {s : Service} (hi : s.initialized = true) (hw : Wired s) (tm : Tm) :
    ∃ added, Exchange added s (controlSyncTime tm s).2 ∧ (HeureEnvoyee added → 100 ≤ tm.year) ∧
      (100 ≤ tm.year → s.connected = true → HeureEnvoyee added ∨ .closed ∈ added) := by
  by_cases hyear : tm.year < 100
  · refine ⟨[], ?_, by simp [HeureEnvoyee, codesEnvoyes], fun h => absurd h (Int.not_le.mpr hyear)⟩
    rw [controlSyncTime, if_pos hyear]
    exact .refl s
  obtain ⟨added, r, hreq⟩ : ∃ added r, Requested amlReqSyncTime amlRspSyncTime.toNat (timeBytes tm) added s
      (demander amlReqSyncTime (timeBytes tm) amlRspSyncTime 0 0 s).2 r :=
    demander_requested (timeBytes tm) (by decide) 0 0 s
  have hlater : (controlSyncTime tm s).2 =
      (demander amlReqSyncTime (timeBytes tm) amlRspSyncTime 0 0 s).2 := by
    rw [controlSyncTime, if_neg hyear]
    rcases hx : demander amlReqSyncTime (timeBytes tm) amlRspSyncTime 0 0 s with ⟨_ | _, later⟩
    · exact congrArg Prod.snd (bind_run_error hx)
    · exact congrArg Prod.snd (bind_run_ok hx)
  obtain ⟨request, hbuild⟩ : ∃ request,
      protocolBuildRequest amlReqSyncTime (timeBytes tm) requestBufferSize = some request := ⟨_, rfl⟩
  rw [hlater]
  refine ⟨added, hreq.exchange, fun _ => Int.not_lt.mp hyear, fun _ hc => ?_⟩
  refine (hreq.sent hi hc hw request hbuild).imp (fun hsent => ?_) id
  exact mem_codesEnvoyes.mpr ⟨request, hsent, protocolBuildRequest_code hbuild⟩

/-! ### One tick -/

/-- The tick is to set the clock. -/
structure ReglageDu (s : Service) : Prop where
  auto : s.state.auto = true
  elapsed : horlogeRecente s (instant s) = false
  year : 100 ≤ (heureVisee s).year

section Handled

variable {added : List Obs} {a b : Service}

theorem Handled.horlogeRecente_eq (h : Handled added a b) (now : Int) :
    horlogeRecente b now = horlogeRecente a now := by
  have hset : b.clockSet = a.clockSet := congrArg ClockKnowledge.set h.clock_eq
  have hsynced : b.clockSyncedMs = a.clockSyncedMs := congrArg ClockKnowledge.syncedMs h.clock_eq
  simp only [horlogeRecente, hset, hsynced, h.nextAttemptMs]

theorem Handled.heureVisee_eq (h : Handled added a b) : heureVisee b = heureVisee a := by
  have hset : b.clockSet = a.clockSet := congrArg ClockKnowledge.set h.clock_eq
  have hoffset : b.clockOffsetS = a.clockOffsetS := congrArg ClockKnowledge.offsetS h.clock_eq
  simp only [heureVisee, cibleHorloge, hset, hoffset, h.world.zone, h.world.wall, h.wallReads]

end Handled

/-- Once the AML has answered, nothing more is sent. -/
theorem conclureHorloge_silent (nowMs : Int) (tm : Tm) (r : Except AmlErr Unit) (s : Service) :
    ∃ last, World.Extends last s.world (conclureHorloge nowMs tm (r, s)).world ∧
      codesEnvoyes last = [] := by
  cases r with
  | ok _ => exact ⟨_, (noterHeure_recorded tm s).world, rfl⟩
  | error _ => exact ⟨[], .refl s.world, rfl⟩

/-- **One tick** over an open link sends the time setting if it is due, unless it loses
the link before that; it never sends it otherwise. -/
theorem handlersTick_sends {s : Service} (ha : Attached s) (hi : s.initialized = true)
    (hw : Wired s) (hc : sweetdawnIsConnected s = true) :
    ∃ added, World.Extends added s.world (handlersTick s).world ∧
      (HeureEnvoyee added → ReglageDu s) ∧ (ReglageDu s → HeureEnvoyee added ∨ .closed ∈ added) := by
  obtain ⟨first, hstep, hcodes⟩ := avantHorloge_handles s ha
  have hlink : s.connected = true := (Bool.and_eq_true_iff.mp hc).2
  have hquiet : ¬ HeureEnvoyee first := not_heureEnvoyee hcodes (by decide)
  have hrecent := hstep.horlogeRecente_eq (instant s)
  have hvisee := hstep.heureVisee_eq
  have hstate := hstep.state_eq
  rw [handlersTick_eq hc]
  rcases entretenirHorloge_cases (instant s) (avantHorloge s) with ⟨hauto, hidle, heq⟩ | ⟨hidle, heq⟩
  · -- the setting is tried
    have hwired : Wired (heureSysteme (avantHorloge s)).2 :=
      (heureSysteme_recorded _).wired (hstep.wired hw)
    obtain ⟨added, hex, hyear, hsends⟩ :=
      controlSyncTime_sends (s := (heureSysteme (avantHorloge s)).2) (hstep.initialized.trans hi)
        hwired (heureVisee (avantHorloge s))
    rcases hres : controlSyncTime (heureVisee (avantHorloge s)) (heureSysteme (avantHorloge s)).2
      with ⟨r, later⟩
    rw [hres] at hex heq
    obtain ⟨last, hlast, hnone⟩ :=
      conclureHorloge_silent (instant s) (heureVisee (avantHorloge s)) r later
    have hlastQuiet : ¬ HeureEnvoyee last := by simp [HeureEnvoyee, hnone]
    have hworld : World.Extends (first ++ added ++ last) s.world _ :=
      (hstep.world.trans ((heureSysteme_recorded (avantHorloge s)).world.trans hex.world)).trans hlast
    rw [hvisee] at hyear hsends
    rw [heq]
    refine ⟨first ++ added ++ last, hworld, ?_, ?_⟩
    · intro hsent
      rw [HeureEnvoyee.append, HeureEnvoyee.append] at hsent
      have hsent := (hsent.resolve_right hlastQuiet).resolve_left hquiet
      exact ⟨hstate ▸ hauto, hrecent ▸ hidle, hyear hsent⟩
    · intro hdue
      rw [HeureEnvoyee.append, HeureEnvoyee.append, List.mem_append, List.mem_append]
      cases hup : (avantHorloge s).connected with
      | false => exact .inr (.inl (.inl (hstep.closed hw hlink hup)))
      | true => exact (hsends hdue.year hup).imp (fun h => .inl (.inr h)) fun h => .inl (.inr h)
  · rw [heq]
    refine ⟨first, hstep.world, fun hsent => absurd hsent hquiet, fun hdue => ?_⟩
    have hbusy := hidle (hstate ▸ hdue.auto)
    rw [hrecent, hdue.elapsed] at hbusy
    cases hbusy

/-! ### The two timers -/

def Obs.reglage? : Obs → Option Int
  | .clockNoted _ syncedMs => some syncedMs
  | _ => none

/-- When the clock was set, by the service or for a client. -/
def reglages (journal : List Obs) : List Int := journal.filterMap Obs.reglage?

/-- The first timer is that of the last setting. -/
theorem clockAfter_reglages (clock : ClockKnowledge) (journal : List Obs) :
    (clockAfter clock journal).set = (clock.set || !(reglages journal).isEmpty) ∧
      (clockAfter clock journal).syncedMs = (reglages journal).getLastD clock.syncedMs := by
  induction journal generalizing clock with
  | nil => simp [clockAfter, reglages]
  | cons o journal ih =>
    obtain ⟨hset, hsynced⟩ := ih (notedClock clock o)
    rw [show clockAfter clock (o :: journal) = clockAfter (notedClock clock o) journal from rfl,
      hset, hsynced]
    cases o with
    | clockNoted offset ms =>
      rw [show reglages (.clockNoted offset ms :: journal) = ms :: reglages journal from rfl,
        List.getLastD_cons]
      exact ⟨by simp [notedClock], rfl⟩
    | _ => exact ⟨rfl, rfl⟩

/-- The tick tries to set the clock, and fails. -/
def reglageEchoue (s : Service) : Bool :=
  let t := avantHorloge s
  sweetdawnIsConnected s && t.state.auto && !horlogeRecente t (instant s) &&
    !(controlSyncTime (heureVisee t) (heureSysteme t).2).1.isOk

/-- The state in which a step fails to set the clock. -/
def echecDe (s : Service) : Action → List Service
  | .handlersTick => if reglageEchoue s then [s] else []
  | _ => []

/-- When the service failed to set the clock by itself. -/
def echecs (s : Service) (actions : List Action) : List Int :=
  (Run.path echecDe act s actions).map instant

/-- The second timer, after the given failures. -/
def prochainEssai (attempt : Int) (failures : List Int) : Int :=
  failures.foldl (fun _ failed => failed + clockRetryMs) attempt

theorem Noted.nextAttemptMs {events : List (UInt8 × List UInt8)} {e e' : HandlersState}
    (h : Noted events e e') : e'.nextAttemptMs = e.nextAttemptMs := by
  rw [h.same]

theorem Notes.nextAttemptMs {P : Obs → Prop} {a b : Service} (h : Notes P a b) (ha : Attached a) :
    b.eventContext.nextAttemptMs = a.eventContext.nextAttemptMs := by
  obtain ⟨added, -, hnoted, -⟩ := h ha
  exact hnoted.nextAttemptMs

theorem echecDe_of_ne (s : Service) {action : Action} (h : action ≠ .handlersTick) :
    echecDe s action = [] := by
  cases action with
  | handlersTick => exact absurd rfl h
  | _ => rfl

/-- The second timer moves when a setting fails. -/
theorem handlersTick_nextAttemptMs {s : Service} (ha : Attached s) :
    (handlersTick s).eventContext.nextAttemptMs =
      prochainEssai s.eventContext.nextAttemptMs ((echecDe s .handlersTick).map instant) := by
  cases hc : sweetdawnIsConnected s with
  | false =>
    simp [handlersTick_disconnected hc, echecDe, reglageEchoue, hc, prochainEssai]
  | true =>
    obtain ⟨first, hstep, -⟩ := avantHorloge_handles s ha
    rw [handlersTick_eq hc]
    rcases entretenirHorloge_cases (instant s) (avantHorloge s) with ⟨hauto, hidle, heq⟩ | ⟨hidle, heq⟩
    · have hattached : Attached (avantHorloge s) := hstep.onEvent.trans ha
      obtain ⟨added, hsync, -⟩ := ((controlSyncTime_talks (heureVisee (avantHorloge s))
        (heureSysteme (avantHorloge s)).2).attends).handles hattached
      rcases hres : controlSyncTime (heureVisee (avantHorloge s)) (heureSysteme (avantHorloge s)).2
        with ⟨r, later⟩
      rw [hres] at hsync heq
      rw [heq]
      cases r with
      | ok _ =>
        have hnone : echecDe s .handlersTick = [] := by
          simp [echecDe, reglageEchoue, hres, Except.isOk, Except.toBool]
        rw [hnone]
        exact hsync.nextAttemptMs.trans hstep.nextAttemptMs
      | error _ =>
        have hone : echecDe s .handlersTick = [s] := by
          simp [echecDe, reglageEchoue, hc, hauto, hidle, hres, Except.isOk, Except.toBool]
        rw [hone]
        rfl
    · rw [heq, hstep.nextAttemptMs]
      cases hauto : (avantHorloge s).state.auto with
      | false => simp [echecDe, reglageEchoue, hauto, prochainEssai]
      | true => simp [echecDe, reglageEchoue, hidle hauto, prochainEssai]

/-- One step, and the second timer. -/
theorem act_nextAttemptMs {s : Service} (ha : Attached s) (action : Action) :
    (act s action).eventContext.nextAttemptMs =
      prochainEssai s.eventContext.nextAttemptMs ((echecDe s action).map instant) := by
  rcases act_cases s action with rfl | ⟨command, parent, value, later, stopped, rfl, htalks, heq⟩ |
    ⟨hne, hnotes, -⟩
  · exact handlersTick_nextAttemptMs ha
  · obtain ⟨added, hstep, -⟩ := htalks.attends.handles ha
    rw [heq, SweetDawn.note, noterAction_eq]
    exact hstep.nextAttemptMs
  · rw [echecDe_of_ne s hne]
    exact hnotes.nextAttemptMs ha

/-- A run, and the second timer. -/
theorem run_nextAttemptMs {s : Service} (ha : Attached s) (actions : List Action) :
    (run s actions).eventContext.nextAttemptMs =
      prochainEssai s.eventContext.nextAttemptMs (echecs s actions) := by
  induction actions generalizing s with
  | nil => rfl
  | cons action actions ih =>
    obtain ⟨added, hrec⟩ := act_records s action ha
    show (run (act s action) actions).eventContext.nextAttemptMs = _
    rw [ih (hrec.onEvent.trans ha), act_nextAttemptMs ha action]
    simp only [echecs, prochainEssai, Run.path, List.map_append, List.foldl_append]

/-! ### Runs -/

/-- The timers of a run: no setting for a day, no failure for ten minutes. -/
def Echu (nowMs : Int) (settings failures : List Int) : Prop :=
  prochainEssai 0 failures ≤ nowMs ∧ ∀ syncedMs ∈ settings.getLast?, clockResyncMs ≤ nowMs - syncedMs

theorem horlogeRecente_iff {s : Service} {settings failures : List Int} {nowMs : Int}
    (hset : s.clockSet = !settings.isEmpty) (hsynced : s.clockSyncedMs = settings.getLastD 0)
    (hattempt : s.eventContext.nextAttemptMs = prochainEssai 0 failures) :
    horlogeRecente s nowMs = false ↔ Echu nowMs settings failures := by
  simp only [horlogeRecente, hset, hsynced, hattempt, Bool.or_eq_false_iff, decide_eq_false_iff_not,
    Int.not_lt, Echu]
  refine and_congr_right fun _ => ?_
  cases settings using List.reverseRecOn with
  | nil => simp
  | append_singleton settings last => simp

/-- What every state reached is. -/
theorem run_reached (device : AmlConfig) (world : World) (actions : List Action) :
    let s := run (serviceInit device world) actions
    Attached s ∧ s.initialized = true ∧ Wired s ∧
      ∀ nowMs, horlogeRecente s nowMs = false ↔
        Echu nowMs (reglages s.world.journal) (echecs (serviceInit device world) actions) := by
  intro s
  have ha := serviceInit_attached device world
  obtain ⟨added, hrec⟩ := run_records (serviceInit device world) actions ha
  have hjournal : s.world.journal = added := hrec.world.journal
  have hclock : s.clockKnowledge =
      clockAfter (serviceInit device world).clockKnowledge s.world.journal := by
    rw [hjournal]
    exact hrec.clock
  obtain ⟨hset, hsynced⟩ := clockAfter_reglages (serviceInit device world).clockKnowledge s.world.journal
  refine ⟨hrec.onEvent.trans ha, hrec.initialized, hrec.wired (sweetdawnInit_wired ..), fun nowMs => ?_⟩
  refine horlogeRecente_iff ?_ ?_ (run_nextAttemptMs ha actions)
  · exact (congrArg ClockKnowledge.set hclock).trans hset
  · exact (congrArg ClockKnowledge.syncedMs hclock).trans hsynced

/-- **When the service sets the clock.** After any run, a tick with an open link sends
the time setting if and only if the settings are known and in `auto`, the clock was not
set for a day, no attempt of the service failed for ten minutes, and the time to set
has a year that fits; or else the link is lost during the tick. How many connections
were made, and when, plays no part. -/
theorem heure_envoyee (device : AmlConfig) (world : World) (actions : List Action)
    (hc : sweetdawnIsConnected (run (serviceInit device world) actions) = true) :
    let s := run (serviceInit device world) actions
    let added := (handlersTick s).world.journal.drop s.world.journal.length
    let due := s.state.auto = true ∧
      Echu (instant s) (reglages s.world.journal) (echecs (serviceInit device world) actions) ∧
      100 ≤ (heureVisee s).year
    (HeureEnvoyee added → due) ∧ (due → HeureEnvoyee added ∨ .closed ∈ added) := by
  intro s added due
  obtain ⟨ha, hi, hw, htimers⟩ := run_reached device world actions
  obtain ⟨added', hext, honly, hsends⟩ := handlersTick_sends ha hi hw hc
  have hadded : added = added' := by
    show (handlersTick s).world.journal.drop s.world.journal.length = added'
    rw [hext.journal, List.drop_left]
  rw [hadded]
  refine ⟨fun hsent => ?_, fun ⟨hauto, hechu, hyear⟩ => ?_⟩
  · have hdue := honly hsent
    exact ⟨hdue.auto, (htimers (instant s)).mp hdue.elapsed, hdue.year⟩
  · exact hsends ⟨hauto, (htimers (instant s)).mpr hechu, hyear⟩

def Obs.isClosed : Obs → Bool
  | .closed => true
  | _ => false

/-- After the first connection, the first tick sends the time. -/
theorem heure_envoyee_connexion :
    let s := run (serviceInit amlScripted (World.answering 0 300 premiereTache)) [.sweetdawnTick]
    let added := (handlersTick s).world.journal.drop s.world.journal.length
    s.state.auto = true ∧ HeureEnvoyee added := by
  intro s added
  have hc : sweetdawnIsConnected s = true := by decide +kernel
  obtain ⟨-, hsends⟩ := heure_envoyee amlScripted (World.answering 0 300 premiereTache)
    [.sweetdawnTick] hc
  have hauto : s.state.auto = true := by decide +kernel
  have hsettings : reglages s.world.journal = [] := by decide +kernel
  have hsent := hsends ⟨hauto, ⟨by decide +kernel, by rw [hsettings]; simp⟩, by decide +kernel⟩
  refine ⟨hauto, hsent.resolve_right fun hlost => ?_⟩
  have hkept : added.any Obs.isClosed = false := by decide +kernel
  exact absurd rfl (List.any_eq_false.mp hkept .closed hlost)

/-- The link is lost just after the clock was set, and opened again: the first tick of
the second connection does not send the time. -/
theorem heure_non_envoyee :
    let reconnexion := releve 0 ++ [.quiet, .reply amlRspAlarmStatus [0, 0]]
    let world := { World.answering 0 300 (premiereTache ++ [.failed .disconnected] ++ reconnexion) with
      connects := [.established 3, .established 4] }
    let before := run (serviceInit amlScripted world) ([.sweetdawnTick, .handlersTick] ++
      List.replicate 4 .sweetdawnTick)
    let s := act before .sweetdawnTick
    let added := (handlersTick s).world.journal.drop s.world.journal.length
    before.connected = false ∧ s.connectCount = 2 ∧ sweetdawnIsConnected (handlersTick s) = true ∧
      (handlersTick s).state.auto = true ∧ ¬ HeureEnvoyee added := by
  intro reconnexion world before s added
  refine ⟨by decide +kernel, by decide +kernel, by decide +kernel, by decide +kernel, ?_⟩
  unfold HeureEnvoyee
  decide +kernel

end AmlService
