import AmlService.App.ClockKnown

/-!
# AmlService.App.ClockUpkeep

Keeping the clock of the AML on time. The target is computed before the exchange, and
the offset noted after it: an exchange that takes `d` seconds takes `d` off the offset,
which the rounding of one second to zero hides only for the offset zero.
-/

namespace AmlService

open Effect

/-! ### What is known of the clock -/

/-- Offsets are rounded, and zero until the clock is set. -/
structure ClockKnowledge.Rounded (clock : ClockKnowledge) : Prop where
  offset : arrondir clock.offsetS = clock.offsetS
  unset : clock.set = false → clock.offsetS = 0

theorem clockAfter_rounded {added : List Obs} (hall : ∀ o ∈ added, Silent o) {clock : ClockKnowledge}
    (h : clock.Rounded) : (clockAfter clock added).Rounded := by
  induction added generalizing clock with
  | nil => exact h
  | cons o added ih =>
    have ho := hall o List.mem_cons_self
    refine ih (fun p hp => hall p (List.mem_cons_of_mem o hp)) (?_ : (notedClock clock o).Rounded)
    cases o with
    | clockNoted offset ms => exact ⟨ho, by simp [notedClock]⟩
    | _ => exact h

/-- What is known of the clock is unchanged. -/
def KeepsClock (a b : Service) : Prop := Attached a → Attached b ∧ b.clockKnowledge = a.clockKnowledge

theorem Notes.keepsClock {a b : Service} (h : Notes OfCore a b) : KeepsClock a b := by
  intro ha
  obtain ⟨added, hrec, -, hall⟩ := h ha
  refine ⟨hrec.onEvent.trans ha, ?_⟩
  rw [hrec.clock, clockAfter_of_core]
  intro o ho offset ms hn
  have hcore := hall o ho
  rw [hn] at hcore
  cases hcore

theorem Handles.keepsClock {codes : UInt8 → Prop} {a b : Service} (h : Handles codes a b) :
    KeepsClock a b := by
  intro ha
  obtain ⟨added, hstep, -⟩ := h ha
  exact ⟨hstep.onEvent.trans ha, hstep.clock_eq⟩

theorem Notes.rounded {a b : Service} (h : Notes Silent a b) (ha : Attached a)
    (hclock : a.clockKnowledge.Rounded) : b.clockKnowledge.Rounded := by
  obtain ⟨added, hrec, -, hall⟩ := h ha
  rw [hrec.clock]
  exact clockAfter_rounded hall hclock

/-- Only the periodic task and the requests about the time change what is known. -/
theorem act_keepsClock (s : Service) {action : Action} (htick : action ≠ .handlersTick)
    (htime : action.setsTime = false) : KeepsClock s (act s action) := by
  rcases act_cases s action with rfl | ⟨command, parent, value, later, stopped, -, htalks, heq⟩ |
    ⟨-, -, hcore⟩
  · exact absurd rfl htick
  · rw [heq]
    exact htalks.attends.handles.keepsClock
  · exact (hcore htime).keepsClock

/-! ### The setting of a tick -/

/-- The tick sets the clock, and the AML accepts. -/
def reglageAuto (s : Service) : Bool :=
  let t := avantHorloge s
  sweetdawnIsConnected s && t.state.auto && !horlogeRecente t (instant s) &&
    (controlSyncTime (heureVisee t) (heureSysteme t).2).1.isOk

/-- The seconds that pass on the system clock between the choice of the time to set and
the moment when it is noted. -/
def dureeReglage (s : Service) : Int :=
  s.world.wall (s.world.wallReads + 1) - s.world.wall s.world.wallReads

/-- **The condition on a setting**: it takes no time, or at most a second and there is no
offset to keep. -/
def Instantane (s : Service) : Prop := dureeReglage s = 0 ∨ s.clockOffsetS = 0 ∧ dureeReglage s ≤ 1

/-- What the first two parts of a tick leave to the third. -/
theorem avantHorloge_inv {s : Service} (ha : Attached s) :
    ∃ added, Handled added s (avantHorloge s) ∧ SentCodes followUpCodes added :=
  avantHorloge_handles s ha

theorem arrondir_eq_iff {offset duration : Int} (hround : arrondir offset = offset)
    (hpos : 0 ≤ duration) :
    arrondir (offset - duration) = offset ↔ duration = 0 ∨ offset = 0 ∧ duration ≤ 1 := by
  unfold arrondir at hround ⊢
  split at hround <;> split <;> omega

/-- **One setting**: the offset noted is the one before, less the duration. -/
theorem handlersTick_offset {s : Service} (ha : Attached s) (hclock : s.clockKnowledge.Rounded)
    (hzone : s.world.zone.Inverse) (hset : reglageAuto s = true) :
    (handlersTick s).clockOffsetS = arrondir (s.clockOffsetS - dureeReglage s) := by
  simp only [reglageAuto, Bool.and_eq_true, Bool.not_eq_true'] at hset
  obtain ⟨⟨⟨hc, hauto⟩, hrecent⟩, hok⟩ := hset
  obtain ⟨added, hstep, -⟩ := avantHorloge_inv ha
  have hknown := hstep.clock_eq
  rw [handlersTick_eq hc]
  rcases entretenirHorloge_cases (instant s) (avantHorloge s) with ⟨-, -, heq⟩ | ⟨hidle, -⟩
  swap
  · rw [hidle hauto] at hrecent
    cases hrecent
  rw [heq]
  have hsync := controlSyncTime_talks (heureVisee (avantHorloge s)) (heureSysteme (avantHorloge s)).2
  rcases hres : controlSyncTime (heureVisee (avantHorloge s)) (heureSysteme (avantHorloge s)).2 with
    ⟨_ | _, later⟩ <;> rw [hres] at hsync hok
  · cases hok
  obtain ⟨added', hex, -⟩ := hsync
  -- the system clock is read once before the exchange, once after it
  have hwall : later.world.wall = s.world.wall := hex.world.wall.trans hstep.world.wall
  have hreads : later.world.wallReads = s.world.wallReads + 1 := by
    rw [hex.wallReads]
    show (avantHorloge s).world.wallReads + 1 = _
    rw [hstep.wallReads]
  have hz : later.world.zone = s.world.zone := hex.world.zone.trans hstep.world.zone
  have hoffset : (if (avantHorloge s).clockSet then (avantHorloge s).clockOffsetS else 0) =
      s.clockOffsetS := by
    have hset : (avantHorloge s).clockSet = s.clockSet := congrArg ClockKnowledge.set hknown
    have hoff : (avantHorloge s).clockOffsetS = s.clockOffsetS := congrArg ClockKnowledge.offsetS hknown
    rw [hset, hoff]
    split
    · rfl
    · next hunset => exact (hclock.unset (show s.clockSet = false by simpa using hunset)).symm
  have htarget : heureVisee (avantHorloge s) =
      s.world.zone.localtime (s.world.wall s.world.wallReads + s.clockOffsetS) := by
    rw [heureVisee, cibleHorloge, hoffset, hstep.world.zone, hstep.world.wall, hstep.wallReads]
  show arrondir ((later.world.zone.mktime { heureVisee (avantHorloge s) with isdst := -1 }).1 -
    later.world.wall later.world.wallReads) = _
  rw [hz, htarget, hzone, hwall, hreads, dureeReglage]
  congr 1
  omega

/-- A tick that does not set the clock leaves what is known of it. -/
theorem handlersTick_keepsClock {s : Service} (hset : reglageAuto s = false) :
    KeepsClock s (handlersTick s) := by
  intro ha
  cases hc : sweetdawnIsConnected s with
  | false =>
    rw [handlersTick_disconnected hc]
    exact ⟨ha, rfl⟩
  | true =>
    obtain ⟨hattached, hknown⟩ := (avantHorloge_handles s).keepsClock ha
    rw [handlersTick_eq hc]
    rcases entretenirHorloge_cases (instant s) (avantHorloge s) with
      ⟨hauto, hrecent, heq⟩ | ⟨-, heq⟩ <;> rw [heq]
    · have hsync : KeepsClock (heureSysteme (avantHorloge s)).2 _ :=
        (controlSyncTime_talks (heureVisee (avantHorloge s)) _).attends.handles.keepsClock
      obtain ⟨hlater, hknown'⟩ := hsync hattached
      rw [reglageAuto, hc, hauto, hrecent] at hset
      rcases hres : controlSyncTime (heureVisee (avantHorloge s)) (heureSysteme (avantHorloge s)).2 with
        ⟨_ | _, later⟩ <;> rw [hres] at hset hlater hknown'
      · exact ⟨hlater, hknown'.trans hknown⟩
      · cases hset
    · exact ⟨hattached, hknown⟩

/-! ### Runs -/

/-- In every state reached, the offset is rounded, and zero until the clock is set. -/
structure Calee (s : Service) : Prop where
  attached : Attached s
  rounded : s.clockKnowledge.Rounded

theorem Calee.keeps {s s' : Service} (h : Calee s) (hstep : KeepsClock s s') : Calee s' := by
  obtain ⟨hattached, hknown⟩ := hstep h.attached
  refine ⟨hattached, ?_⟩
  rw [hknown]
  exact h.rounded

theorem Calee.notes {s s' : Service} (h : Calee s) (hstep : Notes Silent s s') : Calee s' := by
  obtain ⟨added, hrec, -⟩ := hstep h.attached
  exact ⟨hrec.onEvent.trans h.attached, hstep.rounded h.attached h.rounded⟩

theorem handlersTick_calee {s : Service} (h : Calee s) : Calee (handlersTick s) := by
  cases hc : sweetdawnIsConnected s with
  | false =>
    rw [handlersTick_disconnected hc]
    exact h
  | true =>
    have hbefore := h.keeps (avantHorloge_handles s).keepsClock
    rw [handlersTick_eq hc]
    rcases entretenirHorloge_cases (instant s) (avantHorloge s) with ⟨-, -, heq⟩ | ⟨-, heq⟩ <;> rw [heq]
    · have hread : Calee (heureSysteme (avantHorloge s)).2 := ⟨hbefore.attached, hbefore.rounded⟩
      have hsync := hread.keeps
        (controlSyncTime_talks (heureVisee (avantHorloge s)) _).attends.handles.keepsClock
      rcases hres : controlSyncTime (heureVisee (avantHorloge s)) (heureSysteme (avantHorloge s)).2 with
        ⟨_ | _, later⟩ <;> rw [hres] at hsync
      · exact ⟨hsync.attached, hsync.rounded⟩
      · exact hsync.notes (noterHeure_notes _ later)
    · exact hbefore

theorem act_calee {s : Service} (h : Calee s) (action : Action) : Calee (act s action) := by
  rcases act_cases s action with rfl | ⟨command, parent, value, later, stopped, rfl, -, -⟩ |
    ⟨-, hnotes, -⟩
  · exact handlersTick_calee h
  · exact h.keeps (act_keepsClock s (by simp) rfl)
  · exact h.notes hnotes

theorem run_calee {s : Service} (h : Calee s) (actions : List Action) : Calee (run s actions) :=
  List.foldlRecOn actions act h fun _ hs action _ => act_calee hs action

theorem serviceInit_calee (device : AmlConfig) (world : World) : Calee (serviceInit device world) :=
  ⟨serviceInit_attached device world, ⟨rfl, fun _ => rfl⟩⟩

/-- The world runs on. -/
theorem run_world {s : Service} (ha : Attached s) (actions : List Action) :
    ∃ added, World.Extends added s.world (run s actions).world := by
  obtain ⟨added, hrec⟩ := run_records s actions ha
  exact ⟨added, hrec.world⟩

/-- **What becomes of the offset.** In a zone at a fixed offset, with a system clock that
never goes back: in every state reached, a setting made by the tick keeps the offset
(zero, as long as the clock was never set) if and only if it is instantaneous, up to
the rounding of one second to zero; and over any run where no client sets the time and
every setting is so, the offset at the end is the one at the beginning. -/
theorem decalage_garde (device : AmlConfig) (world : World) (hzone : world.zone.Inverse)
    (hwall : ∀ i j, i ≤ j → world.wall i ≤ world.wall j) (before : List Action) :
    let s := run (serviceInit device world) before
    (s.clockSet = false → s.clockOffsetS = 0) ∧
    (reglageAuto s = true → ((handlersTick s).clockOffsetS = s.clockOffsetS ↔ Instantane s)) ∧
    ∀ after, (∀ action ∈ after, Action.setsTime action = false) →
      Run.Steps act (fun t action => action = .handlersTick → reglageAuto t = true → Instantane t)
        s after →
      (run s after).clockOffsetS = s.clockOffsetS := by
  intro s
  have hs : Calee s := run_calee (serviceInit_calee device world) before
  have hworld : ∀ t : Service, Attached t → (∃ actions, t = run (serviceInit device world) actions) →
      t.world.zone.Inverse ∧ 0 ≤ dureeReglage t := by
    rintro t - ⟨actions, rfl⟩
    obtain ⟨added, hext⟩ := run_world (serviceInit_attached device world) actions
    refine ⟨?_, ?_⟩
    · rw [hext.zone]
      exact hzone
    · rw [dureeReglage, hext.wall]
      exact Int.sub_nonneg.mpr (hwall _ _ (Nat.le_succ _))
  have htick : ∀ t : Service, Calee t → (∃ actions, t = run (serviceInit device world) actions) →
      reglageAuto t = true → ((handlersTick t).clockOffsetS = t.clockOffsetS ↔ Instantane t) := by
    intro t ht hreached hset
    obtain ⟨hz, hpos⟩ := hworld t ht.attached hreached
    rw [handlersTick_offset ht.attached ht.rounded hz hset]
    exact arrondir_eq_iff ht.rounded.offset hpos
  refine ⟨hs.rounded.unset, htick s hs ⟨before, rfl⟩, ?_⟩
  intro after hquiet hsteps
  have hrun : Calee (run s after) ∧ (∃ actions, run s after = run (serviceInit device world) actions) ∧
      (run s after).clockOffsetS = s.clockOffsetS := by
    refine Run.Steps.invariant (I := fun t => Calee t ∧
      (∃ actions, t = run (serviceInit device world) actions) ∧ t.clockOffsetS = s.clockOffsetS) ?_
      (hsteps.and (.of_forall fun action haction _ => hquiet action haction)) ⟨hs, ⟨before, rfl⟩, rfl⟩
    rintro t action ⟨ht, ⟨actions, hactions⟩, hoffset⟩ ⟨hcond, htime⟩
    refine ⟨act_calee ht action, ⟨actions ++ [action], by rw [run_append, ← hactions]; rfl⟩, ?_⟩
    rw [← hoffset]
    by_cases hact : action = .handlersTick
    · subst hact
      cases hset : reglageAuto t with
      | true => exact (htick t ht ⟨actions, hactions⟩ hset).mpr (hcond rfl hset)
      | false => exact congrArg ClockKnowledge.offsetS (handlersTick_keepsClock hset ht.attached).2
    · exact congrArg ClockKnowledge.offsetS (act_keepsClock t hact htime ht.attached).2
  exact hrun.2.2

/-- An AML that answers at once. -/
theorem decalage_garde_instantane :
    let world := World.answering 0 300 premiereTache
    let s := run (serviceInit amlScripted world) [.sweetdawnTick]
    reglageAuto s = true ∧ Instantane s ∧ (handlersTick s).clockOffsetS = 0 ∧
      (run s [.handlersTick]).clockOffsetS = s.clockOffsetS := by
  intro world s
  have hset : reglageAuto s = true := by decide +kernel
  have hinstant : Instantane s := .inl (by decide +kernel)
  obtain ⟨hfirst, hiff, hrun⟩ := decalage_garde amlScripted world (Zone.fixed_inverse 0)
    (fun _ _ _ => Int.le_refl _) [.sweetdawnTick]
  have hzero : s.clockOffsetS = 0 := hfirst (by decide +kernel)
  refine ⟨hset, hinstant, ?_, hrun [.handlersTick] (by decide) ⟨fun _ _ => hinstant, trivial⟩⟩
  rw [← hzero]
  exact (hiff hset).mpr hinstant

/-- The AML takes two seconds to answer: the first setting notes an offset of two seconds. -/
theorem decalage_derive :
    let world := { World.answering 0 300 premiereTache with wall := fun k => 1791781200 + 2 * k }
    let s := run (serviceInit amlScripted world) [.sweetdawnTick]
    world.zone.Inverse ∧ (∀ i j, i ≤ j → world.wall i ≤ world.wall j) ∧ s.clockSet = false ∧
      reglageAuto s = true ∧
      (handlersTick s).clockOffsetS = -2 := by
  intro world s
  refine ⟨Zone.fixed_inverse 0, ?_, by decide +kernel, by decide +kernel, by decide +kernel⟩
  intro a b hab
  show (1791781200 : Int) + 2 * a ≤ 1791781200 + 2 * b
  omega

end AmlService
