import AmlService.App.Periodic

/-!
# AmlService.App.ClockKnown

When the clock of the AML is taken for known. In `manual` mode the buttons may change
it; once the mode is back to `auto` the service still holds that it has set the clock
(`clock_set` is never cleared). What it knows is right in the runs where every return
to `auto` is followed, in the same step, by a setting of the clock.

Settings and clock are functions of the journal (`act_records`), so that the argument
is an induction on what a step adds to it.
-/

namespace AmlService

open Effect

/-! ### Since the clock was set -/

/-- What one entry of the journal adds to the settings seen since the clock was set. -/
def noterReglages (seen : Option (List AmlState)) : Obs → Option (List AmlState)
  | .clockNoted _ _ => some []
  | .settingsRead settings | .settingsWritten settings => seen.map (· ++ [settings])
  | _ => seen

/-- The settings read or written since the clock was last set, if it was. -/
def depuisReglage (journal : List Obs) : Option (List AmlState) := journal.foldl noterReglages none

/-- The clock has been set, and the mode was `auto` ever since. -/
def TenueEnAuto (journal : List Obs) : Prop :=
  ∃ seen, depuisReglage journal = some seen ∧ ∀ settings ∈ seen, settings.time = 0

def Obs.settings? : Obs → Option AmlState
  | .settingsRead settings | .settingsWritten settings => some settings
  | _ => none

def Obs.isClockNoted : Obs → Bool
  | .clockNoted _ _ => true
  | _ => false

theorem TenueEnAuto.noted (journal : List Obs) {o : Obs} (ho : o.isClockNoted = true) :
    TenueEnAuto (journal ++ [o]) := by
  refine ⟨[], ?_, by simp⟩
  rw [depuisReglage, List.foldl_append]
  cases o with
  | clockNoted offset ms => rfl
  | _ => cases ho

theorem TenueEnAuto.append {journal : List Obs} (h : TenueEnAuto journal) {o : Obs}
    (hsettings : ∀ settings, o.settings? = some settings → settings.time = 0) :
    TenueEnAuto (journal ++ [o]) := by
  obtain ⟨seen, hseen, hauto⟩ := h
  rw [depuisReglage] at hseen
  unfold TenueEnAuto depuisReglage
  rw [List.foldl_append, hseen]
  cases o with
  | clockNoted offset ms => exact ⟨[], rfl, by simp⟩
  | settingsRead settings | settingsWritten settings =>
    refine ⟨seen ++ [settings], rfl, ?_⟩
    intro s hs
    rcases List.mem_append.mp hs with hs | hs
    · exact hauto s hs
    · obtain rfl : s = settings := by simpa using hs
      exact hsettings s rfl
  | _ => exact ⟨seen, rfl, hauto⟩

/-! ### Returns to `auto` -/

/-- **The condition on what a step adds.** Settings that report `auto` while the mode held
is manual and the clock is taken for set are followed by a setting of the clock. -/
def retourRegle (state : AmlState) (clock : ClockKnowledge) : List Obs → Bool
  | [] => true
  | o :: rest =>
    (match o.settings? with
      | some settings =>
        !(settings.time == 0 && state.time != 0 && clock.set) || rest.any Obs.isClockNoted
      | none => true) &&
      retourRegle (recordedSettings state o) (notedClock clock o) rest

/-- What is known is right. -/
def Fiable (state : AmlState) (clock : ClockKnowledge) (journal : List Obs) : Prop :=
  clock.set = true → state.time = 0 → TenueEnAuto journal

theorem Fiable.noted {state : AmlState} {clock : ClockKnowledge} {journal : List Obs} {o : Obs}
    (ho : o.isClockNoted = true) : Fiable (recordedSettings state o) (notedClock clock o) (journal ++ [o]) :=
  fun _ _ => .noted journal ho

/-- One entry, that brings no return to `auto`. -/
theorem Fiable.append {state : AmlState} {clock : ClockKnowledge} {journal : List Obs}
    (h : Fiable state clock journal) {o : Obs} (ho : o.isClockNoted = false)
    (hreturn : ∀ settings, o.settings? = some settings → settings.time = 0 → clock.set = true →
      state.time = 0) : Fiable (recordedSettings state o) (notedClock clock o) (journal ++ [o]) := by
  intro hset htime
  have hclock : notedClock clock o = clock := by
    cases o <;> first | rfl | cases ho
  rw [hclock] at hset
  have hkept : ∀ settings, o.settings? = some settings → settings.time = 0 := by
    intro settings hs
    cases o <;> simp only [Obs.settings?, Option.some.injEq, reduceCtorEq] at hs <;> subst hs <;>
      exact htime
  have hauto : state.time = 0 := by
    cases hs : o.settings? with
    | some settings => exact hreturn settings hs (hkept settings hs) hset
    | none => cases o <;> first | exact htime | cases hs
  exact (h hset hauto).append hkept

/-- **What a step adds**, when each return to `auto` is followed by a setting. -/
theorem Fiable.after {added : List Obs} {state : AmlState} {clock : ClockKnowledge}
    {journal : List Obs} (h : Fiable state clock journal ∨ added.any Obs.isClockNoted = true)
    (hreturn : retourRegle state clock added = true) :
    Fiable (settingsAfter state added) (clockAfter clock added) (journal ++ added) := by
  induction added generalizing state clock journal with
  | nil =>
    rw [List.append_nil]
    exact h.resolve_right (by simp)
  | cons o rest ih =>
    rw [retourRegle, Bool.and_eq_true] at hreturn
    obtain ⟨hfirst, hrest⟩ := hreturn
    have hnext : Fiable (recordedSettings state o) (notedClock clock o) (journal ++ [o]) ∨
        rest.any Obs.isClockNoted = true := by
      -- a setting still to come makes up for whatever this entry does
      by_cases hlater : rest.any Obs.isClockNoted = true
      · exact .inr hlater
      left
      cases ho : o.isClockNoted with
      | true => exact .noted ho
      | false =>
        have hknown : Fiable state clock journal := by
          refine h.resolve_right fun hany => hlater ?_
          rwa [List.any_cons, ho, Bool.false_or] at hany
        refine hknown.append ho fun settings hs htime hset => ?_
        rw [hs] at hfirst
        simpa [htime, hset, hlater] using hfirst
    have hlast := ih hnext hrest
    rwa [List.append_assoc] at hlast

/-! ### Runs -/

/-- The condition on a step. -/
def RetourRegle (s : Service) (action : Action) : Prop :=
  retourRegle s.state s.clockKnowledge
    ((act s action).world.journal.drop s.world.journal.length) = true

theorem act_fiable {s : Service} {action : Action} (ha : Attached s)
    (h : Fiable s.state s.clockKnowledge s.world.journal) (hreturn : RetourRegle s action) :
    Fiable (act s action).state (act s action).clockKnowledge (act s action).world.journal := by
  obtain ⟨added, hrec⟩ := act_records s action ha
  rw [RetourRegle, hrec.world.journal, List.drop_left] at hreturn
  rw [hrec.state, hrec.clock, hrec.world.journal]
  exact Fiable.after (.inl h) hreturn

/-- The clock is known if it was set, in `auto` mode. -/
theorem horlogeAml_known {s : Service} {t : Int} (h : (horlogeAml s).1 = some t) :
    s.clockKnowledge.set = true ∧ s.state.time = 0 := by
  unfold horlogeAml at h
  split at h
  · cases h
  · next hknown =>
    simp only [Bool.or_eq_true, Bool.not_eq_true', bne_iff_ne, ne_eq, not_or, not_not,
      Bool.not_eq_false] at hknown
    exact ⟨hknown.1.1, hknown.2⟩

/-- **The clock is known only if the mode stayed in `auto`**, in a run where each return to
`auto` is followed by a setting of the clock in the same step: whenever `horloge_aml`
reports the clock, every reading and write of the settings since it was last set had
the mode `auto`. -/
theorem horloge_connue (device : AmlConfig) (world : World) {actions : List Action}
    (hreturn : Run.Steps act RetourRegle (serviceInit device world) actions) {t : Int}
    (hknown : (horlogeAml (run (serviceInit device world) actions)).1 = some t) :
    TenueEnAuto (run (serviceInit device world) actions).world.journal := by
  have hrun : Attached (run (serviceInit device world) actions) ∧
      Fiable (run (serviceInit device world) actions).state
        (run (serviceInit device world) actions).clockKnowledge
        (run (serviceInit device world) actions).world.journal := by
    refine Run.Steps.invariant (I := fun s =>
      Attached s ∧ Fiable s.state s.clockKnowledge s.world.journal) ?_ hreturn
      ⟨serviceInit_attached device world, nofun⟩
    rintro s action ⟨ha, h⟩ hstep
    obtain ⟨added, hrec⟩ := act_records s action ha
    exact ⟨hrec.onEvent.trans ha, act_fiable ha h hstep⟩
  obtain ⟨hset, htime⟩ := horlogeAml_known hknown
  exact hrun.2 hset htime

/-- A client asks for the settings. -/
def demandeReglages : Action := .request .lireReglages settingsGroup settingsGroup ""

/-- The clock is set, and the settings read again in `auto`. -/
theorem horloge_connue_relue :
    let world := World.answering 0 300 (premiereTache ++ releve 0)
    let s := run (serviceInit amlScripted world) [.sweetdawnTick, .handlersTick, demandeReglages]
    (horlogeAml s).1 = some 1791781200 ∧ TenueEnAuto s.world.journal := by
  intro world s
  have hknown : (horlogeAml s).1 = some 1791781200 := by decide +kernel
  refine ⟨hknown, horloge_connue amlScripted world ?_ hknown⟩
  show RetourRegle _ _ ∧ RetourRegle _ _ ∧ RetourRegle _ _ ∧ True
  refine ⟨?_, ?_, ?_, trivial⟩ <;> (unfold RetourRegle; decide +kernel)

/-- The mode is read as manual, then as `auto` again: the clock is known, from a setting
that dates from before. -/
theorem horloge_connue_a_tort :
    let world := World.answering 0 300 (premiereTache ++ releve 1 ++ releve 0)
    let s := run (serviceInit amlScripted world)
      [.sweetdawnTick, .handlersTick, demandeReglages, demandeReglages]
    (horlogeAml s).1 = some 1791781200 ∧ ¬ TenueEnAuto s.world.journal := by
  intro world s
  have hseen : (depuisReglage s.world.journal).map (List.map AmlState.time) = some [1, 0] := by
    decide +kernel
  refine ⟨by decide +kernel, ?_⟩
  rintro ⟨seen, heq, hauto⟩
  rw [heq] at hseen
  have hmode : (1 : UInt8) ∈ seen.map AmlState.time := by
    rw [Option.some.inj hseen]
    exact List.mem_cons_self
  obtain ⟨settings, hmem, htime⟩ := List.mem_map.mp hmode
  rw [hauto settings hmem] at htime
  cases htime

end AmlService
