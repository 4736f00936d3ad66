import AmlService.App.Readings

/-!
# AmlService.App.EventQueue

The frames that the AML sends on its own, between two periodic tasks. They are noted as
they come, from whatever is going on: the reading of the link, a request of a client, the
end of the periodic task itself. The queue holds sixteen of them, and a full queue keeps
no more; a change of the lights takes no room, it only asks for them to be read again.

The invariant is `Notee`: the queue is made of the frames received since it was emptied.
-/

namespace AmlService

open Effect

/-! ### The frames -/

abbrev Trame := UInt8 × List UInt8

/-- The frame says that the lights changed. -/
def changeEclairage (ev : Trame) : Bool := ev.1 == amlEvtLightRefresh

/-- The messages to process one by one. -/
def trames (events : List Trame) : List Evenement :=
  (events.filter fun ev => !changeEclairage ev).map fun ev => { code := ev.1, value := ev.2.headD 0 }

/-- The queue keeps the first ones, as long as there is room. -/
theorem foldl_noterTrame_entries (file : FileEvenements) (events : List Trame) :
    (events.foldl noterTrame file).entries = (file.entries ++ trames events).take eventQueueSize := by
  induction events generalizing file with
  | nil => simp [trames, List.take_of_length_le file.borne]
  | cons ev events ih =>
    rw [List.foldl_cons, ih]
    by_cases hlight : ev.1 = amlEvtLightRefresh
    · simp [noterTrame, trames, changeEclairage, hlight]
    · have htrames : trames (ev :: events) = ⟨ev.1, ev.2.headD 0⟩ :: trames events := by
        simp [trames, changeEclairage, hlight]
      rw [noterTrame, if_neg hlight, htrames, FileEvenements.push]
      split
      · simp
      · next hfull =>
        have hlength : file.entries.length = eventQueueSize :=
          Nat.le_antisymm file.borne (Nat.le_of_not_lt hfull)
        rw [List.take_append_of_le_length (Nat.le_of_eq hlength.symm),
          List.take_append_of_le_length (Nat.le_of_eq hlength.symm)]

/-! ### Steps that note frames -/

/-- From `a` to `b`, the frames received are noted, and the queue is not touched otherwise. -/
structure Depot (added : List Obs) (a b : Service) : Prop where
  attached : Attached b
  journal : b.world.journal = a.world.journal ++ added
  file : b.eventContext.file = (eventsOf added).foldl noterTrame a.eventContext.file
  eclairageChange : b.eventContext.eclairageChange =
    (a.eventContext.eclairageChange || (eventsOf added).any changeEclairage)

def Depose (a b : Service) : Prop := Attached a → ∃ added, Depot added a b

instance : IsPreorder Service Depose where
  refl a := fun ha => ⟨[], ha, (List.append_nil _).symm, rfl, (Bool.or_false _).symm⟩
  trans a b c := by
    intro h h' ha
    obtain ⟨added, hstep⟩ := h ha
    obtain ⟨added', hstep'⟩ := h' hstep.attached
    refine ⟨added ++ added', hstep'.attached, ?_, ?_, ?_⟩
    · rw [hstep'.journal, hstep.journal, List.append_assoc]
    · rw [hstep'.file, hstep.file, eventsOf_append, List.foldl_append]
    · rw [hstep'.eclairageChange, hstep.eclairageChange, eventsOf_append, List.any_append, Bool.or_assoc]

theorem Notes.depose {P : Obs → Prop} {a b : Service} (h : Notes P a b) : Depose a b := by
  intro ha
  obtain ⟨added, hrec, hnoted, -⟩ := h ha
  exact ⟨added, hrec.onEvent.trans ha, hrec.world.journal, hnoted.file, hnoted.eclairageChange⟩

theorem Talks.depose {codes : UInt8 → Prop} {a b : Service} (h : Talks codes a b) : Depose a b :=
  h.serves.runs.notes.depose

theorem note_depose (s : Service) {f : HandlersState → HandlersState} (hf : Aside f) :
    Depose s (s.note f) := by
  intro ha
  refine ⟨[], ha, (List.append_nil _).symm, hf.file _, ?_⟩
  exact (hf.eclairageChange _).trans (Bool.or_false _).symm

theorem eventsOf_diffusion (name : String) (data : JsonValue) (s : Service) :
    eventsOf (diffusion name data s) = [] := by
  unfold diffusion
  split <;> rfl

theorem diffuser_depose (name : String) (data : JsonValue) (s : Service) :
    Depose s (diffuser name data s) := by
  intro ha
  refine ⟨diffusion name data s, (diffuser_recorded name data s).onEvent.trans ha,
    diffuser_journal name data s, ?_, ?_⟩
  · rw [diffuser_eventContext, eventsOf_diffusion]
    rfl
  · rw [diffuser_eventContext, eventsOf_diffusion]
    exact (Bool.or_false _).symm

theorem depose_couvre : CouvreSuivi Depose where
  talks := Talks.depose
  note s _ hf := note_depose s hf
  diffuser := diffuser_depose

theorem relireEclairage_depose (s : Service) : Depose s (relireEclairage s) :=
  relireEclairage_rel Talks.depose (diffuser_depose _) s

theorem entretenirHorloge_depose (nowMs : Int) (s : Service) : Depose s (entretenirHorloge nowMs s) := by
  refine entretenirHorloge_rel Talks.depose Notes.depose (fun s _ => ?_) nowMs s
  intro ha
  exact ⟨[], ha, (List.append_nil _).symm, rfl, (Bool.or_false _).symm⟩

/-- Every step but the periodic task. -/
theorem act_depose (s : Service) {action : Action} (hne : action ≠ .handlersTick) :
    Depose s (act s action) := by
  rcases act_cases s action with rfl | ⟨command, parent, value, later, stopped, -, htalks, heq⟩ |
    ⟨-, hnotes, -⟩
  · exact absurd rfl hne
  · rw [heq]
    refine trans_of Depose htalks.depose (note_depose later ?_)
    constructor <;>
      · intro e
        rw [noterAction_eq]
  · exact hnotes.depose

/-! ### The frames that wait -/

/-- The frames received from one state to a later one. -/
def recues (a b : Service) : List Trame := eventsOf (b.world.journal.drop a.world.journal.length)

theorem Depot.recues_eq {added : List Obs} {a b : Service} (h : Depot added a b) :
    recues a b = eventsOf added := by
  rw [recues, h.journal, List.drop_left]

/-- The service when the periodic task that starts in `s` has emptied the queue. -/
def fileVidee (s : Service) : Service := depouiller (instant s) (noterConnexion (maintenant s).2)

/-- The frames received since the queue was last emptied, `recu` being those received
before the run. -/
def enAttente (s : Service) (recu : List Trame) : List Action → List Trame
  | [] => recu
  | .handlersTick :: actions =>
    let recu := if sweetdawnIsConnected s then recues (fileVidee s) (handlersTick s) else recu
    enAttente (handlersTick s) recu actions
  | action :: actions => enAttente (act s action) (recu ++ recues s (act s action)) actions

/-- **The invariant.** The queue is made of the frames received since it was emptied. -/
structure Notee (recu : List Trame) (s : Service) : Prop extends Annoncee s where
  file : s.eventContext.file = recu.foldl noterTrame .vide
  eclairageChange : s.eventContext.eclairageChange = recu.any changeEclairage

theorem Notee.entries {recu : List Trame} {s : Service} (h : Notee recu s) :
    s.eventContext.file.entries = (trames recu).take eventQueueSize := by
  rw [h.file, foldl_noterTrame_entries]
  rfl

theorem Notee.depose {recu : List Trame} {a b : Service} (h : Notee recu a) (hb : Annoncee b)
    {added : List Obs} (hstep : Depot added a b) : Notee (recu ++ eventsOf added) b where
  toAnnoncee := hb
  file := by rw [hstep.file, h.file, List.foldl_append]
  eclairageChange := by rw [hstep.eclairageChange, h.eclairageChange, List.any_append]

/-- The queue just emptied, and the flag of the lights taken if it was set. -/
def apresVidage (s : Service) : Service :=
  if (fileVidee s).eventContext.eclairageChange then (fileVidee s).prendreEclairage else fileVidee s

theorem apresVidage_vide {s : Service} :
    (apresVidage s).eventContext.file = .vide ∧ (apresVidage s).eventContext.eclairageChange = false ∧
      (apresVidage s).world = (fileVidee s).world := by
  have hempty : (fileVidee s).eventContext.file = .vide := by
    rw [fileVidee, depouiller_eventContext]
  unfold apresVidage
  split
  · exact ⟨hempty, rfl, rfl⟩
  · next hset => exact ⟨hempty, by simpa using hset, rfl⟩

/-- After the queue is emptied, the periodic task only notes frames. -/
theorem handlersTick_depose {s : Service} (hc : sweetdawnIsConnected s = true) :
    Depose (apresVidage s) (handlersTick s) := by
  have hlights : Depose (apresVidage s) (apresEvenements s) := by
    rw [apresEvenements, traiterEvenements_eq, ← fileVidee, apresVidage]
    split
    · exact relireEclairage_depose _
    · exact refl_of Depose _
  rw [handlersTick_eq hc]
  refine trans_of Depose hlights (trans_of Depose ?_ (entretenirHorloge_depose _ _))
  exact depose_couvre.suivreReveil _ _

theorem handlersTick_notee {s : Service} (h : Annoncee s) (hc : sweetdawnIsConnected s = true) :
    Notee (recues (fileVidee s) (handlersTick s)) (handlersTick s) := by
  have hnow := h.toSuivie.keeps (maintenant_keepsAlarms s)
  have hemptied := depouiller_suivie (instant s) (noterConnexion_suivie hnow)
  have hattached : Attached (apresVidage s) := by
    unfold apresVidage
    split
    · exact (prendreEclairage_keepsAlarms _ hemptied.attached).attached
    · exact hemptied.attached
  obtain ⟨hfile, hlights, hworld⟩ := apresVidage_vide (s := s)
  obtain ⟨added, hstep⟩ := handlersTick_depose hc hattached
  have hrecues : recues (fileVidee s) (handlersTick s) = eventsOf added := by
    rw [recues, ← hworld]
    exact hstep.recues_eq
  refine ⟨handlersTick_annoncee h, ?_, ?_⟩
  · rw [hrecues, hstep.file, hfile]
  · rw [hrecues, hstep.eclairageChange, hlights, Bool.false_or]

/-- **Runs.** -/
theorem run_notee {recu : List Trame} {s : Service} (h : Notee recu s) (actions : List Action) :
    Notee (enAttente s recu actions) (run s actions) := by
  induction actions generalizing s recu with
  | nil => exact h
  | cons action actions ih =>
    by_cases htick : action = .handlersTick
    · subst htick
      rw [enAttente]
      refine ih ?_
      show Notee _ (handlersTick s)
      cases hc : sweetdawnIsConnected s with
      | false =>
        rw [handlersTick_disconnected hc]
        exact h
      | true => exact handlersTick_notee h.toAnnoncee hc
    · obtain ⟨added, hstep⟩ := act_depose s htick h.attached
      have hafter := ih (h.depose (act_annoncee h.toAnnoncee action) hstep)
      rw [← hstep.recues_eq] at hafter
      cases action with
      | handlersTick => exact absurd rfl htick
      | _ => exact hafter

theorem serviceInit_notee (device : AmlConfig) (world : World) : Notee [] (serviceInit device world) :=
  ⟨serviceInit_annoncee device world, rfl, rfl⟩

/-! ### The frames worked off -/

/-- The data of a `timer_ended` event. -/
def Obs.minuteur? : Obs → Option JsonValue
  | .broadcast name data => if name = "timer_ended" then some data else none
  | _ => none

/-- From `a` to `b`, the clients are told the ends of these timers. -/
def Sonnent (minuteurs : List JsonValue) (a b : Service) : Prop :=
  ∃ added, b.world.journal = a.world.journal ++ added ∧ added.filterMap Obs.minuteur? = minuteurs

theorem Sonnent.trans {minuteurs minuteurs' : List JsonValue} {a b c : Service}
    (h : Sonnent minuteurs a b) (h' : Sonnent minuteurs' b c) : Sonnent (minuteurs ++ minuteurs') a c := by
  obtain ⟨added, hjournal, hfound⟩ := h
  obtain ⟨added', hjournal', hfound'⟩ := h'
  refine ⟨added ++ added', ?_, ?_⟩
  · rw [hjournal', hjournal, List.append_assoc]
  · rw [List.filterMap_append, hfound, hfound']

/-- The same journal. -/
theorem Sonnent.kept {a b : Service} (h : b.world.journal = a.world.journal) : Sonnent [] a b :=
  ⟨[], h.trans (List.append_nil _).symm, rfl⟩

theorem note_sonnent (s : Service) (f : HandlersState → HandlersState) : Sonnent [] s (s.note f) :=
  .kept rfl

theorem Talks.sonnent {codes : UInt8 → Prop} {a b : Service} (h : Talks codes a b) (ha : Attached a) :
    Sonnent [] a b := by
  obtain ⟨added, hrec, -, hcore⟩ := h.serves.runs.notes ha
  refine ⟨added, hrec.world.journal, List.filterMap_eq_nil_iff.mpr fun o ho => ?_⟩
  have ho := hcore o ho
  cases o with
  | broadcast name data => cases ho
  | _ => rfl

theorem diffuser_sonnent (name : String) (data : JsonValue) {s : Service}
    (hon : s.eventContext.diffuser = true) :
    Sonnent (if name = "timer_ended" then [data] else []) s (diffuser name data s) := by
  refine ⟨_, diffuser_journal name data s, ?_⟩
  rw [diffusion, if_pos hon]
  by_cases hname : name = "timer_ended" <;> simp [Obs.minuteur?, hname]

theorem diffuserReveil_sonnent {s : Service} (h : Suivie s) : Sonnent [] s (diffuserReveil s) := by
  unfold diffuserReveil
  split
  · exact diffuser_sonnent "alarm_state" _ h.suivi.diffuser
  · exact .kept rfl

theorem relireEclairage_sonnent {s : Service} (h : Suivie s) : Sonnent [] s (relireEclairage s) := by
  obtain ⟨later, htalks, heq | ⟨data, heq⟩⟩ := relireEclairage_inv s
  · rw [heq]
    exact htalks.sonnent h.attached
  · rw [heq]
    have hlater := h.keeps htalks.keepsAlarms
    exact (htalks.sonnent h.attached).trans (diffuser_sonnent "light_changed" data hlater.suivi.diffuser)

theorem traiterEvenement_sonnent (now : Int) {s : Service} (h : Suivie s) (e : Evenement) :
    Sonnent ((minuteurDe e).map minuteurJson).toList s (traiterEvenement now s e) := by
  have hon := h.suivi.diffuser
  rcases traiterEvenement_cases now s e with ⟨hcode, heq⟩ | ⟨hcode, heq⟩ |
    ⟨-, ⟨-, minuteur, htold, heq⟩ | ⟨-, minuteur, htold, heq⟩ | ⟨-, hnone, heq⟩⟩ <;> rw [heq]
  · rw [(minuteur_of_debute (by rw [hcode]; rfl)).1]
    exact .kept rfl
  · rw [(minuteur_of_debute (by rw [hcode]; rfl)).1]
    exact .kept rfl
  · rw [htold]
    exact Sonnent.trans (.kept rfl) (diffuser_sonnent "timer_ended" _ hon)
  · rw [htold]
    exact diffuser_sonnent "timer_ended" _ hon
  · rw [hnone]
    exact .kept rfl

theorem foldl_traiterEvenement_sonnent (now : Int) {s : Service} (h : Suivie s)
    (entries : List Evenement) :
    Sonnent ((entries.filterMap minuteurDe).map minuteurJson) s
      (entries.foldl (traiterEvenement now) s) := by
  induction entries generalizing s with
  | nil => exact .kept rfl
  | cons e entries ih =>
    have hboth := (traiterEvenement_sonnent now h e).trans (ih (traiterEvenement_suivie now h e))
    cases he : minuteurDe e <;> simpa [he] using hboth

theorem traiterEvenement_eclairage (now : Int) (s : Service) (e : Evenement) :
    (traiterEvenement now s e).eventContext.eclairageChange =
      (s.eventContext.eclairageChange || minuteurEclairage e) := by
  rcases traiterEvenement_cases now s e with ⟨hcode, heq⟩ | ⟨hcode, heq⟩ |
    ⟨-, ⟨hlights, minuteur, -, heq⟩ | ⟨hother, minuteur, -, heq⟩ | ⟨hother, -, heq⟩⟩
  · have hother := (minuteur_of_debute (e := e) (by rw [hcode]; rfl)).2
    rw [heq, SweetDawn.note, (debutLever_aside now e.value).eclairageChange, hother, Bool.or_false]
  · have hother := (minuteur_of_debute (e := e) (by rw [hcode]; rfl)).2
    rw [heq, SweetDawn.note, (debutSonnerie_aside now e.value).eclairageChange, hother, Bool.or_false]
  · simp [heq, hlights, SweetDawn.note]
  · simp [heq, hother]
  · simp [heq, hother]

theorem foldl_traiterEvenement_eclairage (now : Int) (s : Service) (entries : List Evenement) :
    (entries.foldl (traiterEvenement now) s).eventContext.eclairageChange =
      (s.eventContext.eclairageChange || entries.any minuteurEclairage) := by
  induction entries generalizing s with
  | nil => simp
  | cons e entries ih =>
    rw [List.foldl_cons, ih, traiterEvenement_eclairage, List.any_cons, Bool.or_assoc]

/-- The messages worked off: the timers told, and the flag of the lights. -/
theorem fileVidee_cases {s : Service} (h : Suivie s) :
    Suivie (fileVidee s) ∧
    Sonnent ((s.eventContext.file.entries.filterMap minuteurDe).map minuteurJson) s (fileVidee s) ∧
    (fileVidee s).eventContext.eclairageChange =
      (s.eventContext.eclairageChange || s.eventContext.file.entries.any minuteurEclairage) := by
  have hnow := h.keeps (maintenant_keepsAlarms s)
  have hnoted := noterConnexion_suivie hnow
  have hsame : (noterConnexion (maintenant s).2).eventContext.file = s.eventContext.file ∧
      (noterConnexion (maintenant s).2).eventContext.eclairageChange = s.eventContext.eclairageChange ∧
      (noterConnexion (maintenant s).2).world.journal = s.world.journal := by
    unfold noterConnexion
    split <;> exact ⟨rfl, rfl, rfl⟩
  obtain ⟨hfile, hlights, hjournal⟩ := hsame
  have hfold : Suivie (s.eventContext.file.entries.foldl (traiterEvenement (instant s))
      (noterConnexion (maintenant s).2)) :=
    List.foldlRecOn _ _ hnoted fun s hs e _ => traiterEvenement_suivie _ hs e
  have hemptied := hfold.note (f := fun e => { e with file := .vide })
    (hfold.suivi.flags rfl id rfl rfl)
  refine ⟨depouiller_suivie _ hnoted, ?_, ?_⟩
  · have htold := foldl_traiterEvenement_sonnent (instant s) hnoted s.eventContext.file.entries
    rw [fileVidee, depouiller, hfile]
    have hwhole := ((Sonnent.kept hjournal).trans htold).trans
      ((note_sonnent _ _).trans (diffuserReveil_sonnent hemptied))
    simpa using hwhole
  · rw [fileVidee, depouiller_eventContext, hfile]
    dsimp only
    rw [foldl_traiterEvenement_eclairage, hlights]

/-- **The frames between two periodic tasks.** Whatever the run, a task works off, one by one
and in the order received, the first sixteen of the frames received since the queue was last
emptied that are no change of the lights: the alarms are what these make of them, and the
ends of timers among these are told. The changes of the lights, however many, and the ends
of their timers have the lights read once. -/
theorem trames_traitees (device : AmlConfig) (world : World) (actions : List Action) :
    let s := run (serviceInit device world) actions
    let recu := enAttente (serviceInit device world) [] actions
    let retenues := (trames recu).take eventQueueSize
    (∀ n, (apresEvenements s).eventContext.alarmes n =
      retenues.foldl (messageAlarme n) (s.eventContext.alarmes n)) ∧
    ((apresEvenements s).world.journal.drop s.world.journal.length).filterMap Obs.minuteur? =
      (retenues.filterMap minuteurDe).map minuteurJson ∧
    apresEvenements s =
      if recu.any changeEclairage || retenues.any minuteurEclairage then
        relireEclairage (fileVidee s).prendreEclairage
      else fileVidee s := by
  intro s recu retenues
  have hnotee : Notee recu s := run_notee (serviceInit_notee device world) actions
  have hentries : s.eventContext.file.entries = retenues := hnotee.entries
  obtain ⟨hvidee, htold, hflag⟩ := fileVidee_cases hnotee.toSuivie
  rw [hentries] at htold hflag
  rw [hnotee.eclairageChange] at hflag
  have hlights : apresEvenements s =
      if recu.any changeEclairage || retenues.any minuteurEclairage then
        relireEclairage (fileVidee s).prendreEclairage
      else fileVidee s := by
    rw [← hflag]
    rfl
  refine ⟨fun n => ?_, ?_, hlights⟩
  · rw [apresEvenements_alarme hnotee.toSuivie, hentries]
  · have hwhole : Sonnent ((retenues.filterMap minuteurDe).map minuteurJson) s (apresEvenements s) := by
      rw [hlights]
      split
      · have htaken := hvidee.keeps (prendreEclairage_keepsAlarms _)
        have htake : Sonnent [] (fileVidee s) (fileVidee s).prendreEclairage := note_sonnent _ _
        have hread := htold.trans (htake.trans (relireEclairage_sonnent htaken))
        simpa using hread
      · exact htold
    obtain ⟨added, hjournal, hfound⟩ := hwhole
    rw [hjournal, List.drop_left]
    exact hfound

/-- A ringing received after sixteen ends of timers is lost: the alarm is left at rest. -/
theorem trame_perdue :
    let init := serviceInit amlScripted (World.answering 1 300 [])
    let actions : List Action := .sweetdawnTick ::
      (List.replicate 16 (.event amlEvtRadioTimerEnd []) ++ [.event amlEvtAlarmRing [1]])
    let s := run init actions
    sweetdawnIsConnected s = true ∧ etatDe (apresEvenements s) 0 = .repos ∧
      ((trames (enAttente init [] actions)).foldl (messageAlarme 0) (s.eventContext.alarmes 0)).etat =
        .sonne := by
  decide +kernel

end AmlService
