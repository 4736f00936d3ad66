import AmlService.App.HandlersRequest
import AmlService.App.AlarmRuns

/-!
# AmlService.App.Reponses

The form of what the service tells its clients (`app/handlers.c`): the events, and the answers
about the status and the alarms. A client may read their fields without looking whether they are
there, and of what type they are.
-/

namespace AmlService

open Effect

/-! ### The events -/

/-- What is broadcast under a name. -/
inductive Diffusee : String → JsonValue → Prop
  | reveil (alarmes : Alarme → SuiviAlarme) : Diffusee "alarm_state" (reveilJson alarmes)
  | eclairage (light mood : ControlLight) : Diffusee "light_changed" (eclairageJson light mood)
  | minuteur (timer : String) : Diffusee "timer_ended" (minuteurJson timer)

/-- A step that broadcasts nothing else. -/
def Diffuse (a b : Service) : Prop :=
  Attached a → ∃ added, Recorded added a b ∧ ∀ name data, .broadcast name data ∈ added → Diffusee name data

instance : IsPreorder Service Diffuse where
  refl a := fun _ => ⟨[], .refl a, by simp⟩
  trans a b c := by
    intro h h' ha
    obtain ⟨added, hrec, hformed⟩ := h ha
    obtain ⟨added', hrec', hformed'⟩ := h' (hrec.onEvent.trans ha)
    refine ⟨added ++ added', hrec.trans hrec', fun name data hmem => ?_⟩
    exact (List.mem_append.mp hmem).elim (hformed name data) (hformed' name data)

theorem Notes.diffuse {a b : Service} (h : Notes Silent a b) : Diffuse a b := by
  intro ha
  obtain ⟨added, hrec, -, hsilent⟩ := h ha
  exact ⟨added, hrec, fun name data hmem => (hsilent _ hmem).elim⟩

theorem Talks.diffuse {codes : UInt8 → Prop} {a b : Service} (h : Talks codes a b) : Diffuse a b :=
  Notes.diffuse (h.serves.runs.notes.mono silent_of_ofCore)

theorem note_diffuse (s : Service) (f : HandlersState → HandlersState) : Diffuse s (s.note f) :=
  fun _ => ⟨[], note_recorded s f, by simp⟩

theorem diffuser_diffuse {name : String} {data : JsonValue} (h : Diffusee name data) (s : Service) :
    Diffuse s (diffuser name data s) := by
  refine fun _ => ⟨_, diffuser_recorded name data s, fun name' data' hmem => ?_⟩
  unfold diffusion at hmem
  split at hmem
  · obtain ⟨rfl, rfl⟩ : name' = name ∧ data' = data := by simpa using hmem
    exact h
  · cases hmem

section Periodic

variable (s : Service) (now : Int)

theorem diffuserReveil_diffuse : Diffuse s (diffuserReveil s) := by
  unfold diffuserReveil
  split
  · exact trans_of Diffuse (note_diffuse s _) (diffuser_diffuse (.reveil _) _)
  · exact refl_of Diffuse s

theorem traiterEvenement_diffuse (e : Evenement) : Diffuse s (traiterEvenement now s e) := by
  rcases traiterEvenement_cases now s e with ⟨-, heq⟩ | ⟨-, heq⟩ |
    ⟨-, ⟨-, minuteur, -, heq⟩ | ⟨-, minuteur, -, heq⟩ | ⟨-, -, heq⟩⟩ <;> rw [heq]
  · exact note_diffuse s _
  · exact note_diffuse s _
  · exact trans_of Diffuse (note_diffuse s _) (diffuser_diffuse (.minuteur minuteur) _)
  · exact diffuser_diffuse (.minuteur minuteur) s
  · exact refl_of Diffuse s

/-- Both lights are read again, and then told. -/
theorem relireEclairage_diffuse : Diffuse s (relireEclairage s) := by
  have hlight : Diffuse s (controlLightQuery .light s).2 := (controlLightQuery_talks .light s).diffuse
  unfold relireEclairage
  rcases hl : controlLightQuery .light s with ⟨_ | light, s₁⟩ <;> rw [hl] at hlight
  · exact hlight
  have hmood : Diffuse s₁ (controlLightQuery .mood s₁).2 := (controlLightQuery_talks .mood s₁).diffuse
  dsimp only
  rcases hm : controlLightQuery .mood s₁ with ⟨_ | mood, s₂⟩ <;> rw [hm] at hmood
  · exact trans_of Diffuse hlight hmood
  · exact trans_of Diffuse hlight (trans_of Diffuse hmood (diffuser_diffuse (.eclairage light mood) s₂))

theorem traiterEvenements_diffuse : Diffuse s (traiterEvenements now s) := by
  have hworked : Diffuse s (depouiller now s) :=
    trans_of Diffuse (Run.foldl_rel (fun s e => traiterEvenement_diffuse s now e) s s.eventContext.file.entries)
      (trans_of Diffuse (note_diffuse _ _) (diffuserReveil_diffuse _))
  rw [traiterEvenements_eq]
  split
  · exact trans_of Diffuse hworked (trans_of Diffuse (note_diffuse _ _) (relireEclairage_diffuse _))
  · exact hworked

theorem suivreAlarme_diffuse (lever sonne : UInt8) (n : Alarme) :
    Diffuse s (suivreAlarme lever sonne now n s) := by
  unfold suivreAlarme
  dsimp only
  split
  · exact note_diffuse s _
  split
  · exact note_diffuse s _
  split
  · obtain ⟨later, fin, htalks, heq⟩ := presumerSnooze_inv n now s
    rw [heq]
    exact trans_of Diffuse htalks.diffuse (note_diffuse later _)
  split
  · exact refl_of Diffuse s
  · exact note_diffuse s _

theorem appliquerLecture_diffuse (lever sonne : UInt8) : Diffuse s (appliquerLecture lever sonne now s) := by
  have hboth : Diffuse s _ :=
    trans_of Diffuse (suivreAlarme_diffuse s now lever sonne 0) (suivreAlarme_diffuse _ now lever sonne 1)
  unfold appliquerLecture
  dsimp only
  split
  · exact trans_of Diffuse hboth (diffuserReveil_diffuse _)
  · exact trans_of Diffuse hboth (trans_of Diffuse (note_diffuse _ _) (diffuserReveil_diffuse _))

theorem suivreReveil_diffuse : Diffuse s (suivreReveil now s) := by
  have hread : Diffuse s (lireStatut now s).2 :=
    trans_of Diffuse (note_diffuse s _) (controlAlarmStatus_talks _).diffuse
  unfold suivreReveil
  split
  · exact refl_of Diffuse s
  · rw [← lireStatut]
    rcases hl : lireStatut now s with ⟨_ | ⟨lever, sonne⟩, later⟩ <;> rw [hl] at hread
    · exact hread
    · exact trans_of Diffuse hread (appliquerLecture_diffuse later now lever sonne)

theorem handlersTick_diffuse : Diffuse s (handlersTick s) := by
  cases hc : sweetdawnIsConnected s with
  | false =>
    rw [handlersTick_disconnected hc]
    exact refl_of Diffuse s
  | true =>
    have hconnection : ∀ s, Diffuse s (noterConnexion s) := by
      intro s
      unfold noterConnexion
      split
      · exact note_diffuse s _
      · exact refl_of Diffuse s
    have hinstant : Diffuse s (maintenant s).2 := fun _ => ⟨[], maintenant_recorded s, by simp⟩
    have hbefore : Diffuse s (avantHorloge s) :=
      trans_of Diffuse hinstant (trans_of Diffuse (hconnection _)
        (trans_of Diffuse (traiterEvenements_diffuse _ _) (suivreReveil_diffuse _ _)))
    rw [handlersTick_eq hc]
    exact trans_of Diffuse hbefore
      (entretenirHorloge_rel Talks.diffuse Notes.diffuse (fun s date => note_diffuse s _) _ _)

end Periodic

/-- **Every step** broadcasts what `Diffusee` says. -/
theorem act_diffuse (s : Service) (action : Action) : Diffuse s (act s action) := by
  rcases act_cases s action with rfl | ⟨command, parent, value, later, stopped, -, htalks, heq⟩ | ⟨-, hnotes, -⟩
  · exact handlersTick_diffuse s
  · rw [heq]
    exact trans_of Diffuse htalks.diffuse (note_diffuse later _)
  · exact hnotes.diffuse

theorem run_diffuse (s : Service) (actions : List Action) : Diffuse s (run s actions) :=
  Run.foldl_rel act_diffuse s actions

/-! ### The answers -/

/-- What a client finds in the status. -/
structure StatutLu (status : JsonValue) : Prop where
  entrees : ∃ fields, status = .obj fields
  reveil : ∀ state, status.get? "alarm_state" = some state → ∃ alarmes, state = reveilJson alarmes
  ecart : ∀ clock, status.get? "clock" = some clock →
    clock.get? "known" = some (.bool false) ∨ ∃ offset : Int, clock.get? "offset_s" = some (.int offset)

/-- What a client finds in an alarm: with the time when it rings next, there is the time until then. -/
structure AlarmeLue (alarm : JsonValue) : Prop where
  entrees : ∃ fields, alarm = .obj fields
  jours : ∃ days : Int, alarm.get? "days" = some (.int days)
  prochaine : alarm.get? "next" = some .null ∨ ∃ delay : Int, alarm.get? "in_s" = some (.int delay)

/-- What a client finds in the alarms. -/
def AlarmesLues (alarms : JsonValue) : Prop := ∀ number alarm, alarms.get? number = some alarm → AlarmeLue alarm

/-- **The status.** -/
theorem statusJson_lu (s : Service) : StatutLu (statusJson s).1 := by
  refine ⟨⟨_, rfl⟩, fun state hstate => ?_, fun clock hclock => ?_⟩
  · rw [statusJson_alarmState s] at hstate
    exact ⟨_, (Option.some.inj hstate).symm⟩
  · unfold statusJson at hclock
    dsimp only at hclock
    have hfields : clock = .obj [("known", .bool false)] ∨ ∃ time offset, clock =
        .obj [("known", .bool true), ("time", .str time), ("offset_s", .int offset)] := by
      -- the clock comes after the settings, if there are any
      split at hclock <;> simp [JsonValue.get?] at hclock <;> rw [← hclock] <;> split <;> simp
    rcases hfields with rfl | ⟨time, offset, rfl⟩
    · exact .inl rfl
    · exact .inr ⟨offset, rfl⟩

theorem alarmeJson_lue (group : Command) (alarm : ControlAlarm) (s : Service) :
    AlarmeLue (alarmeJson group alarm s).1 := by
  unfold alarmeJson
  dsimp only
  split
  · exact ⟨⟨_, rfl⟩, ⟨_, rfl⟩, .inl rfl⟩
  · exact ⟨⟨_, rfl⟩, ⟨_, rfl⟩, .inr ⟨_, rfl⟩⟩

/-- **The alarms.** -/
theorem lireAlarmes_lues {command : Command} {result : JsonValue} {s s' : Service}
    (h : lireAlarmes command s = (.ok result, s')) : AlarmesLues result := by
  obtain ⟨alarm1, s₁, -, h⟩ := bind_run_inv h
  obtain ⟨object1, s₂, hfirst, h⟩ := bind_run_inv h
  obtain ⟨alarm2, s₃, -, h⟩ := bind_run_inv h
  obtain ⟨object2, s₄, hsecond, h⟩ := bind_run_inv h
  obtain ⟨hresult, -⟩ := Prod.mk.inj h
  obtain ⟨hfirst, -⟩ := Prod.mk.inj hfirst
  obtain ⟨hsecond, -⟩ := Prod.mk.inj hsecond
  rw [← Except.ok.inj hresult, ← Except.ok.inj hfirst, ← Except.ok.inj hsecond]
  intro number alarm halarm
  simp only [JsonValue.get?, List.find?_cons, List.find?_nil] at halarm
  split at halarm
  · rw [← Option.some.inj halarm]
    exact alarmeJson_lue _ _ _
  split at halarm
  · rw [← Option.some.inj halarm]
    exact alarmeJson_lue _ _ _
  · cases halarm

/-- A client that asks for the status, or for the alarms. -/
theorem handlersRequest_lu {textes : Textes} {args : List JsonValue} {result : JsonValue} {s s' : Service} :
    (handlersRequest textes "status" args s = (.ok result, s') → StatutLu result) ∧
      (handlersRequest textes "Alarm" args s = (.ok result, s') → AlarmesLues result) := by
  constructor
  · intro h
    rcases handlersRequest_cases textes "status" args s with ⟨-, heq⟩ | ⟨hname, -⟩ | ⟨e, heq⟩ |
      ⟨found, handler, value, hfound, -⟩
    · rw [heq] at h
      obtain ⟨hresult, -⟩ := Prod.mk.inj h
      rw [← Except.ok.inj hresult]
      exact statusJson_lu s
    · exact absurd hname (by decide)
    · rw [heq] at h
      cases h
    · have hnone : registryFindPath amlCommands "status" = none := by decide +kernel
      rw [hnone] at hfound
      cases hfound
  · intro h
    rcases handlersRequest_cases textes "Alarm" args s with ⟨hname, -⟩ | ⟨hname, -⟩ | ⟨e, heq⟩ |
      ⟨found, handler, value, hfound, hhandler, -, -, heq⟩
    · exact absurd hname (by decide)
    · exact absurd hname (by decide)
    · rw [heq] at h
      cases h
    · have halarm : (registryFindPath amlCommands "Alarm").bind (fun found => handlerDe found.chemin) =
          some .lireAlarmes := by decide +kernel
      rw [hfound, Option.bind_some, hhandler] at halarm
      obtain rfl := Option.some.inj halarm
      rw [heq] at h
      exact lireAlarmes_lues h

end AmlService
