import AmlService.App.HandlersRequest
import AmlService.App.Steps

/-!
# AmlService.App.Refusals

Requests that are refused. Whatever the command and its arguments, a request refused as
unknown, malformed, out of range or premature has sent nothing to the AML, and the settings
held are the same.
-/

namespace AmlService

open Effect

/-- The codes of a refusal. -/
def codesRefus : List String :=
  ["UNKNOWN_COMMAND", "INVALID_ARGUMENTS", "INVALID_VALUE", "COMMAND_NOT_IMPLEMENTED", "STATE_UNKNOWN"]

abbrev Refus (e : HandlerError) : Prop := e.code ∈ codesRefus

/-- The settings held stay, and nothing happens on the link. -/
structure Immobile (a b : Service) : Prop where
  state : b.state = a.state
  journal : b.world.journal = a.world.journal

instance : IsPreorder Service Immobile where
  refl _ := ⟨rfl, rfl⟩
  trans _ _ _ h h' := ⟨h'.state.trans h.state, h'.journal.trans h.journal⟩

theorem erreurAml_not_refus (code : AmlErr) : ¬ Refus (erreurAml code) := by cases code <;> decide

/-- An error of the AML is not a refusal. -/
theorem verifier_fails {α : Type} (m : AmlM HandlersState α) : Fails (fun e => ¬ Refus e) (verifier m) :=
  .mapError erreurAml_not_refus

theorem heureLocale_immobile : Keeps Immobile (Fallible.lift heureLocale : HandlerM Tm) :=
  fun _ => ⟨rfl, rfl⟩

theorem repasserEnAuto_fails : Fails (fun e => ¬ Refus e) repasserEnAuto :=
  .bind .get fun _ => .ite (fun _ => verifier_fails _) fun _ => .pure _

/-- The time is not sent as long as the settings are unknown; later errors are those of the AML. -/
theorem envoyerHeure_refuses (tm : Tm) : Refuses Refus Immobile (envoyerHeure tm) := by
  refine .after .get fun s => .ite (fun _ => .of_keeps (.throw _)) fun _ => .of_fails ?_
  exact .bind repasserEnAuto_fails fun _ => .bind (verifier_fails _) fun _ => .act _

/-- Once they are known, there is no refusal. -/
theorem envoyerHeure_known {tm : Tm} {s t : Service} {e : HandlerError} (hknown : s.state.known = true)
    (h : envoyerHeure tm s = (.error e, t)) : ¬ Refus e := by
  rw [envoyerHeure, bind_run_ok (get_run s)] at h
  simp only [hknown, Bool.not_true, Bool.false_eq_true, if_false] at h
  have hrest : Fails (fun e => ¬ Refus e)
      (do repasserEnAuto; verifier (controlSyncTime tm); Fallible.act (noterHeure tm) : HandlerM Unit) :=
    .bind repasserEnAuto_fails fun _ => .bind (verifier_fails _) fun _ => .act _
  exact hrest s e t h

theorem ecrireReglage_refuses (command : Command) (value : String) :
    Refuses Refus Immobile (ecrireReglage command value) := by
  intro s e t h he
  rw [ecrireReglage, bind_run_ok (get_run s)] at h
  cases hknown : s.state.known with
  | false =>
    simp only [hknown, Bool.not_false, if_true] at h
    cases h
    exact refl_of Immobile s
  | true =>
    simp only [hknown, Bool.not_true, Bool.false_eq_true, if_false] at h
    rw [bind_run] at h
    rcases hwrite : verifier (controlSettingsWrite (changerReglage command value s.state)) s
      with ⟨e' | _, later⟩ <;> rw [hwrite] at h
    · cases h
      exact absurd he (verifier_fails _ s e t hwrite)
    · -- settings written are known
      obtain ⟨_, _, _, -, -, -, -, hstate⟩ := controlSettingsWrite_ok (mapError_ok.mp hwrite)
      dsimp only at h
      split at h
      · rw [bind_run_ok (lift_run heureLocale later)] at h
        refine absurd he (envoyerHeure_known ?_ h)
        show later.state.known = true
        rw [hstate]
        rfl
      · cases h

theorem synchroniserHeure_refuses : Refuses Refus Immobile synchroniserHeure :=
  .after heureLocale_immobile envoyerHeure_refuses

theorem reglerHeure_refuses (value : String) : Refuses Refus Immobile (reglerHeure value) := by
  have hnow : Keeps Immobile (Fallible.lift heureSysteme : HandlerM Int) := fun _ => ⟨rfl, rfl⟩
  refine .after hnow fun now => .after .get fun s => ?_
  cases lireDateHeure s.world.zone value now with
  | none => exact .of_keeps (.throw _)
  | some chosen => exact envoyerHeure_refuses chosen

theorem ecrireAlarme_refuses (command parent : Command) (value : String) :
    Refuses Refus Immobile (ecrireAlarme command parent value) :=
  .ite (fun _ => .of_keeps (.throw _)) fun _ =>
    .of_fails (.bind (verifier_fails _) fun _ => verifier_fails _)

theorem agirSurAlarme_fails (command : Command) : Fails (fun e => ¬ Refus e) (agirSurAlarme command) := by
  intro s e t h
  unfold agirSurAlarme at h
  dsimp only at h
  split at h
  split at h
  · cases h
  · cases h
    exact erreurAml_not_refus _

theorem ecrireLumiere_refuses (command parent : Command) (value : String) :
    Refuses Refus Immobile (ecrireLumiere command parent value) := by
  refine .ite (fun _ => .of_fails (verifier_fails _)) fun _ => ?_
  refine .ite (fun _ => .of_fails (verifier_fails _)) fun _ => ?_
  refine .ite (fun _ => .of_fails (verifier_fails _)) fun _ => ?_
  refine .ite (fun _ => .of_fails (verifier_fails _)) fun _ => ?_
  refine .ite (fun _ => ?_) fun _ => .of_fails (verifier_fails _)
  cases lireCouleur value with
  | none => exact .of_keeps (.throw _)
  | some couleur => exact .of_fails (verifier_fails _)

theorem ecrireRadio_fails (command : Command) (value : String) :
    Fails (fun e => ¬ Refus e) (ecrireRadio command value) := by
  refine .ite (fun _ => verifier_fails _) fun _ => .ite (fun _ => verifier_fails _) fun _ => ?_
  exact .ite (fun _ => verifier_fails _) fun _ => .ite (fun _ => verifier_fails _) fun _ => verifier_fails _

theorem lireReglages_fails (command : Command) : Fails (fun e => ¬ Refus e) (lireReglages command) :=
  .bind .get fun _ => .ite (fun _ => .throw (erreurAml_not_refus _)) fun _ =>
    .bind (verifier_fails _) fun _ => .bind .get fun _ => .pure _

theorem lireAlarmes_fails (command : Command) : Fails (fun e => ¬ Refus e) (lireAlarmes command) :=
  .bind (verifier_fails _) fun _ => .bind (.lift _) fun _ => .bind (verifier_fails _) fun _ =>
    .bind (.lift _) fun _ => .pure _

/-- **A handler refuses before it does anything.** -/
theorem call_refuses (handler : CommandHandler) (command parent : Command) (value : String) :
    Refuses Refus Immobile (handler.call command parent value) := by
  have hquiet : ∀ {m : HandlerM Unit}, Refuses Refus Immobile m → Refuses Refus Immobile (sansResultat m) :=
    fun h => h.before fun _ => .pure _
  cases handler with
  | lireReglages => exact .of_fails (lireReglages_fails command)
  | ecrireReglage => exact hquiet (ecrireReglage_refuses command value)
  | synchroniserHeure => exact hquiet synchroniserHeure_refuses
  | reglerHeure => exact hquiet (reglerHeure_refuses value)
  | lireAlarmes => exact .of_fails (lireAlarmes_fails command)
  | lireAlarme => exact .of_fails (.bind (verifier_fails _) fun _ => .lift _)
  | ecrireAlarme => exact hquiet (ecrireAlarme_refuses command parent value)
  | agirSurAlarme => exact hquiet (.of_fails (agirSurAlarme_fails command))
  | lireLumiere => exact .of_fails (.bind (verifier_fails _) fun _ => .pure _)
  | ecrireLumiere => exact hquiet (ecrireLumiere_refuses command parent value)
  | lireRadio => exact .of_fails (.bind (verifier_fails _) fun _ => .pure _)
  | changerFrequence => exact .of_fails (.bind (verifier_fails _) fun _ => .pure _)
  | ecrireRadio => exact hquiet (.of_fails (ecrireRadio_fails command value))
  | ecrireHautParleur => exact hquiet (.of_fails (verifier_fails _))

/-- **A request refused** leaves the settings held and the link as they were. -/
theorem handlersRequest_refuses (textes : Textes) (name : String) (args : List JsonValue) :
    Refuses Refus Immobile (handlersRequest textes name args) := by
  intro s e t h he
  rcases handlersRequest_cases textes name args s with ⟨-, heq⟩ | ⟨-, heq⟩ | ⟨e', heq⟩ |
    ⟨found, handler, value, -, -, -, -, heq⟩ <;> rw [heq] at h
  · cases h
  · cases h
  · cases h
    exact refl_of Immobile s
  · exact call_refuses handler found.command found.parent value s e t h he

end AmlService
