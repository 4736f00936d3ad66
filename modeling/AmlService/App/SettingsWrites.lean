import AmlService.App.HandlersRequest
import AmlService.App.Periodic
import AmlService.Core.Device

/-!
# AmlService.App.SettingsWrites

What `Settings/<name>` does to the settings on the device. The AML005 takes its five
settings together: the service sends the ones it holds, with one changed. Whoever
changed another setting on the device since the service last read them loses the change.
-/

namespace AmlService

open Effect Answering

/-! ### The five settings -/

/-- The settings of the group `Settings`. -/
inductive Reglage
  | displayBrightness
  | displayTime
  | time
  | feedback
  | fade
  deriving Repr, DecidableEq

def Reglage.nom : Reglage → String
  | .displayBrightness => "Display brightness"
  | .displayTime => "Display time"
  | .time => "Time"
  | .feedback => "Feedback"
  | .fade => "Fade"

def Reglages.get (reglages : Reglages) : Reglage → UInt8
  | .displayBrightness => reglages.display
  | .displayTime => reglages.date
  | .time => reglages.time
  | .feedback => reglages.feedback
  | .fade => reglages.fade

/-- The command of a setting. -/
theorem reglage_trouve (k : Reglage) :
    ∃ found, registryFindPath amlCommands ("Settings/" ++ k.nom) = some found ∧
      found.command.name = k.nom ∧ handlerDe found.chemin = some .ecrireReglage ∧
      found.command.valueSpec.type ≠ .none := by
  cases k <;> exact ⟨_, rfl, rfl, rfl, nofun⟩

/-- One setting is changed, the others are not. -/
theorem changerReglage_autres {command : Command} {k j : Reglage} (hname : command.name = k.nom)
    (hne : j ≠ k) (value : String) (settings : AmlState) :
    (changerReglage command value settings).reglages.get j = settings.reglages.get j := by
  unfold changerReglage
  rw [hname]
  cases k <;> cases j <;> first | rfl | exact absurd rfl hne

/-! ### The request -/

/-- What is sent has a code in `codes`, and the rest follows the journal. -/
def Sends (codes : UInt8 → Prop) (a b : Service) : Prop :=
  ∃ added, Recorded added a b ∧ SentCodes codes added

instance (codes : UInt8 → Prop) : IsPreorder Service (Sends codes) where
  refl a := ⟨[], .refl a, .nil codes⟩
  trans _ _ _ := fun ⟨_, h, hs⟩ ⟨_, h', hs'⟩ => ⟨_, h.trans h', hs.append hs'⟩

/-- The second half of `envoyer_heure`: no settings are written. -/
theorem syncTime_sends (tm : Tm) :
    Keeps (Sends (· = amlReqSyncTime))
      (do verifier (controlSyncTime tm); Fallible.act (noterHeure tm) : HandlerM Unit) := by
  refine .bind (.mapError ((controlSyncTime_talks tm).mono ?_) erreurAml) fun _ => .act fun s => ?_
  · rintro a b ⟨added, hex, hsent⟩
    exact ⟨added, hex.toRecorded, hsent⟩
  · exact ⟨_, noterHeure_recorded tm s, fun r hr => by simp [heureNotee] at hr⟩

/-- In `auto` there is nothing else. -/
theorem envoyerHeure_sends (tm : Tm) {s : Service} (hknown : s.state.known = true)
    (hauto : s.state.time = 0) : Sends (· = amlReqSyncTime) s (envoyerHeure tm s).2 := by
  have hstay : repasserEnAuto s = (.ok (), s) := by
    rw [repasserEnAuto, bind_run_ok (get_run s)]
    simp [hauto]
    rfl
  rw [envoyerHeure, bind_run_ok (get_run s)]
  simp only [hknown, Bool.not_true, Bool.false_eq_true, if_false]
  rw [bind_run_ok hstay]
  exact syncTime_sends tm s

/-- **A setting written**: the settings held, with this one changed, go out in one write,
and no other write follows. -/
theorem ecrireReglage_ok {command : Command} {value : String} {s s' : Service}
    (h : ecrireReglage command value s = (.ok (), s')) :
    ∃ before request after, Recorded (before ++ .sent request :: after) s s' ∧
      protocolBuildRequest amlReqWriteSettings (changerReglage command value s.state).bytes
        requestBufferSize = some request ∧
      SentCodes noCode before ∧ SentCodes (· = amlReqSyncTime) after := by
  unfold ecrireReglage at h
  rw [bind_run_ok (get_run s)] at h
  cases hknown : s.state.known with
  | false =>
    simp [hknown] at h
    cases h
  | true =>
    simp only [hknown, Bool.not_true, Bool.false_eq_true, if_false] at h
    obtain ⟨_, later, hwrite, hrest⟩ := bind_run_inv h
    have hcontrol : controlSettingsWrite (changerReglage command value s.state) s = (.ok (), later) :=
      mapError_ok.mp hwrite
    obtain ⟨before, request, after, hserved, hbuild, hbefore, hafter, hstate⟩ :=
      controlSettingsWrite_ok hcontrol
    have htail : Sends (· = amlReqSyncTime) later s' := by
      split at hrest
      · next hback =>
        -- back to `auto`: the write has just recorded it
        simp only [Bool.and_eq_true, beq_iff_eq] at hback
        rw [bind_run_ok (lift_run heureLocale later)] at hrest
        have hsends := envoyerHeure_sends (heureLocale later).1 (s := (heureLocale later).2)
          (by show later.state.known = true; rw [hstate]; rfl)
          (by show later.state.time = 0; rw [hstate]; exact hback.2)
        rw [hrest] at hsends
        exact trans_of (Sends (· = amlReqSyncTime)) ⟨[], heureSysteme_recorded later, .nil _⟩ hsends
      · obtain ⟨-, rfl⟩ := Prod.mk.inj hrest
        exact refl_of (Sends (· = amlReqSyncTime)) later
    obtain ⟨added, hrec, hsent⟩ := htail
    have hwhole := hserved.toRecorded.trans hrec
    rw [List.append_assoc, List.cons_append] at hwhole
    exact ⟨before, request, after ++ added, hwhole, hbuild, hbefore, hafter.of_none.append hsent⟩

/-- The user of the device changes whatever he likes. -/
abbrev parBoutons : Memoire → Memoire → Prop := fun _ _ => True

/-- The request of a setting is one write of the settings held, with this one changed. -/
theorem handlersRequest_reglage_ok {textes : Textes} {k : Reglage} {args : List JsonValue}
    {s s' : Service} {result : JsonValue}
    (h : handlersRequest textes ("Settings/" ++ k.nom) args s = (.ok result, s')) :
    ∃ before request after, Recorded (before ++ .sent request :: after) s s' ∧
      (∃ reglages : Reglages, (∀ j, j ≠ k → reglages.get j = s.state.reglages.get j) ∧
        protocolBuildRequest amlReqWriteSettings reglages.bytes requestBufferSize = some request) ∧
      SentCodes noCode before ∧ SentCodes (· = amlReqSyncTime) after := by
  obtain ⟨found, hfound, hname, hhandler, htype⟩ := reglage_trouve k
  have hroot : "Settings/" ++ k.nom ≠ "status" ∧ "Settings/" ++ k.nom ≠ "commands" := by
    cases k <;> decide
  obtain ⟨arg, value, -, -, -, hcall⟩ := handlersRequest_reglage h hfound hroot hhandler htype
  obtain ⟨before, request, after, hrec, hbuild, hbefore, hafter⟩ :=
    ecrireReglage_ok (sansResultat_ok hcall)
  exact ⟨before, request, after, hrec, ⟨(changerReglage found.command value s.state).reglages,
    fun j hj => changerReglage_autres hname hj value s.state, hbuild⟩, hbefore, hafter⟩

/-- **A setting written, seen from the device.** After any run, a request `Settings/<name>`
that succeeds writes the settings once. That write gives the four others the values that
the service holds, the last it read or wrote, whatever they are on the device by then;
so each of them is kept if and only if the service holds its value. -/
theorem reglages_repris (device : AmlConfig) (world : World) (actions : List Action) (textes : Textes)
    (k : Reglage) (args : List JsonValue) {result : JsonValue} {s' : Service}
    (h : handlersRequest textes ("Settings/" ++ k.nom) args
      (run (serviceInit device world) actions) = (.ok result, s')) :
    let s := run (serviceInit device world) actions
    let tenus := (settingsAfter stateInit s.world.journal).reglages
    ∃ before request after,
      s'.world.journal = s.world.journal ++ (before ++ .sent request :: after) ∧
      (∀ r, .sent r ∈ before ++ after → octet r amlFrameCodeOffset ≠ amlReqWriteSettings) ∧
      ∀ (autres : UInt8 → List UInt8 → Option Reponse) (c c' : Side Memoire Reponse),
        ((aml005 autres).Follows parBoutons c (surLien (before ++ .sent request :: after)) c' →
          ∃ cw, (aml005 autres).Follows parBoutons c (surLien before) cw ∧
            (∀ j, j ≠ k → ((aml005 autres).take cw request).memory.reglages.get j = tenus.get j) ∧
            (aml005 autres).Follows parBoutons ((aml005 autres).take cw request) (surLien after) c') ∧
        ((aml005 autres).Follows untouched c (surLien (before ++ .sent request :: after)) c' →
          ∀ j, j ≠ k → (c'.memory.reglages.get j = c.memory.reglages.get j ↔
            tenus.get j = c.memory.reglages.get j)) := by
  intro s tenus
  obtain ⟨before, request, after, hrec, ⟨reglages, hautres, hbuild⟩, hbefore, hafter⟩ :=
    handlersRequest_reglage_ok h
  -- the settings held are those of the journal
  have hheld : s.state.reglages = tenus := by
    obtain ⟨added, hrun⟩ := run_records (serviceInit device world) actions (serviceInit_attached device world)
    have hjournal : s.world.journal = added := hrun.world.journal
    show s.state.reglages = (settingsAfter stateInit s.world.journal).reglages
    rw [hjournal]
    exact congrArg AmlState.reglages hrun.state
  have hothers : ∀ r, .sent r ∈ before ++ after → octet r amlFrameCodeOffset ≠ amlReqWriteSettings := by
    intro r hr
    rcases List.mem_append.mp hr with hr | hr
    · exact (hbefore r hr).elim
    · rw [hafter r hr]
      decide
  have htake : ∀ (autres : UInt8 → List UInt8 → Option Reponse) (cw : Side Memoire Reponse),
      ((aml005 autres).take cw request).memory.reglages = reglages := by
    intro autres cw
    rw [Device.take, receive_writeSettings hbuild]
  refine ⟨before, request, after, hrec.world.journal, hothers, fun autres c c' => ⟨fun hfollows => ?_,
    fun hfollows j hj => ?_⟩⟩
  · rw [surLien_append, surLien_sent] at hfollows
    obtain ⟨cw, hfirst, hrest⟩ := hfollows.at_request
    refine ⟨cw, hfirst, fun j hj => ?_, hrest⟩
    rw [htake, hautres j hj, hheld]
  · rw [surLien_append, surLien_sent] at hfollows
    obtain ⟨cw, -, hrest⟩ := hfollows.at_request
    -- no request that follows writes the settings
    have hkept : c'.memory.reglages = reglages := by
      refine hrest.keeps (I := fun m => m.reglages = reglages) (fun _ _ => False.elim) ?_ (htake autres cw)
      intro r hr m hm
      rw [receive_reglages (hothers r (List.mem_append_right _ (request_mem_surLien.mp hr)))]
      exact hm
    rw [hkept, hautres j hj, hheld]

/-- `Settings/Fade`, from settings just read, is one write of settings. -/
theorem reglages_repris_fondu :
    let s := run (serviceInit amlScripted
      (World.answering 1 0 [.quiet, .reply amlRspWriteSettings []])) [.sweetdawnTick]
    let s' := (handlersRequest sansTexte ("Settings/" ++ Reglage.fade.nom) [.bool false] s).2
    ∃ before request after,
      s'.world.journal = s.world.journal ++ (before ++ .sent request :: after) ∧
      ∀ r, .sent r ∈ before ++ after → octet r amlFrameCodeOffset ≠ amlReqWriteSettings := by
  intro s s'
  have hok : (handlersRequest sansTexte ("Settings/" ++ Reglage.fade.nom) [.bool false] s).1.isOk = true := by
    decide +kernel
  obtain ⟨result, h⟩ := ok_of_isOk hok
  obtain ⟨before, request, after, hjournal, hothers, -⟩ := reglages_repris amlScripted
    (World.answering 1 0 [.quiet, .reply amlRspWriteSettings []]) [.sweetdawnTick] sansTexte .fade
    [.bool false] h
  exact ⟨before, request, after, hjournal, hothers⟩

/-- The settings are read; the user then turns the sound off on the device; a request about
the fade turns it on again. -/
theorem reglage_defait :
    let s := run (serviceInit amlScripted
      (World.answering 1 0 [.quiet, .reply amlRspWriteSettings []])) [.sweetdawnTick]
    let demande := handlersRequest sansTexte "Settings/Fade" [.bool false] s
    let added := demande.2.world.journal.drop s.world.journal.length
    demande.1.isOk = true ∧ ∃ c₀ c c' : Side Memoire Reponse,
      amlSimple.Follows parBoutons c₀ (surLien s.world.journal) c ∧
      amlSimple.Follows untouched c (surLien added) c' ∧
      c.memory.reglages.get .feedback = 1 ∧ c'.memory.reglages.get .feedback = 0 := by
  intro s demande added
  let lus : Reglages := { display := 0, date := 0, time := 1, feedback := 0, fade := 0 }
  let avant : Side Memoire Reponse := { memory := { reglages := lus, alarmes := fun _ => ficheNulle }, owed := [] }
  let apres : Side Memoire Reponse :=
    { memory := { reglages := { lus with feedback := 1 }, alarmes := fun _ => ficheNulle }, owed := [] }
  have hread : ((surLien s.world.journal).foldlM amlSimple.step avant).map
      (fun c => (c.memory.reglages, c.owed)) = some (lus, []) := by decide +kernel
  have hwrite : ((surLien added).foldlM amlSimple.step apres).map
      (fun c => c.memory.reglages.feedback) = some 0 := by decide +kernel
  obtain ⟨⟨memory, owed⟩, hc, hsame⟩ := Option.map_eq_some_iff.mp hread
  obtain ⟨c', hc', hlost⟩ := Option.map_eq_some_iff.mp hwrite
  obtain ⟨-, rfl⟩ := Prod.mk.inj hsame
  have htouched : amlSimple.Follows parBoutons { memory, owed := [] } [] apres := .touched trivial (.done _)
  have hsteps : amlSimple.Follows parBoutons avant (surLien s.world.journal) { memory, owed := [] } :=
    .of_steps hc
  have hall := hsteps.append htouched
  rw [List.append_nil] at hall
  exact ⟨by decide +kernel, avant, apres, c', hall, .of_steps hc', rfl, hlost⟩

end AmlService
