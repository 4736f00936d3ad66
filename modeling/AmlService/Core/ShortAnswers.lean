import AmlService.Core.Requests

/-!
# AmlService.Core.ShortAnswers

The periodic reading of the settings, when the AML answers with less data than asked
for. `demander` (`core/control.c`) counts the twelve bytes of the envelope; the two
readings here take some of those that close the frame for data.
-/

namespace AmlService

open Effect

variable {σ : Type} {app app₁ : SweetDawn σ} {f : List UInt8}

/-! ### The authorization does not count in an exchange -/

/-- The application with another authorization. -/
def SweetDawn.autorisee (app : SweetDawn σ) (v : UInt8) : SweetDawn σ := { app with authorization := v }

theorem traiterEchecLiaison_autorisee (app : SweetDawn σ) (v : UInt8) (code : AmlErr) :
    traiterEchecLiaison (app.autorisee v) code = (traiterEchecLiaison app code).autorisee v := by
  unfold traiterEchecLiaison
  by_cases hfatal : code = .disconnected ∨ code = .io
  · rw [if_pos hfatal, if_pos hfatal]
    rfl
  · rw [if_neg hfatal, if_neg hfatal]
    let failed := { app with consecutiveFailures := app.consecutiveFailures + 1 }
    show (if failed.consecutiveFailures ≥ sweetdawnMaxFailures then abandonnerLiaison (failed.autorisee v)
        else failed.autorisee v) =
      (if failed.consecutiveFailures ≥ sweetdawnMaxFailures then abandonnerLiaison failed else failed).autorisee v
    by_cases hmax : failed.consecutiveFailures ≥ sweetdawnMaxFailures
    · rw [if_pos hmax, if_pos hmax]
      rfl
    · rw [if_neg hmax, if_neg hmax]

theorem recevoir_autorisee (app : SweetDawn σ) (v : UInt8) (outputCapacity : Nat) (timeoutMs : Int) :
    recevoir (app.autorisee v) outputCapacity timeoutMs =
      ((recevoir app outputCapacity timeoutMs).1, (recevoir app outputCapacity timeoutMs).2.autorisee v) := rfl

theorem transmettreEvenement_autorisee (app : SweetDawn σ) (v : UInt8) (frame : List UInt8) :
    (transmettreEvenement (app.autorisee v) frame).2 = (transmettreEvenement app frame).2.autorisee v := by
  unfold transmettreEvenement
  simp only [SweetDawn.autorisee]
  split
  · split <;> rfl
  · rfl

theorem lireEvenementsLoop_autorisee (turns : Nat) (app : SweetDawn σ) (v : UInt8) :
    lireEvenementsLoop turns (app.autorisee v) = (lireEvenementsLoop turns app).autorisee v := by
  induction turns generalizing app with
  | zero => rfl
  | succ turns ih =>
    rw [lireEvenementsLoop, lireEvenementsLoop]
    by_cases hc : app.connected = true
    · rw [if_pos hc, if_pos (show (app.autorisee v).connected = true from hc), recevoir_autorisee]
      rcases recevoir app responseBufferSize 0 with ⟨code | frame, later⟩
      · cases code with
        | timeout => rfl
        | _ => exact traiterEchecLiaison_autorisee later v _
      · dsimp only
        rw [transmettreEvenement_autorisee, ih]
    · rw [if_neg hc, if_neg (show ¬ (app.autorisee v).connected = true from hc)]

/-- One turn of the wait. -/
theorem attendreReponse_eq (expectedCode : UInt8) (deadlineMs : Int) (responseCapacity : Nat)
    (app : SweetDawn σ) :
    attendreReponse expectedCode deadlineMs responseCapacity app =
      if deadlineMs - (maintenant app).1 ≤ 0 then (.error .timeout, (maintenant app).2)
      else
        match recevoir (maintenant app).2 responseCapacity (deadlineMs - (maintenant app).1) with
        | (.error code, app) => (.error code, app)
        | (.ok response, app) =>
          if isResponse expectedCode response then (.ok response, { app with consecutiveFailures := 0 })
          else attendreReponse expectedCode deadlineMs responseCapacity (transmettreEvenement app response).2 := by
  rw [attendreReponse]
  split
  · rfl
  · split <;> next h => rw [h]

theorem attendreReponse_autorisee (expectedCode : UInt8) (deadlineMs : Int) (responseCapacity : Nat)
    (app : SweetDawn σ) (v : UInt8) :
    attendreReponse expectedCode deadlineMs responseCapacity (app.autorisee v) =
      ((attendreReponse expectedCode deadlineMs responseCapacity app).1,
        (attendreReponse expectedCode deadlineMs responseCapacity app).2.autorisee v) := by
  have hread : ∀ app : SweetDawn σ, maintenant (app.autorisee v) =
      ((maintenant app).1, (maintenant app).2.autorisee v) := fun _ => rfl
  fun_induction attendreReponse expectedCode deadlineMs responseCapacity app with
  | case1 app reading remaining hpast =>
    rw [attendreReponse_eq, hread]
    exact if_pos hpast
  | case2 app reading remaining hpast code later hrec =>
    rw [attendreReponse_eq, hread]
    dsimp only
    rw [if_neg hpast, recevoir_autorisee, hrec]
  | case3 app reading remaining hpast response later hrec hresp =>
    rw [attendreReponse_eq, hread]
    dsimp only
    rw [if_neg hpast, recevoir_autorisee, hrec]
    exact if_pos hresp
  | case4 app reading remaining hpast response later hrec hresp ih =>
    rw [attendreReponse_eq, hread]
    dsimp only
    rw [if_neg hpast, recevoir_autorisee, hrec]
    dsimp only
    rw [if_neg hresp, transmettreEvenement_autorisee, ih]

/-- **The authorization does not count** in an exchange, which leaves it as it is. -/
theorem envoyerRequete_autorisee (requestCode : UInt8) (expectedCode timeoutMs : Int)
    (arguments : List UInt8) (responseCapacity : Nat) (app : SweetDawn σ) (v : UInt8) :
    envoyerRequete requestCode expectedCode timeoutMs arguments responseCapacity (app.autorisee v) =
      ((envoyerRequete requestCode expectedCode timeoutMs arguments responseCapacity app).1,
        (envoyerRequete requestCode expectedCode timeoutMs arguments responseCapacity app).2.autorisee v) := by
  have hlire : lireEvenements (app.autorisee v) = (lireEvenements app).autorisee v :=
    lireEvenementsLoop_autorisee 16 app v
  unfold envoyerRequete
  by_cases hinit : app.initialized = true
  swap
  · exact (if_pos hinit).trans (by rw [if_pos hinit])
  by_cases hconn : app.connected = true
  swap
  · rw [if_neg (show ¬ ¬ (app.autorisee v).initialized = true from not_not.mpr hinit), if_neg (not_not.mpr hinit),
      if_pos hconn]
    exact if_pos hconn
  rw [if_neg (show ¬ ¬ (app.autorisee v).initialized = true from not_not.mpr hinit), if_neg (not_not.mpr hinit),
    if_neg (show ¬ ¬ (app.autorisee v).connected = true from not_not.mpr hconn), if_neg (not_not.mpr hconn)]
  dsimp only
  cases protocolBuildRequest requestCode arguments requestBufferSize with
  | none => rfl
  | some request =>
    dsimp only
    rw [hlire]
    by_cases hup : (lireEvenements app).connected = true
    swap
    · rw [if_pos hup]
      exact if_pos hup
    rw [if_neg (show ¬ ¬ ((lireEvenements app).autorisee v).connected = true from not_not.mpr hup),
      if_neg (not_not.mpr hup)]
    rcases hsend : amlSend (lireEvenements app).connection request (lireEvenements app).world with
      ⟨code | _, world⟩
    · rw [show amlSend ((lireEvenements app).autorisee v).connection request
        ((lireEvenements app).autorisee v).world = _ from hsend]
      exact Prod.ext rfl (traiterEchecLiaison_autorisee { lireEvenements app with world } v code)
    rw [show amlSend ((lireEvenements app).autorisee v).connection request
      ((lireEvenements app).autorisee v).world = _ from hsend]
    dsimp only
    by_cases hno : expectedCode = sweetdawnNoResponse
    · rw [if_pos hno, if_pos hno]
      rfl
    rw [if_neg hno, if_neg hno]
    let written := { lireEvenements app with world }
    let deadlineMs := (maintenant written).1 + if timeoutMs ≤ 0 then amlResponseTimeoutMs else timeoutMs
    have hwait : attendreReponse (UInt8.ofInt expectedCode)
          ((maintenant { (lireEvenements app).autorisee v with world }).1 +
            if timeoutMs ≤ 0 then amlResponseTimeoutMs else timeoutMs)
          responseCapacity (maintenant { (lireEvenements app).autorisee v with world }).2 = _ :=
      attendreReponse_autorisee (UInt8.ofInt expectedCode) deadlineMs responseCapacity (maintenant written).2 v
    rw [hwait]
    rcases attendreReponse (UInt8.ofInt expectedCode) deadlineMs responseCapacity (maintenant written).2 with
      ⟨code | response, later⟩
    · exact Prod.ext rfl (traiterEchecLiaison_autorisee later v code)
    · rfl

/-! ### Answers -/

theorem attendreReponse_minimal {expectedCode : UInt8} {deadlineMs : Int} {responseCapacity : Nat}
    (hcap : amlProtocolMaxFrameSize ≤ responseCapacity)
    (h : attendreReponse expectedCode deadlineMs responseCapacity app = (.ok f, app₁)) : 12 ≤ f.length := by
  fun_induction attendreReponse expectedCode deadlineMs responseCapacity app with
  | case1 app reading remaining hpast => cases h
  | case2 app reading remaining hpast code later hrec => cases h
  | case3 app reading remaining hpast response later hrec hresp =>
    obtain ⟨_, _, _, _, _, _, _, _, hmin, -⟩ := recevoir_inv hcap hrec
    cases h
    exact hmin f rfl
  | case4 app reading remaining hpast response later hrec hresp ih => exact ih h

/-- An answer has an envelope, and came to an application that was ready. -/
theorem envoyerRequete_minimal {requestCode : UInt8} {expectedCode timeoutMs : Int} {arguments : List UInt8}
    {responseCapacity : Nat} (hne : expectedCode ≠ sweetdawnNoResponse)
    (hcap : amlProtocolMaxFrameSize ≤ responseCapacity)
    (h : envoyerRequete requestCode expectedCode timeoutMs arguments responseCapacity app = (.ok f, app₁)) :
    12 ≤ f.length ∧ app.initialized = true ∧ app.connected = true := by
  unfold envoyerRequete at h
  split at h
  · cases h
  next hinit =>
  split at h
  · cases h
  next hconn =>
  refine ⟨?_, by simpa using hinit, by simpa using hconn⟩
  dsimp only at h
  split at h
  · cases h
  split at h
  · cases h
  split at h
  · cases h
  split at h
  · next hwait =>
    cases h
    exact attendreReponse_minimal hcap hwait
  · cases h

theorem length_frameData (f : List UInt8) : (frameData f).length = f.length - 12 := by
  simp only [frameData, amlFrameDataOffset, List.length_take, List.length_drop]
  omega

/-- The data bytes are those that follow the code, up to the four that close the frame. -/
theorem octet_frameData {i : Nat} (h : i < (frameData f).length) :
    octet f (amlFrameDataOffset + i) = octet (frameData f) i := by
  rw [length_frameData] at h
  simp only [octet, frameData, amlFrameDataOffset, List.getD_eq_getElem?_getD]
  rw [List.getElem?_take_of_lt (by omega), List.getElem?_drop]

/-! ### The reading -/

/-- The answer to the status request counts if it has a data byte, and is refused otherwise,
whatever the authorization was. -/
def StatutRespecte (app : SweetDawn σ) (f : List UInt8) : Prop :=
  ∀ v, let apres := sweetdawnRefresh (app.autorisee v)
    if 1 ≤ (frameData f).length then apres.2.authorization = octet (frameData f) 0
    else apres.1 = .error .protocol ∧ apres.2.authorization = v ∧ apres.2.lastRefreshMs = app.lastRefreshMs

/-- The settings count if the answer has five data bytes, and are refused otherwise. -/
def ParametresRespectes (app : SweetDawn σ) (g : List UInt8) : Prop :=
  let apres := sweetdawnRefresh app
  let data := frameData g
  if 5 ≤ data.length then
    apres.2.state = stateUpdateSettings (octet data 0) (octet data 1) (octet data 2) (octet data 3) (octet data 4)
  else apres.1 = .error .protocol ∧ apres.2.state = app.state ∧ apres.2.lastRefreshMs = app.lastRefreshMs

theorem sweetdawnRefresh_of_statut {c : UInt8} (hi : app.initialized = true) (hc : app.connected = true)
    (hstatut : demanderStatut app = (.ok c, app₁)) :
    (sweetdawnRefresh app).1 = (demanderParametres (app₁.autorisee c)).1 ∧
      (sweetdawnRefresh app).2.authorization = (demanderParametres (app₁.autorisee c)).2.authorization ∧
      (sweetdawnRefresh app).2.state = (demanderParametres (app₁.autorisee c)).2.state ∧
      ∀ code, (sweetdawnRefresh app).1 = .error code →
        (sweetdawnRefresh app).2.lastRefreshMs = (demanderParametres (app₁.autorisee c)).2.lastRefreshMs := by
  have hlire : lireEtat app = demanderParametres (app₁.autorisee c) := by
    unfold lireEtat
    rw [bind_run_ok hstatut, bind_run]
    rfl
  unfold sweetdawnRefresh
  rw [if_neg (by simp [hi, hc]), hlire]
  rcases demanderParametres (app₁.autorisee c) with ⟨code | _, later⟩
  · exact ⟨rfl, rfl, rfl, fun _ _ => rfl⟩
  · exact ⟨rfl, rfl, rfl, fun _ h => by cases h⟩

theorem demanderStatut_of {app : SweetDawn σ} (hmin : 12 ≤ f.length)
    (hf : envoyerRequete amlReqStatus amlRspStatus.toNat 0 [amlStatusArg] responseBufferSize app = (.ok f, app₁)) :
    demanderStatut app = (.ok (octet f amlFrameDataOffset), app₁) := by
  unfold demanderStatut
  rw [bind_run_ok hf, if_neg (by simp only [amlFrameDataOffset]; omega)]
  rfl

/-- What the reading of the settings leaves, but for the settings. -/
theorem demanderParametres_keeps (app : SweetDawn σ) :
    (demanderParametres app).2.authorization = app.authorization ∧
      (demanderParametres app).2.lastRefreshMs = app.lastRefreshMs := by
  rcases hreq : envoyerRequete amlReqReadSettings amlRspReadSettings.toNat 0 [] responseBufferSize app with
    ⟨r, later⟩
  obtain ⟨added, hrequest⟩ := envoyerRequete_requested (fun _ => Nat.le_refl _) (by decide) hreq
  have hkept := And.intro hrequest.exchange.authorization hrequest.exchange.lastRefreshMs
  unfold demanderParametres
  rw [bind_run, hreq]
  cases r with
  | error code => exact hkept
  | ok g =>
    dsimp only
    split <;> exact hkept

theorem statutRespecte_iff
    (hf : envoyerRequete amlReqStatus amlRspStatus.toNat 0 [amlStatusArg] responseBufferSize app = (.ok f, app₁)) :
    StatutRespecte app f ↔ 1 ≤ (frameData f).length := by
  obtain ⟨hmin, hi, hc⟩ := envoyerRequete_minimal (by decide) (Nat.le_refl _) hf
  have hstored : ∀ v, (sweetdawnRefresh (app.autorisee v)).2.authorization = octet f amlFrameDataOffset := by
    intro v
    have hfv : envoyerRequete amlReqStatus amlRspStatus.toNat 0 [amlStatusArg] responseBufferSize
        (app.autorisee v) = (.ok f, app₁.autorisee v) := by
      rw [envoyerRequete_autorisee, hf]
    have hready : (app.autorisee v).initialized = true ∧ (app.autorisee v).connected = true := ⟨hi, hc⟩
    obtain ⟨-, hauth, -⟩ := sweetdawnRefresh_of_statut hready.1 hready.2 (demanderStatut_of hmin hfv)
    rw [hauth, (demanderParametres_keeps _).1]
    rfl
  unfold StatutRespecte
  by_cases hdata : 1 ≤ (frameData f).length
  · simp only [hdata, if_true, iff_true]
    intro v
    rw [hstored v]
    exact octet_frameData hdata
  · simp only [hdata, if_false, iff_false]
    intro hkept
    -- the byte taken for the authorization cannot be what it was, whatever it was
    obtain ⟨-, hv, -⟩ := hkept (octet f amlFrameDataOffset + 1)
    rw [hstored] at hv
    simp at hv

theorem parametresRespectes_iff {g : List UInt8} {app₂ : SweetDawn σ}
    (hf : envoyerRequete amlReqStatus amlRspStatus.toNat 0 [amlStatusArg] responseBufferSize app = (.ok f, app₁))
    (hg : envoyerRequete amlReqReadSettings amlRspReadSettings.toNat 0 [] responseBufferSize
      (app₁.autorisee (octet f amlFrameDataOffset)) = (.ok g, app₂)) :
    ParametresRespectes app g ↔ (frameData g).length ≤ 1 ∨ 5 ≤ (frameData g).length := by
  obtain ⟨hmin, hi, hc⟩ := envoyerRequete_minimal (by decide) (Nat.le_refl _) hf
  obtain ⟨hmin', -, -⟩ := envoyerRequete_minimal (by decide) (Nat.le_refl _) hg
  obtain ⟨hresult, -, hstate, hlast⟩ := sweetdawnRefresh_of_statut hi hc (demanderStatut_of hmin hf)
  obtain ⟨added, hreq⟩ := envoyerRequete_requested (fun _ => Nat.le_refl _) (by decide) hf
  obtain ⟨added', hreq'⟩ := envoyerRequete_requested (fun _ => Nat.le_refl _) (by decide) hg
  have hsame : app₂.state = app.state := hreq'.exchange.state_eq.trans hreq.exchange.state_eq
  have hsame' : app₂.lastRefreshMs = app.lastRefreshMs :=
    hreq'.exchange.lastRefreshMs.trans hreq.exchange.lastRefreshMs
  have hlength := length_frameData g
  unfold ParametresRespectes
  dsimp only
  by_cases hshort : g.length < amlFrameDataOffset + 6
  · -- refused, as it should be
    have hrun : demanderParametres (app₁.autorisee (octet f amlFrameDataOffset)) = (.error .protocol, app₂) := by
      unfold demanderParametres
      rw [bind_run_ok hg, if_pos hshort]
      rfl
    simp only [amlFrameDataOffset] at hshort
    rw [if_neg (by omega), hresult, hstate, hlast .protocol (by rw [hresult, hrun]), hrun]
    simp only [hsame, hsame', and_self, true_iff]
    omega
  · have hrun : demanderParametres (app₁.autorisee (octet f amlFrameDataOffset)) =
        (.ok (), recordSettings app₂
          (stateUpdateSettings (octet (g.drop amlFrameDataOffset) 0) (octet (g.drop amlFrameDataOffset) 1)
            (octet (g.drop amlFrameDataOffset) 2) (octet (g.drop amlFrameDataOffset) 3)
            (octet (g.drop amlFrameDataOffset) 4)) .settingsRead) := by
      unfold demanderParametres
      rw [bind_run_ok hg, if_neg hshort]
      rfl
    simp only [amlFrameDataOffset] at hshort
    by_cases hfull : 5 ≤ (frameData g).length
    · rw [if_pos hfull, hstate, hrun]
      have hdata : ∀ i < 5, octet (g.drop amlFrameDataOffset) i = octet (frameData g) i := by
        intro i hi
        rw [← octet_frameData (by omega)]
        simp [octet, List.getD_eq_getElem?_getD]
      simp [recordSettings, hdata, hfull]
    · rw [if_neg hfull, hresult, hrun]
      simp only [reduceCtorEq, false_and, false_iff]
      omega

/-- **Short answers.** The status answer is read as it should be if and only if it has a data
byte, the answer with the settings if and only if it has five data bytes, or at most one. With
two to four, the bytes that close the frame are taken for settings. -/
theorem reponses_courtes
    (hf : envoyerRequete amlReqStatus amlRspStatus.toNat 0 [amlStatusArg] responseBufferSize app = (.ok f, app₁)) :
    (StatutRespecte app f ↔ 1 ≤ (frameData f).length) ∧
      ∀ g app₂, envoyerRequete amlReqReadSettings amlRspReadSettings.toNat 0 [] responseBufferSize
          { app₁ with authorization := octet f amlFrameDataOffset } = (.ok g, app₂) →
        (ParametresRespectes app g ↔ (frameData g).length ≤ 1 ∨ 5 ≤ (frameData g).length) :=
  ⟨statutRespecte_iff hf, fun _ _ hg => parametresRespectes_iff hf hg⟩

/-- An AML that has just been reached, and answers with these data bytes. -/
def amlJointe (statut parametres : List UInt8) : SweetDawn Unit :=
  (sweetdawnConnect (sweetdawnInit amlScripted none () (.scripted
    [.quiet, .reply amlRspStatus statut, .quiet, .reply amlRspReadSettings parametres]))).2

/-- Answers with one byte and five bytes. -/
theorem reponses_courtes_completes :
    let app := amlJointe [0x16] [1, 2, 3, 4, 5]
    StatutRespecte app (responseFrame amlRspStatus [0x16]) ∧
      ParametresRespectes app (responseFrame amlRspReadSettings [1, 2, 3, 4, 5]) := by
  intro app
  have hf : (envoyerRequete amlReqStatus amlRspStatus.toNat 0 [amlStatusArg] responseBufferSize app).1 =
      .ok (responseFrame amlRspStatus [0x16]) := by decide +kernel
  obtain ⟨hstatut, hparametres⟩ := reponses_courtes (Prod.ext hf rfl)
  have hg : (envoyerRequete amlReqReadSettings amlRspReadSettings.toNat 0 [] responseBufferSize
      { (envoyerRequete amlReqStatus amlRspStatus.toNat 0 [amlStatusArg] responseBufferSize app).2 with
        authorization := octet (responseFrame amlRspStatus [0x16]) amlFrameDataOffset }).1 =
      .ok (responseFrame amlRspReadSettings [1, 2, 3, 4, 5]) := by decide +kernel
  exact ⟨hstatut.mpr (by decide), (hparametres _ _ (Prod.ext hg rfl)).mpr (by decide)⟩

/-- No data byte for the status, two for the settings: the checksum is taken for the
authorization, then for the time mode, and the bytes after it for the last two settings. -/
theorem reponses_courtes_coupees :
    let app := amlJointe [] [0, 0]
    let f := responseFrame amlRspStatus []
    let g := responseFrame amlRspReadSettings [0, 0]
    ¬ StatutRespecte app f ∧ ¬ ParametresRespectes app g ∧ (sweetdawnRefresh app).1.isOk = true ∧
      (sweetdawnRefresh app).2.authorization = octet f 8 ∧
      (sweetdawnRefresh app).2.state = stateUpdateSettings 0 0 (octet g 10) 0x55 0x0D := by
  intro app f g
  have hf : (envoyerRequete amlReqStatus amlRspStatus.toNat 0 [amlStatusArg] responseBufferSize app).1 = .ok f := by
    decide +kernel
  have hg : (envoyerRequete amlReqReadSettings amlRspReadSettings.toNat 0 [] responseBufferSize
      ((envoyerRequete amlReqStatus amlRspStatus.toNat 0 [amlStatusArg] responseBufferSize app).2.autorisee
        (octet f amlFrameDataOffset))).1 = .ok g := by decide +kernel
  refine ⟨fun h => absurd ((statutRespecte_iff (Prod.ext hf rfl)).mp h) (by decide), fun h => ?_, ?_, ?_, ?_⟩
  · exact absurd ((parametresRespectes_iff (Prod.ext hf rfl) (Prod.ext hg rfl)).mp h) (by decide)
  · decide +kernel
  · decide +kernel
  · decide +kernel

end AmlService
