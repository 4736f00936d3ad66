import AmlService.Core.Supervision

/-!
# AmlService.Core.LinkState

The fields that describe the link, between two calls of the core: the flag, the socket,
the count of failures and the parser hold together over every run, whatever the world
does, and the settings are known from the first complete reading on.
-/

namespace AmlService

open Effect Supervision

variable {σ : Type} {app a b : SweetDawn σ}

/-! ### What is known, and since when -/

/-- The settings and the date of their reading stay, and so does the clock that dates. -/
structure GardeEtat (a b : SweetDawn σ) : Prop where
  state : b.state = a.state
  lastRefreshMs : b.lastRefreshMs = a.lastRefreshMs
  clock : b.world.clock = a.world.clock

instance : IsPreorder (SweetDawn σ) GardeEtat where
  refl _ := ⟨rfl, rfl, rfl⟩
  trans _ _ _ h h' := ⟨h'.state.trans h.state, h'.lastRefreshMs.trans h.lastRefreshMs, h'.clock.trans h.clock⟩

theorem maintenant_gardeEtat (app : SweetDawn σ) : GardeEtat app (maintenant app).2 := ⟨rfl, rfl, rfl⟩

theorem abandonnerLiaison_gardeEtat (app : SweetDawn σ) : GardeEtat app (abandonnerLiaison app) :=
  ⟨rfl, rfl, (amlDisconnect_extends app.connection app.world).1.clock⟩

theorem traiterEchecLiaison_gardeEtat (app : SweetDawn σ) (code : AmlErr) :
    GardeEtat app (traiterEchecLiaison app code) := by
  unfold traiterEchecLiaison
  split
  · exact abandonnerLiaison_gardeEtat app
  · have hcount : GardeEtat app { app with consecutiveFailures := app.consecutiveFailures + 1 } :=
      ⟨rfl, rfl, rfl⟩
    dsimp only
    split
    · exact trans_of GardeEtat hcount (abandonnerLiaison_gardeEtat _)
    · exact hcount

theorem transmettreEvenement_gardeEtat (app : SweetDawn σ) (frame : List UInt8) :
    GardeEtat app (transmettreEvenement app frame).2 := by
  unfold transmettreEvenement
  split
  · split <;> exact ⟨rfl, rfl, rfl⟩
  · exact refl_of GardeEtat app

theorem recevoir_gardeEtat {outputCapacity : Nat} {timeoutMs : Int} {r : Except AmlErr (List UInt8)}
    (h : recevoir a outputCapacity timeoutMs = (r, b)) : GardeEtat a b := by
  unfold recevoir at h
  obtain ⟨-, rfl⟩ := Prod.mk.inj h
  refine ⟨rfl, rfl, ?_⟩
  show (amlReceive a.connection outputCapacity timeoutMs a.world).2.2.clock = a.world.clock
  by_cases hfd : 0 ≤ a.connection.socketFd
  · obtain ⟨-, added, -, hext, -⟩ := amlReceive_receives hfd
      (rfl : amlReceive a.connection outputCapacity timeoutMs a.world = (_, _, _))
    exact hext.clock
  · rw [amlReceive, if_pos (by omega)]

theorem lireEvenementsLoop_gardeEtat (turns : Nat) (app : SweetDawn σ) :
    GardeEtat app (lireEvenementsLoop turns app) := by
  induction turns generalizing app with
  | zero => exact refl_of GardeEtat app
  | succ turns ih =>
    unfold lireEvenementsLoop
    split
    · rcases hrec : recevoir app responseBufferSize 0 with ⟨code | frame, later⟩
      · have hread := recevoir_gardeEtat hrec
        cases code with
        | timeout => exact hread
        | _ => exact trans_of GardeEtat hread (traiterEchecLiaison_gardeEtat later _)
      · exact trans_of GardeEtat (recevoir_gardeEtat hrec)
          (trans_of GardeEtat (transmettreEvenement_gardeEtat later frame) (ih _))
    · exact refl_of GardeEtat app

theorem attendreReponse_gardeEtat {expectedCode : UInt8} {deadlineMs : Int} {responseCapacity : Nat}
    {r : Except AmlErr (List UInt8)}
    (h : attendreReponse expectedCode deadlineMs responseCapacity a = (r, b)) : GardeEtat a b := by
  fun_induction attendreReponse expectedCode deadlineMs responseCapacity a with
  | case1 app reading remaining hpast =>
    cases h
    exact maintenant_gardeEtat app
  | case2 app reading remaining hpast code later hrec =>
    cases h
    exact trans_of GardeEtat (maintenant_gardeEtat app) (recevoir_gardeEtat hrec)
  | case3 app reading remaining hpast response later hrec hresp =>
    cases h
    have hreset : GardeEtat later { later with consecutiveFailures := 0 } := ⟨rfl, rfl, rfl⟩
    exact trans_of GardeEtat (maintenant_gardeEtat app)
      (trans_of GardeEtat (recevoir_gardeEtat hrec) hreset)
  | case4 app reading remaining hpast response later hrec hresp ih =>
    have hread := trans_of GardeEtat (maintenant_gardeEtat app) (recevoir_gardeEtat hrec)
    exact trans_of GardeEtat hread
      (trans_of GardeEtat (transmettreEvenement_gardeEtat later response) (ih h))

theorem amlSend_gardeEtat {request : List UInt8} {r : Except AmlErr Unit} {world : World}
    (h : amlSend a.connection request a.world = (r, world)) : GardeEtat a { a with world } := by
  obtain ⟨⟨-, hext⟩ | ⟨-, hext⟩, -⟩ := amlSend_inv h
  · exact ⟨rfl, rfl, hext.clock⟩
  · exact ⟨rfl, rfl, hext.clock⟩

/-- No request touches the settings. -/
theorem envoyerRequete_gardeEtat (requestCode : UInt8) (expectedCode timeoutMs : Int)
    (arguments : List UInt8) (responseCapacity : Nat) :
    Keeps GardeEtat (envoyerRequete requestCode expectedCode timeoutMs arguments responseCapacity :
      AmlM σ (List UInt8)) := by
  intro app
  have hread : GardeEtat app (lireEvenements app) := lireEvenementsLoop_gardeEtat 16 app
  unfold envoyerRequete
  split
  · exact refl_of GardeEtat app
  split
  · exact refl_of GardeEtat app
  dsimp only
  split
  · exact refl_of GardeEtat app
  split
  · exact hread
  split
  · next code world hsend =>
    exact trans_of GardeEtat hread
      (trans_of GardeEtat (amlSend_gardeEtat hsend) (traiterEchecLiaison_gardeEtat _ code))
  next world hsend =>
  have hsent := trans_of GardeEtat hread (amlSend_gardeEtat hsend)
  split
  · exact hsent
  have hdated := trans_of GardeEtat hsent (maintenant_gardeEtat _)
  split
  · next response later hwait => exact trans_of GardeEtat hdated (attendreReponse_gardeEtat hwait)
  · next code later hwait =>
    exact trans_of GardeEtat hdated
      (trans_of GardeEtat (attendreReponse_gardeEtat hwait) (traiterEchecLiaison_gardeEtat later code))

/-- The reading of the settings records them, or fails and keeps those there were. -/
theorem demanderParametres_connu {r : Except AmlErr Unit} (h : demanderParametres a = (r, b)) :
    GardeEtat a b ∧ r ≠ .ok () ∨
      r = .ok () ∧ b.state.known = true ∧ b.world.clock = a.world.clock := by
  have hrequest := envoyerRequete_gardeEtat amlReqReadSettings amlRspReadSettings.toNat 0 []
    responseBufferSize a
  unfold demanderParametres at h
  rw [bind_run] at h
  rcases hreq : envoyerRequete amlReqReadSettings amlRspReadSettings.toNat 0 [] responseBufferSize a
    with ⟨code | response, later⟩ <;> rw [hreq] at h hrequest
  · cases h
    exact .inl ⟨hrequest, nofun⟩
  · dsimp only at h
    split at h
    · cases h
      exact .inl ⟨hrequest, nofun⟩
    · cases h
      exact .inr ⟨rfl, rfl, hrequest.clock⟩

theorem lireEtat_connu {r : Except AmlErr Unit} (h : lireEtat a = (r, b)) :
    GardeEtat a b ∧ r ≠ .ok () ∨
      r = .ok () ∧ b.state.known = true ∧ b.world.clock = a.world.clock := by
  have hstatut : GardeEtat a (demanderStatut a).2 := by
    rw [demanderStatut_snd]
    exact envoyerRequete_gardeEtat _ _ _ _ _ a
  unfold lireEtat at h
  rw [bind_run] at h
  rcases hdem : demanderStatut a with ⟨code | autorisation, later⟩ <;> rw [hdem] at h hstatut
  · cases h
    exact .inl ⟨hstatut, nofun⟩
  · rcases demanderParametres_connu (a := { later with authorization := autorisation }) h with
      ⟨hkept, hfailed⟩ | ⟨hok, hknown, hclock⟩
    · have hnoted : GardeEtat later { later with authorization := autorisation } := ⟨rfl, rfl, rfl⟩
      exact .inl ⟨trans_of GardeEtat hstatut (trans_of GardeEtat hnoted hkept), hfailed⟩
    · exact .inr ⟨hok, hknown, hclock.trans hstatut.clock⟩

/-- The settings are known from the first complete reading on, on a clock that starts at zero. -/
structure Connu (app : SweetDawn σ) : Prop where
  known : app.state.known = true ↔ 0 ≤ app.lastRefreshMs
  clock : ∀ k, 0 ≤ app.world.clock k

theorem Connu.garde (h : Connu a) (hkept : GardeEtat a b) : Connu b := by
  refine ⟨?_, fun k => ?_⟩
  · rw [hkept.state, hkept.lastRefreshMs]
    exact h.known
  · rw [hkept.clock]
    exact h.clock k

theorem sweetdawnRefresh_connu (h : Connu app) : Connu (sweetdawnRefresh app).2 := by
  unfold sweetdawnRefresh
  split
  · exact h
  rcases hlu : lireEtat app with ⟨code | _, later⟩
  · obtain ⟨hkept, -⟩ | ⟨hok, -, -⟩ := lireEtat_connu hlu
    · have hdated : GardeEtat later
          { later with world := later.world.monotonicMs.2,
                       nextRefreshMs := later.world.monotonicMs.1 + sweetdawnRefreshRetryMs } :=
        ⟨rfl, rfl, rfl⟩
      exact h.garde (trans_of GardeEtat hkept hdated)
    · cases hok
  · obtain ⟨-, hfailed⟩ | ⟨-, hknown, hclock⟩ := lireEtat_connu hlu
    · exact absurd rfl hfailed
    · have hnow : ∀ k, 0 ≤ later.world.clock k := fun k => by rw [hclock]; exact h.clock k
      exact ⟨⟨fun _ => hnow later.world.clockReads, fun _ => hknown⟩, hnow⟩

theorem sweetdawnConnect_connu (hi : a.initialized = true) (hc : a.connected = false)
    {r : Except AmlErr Unit} (h : sweetdawnConnect a = (r, b)) : GardeEtat a b := by
  obtain ⟨connection, world, hcon, rfl⟩ := sweetdawnConnect_inv hi hc h
  obtain ⟨hext, -⟩ := amlConnect_inv hcon
  cases r <;> exact ⟨rfl, rfl, hext.clock⟩

theorem sweetdawnTick_connu (h : Connu app) : Connu (sweetdawnTick app) := by
  unfold sweetdawnTick
  split
  · exact h
  next hi =>
  have hi : app.initialized = true := by simpa using hi
  have hnow := h.garde (maintenant_gardeEtat app)
  dsimp only
  split
  · next hc =>
    split
    · exact hnow
    rcases hcon : sweetdawnConnect (maintenant app).2 with ⟨code | _, later⟩
    · have hrefused := hnow.garde (sweetdawnConnect_connu hi (by simpa using hc) hcon)
      exact ⟨hrefused.known, hrefused.clock⟩
    · have hopened := hnow.garde (sweetdawnConnect_connu hi (by simpa using hc) hcon)
      exact sweetdawnRefresh_connu ⟨hopened.known, hopened.clock⟩
  · have hread := hnow.garde (lireEvenementsLoop_gardeEtat 16 (maintenant app).2)
    split
    · exact sweetdawnRefresh_connu hread
    · exact hread

theorem runAppels_connu (h : Connu app) (appels : List Appel) : Connu (runAppels app appels) := by
  induction appels generalizing app with
  | nil => exact h
  | cons appel appels ih =>
    suffices hstep : Connu (appel.faire app) from ih hstep
    cases appel with
    | refresh => exact sweetdawnRefresh_connu h
    | call call =>
      cases call with
      | tick => exact sweetdawnTick_connu h
      | request requestCode arguments expectedCode timeoutMs responseCapacity =>
        have hkept := envoyerRequete_gardeEtat requestCode expectedCode timeoutMs arguments
          responseCapacity app
        rw [Appel.faire, runCall_request]
        exact h.garde hkept

/-! ### The link -/

/-- The link as the fields describe it, after `incidents`. -/
structure LiaisonTenue (incidents : List (Incident AmlErr)) (app : SweetDawn σ) : Prop where
  descriptor : app.connected = true ↔ 0 ≤ app.connection.socketFd
  closed : app.connected = false →
    app.consecutiveFailures = 0 ∧ app.connection.parser = protocolParserInit
  /-- The parser and the frames have no byte but those of this link. -/
  propre : Propre (linkLog app.world.journal) app.connection.parser
  counted : app.connected = true →
    app.consecutiveFailures = failuresSince incidents ∧ app.consecutiveFailures < 3
  /-- Each failure closes the link at once, or leaves it open. -/
  givenUp : ∀ before code after, incidents = before ++ .failed code :: after →
    ((∃ ms rest, after = .lost ms :: rest) ↔
      code = .disconnected ∨ code = .io ∨ failuresSince before + 1 = 3)
  known : app.state.known = true ↔ 0 ≤ app.lastRefreshMs

/-- **Flag, socket, counter and parser together**, over every run of calls. -/
theorem liaison_tenue (device : AmlConfig) (onEvent : Option (σ → UInt8 → List UInt8 → σ))
    (context : σ) (world : World) (hclock : ∀ k, 0 ≤ world.clock k) (appels : List Appel) :
    LiaisonTenue (incidentsDe (sweetdawnInit device onEvent context world) appels)
      (runAppels (sweetdawnInit device onEvent context world) appels) := by
  obtain ⟨w, hfollow, hw⟩ := runAppels_surveillee device onEvent context world appels
  have htells := politique.tells (by decide) hfollow
  have hopen : w.line ≠ .closing := by
    rw [hw.line]
    split <;> simp
  refine ⟨hw.descriptor, fun hc => ⟨hw.failures hc, hw.parser hc⟩, hw.propre, fun hc => ?_,
    fun before code after heq => ?_, ?_⟩
  · exact htells.up _ (by rw [hw.line, hc]; rfl)
  · rw [heq] at hfollow
    have hfatal : politique.fatal code = true ↔ code = .disconnected ∨ code = .io := by
      cases code <;> decide
    rw [Policy.follow_failed (by decide) hfollow hopen, hfatal, or_assoc]
    rfl
  · refine (runAppels_connu ⟨?_, hclock⟩ appels).known
    simp [sweetdawnInit, stateInit]

/-- Three responses that do not fit in the room given, one after the other. -/
theorem liaison_tenue_trois_echecs :
    let app := sweetdawnInit amlScripted none () (.scripted (releve 0 ++
      [.quiet, .reply 0xC9 [], .quiet, .reply 0xC9 [], .quiet, .reply 0xC9 []]))
    let appels := .call .tick :: List.replicate 3 (.call (.request 0x29 [] 0xC9 0 4))
    incidentsDe app appels = [.opened, .answered, .answered, .completed, .failed .protocol,
        .failed .protocol, .failed .protocol, .lost 0] ∧
      LiaisonTenue (incidentsDe app appels) (runAppels app appels) :=
  ⟨by decide +kernel, liaison_tenue _ _ _ _ (fun _ => Int.le_refl 0) _⟩

end AmlService
