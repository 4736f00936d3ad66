import AmlService.Core.Requests

/-!
# AmlService.Core.PendingFrames

What `envoyer_requete` does with the frames that have already arrived when it is called:
it reads sixteen of them at most before it writes its request. A frame beyond these may
still be taken for the response.
-/

namespace AmlService

open Effect

variable {σ : Type} {app app' : SweetDawn σ} {f : List UInt8} {frames : List (List UInt8)}

/-- The frames that reading without waiting gives one after the other, each being dealt
with before the next is read. -/
def EnAttente : List (List UInt8) → SweetDawn σ → Prop
  | [], _ => True
  | f :: frames, app =>
    (recevoir app responseBufferSize 0).1 = .ok f ∧
      EnAttente frames (transmettreEvenement (recevoir app responseBufferSize 0).2 f).2

instance EnAttente.decidable : (frames : List (List UInt8)) → (app : SweetDawn σ) → Decidable (EnAttente frames app)
  | [], _ => .isTrue trivial
  | f :: frames, app =>
    have := EnAttente.decidable frames (transmettreEvenement (recevoir app responseBufferSize 0).2 f).2
    inferInstanceAs (Decidable (_ ∧ _))

/-! ### What each reading adds to the journal -/

theorem recevoir_journal {outputCapacity : Nat} {timeoutMs : Int} {r : Except AmlErr (List UInt8)}
    (h : recevoir app outputCapacity timeoutMs = (r, app')) :
    app'.connected = app.connected ∧ ∃ added, app'.world.journal = app.world.journal ++ added ∧
      framesOf added = resultFrames r ∧ SentCodes noCode added := by
  unfold recevoir at h
  rcases hrec : amlReceive app.connection outputCapacity timeoutMs app.world with ⟨result, connection, world⟩
  rw [hrec] at h
  obtain ⟨rfl, rfl⟩ := Prod.mk.inj h
  refine ⟨rfl, ?_⟩
  by_cases hfd : 0 ≤ app.connection.socketFd
  · obtain ⟨-, added, hreceives, hext, -⟩ := amlReceive_receives hfd hrec
    obtain ⟨hframes, -, hlink⟩ := hreceives.journal
    exact ⟨added, hext.journal, hframes, fun request hr => (hlink _ hr).2 request rfl⟩
  · rw [amlReceive, if_pos (by omega)] at hrec
    obtain ⟨rfl, hrest⟩ := Prod.mk.inj hrec
    obtain ⟨rfl, rfl⟩ := Prod.mk.inj hrest
    exact ⟨[], by simp, rfl, .nil _⟩

/-- Passing a frame on adds no frame. -/
theorem transmettreEvenement_journal (app : SweetDawn σ) (frame : List UInt8) :
    (transmettreEvenement app frame).2.connected = app.connected ∧
      ∃ added, (transmettreEvenement app frame).2.world.journal = app.world.journal ++ added ∧
        framesOf added = [] ∧ SentCodes noCode added := by
  unfold transmettreEvenement
  split
  · split
    · exact ⟨rfl, [], by simp, rfl, .nil _⟩
    · exact ⟨rfl, [.event (octet frame amlFrameCodeOffset) (frameData frame)], rfl, rfl, by simp [SentCodes]⟩
  · exact ⟨rfl, [], by simp, rfl, .nil _⟩

/-- A frame read, and passed on or ignored. -/
theorem lue_journal {outputCapacity : Nat} {timeoutMs : Int}
    (h : recevoir app outputCapacity timeoutMs = (.ok f, app')) :
    (transmettreEvenement app' f).2.connected = app.connected ∧
      ∃ added, (transmettreEvenement app' f).2.world.journal = app.world.journal ++ added ∧
        framesOf added = [f] ∧ SentCodes noCode added := by
  obtain ⟨hconn, added, hjournal, hframes, hsent⟩ := recevoir_journal h
  obtain ⟨hconn', added', hjournal', hframes', hsent'⟩ := transmettreEvenement_journal app' f
  refine ⟨hconn'.trans hconn, added ++ added', ?_, ?_, hsent.append hsent'⟩
  · rw [hjournal', hjournal, List.append_assoc]
  · rw [framesOf_append, hframes, hframes', List.append_nil]
    rfl

/-! ### Before the request -/

/-- **The frames that wait** are read, up to the number of turns. -/
theorem lireEvenementsLoop_lit (turns : Nat) (hc : app.connected = true) (h : EnAttente frames app) :
    ∃ added, (lireEvenementsLoop turns app).world.journal = app.world.journal ++ added ∧
      SentCodes noCode added ∧ frames.take turns <+: framesOf added := by
  induction turns generalizing app frames with
  | zero => exact ⟨[], by simp [lireEvenementsLoop], .nil _, by simp⟩
  | succ turns ih =>
    cases frames with
    | nil =>
      obtain ⟨added, hex, hsent⟩ := lireEvenementsLoop_talks (turns + 1) app
      exact ⟨added, hex.world.journal, hsent, by simp⟩
    | cons f frames =>
      obtain ⟨hf, hrest⟩ := h
      have hrec : recevoir app responseBufferSize 0 = (.ok f, (recevoir app responseBufferSize 0).2) :=
        Prod.ext hf rfl
      obtain ⟨hconn, added, hjournal, hframes, hsent⟩ := lue_journal hrec
      obtain ⟨added', hjournal', hsent', hprefix⟩ := ih (hconn.trans hc) hrest
      refine ⟨added ++ added', ?_, hsent.append hsent', ?_⟩
      · rw [lireEvenementsLoop, if_pos hc, hrec]
        dsimp only
        rw [hjournal', hjournal, List.append_assoc]
      · rw [framesOf_append, hframes, List.take_succ_cons]
        exact List.prefix_cons_inj f |>.mpr hprefix

/-- The response is the last frame of those read in the wait. -/
theorem attendreReponse_derniere {expectedCode : UInt8} {deadlineMs : Int} {responseCapacity : Nat}
    {r : Except AmlErr (List UInt8)}
    (h : attendreReponse expectedCode deadlineMs responseCapacity app = (r, app')) :
    ∃ later, app'.world.journal = app.world.journal ++ later ∧
      ∀ response, r = .ok response → ∃ skipped, framesOf later = skipped ++ [response] := by
  fun_induction attendreReponse expectedCode deadlineMs responseCapacity app with
  | case1 app reading remaining hpast =>
    cases h
    exact ⟨[], (List.append_nil _).symm, by simp⟩
  | case2 app reading remaining hpast code later hrec =>
    cases h
    obtain ⟨-, added, hjournal, -⟩ := recevoir_journal hrec
    exact ⟨added, hjournal, by simp⟩
  | case3 app reading remaining hpast response later hrec hresp =>
    cases h
    obtain ⟨-, added, hjournal, hframes, -⟩ := recevoir_journal hrec
    refine ⟨added, hjournal, fun f hf => ⟨[], ?_⟩⟩
    rw [hframes, hf]
    rfl
  | case4 app reading remaining hpast response later hrec hresp ih =>
    obtain ⟨-, added, hjournal, -⟩ := lue_journal hrec
    obtain ⟨added', hjournal', hlast⟩ := ih h
    refine ⟨added ++ added', ?_, fun f hf => ?_⟩
    · rw [hjournal', hjournal, List.append_assoc]
      rfl
    · obtain ⟨skipped, hskipped⟩ := hlast f hf
      refine ⟨framesOf added ++ skipped, ?_⟩
      rw [framesOf_append, hskipped, List.append_assoc]

/-! ### The request -/

/-- What follows the reading of the frames that wait: nothing of it is written before, and
the response is read after the request is written. -/
theorem envoyerRequete_suite {requestCode : UInt8} {expectedCode timeoutMs : Int}
    {arguments request : List UInt8} {responseCapacity : Nat} {r : Except AmlErr (List UInt8)}
    (hi : app.initialized = true) (hc : app.connected = true)
    (hbuild : protocolBuildRequest requestCode arguments requestBufferSize = some request)
    (hup : (lireEvenements app).connected = true)
    (h : envoyerRequete requestCode expectedCode timeoutMs arguments responseCapacity app = (r, app')) :
    ∃ suite, app'.world.journal = (lireEvenements app).world.journal ++ suite ∧
      ∀ response, r = .ok response → expectedCode ≠ sweetdawnNoResponse →
        ∃ later skipped, suite = .sent request :: later ∧ framesOf later = skipped ++ [response] := by
  unfold envoyerRequete at h
  rw [if_neg (not_not.mpr hi), if_neg (not_not.mpr hc), hbuild] at h
  dsimp only at h
  rw [if_neg (not_not.mpr hup)] at h
  rcases hsend : amlSend (lireEvenements app).connection request (lireEvenements app).world with
    ⟨code | _, world⟩ <;> rw [hsend] at h <;> dsimp only at h
  · cases h
    obtain ⟨⟨hok, -⟩ | ⟨-, hext⟩, -⟩ := amlSend_inv hsend
    · cases hok
    obtain ⟨added, hex, -⟩ := traiterEchecLiaison_talks { lireEvenements app with world } code
    refine ⟨added, ?_, by simp⟩
    rw [hex.world.journal]
    exact congrArg (· ++ added) (hext.journal.trans (List.append_nil _))
  · obtain ⟨⟨-, hext⟩ | ⟨⟨_, hcode, -⟩, -⟩, -⟩ := amlSend_inv hsend
    swap
    · cases hcode
    split at h
    · next hno =>
      cases h
      exact ⟨_, hext.journal, fun _ _ hne => absurd hno hne⟩
    have hwritten : (maintenant { lireEvenements app with world }).2.world.journal =
        (lireEvenements app).world.journal ++ [.sent request] := hext.journal
    split at h
    · next response last hwait =>
      cases h
      obtain ⟨later, hjournal, hlast⟩ := attendreReponse_derniere hwait
      obtain ⟨skipped, hskipped⟩ := hlast response rfl
      refine ⟨.sent request :: later, ?_, fun f hf _ => ⟨later, skipped, rfl, ?_⟩⟩
      · rw [hjournal, hwritten, List.append_assoc]
        rfl
      · rw [hskipped, Except.ok.inj hf]
    · next code last hwait =>
      cases h
      obtain ⟨later, hjournal, -⟩ := attendreReponse_derniere hwait
      obtain ⟨added, hex, -⟩ := traiterEchecLiaison_talks last code
      refine ⟨.sent request :: (later ++ added), ?_, by simp⟩
      rw [hex.world.journal, hjournal, hwritten]
      simp

/-- **Read before the request.** When a request is written, the first sixteen of the frames
that had arrived have been read, each one passed to the handler or ignored, and the response
is read after them all. -/
theorem lues_avant_envoi {requestCode : UInt8} {expectedCode timeoutMs : Int}
    {arguments request : List UInt8} {responseCapacity : Nat} {r : Except AmlErr (List UInt8)}
    (hi : app.initialized = true) (hc : app.connected = true)
    (hbuild : protocolBuildRequest requestCode arguments requestBufferSize = some request)
    (hframes : EnAttente frames app) (hup : (lireEvenements app).connected = true)
    (h : envoyerRequete requestCode expectedCode timeoutMs arguments responseCapacity app = (r, app')) :
    ∃ lues suite, app'.world.journal = app.world.journal ++ lues ++ suite ∧
      (∀ q, .sent q ∉ lues) ∧ frames.take 16 <+: framesOf lues ∧
      eventsOf lues = deliveries app.onEvent.isSome (framesOf lues) ∧
      ∀ response, r = .ok response → expectedCode ≠ sweetdawnNoResponse →
        ∃ later skipped, suite = .sent request :: later ∧ framesOf later = skipped ++ [response] := by
  obtain ⟨lues, hjournal, hsent, hprefix⟩ := lireEvenementsLoop_lit 16 hc hframes
  obtain ⟨added, hex, -⟩ := lireEvenements_talks app
  obtain rfl : added = lues := List.append_cancel_left (hex.world.journal.symm.trans hjournal)
  obtain ⟨suite, hsuite, hresponse⟩ := envoyerRequete_suite hi hc hbuild hup h
  refine ⟨added, suite, ?_, hsent, hprefix, hex.events, hresponse⟩
  rw [hsuite, hex.world.journal]

/-- An AML that has just been reached, and has already sent these frames in one piece. -/
def amlBavarde (frames : List (List UInt8)) : SweetDawn Unit :=
  (sweetdawnConnect (sweetdawnInit amlScripted none ()
    (.scripted [.ofBytes frames.flatten, .quiet, .reply amlRspStatus [0x16]]))).2

/-- Two frames that wait, one of them a late answer: the response is another one. -/
theorem lues_avant_envoi_deux :
    let frames := [responseFrame amlEvtAlarmRing [], responseFrame amlRspStatus [0x01]]
    let app := amlBavarde frames
    let apres := (envoyerRequete amlReqStatus amlRspStatus.toNat 0 [amlStatusArg] 259 app).2
    ∃ lues request later skipped, apres.world.journal = app.world.journal ++ lues ++ .sent request :: later ∧
      frames <+: framesOf lues ∧ framesOf later = skipped ++ [responseFrame amlRspStatus [0x16]] := by
  intro frames app apres
  have hok : (envoyerRequete amlReqStatus amlRspStatus.toNat 0 [amlStatusArg] 259 app).1 =
      .ok (responseFrame amlRspStatus [0x16]) := by decide +kernel
  have hbuild : (protocolBuildRequest amlReqStatus [amlStatusArg] requestBufferSize).isSome = true := by decide
  obtain ⟨request, hbuild⟩ := Option.isSome_iff_exists.mp hbuild
  have hwait : EnAttente frames app := by decide +kernel
  obtain ⟨lues, suite, hjournal, -, hlues, -, hresponse⟩ :=
    lues_avant_envoi rfl (by decide +kernel) hbuild hwait (by decide +kernel) (Prod.ext hok rfl)
  obtain ⟨later, skipped, rfl, hlast⟩ := hresponse _ rfl (by decide)
  exact ⟨lues, request, later, skipped, hjournal, hlues, hlast⟩

/-- Seventeen frames that wait, the last one a late answer: sixteen are read, and the last one
is taken for the response. -/
theorem lues_avant_envoi_dix_sept :
    let frames := List.replicate 16 (responseFrame amlEvtAlarmRing []) ++ [responseFrame amlRspStatus [0x01]]
    let app := amlBavarde frames
    EnAttente frames app ∧ (lireEvenements app).connected = true ∧
      framesOf ((lireEvenements app).world.journal.drop app.world.journal.length) = frames.take 16 ∧
      (envoyerRequete amlReqStatus amlRspStatus.toNat 0 [amlStatusArg] 259 app).1 =
        .ok (responseFrame amlRspStatus [0x01]) := by
  refine ⟨?_, ?_, ?_, ?_⟩ <;> decide +kernel

end AmlService
