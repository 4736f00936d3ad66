import AmlService.Core.Exchange

/-!
# AmlService.Core.Requests

Every function of the core, against the relations of `AmlService.Core.Exchange`: the
supervision, the two loops that read frames, one request, the readings of the
settings, and the tick.
-/

namespace AmlService

open Effect

variable {σ : Type} {app app' : SweetDawn σ}

/-! ### Supervision -/

theorem maintenant_exchange (app : SweetDawn σ) : Exchange [] app (maintenant app).2 :=
  .supervised (.monotonicMs app.world) rfl

theorem programmerReconnexion_exchange (app : SweetDawn σ) :
    Exchange [] app (programmerReconnexion app) :=
  .supervised (.monotonicMs app.world) rfl

/-- What `aml_disconnect` leaves in the journal. -/
def closing (connection : AmlConnection) : List Obs :=
  if 0 ≤ connection.socketFd then [.closed] else []

theorem amlDisconnect_extends (connection : AmlConnection) (world : World) :
    World.Extends (closing connection) world (amlDisconnect connection world).2 ∧
      (amlDisconnect connection world).2.wallReads = world.wallReads := by
  unfold closing amlDisconnect
  split
  · exact ⟨.log world .closed, rfl⟩
  · exact ⟨.refl world, rfl⟩

theorem closing_frames (connection : AmlConnection) : framesOf (closing connection) = [] := by
  unfold closing
  split <;> rfl

/-- Giving up the link closes it and keeps all the rest. -/
theorem abandonnerLiaison_exchange (app : SweetDawn σ) :
    Exchange (closing app.connection) app (abandonnerLiaison app) := by
  obtain ⟨hworld, hreads⟩ := amlDisconnect_extends app.connection app.world
  have hmem : ∀ o ∈ closing app.connection, o = .closed := by
    unfold closing; split <;> simp
  have hlink : ∀ o ∈ closing app.connection, o.onLink = true := fun o ho => by rw [hmem o ho]; rfl
  have hevents : eventsOf (closing app.connection) = [] := by
    unfold closing; split <;> rfl
  have hstep : Exchange (closing app.connection) app
      { app with
        connection := (amlDisconnect app.connection app.world).1
        world := (amlDisconnect app.connection app.world).2
        connected := false, consecutiveFailures := 0 } := by
    refine .of_link _ false hworld hreads hlink (by rw [hevents]; rfl) ?_ (by simp) (fun hw hc _ => ?_)
      (fun _ => ⟨by simp [amlDisconnect], by simp⟩)
    · rw [hevents, closing_frames]; cases app.onEvent.isSome <;> rfl
    · rw [closing, if_pos (hw.descriptor.mp hc)]; simp
  rw [← List.append_nil (closing app.connection)]
  exact hstep.trans (programmerReconnexion_exchange _)

@[simp] theorem abandonnerLiaison_connected (app : SweetDawn σ) :
    (abandonnerLiaison app).connected = false := rfl

theorem closing_sent (connection : AmlConnection) (codes : UInt8 → Prop) :
    SentCodes codes (closing connection) := by
  intro r hr
  unfold closing at hr
  split at hr <;> simp at hr

/-- Sends nothing. -/
abbrev noCode : UInt8 → Prop := fun _ => False

/-- After a failed exchange the link is kept, or closed. -/
theorem traiterEchecLiaison_exchange (app : SweetDawn σ) (code : AmlErr) :
    ∃ added, Exchange added app (traiterEchecLiaison app code) ∧ SentCodes noCode added ∧
      framesOf added = [] := by
  unfold traiterEchecLiaison
  split
  · exact ⟨_, abandonnerLiaison_exchange app, closing_sent _ _, closing_frames _⟩
  · have hcount : Exchange [] app
        { app with consecutiveFailures := app.consecutiveFailures + 1 } :=
      .supervised (.refl app.world) rfl
    dsimp only
    split
    · exact ⟨_, hcount.trans (abandonnerLiaison_exchange _), closing_sent _ _, closing_frames _⟩
    · exact ⟨[], hcount, .nil noCode, rfl⟩

theorem traiterEchecLiaison_talks (app : SweetDawn σ) (code : AmlErr) :
    Talks noCode app (traiterEchecLiaison app code) := by
  obtain ⟨added, hex, hsent, -⟩ := traiterEchecLiaison_exchange app code
  exact ⟨added, hex, hsent⟩

theorem traiterEchecLiaison_connected {code : AmlErr} (h : code = .disconnected ∨ code = .io)
    (app : SweetDawn σ) : (traiterEchecLiaison app code).connected = false := by
  rw [traiterEchecLiaison, if_pos h, abandonnerLiaison_connected]

/-! ### Reading a frame -/

/-- The frame of a result, if it is one. -/
def resultFrames : Except AmlErr (List UInt8) → List (List UInt8)
  | .ok f => [f]
  | .error _ => []

/-- What a wait leaves in the journal: bytes, and the frame it returns. -/
theorem Receives.journal {outputCapacity : Nat} {parser parser' : ProtocolParser} {added : List Obs}
    {r : Except AmlErr (List UInt8)} (h : Receives outputCapacity parser added r parser') :
    framesOf added = resultFrames r ∧ eventsOf added = [] ∧
      ∀ o ∈ added, o.onLink = true ∧ ∀ request, o ≠ .sent request := by
  induction h with
  | frame _ => exact ⟨rfl, rfl, by simp [Obs.onLink]⟩
  | refused _ => exact ⟨rfl, rfl, by simp⟩
  | stop _ _ => exact ⟨rfl, rfl, by simp⟩
  | overflow _ _ => exact ⟨rfl, rfl, by simp [Obs.onLink]⟩
  | quiet _ _ ih => exact ih
  | bytes _ _ _ ih =>
    refine ⟨ih.1, ih.2.1, fun o ho => ?_⟩
    rcases List.mem_cons.mp ho with rfl | ho
    · exact ⟨rfl, by simp⟩
    · exact ih.2.2 o ho

/-- No frame is shorter than its envelope. -/
theorem length_of_frame {parser parser' : ProtocolParser} {outputCapacity : Nat} {f : List UInt8}
    (h : protocolParserNext parser outputCapacity = (.frame f, parser')) : 12 ≤ f.length := by
  fun_induction protocolParserNext parser outputCapacity with
  | case5 _ _ _ _ _ _ _ _ ih | case7 _ _ _ _ _ _ _ _ _ _ ih | case8 _ _ _ _ _ _ _ _ _ _ _ _ ih
  | case10 _ _ _ _ _ _ _ _ _ _ _ _ _ _ ih => exact ih h
  | case12 parser _ i _ candidate d _ _ _ _ n hsize hpart _ _ =>
    cases h
    rw [List.length_take]
    omega
  | _ => cases h

theorem Receives.minimal {outputCapacity : Nat} {parser parser' : ProtocolParser}
    {added : List Obs} {f : List UInt8}
    (h : Receives outputCapacity parser added (.ok f) parser') : 12 ≤ f.length := by
  generalize hr : (Except.ok f : Except AmlErr (List UInt8)) = r at h
  induction h with
  | frame hnext => cases hr; exact length_of_frame hnext
  | refused _ | stop _ _ | overflow _ _ => cases hr
  | quiet _ _ ih | bytes _ _ _ ih => exact ih hr

/-- One call of `aml_receive` by the core. -/
theorem recevoir_inv {outputCapacity : Nat} {timeoutMs : Int} {r : Except AmlErr (List UInt8)}
    (hcap : amlProtocolMaxFrameSize ≤ outputCapacity)
    (h : recevoir app outputCapacity timeoutMs = (r, app')) :
    ∃ added connection world, app' = { app with connection, world } ∧
      World.Extends added app.world world ∧ world.wallReads = app.world.wallReads ∧
      framesOf added = resultFrames r ∧ eventsOf added = [] ∧ (∀ f, r = .ok f → 12 ≤ f.length) ∧
      (∀ o ∈ added, o.onLink = true ∧ ∀ request, o ≠ .sent request) ∧ (Wired app → Wired app') := by
  unfold recevoir at h
  rcases hrec : amlReceive app.connection outputCapacity timeoutMs app.world with
    ⟨result, connection, world⟩
  rw [hrec] at h
  obtain ⟨rfl, rfl⟩ := Prod.mk.inj h
  by_cases hfd : 0 ≤ app.connection.socketFd
  · obtain ⟨hsame, added, hreceives, hext, hreads⟩ := amlReceive_receives hfd hrec
    obtain ⟨hframes, hevents, hlink⟩ := hreceives.journal
    refine ⟨added, connection, world, rfl, hext, hreads, hframes, hevents,
      fun f hf => by subst hf; exact hreceives.minimal, hlink, fun hw => ⟨?_, ?_⟩⟩
    · show app.connected = true ↔ 0 ≤ connection.socketFd
      rw [hsame]
      exact hw.descriptor
    · intro hc
      show Scanned (linkLog world.journal) connection.parser
      rw [hext.journal, linkLog_append]
      exact (hreceives.scanned hcap).2 _ (hw.scanned hc)
  · rw [amlReceive, if_pos (by omega)] at hrec
    obtain ⟨rfl, hrest⟩ := Prod.mk.inj hrec
    obtain ⟨rfl, rfl⟩ := Prod.mk.inj hrest
    exact ⟨[], _, _, rfl, .refl _, rfl, rfl, rfl, by simp, by simp, id⟩

/-- A reading that ends without a frame, or with one that is not spontaneous. -/
theorem recevoir_exchange {outputCapacity : Nat} {timeoutMs : Int}
    {r : Except AmlErr (List UInt8)} (hcap : amlProtocolMaxFrameSize ≤ outputCapacity)
    (h : recevoir app outputCapacity timeoutMs = (r, app'))
    (hquiet : ∀ f, r = .ok f → spontaneous f = false) :
    ∃ added, Exchange added app app' ∧ SentCodes noCode added ∧ framesOf added = resultFrames r := by
  obtain ⟨added, connection, world, rfl, hext, hreads, hframes, hevents, -, hlink, hwired⟩ :=
    recevoir_inv hcap h
  refine ⟨added, .of_reading connection hext hreads (fun o ho => (hlink o ho).1)
    (by rw [hevents]; rfl) ?_ hwired, fun request hr => (hlink _ hr).2 request rfl, hframes⟩
  rw [hevents, hframes]
  cases r with
  | error _ => cases app.onEvent.isSome <;> rfl
  | ok f =>
    have hf := hquiet f rfl
    cases app.onEvent.isSome <;> simp [deliveries, resultFrames, hf]

/-- A frame read and passed on, if it is spontaneous. -/
theorem transmettreEvenement_exchange {outputCapacity : Nat} {timeoutMs : Int} {f : List UInt8}
    (hcap : amlProtocolMaxFrameSize ≤ outputCapacity)
    (h : recevoir app outputCapacity timeoutMs = (.ok f, app')) :
    ∃ added, Exchange added app (transmettreEvenement app' f).2 ∧ SentCodes noCode added ∧
      framesOf added = [f] := by
  unfold transmettreEvenement
  by_cases hf : spontaneous f = true
  · obtain ⟨added, connection, world, rfl, hext, hreads, hframes, hevents, hlen, hlink, hwired⟩ :=
      recevoir_inv hcap h
    have honlink : ∀ o ∈ added, o.onLink = true := fun o ho => (hlink o ho).1
    have hsent : SentCodes noCode added := fun request hr => (hlink _ hr).2 request rfl
    rw [if_pos ⟨hlen f rfl, hf⟩]
    split
    · next hhandler =>
      have hnone : app.onEvent = none := hhandler
      -- nobody listens: the frame is dropped
      refine ⟨added, .of_reading connection hext hreads honlink (by rw [hevents]; rfl) ?_ hwired, hsent,
        hframes⟩
      rw [hevents, hnone]
      rfl
    · next handler hhandler =>
      have hsome : app.onEvent = some handler := hhandler
      have hcall : eventsOf (added ++ [.event (octet f amlFrameCodeOffset) (frameData f)]) =
          [(octet f amlFrameCodeOffset, frameData f)] := by
        rw [eventsOf_append, hevents]
        rfl
      refine ⟨added ++ [.event (octet f amlFrameCodeOffset) (frameData f)],
        .of_reading connection (hext.trans (.log world _)) hreads ?_ ?_ ?_ fun hw => ?_, ?_, ?_⟩
      · simpa [or_imp, forall_and, Obs.onLink] using honlink
      · rw [hcall, hsome]
        rfl
      · rw [hcall, framesOf_append, hframes, hsome]
        simp [deliveries, resultFrames, hf, framesOf, Obs.frame?]
      · exact (hwired hw).logged rfl rfl rfl fun _ _ => id
      · exact hsent.append fun request hr => by simp at hr
      · rw [framesOf_append, hframes]
        rfl
  · rw [if_neg fun hboth => hf hboth.2]
    exact recevoir_exchange hcap h fun g hg => by
      obtain rfl : f = g := by simpa using hg
      simpa using hf

/-! ### The two loops -/

theorem lireEvenementsLoop_talks (turns : Nat) (app : SweetDawn σ) :
    Talks noCode app (lireEvenementsLoop turns app) := by
  induction turns generalizing app with
  | zero => exact refl_of (Talks noCode) app
  | succ turns ih =>
    unfold lireEvenementsLoop
    split
    · rcases hrec : recevoir app responseBufferSize 0 with ⟨code | frame, app'⟩
      · obtain ⟨added, hex, hsent, -⟩ := recevoir_exchange (Nat.le_refl _) hrec (by simp)
        have hread : Talks noCode app app' := ⟨added, hex, hsent⟩
        cases code with
        | timeout => exact hread
        | _ => exact trans_of (Talks noCode) hread (traiterEchecLiaison_talks app' _)
      · obtain ⟨added, hex, hsent, -⟩ := transmettreEvenement_exchange (Nat.le_refl _) hrec
        exact trans_of (Talks noCode) ⟨added, hex, hsent⟩ (ih _)
    · exact refl_of (Talks noCode) app

theorem lireEvenements_talks (app : SweetDawn σ) : Talks noCode app (lireEvenements app) :=
  lireEvenementsLoop_talks 16 app

/-- A response with a code that is not spontaneous is not a spontaneous message. -/
theorem not_spontaneous_of_response {expectedCode : UInt8} {f : List UInt8}
    (hexp : estEvenement expectedCode = false) (h : isResponse expectedCode f = true) :
    spontaneous f = false := by
  simp only [isResponse, Bool.and_eq_true, beq_iff_eq] at h
  rw [spontaneous, h.2, hexp, Bool.and_false]

/-- The wait for a response: it skips the frames that are not the response, and ends with
the response, as the last frame read, or without one. -/
theorem attendreReponse_exchange {expectedCode : UInt8} {deadlineMs : Int}
    {responseCapacity : Nat} {r : Except AmlErr (List UInt8)}
    (hcap : amlProtocolMaxFrameSize ≤ responseCapacity)
    (hexp : estEvenement expectedCode = false)
    (h : attendreReponse expectedCode deadlineMs responseCapacity app = (r, app')) :
    ∃ added skipped, Exchange added app app' ∧ SentCodes noCode added ∧
      framesOf added = skipped ++ resultFrames r ∧
      (∀ f ∈ skipped, isResponse expectedCode f = false) ∧
      ∀ response, r = .ok response → isResponse expectedCode response = true := by
  fun_induction attendreReponse expectedCode deadlineMs responseCapacity app with
  -- the deadline has passed
  | case1 app reading remaining hpast =>
    obtain ⟨rfl, rfl⟩ := Prod.mk.inj h
    exact ⟨[], [], maintenant_exchange app, .nil noCode, rfl, by simp, by simp⟩
  -- the wait failed
  | case2 app reading remaining hpast code later hrec =>
    obtain ⟨rfl, rfl⟩ := Prod.mk.inj h
    obtain ⟨added, hex, hsent, hframes⟩ := recevoir_exchange hcap hrec (by simp)
    exact ⟨added, [], (maintenant_exchange app).trans hex, hsent, hframes, by simp, by simp⟩
  -- the response
  | case3 app reading remaining hpast response later hrec hresp =>
    obtain ⟨rfl, rfl⟩ := Prod.mk.inj h
    obtain ⟨added, hex, hsent, hframes⟩ := recevoir_exchange hcap hrec fun f hf => by
      obtain rfl : response = f := by simpa using hf
      exact not_spontaneous_of_response hexp hresp
    have hreset : Exchange [] later { later with consecutiveFailures := 0 } :=
      .supervised (.refl later.world) rfl
    refine ⟨added ++ [], [], ((maintenant_exchange app).trans hex).trans hreset,
      hsent.append (.nil noCode), by rw [List.append_nil]; exact hframes, by simp, fun f hf => ?_⟩
    obtain rfl : response = f := by simpa using hf
    exact hresp
  -- another frame, passed on if it is spontaneous
  | case4 app reading remaining hpast response later hrec hresp ih =>
    obtain ⟨added, hex, hsent, hframes⟩ := transmettreEvenement_exchange hcap hrec
    obtain ⟨added', skipped, hex', hsent', hframes', hskipped, hok⟩ := ih h
    refine ⟨added ++ added', response :: skipped, ((maintenant_exchange app).trans hex).trans hex',
      hsent.append hsent', ?_, ?_, hok⟩
    · rw [framesOf_append, hframes, hframes']
      rfl
    · intro f hf
      rcases List.mem_cons.mp hf with rfl | hf
      · simpa using hresp
      · exact hskipped f hf

/-! ### One request -/

/-- A request is its content between the two parts of its envelope. -/
theorem protocolBuildRequest_inv {requestCode : UInt8} {arguments request : List UInt8}
    {outputCapacity : Nat}
    (h : protocolBuildRequest requestCode arguments outputCapacity = some request) :
    ∃ start stop : List UInt8, start.length = 7 ∧ stop.length = 4 ∧
      request = start ++ requestCode :: (arguments ++ stop) := by
  unfold protocolBuildRequest at h
  split at h
  · cases h
  · dsimp only at h
    split at h
    · cases h
    · split at h
      · cases h
      · split at h
        · cases h
        · split at h
          · cases h
          · obtain rfl := Option.some.inj h
            refine ⟨[amlFrameStart1, amlFrameStart2, amlFrameTypeRequest, _, amlFrameHeader,
              amlFrameHeaderRequest, UInt8.ofNat (arguments.length + 4 - 1)],
              [checksum (_ :: requestCode :: arguments), amlFrameEnd, amlFrameCr, amlFrameLf],
              rfl, rfl, List.append_assoc ..⟩

/-- There is a request for any arguments that fit in a frame. -/
theorem protocolBuildRequest_some (requestCode : UInt8) {arguments : List UInt8}
    (h : arguments.length ≤ 247) :
    ∃ request, protocolBuildRequest requestCode arguments requestBufferSize = some request := by
  unfold protocolBuildRequest
  simp only [sizeMax, amlFrameFixedSize, requestBufferSize, amlProtocolMaxFrameSize]
  rw [if_neg (by omega), if_neg (by omega), if_neg (by omega), if_neg (by omega), if_neg (by omega)]
  exact ⟨_, rfl⟩

/-- The code of a request is its eighth byte. -/
theorem protocolBuildRequest_code {requestCode : UInt8} {arguments request : List UInt8}
    {outputCapacity : Nat}
    (h : protocolBuildRequest requestCode arguments outputCapacity = some request) :
    octet request amlFrameCodeOffset = requestCode := by
  obtain ⟨start, stop, hstart, -, rfl⟩ := protocolBuildRequest_inv h
  simp [octet, hstart]

/-- Its arguments are what follows, up to the end of the envelope. -/
theorem protocolBuildRequest_data {requestCode : UInt8} {arguments request : List UInt8}
    {outputCapacity : Nat}
    (h : protocolBuildRequest requestCode arguments outputCapacity = some request) :
    frameData request = arguments := by
  obtain ⟨start, stop, hstart, hstop, rfl⟩ := protocolBuildRequest_inv h
  have hsplit : start ++ requestCode :: (arguments ++ stop) =
      (start ++ [requestCode]) ++ (arguments ++ stop) := by simp
  rw [frameData, hsplit, List.drop_left' (by simp [hstart, amlFrameDataOffset])]
  refine List.take_left' ?_
  simp only [List.length_append, List.length_cons, List.length_nil, hstart, hstop,
    amlFrameDataOffset]
  omega

/-- A write fails by the link: lost, or in error. -/
theorem sendLoop_error (outcomes : List SendOutcome) (remaining : Nat) {code : AmlErr}
    (h : (sendLoop remaining outcomes).1 = .error code) : code = .disconnected ∨ code = .io := by
  induction outcomes generalizing remaining with
  | nil => unfold sendLoop at h; split at h <;> cases h
  | cons outcome rest ih =>
    unfold sendLoop at h
    split at h
    · cases h
    · cases outcome with
      | interrupted => exact ih _ h
      | failed error =>
        cases error <;> cases h
        · exact .inl rfl
        · exact .inr rfl
      | wrote count =>
        dsimp only at h
        split at h
        · cases h; exact .inl rfl
        · exact ih _ h

theorem amlSend_inv {connection : AmlConnection} {data : List UInt8} {world world' : World}
    {r : Except AmlErr Unit} (h : amlSend connection data world = (r, world')) :
    (r = .ok () ∧ World.Extends [.sent data] world world' ∨
        (∃ code, r = .error code ∧
          (0 ≤ connection.socketFd → code = .disconnected ∨ code = .io)) ∧
          World.Extends [] world world') ∧
      world'.wallReads = world.wallReads := by
  unfold amlSend at h
  split at h
  · next hfd =>
    obtain ⟨rfl, rfl⟩ := Prod.mk.inj h
    exact ⟨.inr ⟨⟨_, rfl, fun hpos => absurd hpos (by omega)⟩, .refl world⟩, rfl⟩
  · rcases hsends : sendLoop data.length world.sends with ⟨code | _, sends⟩
    · rw [hsends] at h
      obtain ⟨rfl, rfl⟩ := Prod.mk.inj h
      have hcode := sendLoop_error world.sends data.length (congrArg Prod.fst hsends)
      exact ⟨.inr ⟨⟨code, rfl, fun _ => hcode⟩,
        ⟨(List.append_nil _).symm, rfl, rfl, rfl, Nat.le_refl _, Nat.le_refl _⟩⟩, rfl⟩
    · rw [hsends] at h
      obtain ⟨rfl, rfl⟩ := Prod.mk.inj h
      exact ⟨.inl ⟨rfl, ⟨rfl, rfl, rfl, rfl, Nat.le_refl _, Nat.le_refl _⟩⟩, rfl⟩

theorem Exchange.sent {data : List UInt8} {world : World}
    (hext : World.Extends [.sent data] app.world world)
    (hreads : world.wallReads = app.world.wallReads) :
    Exchange [.sent data] app { app with world } := by
  refine .of_reading app.connection hext hreads (by simp [Obs.onLink]) rfl ?_ fun hw => ?_
  · cases app.onEvent.isSome <;> rfl
  · exact hw.logged rfl rfl hext.journal fun _ _ => id

/-- How a request goes, read in the journal: it is not sent; or it is sent, once, and no
response is expected; or it is sent, and the frames read after it are skipped until its
response, or until the wait fails. -/
inductive Dialogue (request : Option (List UInt8)) (expectedCode : Int) :
    List Obs → Except AmlErr (List UInt8) → Prop
  | unsent {added code} : SentCodes noCode added → Dialogue request expectedCode added (.error code)
  | sent {before r} : request = some r → expectedCode = sweetdawnNoResponse →
      SentCodes noCode before → Dialogue request expectedCode (before ++ [.sent r]) (.ok [])
  | waited {before after skipped r result} : request = some r → expectedCode ≠ sweetdawnNoResponse →
      SentCodes noCode before → SentCodes noCode after →
      framesOf after = skipped ++ resultFrames result →
      (∀ f ∈ skipped, isResponse (UInt8.ofInt expectedCode) f = false) →
      (∀ f, result = .ok f → isResponse (UInt8.ofInt expectedCode) f = true) →
      Dialogue request expectedCode (before ++ .sent r :: after) result

/-- What one request does. It sends no other code than its own, and goes as `Dialogue`
says; and from an open link the request is sent, unless the link is lost first. -/
structure Requested (requestCode : UInt8) (expectedCode : Int) (arguments : List UInt8)
    (added : List Obs) (a b : SweetDawn σ) (r : Except AmlErr (List UInt8)) : Prop where
  exchange : Exchange added a b
  dialogue : Dialogue (protocolBuildRequest requestCode arguments requestBufferSize) expectedCode added r
  sent : a.initialized = true → a.connected = true → Wired a → ∀ request,
    protocolBuildRequest requestCode arguments requestBufferSize = some request →
      .sent request ∈ added ∨ .closed ∈ added

theorem SentCodes.of_none {codes : UInt8 → Prop} {added : List Obs} (h : SentCodes noCode added) :
    SentCodes codes added :=
  fun request hr => (h request hr).elim

section Requested

variable {requestCode : UInt8} {expectedCode : Int} {arguments request : List UInt8}
  {added : List Obs} {a b : SweetDawn σ} {r : Except AmlErr (List UInt8)}

/-- Its own code is the only one it sends. -/
theorem Requested.codes (h : Requested requestCode expectedCode arguments added a b r) :
    SentCodes (· = requestCode) added := by
  have hown : ∀ {request}, protocolBuildRequest requestCode arguments requestBufferSize = some request →
      ∀ {after}, SentCodes noCode after → SentCodes (· = requestCode) (.sent request :: after) := by
    intro request hbuild after hafter r hr
    rcases List.mem_cons.mp hr with hr | hr
    · cases hr
      exact protocolBuildRequest_code hbuild
    · exact (hafter r hr).elim
  cases h.dialogue with
  | unsent hsent => exact hsent.of_none
  | sent hbuild _ hbefore => exact hbefore.of_none.append (hown hbuild (.nil _))
  | waited hbuild _ hbefore hafter => exact hbefore.of_none.append (hown hbuild hafter)

/-- Its response was read after it was sent. -/
theorem Requested.response (h : Requested requestCode expectedCode arguments added a b r) :
    ∀ response, r = .ok response → expectedCode ≠ sweetdawnNoResponse →
      isResponse (UInt8.ofInt expectedCode) response = true ∧
        ∃ request, protocolBuildRequest requestCode arguments requestBufferSize = some request ∧
          List.Sublist [.sent request, .frame response] added := by
  rintro response rfl hne
  obtain ⟨-, hdialogue, -⟩ := h
  cases hdialogue with
  | sent _ hno => exact absurd hno hne
  | @waited before after skipped request _ hbuild _ _ _ hframes _ hok =>
    have hmem : response ∈ framesOf after := by rw [hframes]; simp [resultFrames]
    obtain ⟨o, ho, hframe⟩ := List.mem_filterMap.mp hmem
    cases o <;> cases hframe
    refine ⟨hok response rfl, request, hbuild, ?_⟩
    have htail : List.Sublist [.sent request, .frame response] (.sent request :: after) :=
      (List.singleton_sublist.mpr ho).cons_cons _
    exact htail.trans (List.sublist_append_right before _)

/-- Nothing was sent: from an open link, because there is no such request or because
the link was lost. -/
theorem Requested.unsent (h : Exchange added a b) (hsent : SentCodes noCode added) {code : AmlErr}
    (hno : a.initialized = true → a.connected = true → Wired a →
      protocolBuildRequest requestCode arguments requestBufferSize = none ∨ .closed ∈ added) :
    Requested requestCode expectedCode arguments added a b (.error code) where
  exchange := h
  dialogue := .unsent hsent
  sent hi hc hw request hbuild := by
    rcases hno hi hc hw with hnone | hclosed
    · rw [hbuild] at hnone
      cases hnone
    · exact .inr hclosed

/-- The request was sent, and nothing else. -/
theorem Requested.written (h : Exchange added a b)
    (hbuild : protocolBuildRequest requestCode arguments requestBufferSize = some request)
    (hmem : .sent request ∈ added)
    (hdialogue : Dialogue (some request) expectedCode added r) :
    Requested requestCode expectedCode arguments added a b r where
  exchange := h
  dialogue := by rw [hbuild]; exact hdialogue
  sent _ _ _ other hother := by
    obtain rfl := Option.some.inj (hbuild.symm.trans hother)
    exact .inl hmem

end Requested

theorem envoyerRequete_requested {requestCode : UInt8} {expectedCode timeoutMs : Int}
    {arguments : List UInt8} {responseCapacity : Nat} {r : Except AmlErr (List UInt8)}
    (hcap : expectedCode ≠ sweetdawnNoResponse → amlProtocolMaxFrameSize ≤ responseCapacity)
    (hexp : estEvenement (UInt8.ofInt expectedCode) = false)
    (h : envoyerRequete requestCode expectedCode timeoutMs arguments responseCapacity app =
      (r, app')) :
    ∃ added, Requested requestCode expectedCode arguments added app app' r := by
  unfold envoyerRequete at h
  split at h
  · next hinit =>
    obtain ⟨rfl, rfl⟩ := Prod.mk.inj h
    exact ⟨[], .unsent (.refl app) (.nil _) fun hi => absurd hi hinit⟩
  split at h
  · next hconn =>
    obtain ⟨rfl, rfl⟩ := Prod.mk.inj h
    exact ⟨[], .unsent (.refl app) (.nil _) fun _ hc => absurd hc hconn⟩
  rcases hbuild : protocolBuildRequest requestCode arguments requestBufferSize with _ | request
  · rw [hbuild] at h
    obtain ⟨rfl, rfl⟩ := Prod.mk.inj h
    exact ⟨[], .unsent (.refl app) (.nil _) fun _ _ _ => .inl hbuild⟩
  rw [hbuild] at h
  dsimp only at h
  -- the messages that were waiting are read first, and the link may be lost there
  obtain ⟨added₁, hread, hsent₁⟩ := lireEvenements_talks app
  split at h
  · next hlost =>
    obtain ⟨rfl, rfl⟩ := Prod.mk.inj h
    exact ⟨added₁, .unsent hread hsent₁ fun _ hc hw => .inr (hread.closed hw hc (by simpa using hlost))⟩
  next hup =>
  rcases hsend : amlSend (lireEvenements app).connection request (lireEvenements app).world with
    ⟨code | _, world⟩
  · rw [hsend] at h
    obtain ⟨rfl, rfl⟩ := Prod.mk.inj h
    obtain ⟨hsend | ⟨⟨code', hcode', hfd⟩, hext⟩, hreads⟩ := amlSend_inv hsend
    · cases hsend.1
    cases hcode'
    -- the request could not be written: the link is given up
    have hworld : Exchange [] (lireEvenements app) { lireEvenements app with world } :=
      .supervised hext hreads
    obtain ⟨added₂, hfail, hsent₂⟩ := traiterEchecLiaison_talks { lireEvenements app with world } code
    have hlater := hworld.trans hfail
    refine ⟨_, .unsent (hread.trans hlater) (hsent₁.append hsent₂) fun _ _ hw => .inr ?_⟩
    have hwired := hread.wired hw
    have hup : (lireEvenements app).connected = true := by simpa using hup
    exact List.mem_append_right _ (hlater.closed hwired hup
      (traiterEchecLiaison_connected (hfd (hwired.descriptor.mp hup)) _))
  · rw [hsend] at h
    obtain ⟨⟨-, hext⟩ | ⟨⟨_, hcode', -⟩, -⟩, hreads⟩ := amlSend_inv hsend
    swap
    · cases hcode'
    have hwritten := hread.trans (Exchange.sent hext hreads)
    dsimp only at h
    split at h
    · next hno =>
      obtain ⟨rfl, rfl⟩ := Prod.mk.inj h
      exact ⟨_, .written hwritten hbuild (by simp) (.sent rfl hno hsent₁)⟩
    next hexpects =>
    have hdated := hwritten.trans (maintenant_exchange { lireEvenements app with world })
    rw [List.append_nil] at hdated
    split at h
    · next response later hwait =>
      obtain ⟨rfl, rfl⟩ := Prod.mk.inj h
      obtain ⟨added₂, skipped, hex, hsent₂, hframes, hskipped, hok⟩ :=
        attendreReponse_exchange (hcap hexpects) hexp hwait
      have hwhole := hdated.trans hex
      rw [List.append_assoc] at hwhole
      exact ⟨_, .written hwhole hbuild (by simp)
        (.waited rfl hexpects hsent₁ hsent₂ hframes hskipped hok)⟩
    · next code later hwait =>
      obtain ⟨rfl, rfl⟩ := Prod.mk.inj h
      obtain ⟨added₂, skipped, hex, hsent₂, hframes, hskipped, -⟩ :=
        attendreReponse_exchange (hcap hexpects) hexp hwait
      obtain ⟨added₃, hfail, hsent₃, hquiet⟩ := traiterEchecLiaison_exchange later code
      have hwhole := hdated.trans (hex.trans hfail)
      rw [List.append_assoc] at hwhole
      have hread : framesOf (added₂ ++ added₃) = skipped ++ resultFrames (.error code) := by
        rw [framesOf_append, hframes, hquiet, List.append_nil]
      exact ⟨_, .written hwhole hbuild (by simp)
        (.waited rfl hexpects hsent₁ (hsent₂.append hsent₃) hread hskipped (by simp))⟩

theorem envoyerRequete_talks {requestCode : UInt8} {expectedCode : Int}
    (hexp : estEvenement (UInt8.ofInt expectedCode) = false) (timeoutMs : Int)
    (arguments : List UInt8) :
    Keeps (Talks (· = requestCode))
      (envoyerRequete requestCode expectedCode timeoutMs arguments responseBufferSize :
        AmlM σ (List UInt8)) := by
  intro app
  obtain ⟨added, hreq⟩ := envoyerRequete_requested (fun _ => Nat.le_refl _) hexp
    (rfl : envoyerRequete requestCode expectedCode timeoutMs arguments responseBufferSize app = _)
  exact ⟨added, hreq.exchange, hreq.codes⟩

/-! ### Reading the settings -/

theorem demanderStatut_talks : Keeps (Talks (· = amlReqStatus)) (demanderStatut : AmlM σ UInt8) :=
  .bind (envoyerRequete_talks (by decide) 0 _) fun _ => .ite (fun _ => .throw _) fun _ => .pure _

/-- Settings recorded, as read or as written. -/
theorem recordSettings_served {o : AmlState → Obs}
    (ho : ∀ settings, o settings = .settingsRead settings ∨ o settings = .settingsWritten settings)
    (app : SweetDawn σ) (settings : AmlState) :
    Served [o settings] app (recordSettings app settings o) where
  world := .log app.world _
  state := by rcases ho settings with h | h <;> rw [h] <;> rfl
  clock := by rcases ho settings with h | h <;> rw [h] <;> rfl
  onEvent := rfl
  device := rfl
  initialized := rfl
  wired hw := hw.logged rfl rfl rfl fun log parser hscanned => by
    rcases ho settings with h | h <;> rw [h] <;> exact hscanned
  context := by rcases ho settings with h | h <;> rw [h] <;> rfl
  events := by
    rcases ho settings with h | h <;> rw [h] <;> cases app.onEvent.isSome <;> rfl
  core p hp := by
    obtain rfl : p = o settings := by simpa using hp
    rcases ho settings with h | h <;> rw [h] <;> rfl
  delivered hd := by
    rw [Delivered, recordSettings, World.log_journal, linkLog_append]
    rcases ho settings with h | h <;> rw [h] <;> exact hd
  connectCount := rfl
  wallReads := rfl
  stays := id
  closed _ hc hn := absurd (hc.symm.trans hn) (by simp)
  served p hp := by
    obtain rfl : p = o settings := by simpa using hp
    rcases ho settings with h | h <;> rw [h] <;> rfl

theorem recordSettings_serves {o : AmlState → Obs}
    (ho : ∀ settings, o settings = .settingsRead settings ∨ o settings = .settingsWritten settings)
    (codes : UInt8 → Prop) (app : SweetDawn σ) (settings : AmlState) :
    Serves codes app (recordSettings app settings o) :=
  ⟨_, recordSettings_served ho app settings, fun r hr => by
    rcases ho settings with h | h <;> rw [h] at hr <;> simp at hr⟩

theorem demanderParametres_serves :
    Keeps (Serves (· = amlReqReadSettings)) (demanderParametres : AmlM σ Unit) :=
  .bind ((envoyerRequete_talks (by decide) 0 _).mono Talks.serves) fun _ =>
    .ite (fun _ => .throw _) fun _ =>
      .act fun app => recordSettings_serves (fun _ => .inl rfl) _ app _

/-- The codes of the periodic reading. -/
abbrev refreshCodes : UInt8 → Prop := fun c => c = amlReqStatus ∨ c = amlReqReadSettings

theorem Serves.mono {codes codes' : UInt8 → Prop} {a b : SweetDawn σ}
    (hsub : ∀ c, codes c → codes' c) (h : Serves codes a b) : Serves codes' a b :=
  h.imp fun _ h => ⟨h.1, fun r hr => hsub _ (h.2 r hr)⟩

/-- Fields that no exchange looks at: nothing for the journal. -/
theorem Served.refreshed (app : SweetDawn σ) {world : World} {authorization : UInt8}
    {lastRefreshMs nextRefreshMs connectBackoffMs : Int}
    (hworld : World.Extends [] app.world world) (hreads : world.wallReads = app.world.wallReads) :
    Served [] app { app with
      world, authorization, lastRefreshMs, nextRefreshMs, connectBackoffMs } :=
  have hsupervised : Exchange [] app { app with world, connectBackoffMs } :=
    .supervised hworld hreads
  { hsupervised.toServed with
    wired := fun hw => hw.kept rfl rfl (hworld.journal.trans (List.append_nil _)) }

theorem lireEtat_serves : Keeps (Serves refreshCodes) (lireEtat : AmlM σ Unit) := by
  refine .bind (demanderStatut_talks.mono fun h => (h.mono fun _ hc => .inl hc).serves)
    fun _ => .bind (.act fun app => ?_) fun _ =>
      demanderParametres_serves.mono fun h => h.mono fun _ hc => .inr hc
  exact ⟨[], Served.refreshed app (.refl app.world) rfl, .nil _⟩

theorem sweetdawnRefresh_serves : Keeps (Serves refreshCodes) (sweetdawnRefresh : AmlM σ Unit) := by
  intro app
  unfold sweetdawnRefresh
  split
  · exact refl_of (Serves refreshCodes) app
  · have hread : Serves refreshCodes app (lireEtat app).2 := lireEtat_serves app
    rcases hlu : lireEtat app with ⟨code | _, later⟩ <;> rw [hlu] at hread
    · exact trans_of (Serves refreshCodes) hread
        ⟨[], Served.refreshed later (.monotonicMs later.world) rfl, .nil _⟩
    · exact trans_of (Serves refreshCodes) hread
        ⟨[], Served.refreshed later (.monotonicMs later.world) rfl, .nil _⟩

/-! ### Connecting, and the tick -/

/-- Moves of the core, connections included. -/
def Runs (a b : SweetDawn σ) : Prop := ∃ added, Traced added a b

instance : IsPreorder (SweetDawn σ) Runs where
  refl a := ⟨[], (Exchange.refl a).toTraced⟩
  trans _ _ _ := fun ⟨_, h⟩ ⟨_, h'⟩ => ⟨_, h.trans h'⟩

theorem Serves.runs {codes : UInt8 → Prop} {a b : SweetDawn σ} (h : Serves codes a b) : Runs a b :=
  h.imp fun _ h => h.1.toTraced

/-- What a connection attempt leaves in the journal. -/
def opening (r : Except AmlErr Unit) : List Obs :=
  match r with
  | .ok () => [.opened]
  | .error _ => []

theorem amlConnect_inv {connection connection' : AmlConnection} {config : AmlConfig}
    {world world' : World} {r : Except AmlErr Unit}
    (h : amlConnect connection config world = (r, connection', world')) :
    World.Extends (opening r) world world' ∧ connection'.parser = protocolParserInit ∧
      (r = .ok () ↔ 0 ≤ connection'.socketFd) := by
  unfold amlConnect at h
  dsimp only at h
  split at h
  · obtain ⟨rfl, hrest⟩ := Prod.mk.inj h
    obtain ⟨rfl, rfl⟩ := Prod.mk.inj hrest
    exact ⟨.refl world, rfl, by simp⟩
  · split at h
    · obtain ⟨rfl, hrest⟩ := Prod.mk.inj h
      obtain ⟨rfl, rfl⟩ := Prod.mk.inj hrest
      exact ⟨.refl world, rfl, by simp⟩
    · split at h
      · obtain ⟨rfl, hrest⟩ := Prod.mk.inj h
        obtain ⟨rfl, rfl⟩ := Prod.mk.inj hrest
        exact ⟨⟨(List.append_nil _).symm, rfl, rfl, rfl, Nat.le_refl _, Nat.le_refl _⟩, rfl, by simp⟩
      · next fd _ =>
        obtain ⟨rfl, hrest⟩ := Prod.mk.inj h
        obtain ⟨rfl, rfl⟩ := Prod.mk.inj hrest
        exact ⟨⟨rfl, rfl, rfl, rfl, Nat.le_refl _, Nat.le_refl _⟩, rfl, by simp⟩

theorem opening_traced {r : Except AmlErr Unit} {connection : AmlConnection} {world : World}
    {connected : Bool} {consecutiveFailures : Nat} {nextRefreshMs : Int} {connectCount : UInt32}
    (hext : World.Extends (opening r) app.world world)
    (hwired : Wired app → Wired { app with
      connection, world, connected, consecutiveFailures, nextRefreshMs, connectCount }) :
    Traced (opening r) app { app with
      connection, world, connected, consecutiveFailures, nextRefreshMs, connectCount } where
  world := hext
  state := by cases r <;> rfl
  clock := by cases r <;> rfl
  onEvent := rfl
  device := rfl
  initialized := rfl
  wired := hwired
  context := by cases r <;> rfl
  events := by cases r <;> cases app.onEvent.isSome <;> rfl
  core o ho := by cases r <;> simp [opening] at ho; rw [ho]; rfl
  delivered hd := by
    rw [Delivered, hext.journal, linkLog_append]
    cases r with
    | error _ => exact hd
    | ok _ => cases app.onEvent.isSome <;> rfl

theorem scanned_opened (journal : List Obs) :
    Scanned (linkLog (journal ++ [.opened])) protocolParserInit := by
  rw [linkLog_append]
  show Scan.Scanner.scan frameScanner [] = _
  rw [Scan.Scanner.scan_of_wait frameScanner.verdict_nil, protocolParserInit_data,
    Scan.Scanner.scan_of_wait frameScanner.verdict_nil]
  rfl

/-- A connection attempt of a disconnected application. -/
theorem sweetdawnConnect_traced (hc : app.connected = false) {r : Except AmlErr Unit}
    (h : sweetdawnConnect app = (r, app')) : ∃ r', Traced (opening r') app app' := by
  unfold sweetdawnConnect at h
  split at h
  · obtain ⟨-, rfl⟩ := Prod.mk.inj h
    exact ⟨.error .generic, (Exchange.refl app).toTraced⟩
  · split at h
    · next hc' => rw [hc] at hc'; cases hc'
    · rcases hcon : amlConnect app.connection app.device app.world with ⟨code | _, connection, world⟩
      · rw [hcon] at h
        obtain ⟨-, rfl⟩ := Prod.mk.inj h
        obtain ⟨hext, hparser, hfd⟩ := amlConnect_inv hcon
        refine ⟨_, opening_traced hext fun _ => ⟨?_, fun hc' => absurd (hc.symm.trans hc') (by simp)⟩⟩
        show app.connected = true ↔ 0 ≤ connection.socketFd
        rw [hc, ← hfd]
        simp
      · rw [hcon] at h
        obtain ⟨-, rfl⟩ := Prod.mk.inj h
        obtain ⟨hext, hparser, hfd⟩ := amlConnect_inv hcon
        refine ⟨_, opening_traced hext fun _ => ⟨?_, fun _ => ?_⟩⟩
        · show true = true ↔ 0 ≤ connection.socketFd
          rw [← hfd]
          simp
        · show Scanned (linkLog world.journal) connection.parser
          rw [hparser, hext.journal]
          exact scanned_opened app.world.journal

/-- **The tick of the core.** -/
theorem sweetdawnTick_runs (app : SweetDawn σ) : Runs app (sweetdawnTick app) := by
  have hdated : Runs app (maintenant app).2 := ⟨[], (maintenant_exchange app).toTraced⟩
  unfold sweetdawnTick
  split
  · exact refl_of Runs app
  · dsimp only
    split
    · next hc =>
      split
      · exact hdated
      · rcases hcon : sweetdawnConnect (maintenant app).2 with ⟨code | _, later⟩
        · obtain ⟨r, htraced⟩ := sweetdawnConnect_traced (by simpa using hc) hcon
          exact trans_of Runs hdated (trans_of Runs ⟨_, htraced⟩
            ⟨[], (programmerReconnexion_exchange later).toTraced⟩)
        · obtain ⟨r, htraced⟩ := sweetdawnConnect_traced (by simpa using hc) hcon
          have hcount : Runs later { later with connectCount := later.connectCount + 1 } :=
            ⟨opening (.error .generic), opening_traced (.refl later.world) fun hw =>
              ⟨hw.descriptor, hw.scanned⟩⟩
          exact trans_of Runs hdated (trans_of Runs ⟨_, htraced⟩ (trans_of Runs hcount
            (sweetdawnRefresh_serves _).runs))
    · have hread := trans_of Runs hdated (lireEvenements_talks (maintenant app).2).serves.runs
      split
      · exact trans_of Runs hread (sweetdawnRefresh_serves _).runs
      · exact hread

end AmlService
