import AmlService.Core.Events
import AmlService.Lib.Supervision
import Mathlib.Algebra.Order.Ring.Int

/-!
# AmlService.Core.Supervision

The link as the core supervises it. Beside each function of the core stands the list of
what happens to the link while it runs (`incidentsRequete`, `incidentsTick`, ...): the
connections, the responses accepted, the failures and the losses. Whatever the link does,
the fields of the application are those of a watch (`AmlService.Lib.Supervision`) that has
followed these incidents.
-/

namespace AmlService

open Effect Supervision

variable {σ : Type}

/-- A lost link or an I/O error closes the link, and so does the third failure. -/
def politique : Policy AmlErr where
  fatal code := code == .disconnected || code == .io
  limit := sweetdawnMaxFailures

/-- The wait after the `k`-th refusal or loss in a row, in milliseconds. -/
def attente (k : Nat) : Int := if k = 0 then 0 else min (1000 * 2 ^ (k - 1)) 30000

/-! ### What happens to the link -/

/-- A failure; the link may be given up, which `programmer_reconnexion` dates. -/
def incidentsEchec (app : SweetDawn σ) (code : AmlErr) : List (Incident AmlErr) :=
  .failed code :: if (traiterEchecLiaison app code).connected then [] else [.lost (maintenant app).1]

/-- During `lire_evenements`. -/
def incidentsLecture : Nat → SweetDawn σ → List (Incident AmlErr)
  | 0, _ => []
  | turns + 1, app =>
    if app.connected then
      match recevoir app responseBufferSize 0 with
      | (.error .timeout, _) => []
      | (.error code, app) => incidentsEchec app code
      | (.ok frame, app) => incidentsLecture turns (transmettreEvenement app frame).2
    else []

/-- During `envoyer_requete`. -/
def incidentsRequete (requestCode : UInt8) (expectedCode timeoutMs : Int) (arguments : List UInt8)
    (responseCapacity : Nat) (app : SweetDawn σ) : List (Incident AmlErr) :=
  if ¬ app.initialized ∨ ¬ app.connected then []
  else
    let timeoutMs := if timeoutMs ≤ 0 then amlResponseTimeoutMs else timeoutMs
    match protocolBuildRequest requestCode arguments requestBufferSize with
    | none => []
    | some request =>
      incidentsLecture 16 app ++
        let app := lireEvenements app
        if ¬ app.connected then []
        else
          match amlSend app.connection request app.world with
          | (.error code, world) => incidentsEchec { app with world } code
          | (.ok (), world) =>
            if expectedCode = sweetdawnNoResponse then []
            else
              let (now, app) := maintenant { app with world }
              match attendreReponse (UInt8.ofInt expectedCode) (now + timeoutMs) responseCapacity app with
              | (.ok _, _) => [.answered]
              | (.error code, app) => incidentsEchec app code

/-- During the two readings of `sweetdawn_refresh`. -/
def incidentsEtat (app : SweetDawn σ) : List (Incident AmlErr) :=
  incidentsRequete amlReqStatus amlRspStatus.toNat 0 [amlStatusArg] responseBufferSize app ++
    match demanderStatut app with
    | (.error _, _) => []
    | (.ok autorisation, app) =>
      incidentsRequete amlReqReadSettings amlRspReadSettings.toNat 0 [] responseBufferSize
        { app with authorization := autorisation }

/-- During `sweetdawn_refresh`. -/
def incidentsRefresh (app : SweetDawn σ) : List (Incident AmlErr) :=
  if ¬ app.initialized ∨ ¬ app.connected then []
  else
    incidentsEtat app ++
      match lireEtat app with
      | (.error _, _) => []
      | (.ok (), _) => [.completed]

/-- During `sweetdawn_tick`. A refusal is dated like a loss. -/
def incidentsTick (app : SweetDawn σ) : List (Incident AmlErr) :=
  if ¬ app.initialized then []
  else
    let (now, app) := maintenant app
    if ¬ app.connected then
      if now < app.nextConnectMs then []
      else
        match sweetdawnConnect app with
        | (.error _, app) => [.refused (maintenant app).1]
        | (.ok (), app) => .opened :: incidentsRefresh { app with connectCount := app.connectCount + 1 }
    else
      incidentsLecture 16 app ++
        let app := lireEvenements app
        if app.connected ∧ now ≥ app.nextRefreshMs then incidentsRefresh app else []

/-- A call of the core: `sweetdawn_tick`, `sweetdawn_request` or `sweetdawn_refresh`. -/
inductive Appel
  | call (call : Call)
  | refresh

def Appel.faire (app : SweetDawn σ) : Appel → SweetDawn σ
  | .call c => (runCall app c).2
  | .refresh => (sweetdawnRefresh app).2

def Appel.incidents (app : SweetDawn σ) : Appel → List (Incident AmlErr)
  | .call .tick => incidentsTick app
  | .call (.request requestCode arguments expectedCode timeoutMs responseCapacity) =>
    incidentsRequete requestCode expectedCode timeoutMs arguments responseCapacity app
  | .refresh => incidentsRefresh app

/-- A run of calls. -/
def runAppels (app : SweetDawn σ) (appels : List Appel) : SweetDawn σ := appels.foldl Appel.faire app

/-- What happens to the link during a run. -/
def incidentsDe (app : SweetDawn σ) : List Appel → List (Incident AmlErr)
  | [] => []
  | appel :: appels => appel.incidents app ++ incidentsDe (appel.faire app) appels

/-! ### Whose bytes -/

/-- The parser holds the last bytes of the link, and the frames read are made of bytes of
this link. -/
structure Propre (log : LinkLog) (parser : ProtocolParser) : Prop where
  parser : parser.data <:+ log.bytes
  frames : ∀ f ∈ log.frames, f <:+: log.bytes

/-- Bytes that the parser drops. -/
theorem Propre.dropped {log : LinkLog} {parser parser' : ProtocolParser} (h : Propre log parser)
    (hsuffix : parser'.data <:+ parser.data) : Propre log parser' :=
  ⟨hsuffix.trans h.parser, h.frames⟩

/-- Bytes that come in. -/
theorem Propre.received {log : LinkLog} {parser fed : ProtocolParser} (h : Propre log parser)
    {bytes : List UInt8} (hfed : fed.data <:+ parser.data ++ bytes) :
    Propre (log.step (.received bytes)) fed := by
  refine ⟨hfed.trans ?_, fun f hf => (h.frames f hf).trans ?_⟩
  · obtain ⟨first, hfirst⟩ := h.parser
    exact ⟨first, by rw [← List.append_assoc, hfirst]; rfl⟩
  · exact (List.prefix_append _ _).isInfix

/-- A wait for a frame. -/
theorem Receives.propre {outputCapacity : Nat} {parser parser' : ProtocolParser} {added : List Obs}
    {r : Except AmlErr (List UInt8)} (h : Receives outputCapacity parser added r parser')
    {log : LinkLog} (hlog : Propre log parser) : Propre (added.foldl LinkLog.step log) parser' := by
  have hnext : ∀ {parser parser' : ProtocolParser} {r : NextResult},
      protocolParserNext parser outputCapacity = (r, parser') → r.bytes ++ parser'.data <:+ parser.data := by
    intro parser parser' r h
    have hsuffix := protocolParserNext_suffix parser outputCapacity
    rwa [h] at hsuffix
  induction h generalizing log with
  | @frame parser parser' f h =>
    have hframe : f ++ parser'.data <:+ log.bytes := (hnext h).trans hlog.parser
    refine ⟨(List.suffix_append f _).trans hframe, fun g hg => ?_⟩
    rcases List.mem_append.mp hg with hg | hg
    · exact hlog.frames g hg
    · obtain rfl : g = f := by simpa using hg
      exact (List.prefix_append g _).isInfix.trans hframe.isInfix
  | refused _ => exact ⟨List.nil_suffix, hlog.frames⟩
  | stop h _ => exact hlog.dropped (hnext h)
  | overflow h _ => exact (hlog.dropped (hnext h)).received List.nil_suffix
  | quiet h _ ih => exact ih (hlog.dropped (hnext h))
  | bytes h hfeed _ ih =>
    have hfed := length_protocolParserFeed hfeed
    exact ih ((hlog.dropped (hnext h)).received ⟨[], hfed⟩)

/-! ### What a watch says of the application -/

/-- The fields of the application are those of a watch. -/
structure Surveillee (w : Watch) (app : SweetDawn σ) : Prop where
  initialized : app.initialized = true
  line : w.line = if app.connected then .up app.consecutiveFailures else .down
  failures : app.connected = false → app.consecutiveFailures = 0
  backoff : app.connectBackoffMs = attente w.losses
  next : w.losses ≠ 0 → app.nextConnectMs = w.last + attente w.losses
  descriptor : app.connected = true ↔ 0 ≤ app.connection.socketFd
  parser : app.connected = false → app.connection.parser = protocolParserInit
  propre : Propre (linkLog app.world.journal) app.connection.parser

/-- The incidents take any watch of the one to a watch of the other. -/
def Suit (incidents : List (Incident AmlErr)) (a b : SweetDawn σ) : Prop :=
  ∀ w, Surveillee w a → ∃ w', politique.follow w incidents = some w' ∧ Surveillee w' b

section Suit

variable {incidents incidents' : List (Incident AmlErr)} {a b c : SweetDawn σ}

theorem Suit.refl (a : SweetDawn σ) : Suit [] a a := fun w h => ⟨w, rfl, h⟩

theorem Suit.trans (h : Suit incidents a b) (h' : Suit incidents' b c) :
    Suit (incidents ++ incidents') a c := by
  intro w hw
  obtain ⟨w₁, hfollow, hw₁⟩ := h w hw
  obtain ⟨w₂, hfollow', hw₂⟩ := h' w₁ hw₁
  refine ⟨w₂, ?_, hw₂⟩
  rw [politique.follow_append, hfollow]
  exact hfollow'

/-- Nothing happens at first. -/
theorem Suit.after (h : Suit [] a b) (h' : Suit incidents b c) : Suit incidents a c := h.trans h'

/-- Nothing that the supervision looks at, on a link that stays as it is. -/
theorem Suit.kept (hinit : b.initialized = a.initialized)
    (hline : b.connected = a.connected ∧ b.consecutiveFailures = a.consecutiveFailures)
    (hwait : b.connectBackoffMs = a.connectBackoffMs ∧ b.nextConnectMs = a.nextConnectMs)
    (hconnection : b.connection = a.connection)
    (hpropre : Propre (linkLog a.world.journal) a.connection.parser →
      Propre (linkLog b.world.journal) b.connection.parser) : Suit [] a b := by
  intro w hw
  obtain ⟨hconnected, hcount⟩ := hline
  refine ⟨w, rfl, hinit.trans hw.initialized, ?_, ?_, ?_, ?_, ?_, ?_, hpropre hw.propre⟩
  · rw [hconnected, hcount, hw.line]
  · rw [hconnected, hcount]
    exact hw.failures
  · rw [hwait.1]
    exact hw.backoff
  · rw [hwait.2]
    exact hw.next
  · rw [hconnected, hconnection]
    exact hw.descriptor
  · rw [hconnected, hconnection]
    exact hw.parser

theorem maintenant_suit (app : SweetDawn σ) : Suit [] app (maintenant app).2 :=
  .kept rfl ⟨rfl, rfl⟩ ⟨rfl, rfl⟩ rfl id

theorem transmettreEvenement_suit (app : SweetDawn σ) (frame : List UInt8) :
    Suit [] app (transmettreEvenement app frame).2 := by
  unfold transmettreEvenement
  split
  · split
    · exact .refl app
    · refine .kept rfl ⟨rfl, rfl⟩ ⟨rfl, rfl⟩ rfl fun h => ?_
      rw [World.log_journal, linkLog_append]
      exact ⟨h.parser, h.frames⟩
  · exact .refl app

theorem transmettreEvenement_connected (app : SweetDawn σ) (frame : List UInt8) :
    (transmettreEvenement app frame).2.connected = app.connected := by
  unfold transmettreEvenement
  split
  · split <;> rfl
  · rfl

/-- A reading keeps the link open. -/
theorem recevoir_suit {outputCapacity : Nat} {timeoutMs : Int} {r : Except AmlErr (List UInt8)}
    (hc : a.connected = true) (h : recevoir a outputCapacity timeoutMs = (r, b)) :
    b.connected = true ∧ Suit [] a b := by
  unfold recevoir at h
  obtain ⟨-, rfl⟩ := Prod.mk.inj h
  refine ⟨hc, fun w hw => ?_⟩
  obtain ⟨hfd, added, hreceives, hext, -⟩ := amlReceive_receives (hw.descriptor.mp hc)
    (rfl : amlReceive a.connection outputCapacity timeoutMs a.world = (_, _, _))
  refine ⟨w, rfl, hw.initialized, hw.line, hw.failures, hw.backoff, hw.next, ?_, fun hn => ?_, ?_⟩
  · show a.connected = true ↔ _
    rw [hfd]
    exact hw.descriptor
  · exact absurd (hc.symm.trans hn) (by simp)
  · rw [hext.journal, linkLog_append]
    exact hreceives.propre hw.propre

/-- The wait doubles, up to thirty seconds. -/
theorem nextBackoff_attente (k : Nat) : nextBackoff (attente k) = attente (k + 1) := by
  cases k with
  | zero => rfl
  | succ k =>
    have hpos : (0 : Int) < 2 ^ k := pow_pos (by decide) k
    have hnow : attente (k + 1) = min (1000 * 2 ^ k) 30000 := rfl
    have hnext : attente (k + 1 + 1) = min (1000 * (2 ^ k * 2)) 30000 := by rw [← pow_succ]; rfl
    rw [hnow, hnext]
    generalize (2 : Int) ^ k = x at hpos
    simp only [nextBackoff, sweetdawnBackoffMinMs, sweetdawnBackoffMaxMs]
    split
    · omega
    · split <;> omega

/-- The link is given up, after one more loss. -/
theorem abandonnerLiaison_surveillee {w : Watch} (hi : a.initialized = true)
    (hbackoff : a.connectBackoffMs = attente w.losses)
    (hpropre : Propre (linkLog a.world.journal) a.connection.parser) :
    Surveillee { line := .down, losses := w.losses + 1, last := (maintenant a).1 }
      (abandonnerLiaison a) := by
  obtain ⟨hworld, -⟩ := amlDisconnect_extends a.connection a.world
  have hclock : (amlDisconnect a.connection a.world).2.monotonicMs.1 = a.world.monotonicMs.1 := by
    unfold amlDisconnect
    dsimp only
    split <;> rfl
  refine ⟨hi, rfl, fun _ => rfl, ?_, fun _ => ?_, ?_, fun _ => rfl, ?_⟩
  · show nextBackoff a.connectBackoffMs = _
    rw [hbackoff, nextBackoff_attente]
  · show (amlDisconnect a.connection a.world).2.monotonicMs.1 + nextBackoff a.connectBackoffMs = _
    rw [hclock, hbackoff, nextBackoff_attente]
    rfl
  · show false = true ↔ (0 : Int) ≤ -1
    decide
  · refine ⟨List.nil_suffix, fun f hf => ?_⟩
    have hlog : (linkLog (abandonnerLiaison a).world.journal).frames = (linkLog a.world.journal).frames ∧
        (linkLog (abandonnerLiaison a).world.journal).bytes = (linkLog a.world.journal).bytes := by
      show (linkLog (amlDisconnect a.connection a.world).2.journal).frames = _ ∧
        (linkLog (amlDisconnect a.connection a.world).2.journal).bytes = _
      rw [hworld.journal, linkLog_append]
      unfold closing
      split <;> exact ⟨rfl, rfl⟩
    rw [hlog.1] at hf
    rw [hlog.2]
    exact hpropre.frames f hf

/-- **A failure**: it is counted, and it closes the link if it is fatal or the third. -/
theorem traiterEchecLiaison_suit (hc : a.connected = true) (code : AmlErr) :
    Suit (incidentsEchec a code) a (traiterEchecLiaison a code) := by
  intro w hw
  have hline : w.line = .up a.consecutiveFailures := by
    rw [hw.line, hc]
    rfl
  have hfatal : politique.fatal code = true ↔ code = .disconnected ∨ code = .io := by
    cases code <;> decide
  have hgiven := abandonnerLiaison_surveillee hw.initialized hw.backoff hw.propre
  unfold incidentsEchec traiterEchecLiaison
  by_cases hcode : code = .disconnected ∨ code = .io
  · rw [if_pos hcode]
    exact ⟨_, politique.follow_closing hline (.inl (hfatal.mpr hcode)) _, hgiven⟩
  · rw [if_neg hcode]
    dsimp only
    by_cases hmany : a.consecutiveFailures + 1 ≥ sweetdawnMaxFailures
    · rw [if_pos hmany]
      exact ⟨_, politique.follow_closing hline (.inr hmany) _, hgiven⟩
    · rw [if_neg hmany]
      have hstay : ¬ (politique.fatal code = true ∨ politique.limit ≤ a.consecutiveFailures + 1) := by
        rw [hfatal]
        exact not_or.mpr ⟨hcode, hmany⟩
      dsimp only
      rw [if_pos hc]
      refine ⟨_, politique.follow_counted hline hstay, hw.initialized, ?_, fun hn => ?_, hw.backoff,
        hw.next, hw.descriptor, hw.parser, hw.propre⟩
      · show Line.up _ = if a.connected then _ else _
        rw [if_pos hc]
      · exact absurd (hc.symm.trans hn) (by simp)

/-! ### The functions of the core -/

theorem lireEvenementsLoop_suit (turns : Nat) (app : SweetDawn σ) :
    Suit (incidentsLecture turns app) app (lireEvenementsLoop turns app) := by
  induction turns generalizing app with
  | zero => exact .refl app
  | succ turns ih =>
    unfold incidentsLecture lireEvenementsLoop
    by_cases hc : app.connected = true
    · rw [if_pos hc, if_pos hc]
      rcases hrec : recevoir app responseBufferSize 0 with ⟨code | frame, later⟩
      · obtain ⟨hup, hread⟩ := recevoir_suit hc hrec
        cases code with
        | timeout => exact hread
        | _ => exact hread.after (traiterEchecLiaison_suit hup _)
      · obtain ⟨-, hread⟩ := recevoir_suit hc hrec
        exact hread.after ((transmettreEvenement_suit later frame).after (ih _))
    · rw [if_neg hc, if_neg hc]
      exact .refl app

theorem lireEvenements_suit (app : SweetDawn σ) :
    Suit (incidentsLecture 16 app) app (lireEvenements app) :=
  lireEvenementsLoop_suit 16 app

/-- The wait keeps the link open, and the response is what sets the count to zero. -/
theorem attendreReponse_suit {expectedCode : UInt8} {deadlineMs : Int} {responseCapacity : Nat}
    {r : Except AmlErr (List UInt8)} (hc : a.connected = true)
    (h : attendreReponse expectedCode deadlineMs responseCapacity a = (r, b)) :
    b.connected = true ∧ Suit (if r.isOk then [.answered] else []) a b := by
  fun_induction attendreReponse expectedCode deadlineMs responseCapacity a with
  | case1 app reading remaining hpast =>
    obtain ⟨rfl, rfl⟩ := Prod.mk.inj h
    exact ⟨hc, maintenant_suit app⟩
  | case2 app reading remaining hpast code later hrec =>
    obtain ⟨rfl, rfl⟩ := Prod.mk.inj h
    have hopen : reading.2.connected = true := hc
    obtain ⟨hup, hread⟩ := recevoir_suit hopen hrec
    exact ⟨hup, (maintenant_suit app).after hread⟩
  -- the response
  | case3 app reading remaining hpast response later hrec hresp =>
    obtain ⟨rfl, rfl⟩ := Prod.mk.inj h
    have hopen : reading.2.connected = true := hc
    obtain ⟨hup, hread⟩ := recevoir_suit hopen hrec
    have hanswered : Suit [.answered] later { later with consecutiveFailures := 0 } := by
      intro w hw
      have hline : w.line = .up later.consecutiveFailures := by
        rw [hw.line, hup]
        rfl
      refine ⟨{ w with line := .up 0 }, ?_, hw.initialized, ?_, fun _ => rfl, hw.backoff, hw.next,
        hw.descriptor, hw.parser, hw.propre⟩
      · simp [Policy.follow, Policy.step, hline]
      · show Line.up 0 = if later.connected then _ else _
        rw [if_pos hup]
    exact ⟨hup, (maintenant_suit app).after (hread.after hanswered)⟩
  -- another frame
  | case4 app reading remaining hpast response later hrec hresp ih =>
    have hopen : reading.2.connected = true := hc
    obtain ⟨hup, hread⟩ := recevoir_suit hopen hrec
    have hpassed := transmettreEvenement_suit later response
    obtain ⟨hlast, hrest⟩ := ih (by rw [transmettreEvenement_connected]; exact hup) h
    exact ⟨hlast, (maintenant_suit app).after (hread.after (hpassed.after hrest))⟩

/-- A request written, or not: the journal keeps nothing that the parser has a part in. -/
theorem amlSend_suit {request : List UInt8} {r : Except AmlErr Unit} {world : World}
    (h : amlSend a.connection request a.world = (r, world)) : Suit [] a { a with world } := by
  refine .kept rfl ⟨rfl, rfl⟩ ⟨rfl, rfl⟩ rfl fun hpropre => ?_
  obtain ⟨⟨-, hext⟩ | ⟨-, hext⟩, -⟩ := amlSend_inv h
  · rw [hext.journal, linkLog_append]
    exact hpropre
  · rw [hext.journal, List.append_nil]
    exact hpropre

/-- **One request.** -/
theorem envoyerRequete_suit (requestCode : UInt8) (expectedCode timeoutMs : Int)
    (arguments : List UInt8) (responseCapacity : Nat) (app : SweetDawn σ) :
    Suit (incidentsRequete requestCode expectedCode timeoutMs arguments responseCapacity app) app
      (envoyerRequete requestCode expectedCode timeoutMs arguments responseCapacity app).2 := by
  unfold incidentsRequete envoyerRequete
  by_cases hi : app.initialized = true
  swap
  · rw [if_pos (.inl hi), if_pos hi]
    exact .refl app
  by_cases hc : app.connected = true
  swap
  · rw [if_pos (.inr hc), if_neg (not_not_intro hi), if_pos hc]
    exact .refl app
  rw [if_neg (not_or.mpr ⟨not_not_intro hi, not_not_intro hc⟩), if_neg (not_not_intro hi),
    if_neg (not_not_intro hc)]
  dsimp only
  rcases protocolBuildRequest requestCode arguments requestBufferSize with _ | request
  · exact .refl app
  dsimp only
  refine (lireEvenements_suit app).trans ?_
  by_cases hup : (lireEvenements app).connected = true
  swap
  · rw [if_pos hup, if_pos hup]
    exact .refl _
  rw [if_neg (not_not_intro hup), if_neg (not_not_intro hup)]
  rcases hsend : amlSend (lireEvenements app).connection request (lireEvenements app).world with
    ⟨code | _, world⟩
  · have hopen : ({ lireEvenements app with world } : SweetDawn σ).connected = true := hup
    exact (amlSend_suit hsend).after (traiterEchecLiaison_suit hopen code)
  dsimp only
  split
  · exact amlSend_suit hsend
  refine (amlSend_suit hsend).after ((maintenant_suit _).after ?_)
  rcases hwait : attendreReponse (UInt8.ofInt expectedCode) _ responseCapacity
    (maintenant { lireEvenements app with world }).2 with ⟨code | response, later⟩
  · obtain ⟨hlast, hwaited⟩ := attendreReponse_suit (by exact hup) hwait
    exact hwaited.after (traiterEchecLiaison_suit hlast code)
  · exact (attendreReponse_suit (by exact hup) hwait).2

/-- An answered request leaves the link open. -/
theorem envoyerRequete_connected {requestCode : UInt8} {expectedCode timeoutMs : Int}
    {arguments response : List UInt8} {responseCapacity : Nat}
    (h : envoyerRequete requestCode expectedCode timeoutMs arguments responseCapacity a =
      (.ok response, b)) : b.connected = true := by
  unfold envoyerRequete at h
  split at h
  · cases h
  split at h
  · cases h
  dsimp only at h
  split at h
  · cases h
  split at h
  · cases h
  next hup =>
  have hup : (lireEvenements a).connected = true := by simpa using hup
  split at h
  · cases h
  split at h
  · cases h
    exact hup
  split at h
  · next hwait =>
    cases h
    exact (attendreReponse_suit (by exact hup) hwait).1
  · cases h

theorem demanderStatut_snd (app : SweetDawn σ) :
    (demanderStatut app).2 =
      (envoyerRequete amlReqStatus amlRspStatus.toNat 0 [amlStatusArg] responseBufferSize app).2 := by
  refine bind_run_snd (fun response later => ?_) app
  split <;> rfl

/-- The reading of the settings: they are recorded, if they are all there. -/
theorem demanderParametres_suit (app : SweetDawn σ) :
    Suit (incidentsRequete amlReqReadSettings amlRspReadSettings.toNat 0 [] responseBufferSize app) app
      (demanderParametres app).2 := by
  have hrequest := envoyerRequete_suit amlReqReadSettings amlRspReadSettings.toNat 0 []
    responseBufferSize app
  unfold demanderParametres
  rw [bind_run]
  rcases hreq : envoyerRequete amlReqReadSettings amlRspReadSettings.toNat 0 [] responseBufferSize app
    with ⟨code | response, later⟩ <;> rw [hreq] at hrequest
  · exact hrequest
  · dsimp only
    split
    · exact hrequest
    · rw [← List.append_nil (incidentsRequete _ _ _ _ _ _)]
      refine hrequest.trans (.kept rfl ⟨rfl, rfl⟩ ⟨rfl, rfl⟩ rfl fun hpropre => ?_)
      show Propre (linkLog (later.world.journal ++ [_])) later.connection.parser
      rw [linkLog_append]
      exact hpropre

theorem lireEtat_suit (app : SweetDawn σ) : Suit (incidentsEtat app) app (lireEtat app).2 := by
  have hstatut := envoyerRequete_suit amlReqStatus amlRspStatus.toNat 0 [amlStatusArg]
    responseBufferSize app
  rw [← demanderStatut_snd] at hstatut
  unfold incidentsEtat lireEtat
  rw [bind_run]
  rcases hdem : demanderStatut app with ⟨code | autorisation, later⟩ <;> rw [hdem] at hstatut
  · rw [List.append_nil]
    exact hstatut
  · have hnoted : Suit [] later { later with authorization := autorisation } :=
      .kept rfl ⟨rfl, rfl⟩ ⟨rfl, rfl⟩ rfl id
    exact hstatut.trans (hnoted.after (demanderParametres_suit { later with authorization := autorisation }))

theorem lireEtat_connected (h : lireEtat a = (.ok (), b)) : b.connected = true := by
  unfold lireEtat at h
  obtain ⟨autorisation, later, -, h⟩ := bind_run_inv h
  obtain ⟨_, app, -, h⟩ := bind_run_inv h
  unfold demanderParametres at h
  obtain ⟨response, last, hrequest, h⟩ := bind_run_inv h
  have hup := envoyerRequete_connected hrequest
  split at h
  · cases h
  · cases h
    exact hup

/-- **The periodic reading**: complete, it makes the next wait short. -/
theorem sweetdawnRefresh_suit (app : SweetDawn σ) :
    Suit (incidentsRefresh app) app (sweetdawnRefresh app).2 := by
  have hetat := lireEtat_suit app
  unfold incidentsRefresh sweetdawnRefresh
  split
  · exact .refl app
  rcases hlu : lireEtat app with ⟨code | _, later⟩ <;> rw [hlu] at hetat
  · exact hetat.trans (.kept rfl ⟨rfl, rfl⟩ ⟨rfl, rfl⟩ rfl id)
  · refine hetat.trans fun w hw => ?_
    have hup := lireEtat_connected hlu
    have hline : w.line = .up later.consecutiveFailures := by
      rw [hw.line, hup]
      rfl
    refine ⟨{ w with losses := 0 }, ?_, hw.initialized, hw.line, hw.failures, rfl,
      fun hn => absurd rfl hn, hw.descriptor, hw.parser, hw.propre⟩
    simp [Policy.follow, Policy.step, hline]

/-- A connection attempt of an application without a link. -/
theorem sweetdawnConnect_inv (hi : a.initialized = true) (hc : a.connected = false)
    {r : Except AmlErr Unit} (h : sweetdawnConnect a = (r, b)) :
    ∃ connection world, amlConnect a.connection a.device a.world = (r, connection, world) ∧
      b = if r.isOk then { a with
            connection, world, connected := true, consecutiveFailures := 0, nextRefreshMs := 0 }
          else { a with connection, world } := by
  rw [sweetdawnConnect, if_neg (not_not_intro hi), if_neg (by simp [hc])] at h
  rcases hcon : amlConnect a.connection a.device a.world with ⟨code | _, connection, world⟩ <;>
    (rw [hcon] at h; cases h; exact ⟨connection, world, rfl, rfl⟩)

/-- A connection attempt refused, and dated. -/
theorem sweetdawnConnect_refused (hi : a.initialized = true) (hc : a.connected = false)
    {code : AmlErr} (h : sweetdawnConnect a = (.error code, b)) :
    Suit [.refused (maintenant b).1] a (programmerReconnexion b) := by
  obtain ⟨connection, world, hcon, hlater⟩ := sweetdawnConnect_inv hi hc h
  obtain ⟨hext, hparser, hfd⟩ := amlConnect_inv hcon
  intro w hw
  have hline : w.line = .down := by
    rw [hw.line, hc]
    rfl
  refine ⟨{ w with losses := w.losses + 1, last := (maintenant b).1 },
    by simp [Policy.follow, Policy.step, hline], ?_⟩
  subst hlater
  refine ⟨hi, ?_, hw.failures, ?_, fun _ => ?_, ?_, fun _ => hparser, ?_⟩
  · show w.line = if a.connected then _ else _
    rw [hline, hc]
    rfl
  · show nextBackoff a.connectBackoffMs = _
    rw [hw.backoff, nextBackoff_attente]
  · show world.monotonicMs.1 + nextBackoff a.connectBackoffMs = _
    rw [hw.backoff, nextBackoff_attente]
    rfl
  · show a.connected = true ↔ 0 ≤ connection.socketFd
    rw [hc, ← hfd]
    simp
  · show Propre (linkLog world.journal) connection.parser
    rw [hext.journal, linkLog_append, hparser]
    exact ⟨List.nil_suffix, hw.propre.frames⟩

/-- A connection established: an empty parser, and a count at zero. -/
theorem sweetdawnConnect_opened (hi : a.initialized = true) (hc : a.connected = false)
    (h : sweetdawnConnect a = (.ok (), b)) : Suit [.opened] a b := by
  obtain ⟨connection, world, hcon, rfl⟩ := sweetdawnConnect_inv hi hc h
  obtain ⟨hext, hparser, hfd⟩ := amlConnect_inv hcon
  intro w hw
  have hline : w.line = .down := by
    rw [hw.line, hc]
    rfl
  refine ⟨{ w with line := .up 0 }, by simp [Policy.follow, Policy.step, hline], hi, rfl,
    fun _ => rfl, hw.backoff, hw.next, ?_, ?_, ?_⟩
  · show true = true ↔ 0 ≤ connection.socketFd
    rw [← hfd]
    simp
  · intro hdown
    cases hdown
  · show Propre (linkLog world.journal) connection.parser
    rw [hext.journal, linkLog_append, hparser]
    exact ⟨List.nil_suffix, fun _ hframe => absurd hframe List.not_mem_nil⟩

/-- **The tick of the core.** -/
theorem sweetdawnTick_suit (app : SweetDawn σ) : Suit (incidentsTick app) app (sweetdawnTick app) := by
  unfold incidentsTick sweetdawnTick
  by_cases hi : app.initialized = true
  swap
  · rw [if_pos hi, if_pos hi]
    exact .refl app
  rw [if_neg (not_not_intro hi), if_neg (not_not_intro hi)]
  dsimp only
  refine (maintenant_suit app).after ?_
  by_cases hc : (maintenant app).2.connected = true
  · rw [if_neg (not_not_intro hc), if_neg (not_not_intro hc)]
    refine (lireEvenements_suit _).trans ?_
    split
    · exact sweetdawnRefresh_suit _
    · exact .refl _
  rw [if_pos hc, if_pos hc]
  split
  · exact .refl _
  have hdown : (maintenant app).2.connected = false := by simpa using hc
  rcases hcon : sweetdawnConnect (maintenant app).2 with ⟨code | _, later⟩
  · exact sweetdawnConnect_refused hi hdown hcon
  · have hcounted : Suit [] later { later with connectCount := later.connectCount + 1 } :=
      .kept rfl ⟨rfl, rfl⟩ ⟨rfl, rfl⟩ rfl id
    have hopen : (maintenant app).2.initialized = true := hi
    exact (sweetdawnConnect_opened hopen hdown hcon).trans (hcounted.after (sweetdawnRefresh_suit _))

/-! ### Runs -/

theorem faire_suit (app : SweetDawn σ) (appel : Appel) :
    Suit (appel.incidents app) app (appel.faire app) := by
  cases appel with
  | refresh => exact sweetdawnRefresh_suit app
  | call call =>
    cases call with
    | tick => exact sweetdawnTick_suit app
    | request requestCode arguments expectedCode timeoutMs responseCapacity =>
      have hrequest := envoyerRequete_suit requestCode expectedCode timeoutMs arguments
        responseCapacity app
      rw [Appel.faire, runCall_request]
      exact hrequest

theorem runAppels_suit (app : SweetDawn σ) (appels : List Appel) :
    Suit (incidentsDe app appels) app (runAppels app appels) := by
  induction appels generalizing app with
  | nil => exact .refl app
  | cons appel appels ih => exact (faire_suit app appel).trans (ih (appel.faire app))

end Suit

/-- An application just initialised, watched from the start. -/
theorem sweetdawnInit_surveillee (device : AmlConfig) (onEvent : Option (σ → UInt8 → List UInt8 → σ))
    (context : σ) (world : World) : Surveillee .start (sweetdawnInit device onEvent context world) where
  initialized := rfl
  line := rfl
  failures _ := rfl
  backoff := rfl
  next hn := absurd rfl hn
  descriptor := by simp [sweetdawnInit]
  parser _ := rfl
  propre := ⟨List.nil_suffix, nofun⟩

/-- **The application after a run is watched.** -/
theorem runAppels_surveillee (device : AmlConfig) (onEvent : Option (σ → UInt8 → List UInt8 → σ))
    (context : σ) (world : World) (appels : List Appel) :
    ∃ w, politique.follow .start (incidentsDe (sweetdawnInit device onEvent context world) appels) = some w ∧
      Surveillee w (runAppels (sweetdawnInit device onEvent context world) appels) :=
  runAppels_suit _ appels _ (sweetdawnInit_surveillee device onEvent context world)

end AmlService
