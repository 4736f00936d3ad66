import AmlService.Core.Device
import AmlService.Core.Events

/-!
# AmlService.Core.LateAnswers

Whose answer `envoyer_requete` takes for the response. The AML005 answers every request,
in the order it receives them, and it may take its time; the service knows an answer by
its code only. An answer that comes after the service has given up is read before the
next request is written, or skipped while another code is waited for, or taken for the
response to a later request with the same code.
-/

namespace AmlService

open Effect Answering

variable {σ : Type}

/-- The AML005, seen as what answers: `repond` is the response code of a request. -/
def repondeur (repond : List UInt8 → Option UInt8) : Responder (List UInt8) UInt8 (List UInt8) where
  answer := repond
  fits code f := isResponse code f

/-- A frame is a response with one code. -/
theorem isResponse_code {code code' : UInt8} {f : List UInt8} (h : isResponse code f = true) :
    isResponse code' f = true ↔ code = code' := by
  simp only [isResponse, Bool.and_eq_true, beq_iff_eq] at h ⊢
  rw [h.2]
  exact ⟨fun h' => h'.2, fun h' => ⟨h.1, h'⟩⟩

/-- A request whose response is read: what goes by on the link after it is written. -/
theorem envoyerRequete_response {requestCode : UInt8} {expectedCode timeoutMs : Int}
    {arguments : List UInt8} {responseCapacity : Nat} {app app' : SweetDawn σ} {response : List UInt8}
    (hadm : (Call.request requestCode arguments expectedCode timeoutMs responseCapacity).Admissible)
    (hne : expectedCode ≠ sweetdawnNoResponse)
    (h : envoyerRequete requestCode expectedCode timeoutMs arguments responseCapacity app =
      (.ok response, app')) :
    ∃ (before : List Obs) (request : List UInt8) (after : List Obs) (skipped : List (List UInt8)),
      Exchange (before ++ .sent request :: after) app app' ∧
      protocolBuildRequest requestCode arguments requestBufferSize = some request ∧
      isResponse (UInt8.ofInt expectedCode) response = true ∧
      surLien after = skipped.map .answer ++ [.answer response] ∧
      ∀ f ∈ skipped, isResponse (UInt8.ofInt expectedCode) f = false := by
  obtain ⟨hexp, hcap⟩ := hadm
  obtain ⟨added, hex, hdialogue, -⟩ := envoyerRequete_requested (fun _ => hcap) hexp h
  generalize hresult : (Except.ok response : Except AmlErr (List UInt8)) = result at hdialogue
  cases hdialogue with
  | unsent _ => cases hresult
  | sent _ hno => exact absurd hno hne
  | @waited before after skipped request _ hbuild _ hbefore hafter hframes hskipped hok =>
    subst hresult
    have hresp := hok response rfl
    have hlink : ∀ o ∈ after, o.onLink = true := fun o ho => hex.onLink o (by simp [ho])
    refine ⟨before, request, after, skipped.filter fun f => !spontaneous f, hex, hbuild, hresp, ?_,
      fun f hf => hskipped f (List.mem_filter.mp hf).1⟩
    rw [surLien_of_unsent hlink hafter, hframes]
    simp [resultFrames, not_spontaneous_of_response hexp hresp]

/-- **Whose answer is the response.** After any run, `envoyer_requete` returns a response. It
is the answer to that request if and only if, when the request was written, no answer with
the same code was still to come on this link, for an earlier request; and the AML has then
received the request. -/
theorem reponse_attribuee (device : AmlConfig) (onEvent : Option (σ → UInt8 → List UInt8 → σ))
    (context : σ) (world : World) (calls : List Call) {requestCode : UInt8}
    {expectedCode timeoutMs : Int} {arguments : List UInt8} {responseCapacity : Nat}
    {response : List UInt8} {app' : SweetDawn σ}
    (hadm : (Call.request requestCode arguments expectedCode timeoutMs responseCapacity).Admissible)
    (hne : expectedCode ≠ sweetdawnNoResponse)
    (h : envoyerRequete requestCode expectedCode timeoutMs arguments responseCapacity
      (runCalls (sweetdawnInit device onEvent context world) calls).2 = (.ok response, app')) :
    let app := (runCalls (sweetdawnInit device onEvent context world) calls).2
    ∃ before request after,
      app'.world.journal = app.world.journal ++ (before ++ .sent request :: after) ∧
      protocolBuildRequest requestCode arguments requestBufferSize = some request ∧
      ∀ (repond : List UInt8 → Option UInt8) (p q : Post (List UInt8) UInt8),
        repond request = some (UInt8.ofInt expectedCode) →
        (repondeur repond).Follows .start (surLien (app.world.journal ++ before)) p →
        (repondeur repond).Follows (p.send request) (surLien after) q →
          (q.read = some p.sent ↔
            ∀ x ∈ (repondeur repond).pending p, x.2 ≠ UInt8.ofInt expectedCode) ∧
          (q.read = some p.sent → ∀ x ∈ q.travelling, x.1 ≠ p.sent) := by
  intro app
  obtain ⟨before, request, after, skipped, hex, hbuild, hresp, hread, hskipped⟩ :=
    envoyerRequete_response hadm hne h
  refine ⟨before, request, after, hex.world.journal, hbuild, fun repond p q hanswer hbefore hafter => ?_⟩
  rw [hread] at hafter
  refine hafter.attributed (hbefore.sound .start) hanswer ?_ ?_ hresp ?_
  · simp [Event.isAnswer]
  · exact fun code f hf => isResponse_code hf
  · simpa [repondeur] using hskipped

/-- The answers to the status, to the settings, and to anything about an alarm. -/
def repondParCode (request : List UInt8) : Option UInt8 :=
  let code := octet request amlFrameCodeOffset
  if code = amlReqStatus then some amlRspStatus
  else if code = amlReqReadSettings then some amlRspReadSettings
  else if code = amlReqAlarm then some amlRspAlarm
  else none

/-- The first reading of an alarm: the response is its own answer, unless one with this code
is still to come. -/
theorem reponse_attribuee_lecture :
    let world := World.answering 1 0 [.quiet, .reply amlRspAlarm (0x81 :: ficheNulle.bytes)]
    let app := (runCalls (sweetdawnInit amlScripted none () world) [.tick]).2
    let app' := (envoyerRequete amlReqAlarm 0xF3 0 [0x81, 0x02] 259 app).2
    ∃ before request after, app'.world.journal = app.world.journal ++ (before ++ .sent request :: after) ∧
      ∀ p q, (repondeur repondParCode).Follows .start (surLien (app.world.journal ++ before)) p →
        (repondeur repondParCode).Follows (p.send request) (surLien after) q →
          (q.read = some p.sent ↔ ∀ x ∈ (repondeur repondParCode).pending p, x.2 ≠ amlRspAlarm) := by
  intro world app app'
  have hok : (envoyerRequete amlReqAlarm 0xF3 0 [0x81, 0x02] 259 app).1.isOk = true := by decide +kernel
  obtain ⟨response, h⟩ := ok_of_isOk hok
  obtain ⟨before, request, after, hjournal, hbuild, hwhose⟩ := reponse_attribuee amlScripted none ()
    world [.tick] ⟨by decide, by decide⟩ (by decide) h
  refine ⟨before, request, after, hjournal, fun p q hbefore hafter => ?_⟩
  have hanswer : repondParCode request = some (UInt8.ofInt 0xF3) := by
    simp only [repondParCode, protocolBuildRequest_code hbuild]
    decide
  exact (hwhose repondParCode p q hanswer hbefore hafter).1

/-- A reading of an alarm is given up; its answer comes when a write of the same alarm
waits for its own, and the write succeeds without having reached the AML. -/
theorem reponse_tardive :
    let world := World.answering 1 2000 [.quiet, .quiet, .quiet,
      .reply amlRspAlarm (0x81 :: ficheNulle.bytes)]
    let lecture := runCalls (sweetdawnInit amlScripted none () world)
      [.tick, .request amlReqAlarm [0x81, 0x02] 0xF3 0 259]
    let ecriture := controlAlarmWrite 0 (decodeAlarm (0x81 :: ficheNulle.bytes)) lecture.2
    lecture.1 = [] ∧ ecriture.1.isOk = true ∧ ∃ q,
      (repondeur repondParCode).Follows .start (surLien ecriture.2.world.journal) q ∧
      q.sent = 4 ∧ q.read = some 2 ∧ q.travelling.map Prod.fst = [3] := by
  intro world lecture ecriture
  let avant := surLien lecture.2.world.journal
  let suite := (surLien ecriture.2.world.journal).drop avant.length
  have hsplit : surLien ecriture.2.world.journal = avant ++ suite := by decide +kernel
  -- the requests arrive at once, except the write
  have hread : ((avant.foldlM (repondeur repondParCode).promptStep .start).bind fun p =>
      suite.foldlM (repondeur repondParCode).step p).map
      (fun q => (q.sent, q.read, q.travelling.map Prod.fst)) = some (4, some 2, [3]) := by
    decide +kernel
  obtain ⟨q, hq, hpost⟩ := Option.map_eq_some_iff.mp hread
  obtain ⟨p, hp, hq⟩ := Option.bind_eq_some_iff.mp hq
  simp only [Prod.mk.injEq] at hpost
  refine ⟨by decide +kernel, by decide +kernel, q, ?_, hpost⟩
  rw [hsplit]
  exact (Responder.Follows.of_prompt hp).append
    (.of_foldlM (fun hstep => .event hstep (.done _)) hq)

end AmlService
