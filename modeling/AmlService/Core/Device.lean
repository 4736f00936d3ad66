import AmlService.Core.Control
import AmlService.Lib.Answering

/-!
# AmlService.Core.Device

The AML005 at the other end of the link, as a device of `AmlService.Lib.Answering`: it
keeps five settings and two alarms, gives them to a reading and takes them from a
write. What goes by on the link is read in the journal (`surLien`); the exchanges of
the core with a device that owes nothing end in one of three ways (`Requested.outcome`).

This is not a part of the service. Everything else that the AML005 does is a
parameter: its answers to the other requests.
-/

namespace AmlService

open Effect Answering

/-! ### What it keeps -/

/-- The five settings. -/
structure Reglages where
  display : UInt8
  date : UInt8
  time : UInt8
  feedback : UInt8
  fade : UInt8
  deriving Repr, DecidableEq

/-- In the order of the payloads. -/
def Reglages.bytes (reglages : Reglages) : List UInt8 :=
  [reglages.display, reglages.date, reglages.time, reglages.feedback, reglages.fade]

def Reglages.ofBytes? : List UInt8 → Option Reglages
  | [display, date, time, feedback, fade] => some { display, date, time, feedback, fade }
  | _ => none

/-- The settings held by the service. -/
def AmlState.reglages (state : AmlState) : Reglages :=
  { display := state.display, date := state.date, time := state.time
    feedback := state.feedback, fade := state.fade }

/-- The record of an alarm: the ten bytes that follow its index. -/
structure Fiche where
  enable : UInt8
  minute : UInt8
  hour : UInt8
  days : UInt8
  tone : UInt8
  volume : UInt8
  snooze : UInt8
  sunriseEnable : UInt8
  sunriseMinutes : UInt8
  sunriseBrightness : UInt8
  valide : (hour ≤ 23 ∧ minute ≤ 59) ∧ enable ≤ 1 ∧ sunriseEnable ≤ 1
  deriving DecidableEq

/-- The minute comes before the hour. -/
def Fiche.bytes (fiche : Fiche) : List UInt8 :=
  [fiche.enable, fiche.minute, fiche.hour, fiche.days, fiche.tone, fiche.volume, fiche.snooze,
    fiche.sunriseEnable, fiche.sunriseMinutes, fiche.sunriseBrightness]

def Fiche.ofBytes? : List UInt8 → Option Fiche
  | [enable, minute, hour, days, tone, volume, snooze, sunriseEnable, sunriseMinutes,
      sunriseBrightness] =>
    if valide : (hour ≤ 23 ∧ minute ≤ 59) ∧ enable ≤ 1 ∧ sunriseEnable ≤ 1 then
      some { enable, minute, hour, days, tone, volume, snooze, sunriseEnable, sunriseMinutes
             sunriseBrightness, valide }
    else none
  | _ => none

structure Memoire where
  reglages : Reglages
  alarmes : Alarme → Fiche

/-! ### What it does -/

structure Reponse where
  code : UInt8
  data : List UInt8
  deriving Repr, DecidableEq

/-- The alarm of an index. -/
def alarmeDIndex (index : UInt8) : Option Alarme :=
  if index = alarmIndex1 then some 0 else if index = alarmIndex2 then some 1 else none

/-- A reading of an alarm, or a write; a malformed one is not answered. -/
def Memoire.traiterAlarme (memoire : Memoire) : List UInt8 → Memoire × Option Reponse
  | [] => (memoire, none)
  | index :: payload =>
    match alarmeDIndex (index &&& 0x7F) with
    | none => (memoire, none)
    | some n =>
      if index &&& alarmReadFlag ≠ 0 then
        (memoire, some { code := amlRspAlarm, data := index :: (memoire.alarmes n).bytes })
      else
        match Fiche.ofBytes? payload with
        | none => (memoire, none)
        | some fiche =>
          ({ memoire with alarmes := Function.update memoire.alarmes n fiche },
            some { code := amlRspAlarm, data := [] })

/-- A write of the settings. -/
def Memoire.ecrireReglages (memoire : Memoire) (payload : List UInt8) : Memoire :=
  match Reglages.ofBytes? payload with
  | none => memoire
  | some reglages => { memoire with reglages }

/-- The AML005. A request is its frame, as is what is read; `autres` answers the requests
that are about neither the settings nor the alarms. -/
def aml005 (autres : UInt8 → List UInt8 → Option Reponse) :
    Device Memoire (List UInt8) Reponse (List UInt8) where
  receive memoire request :=
    let code := octet request amlFrameCodeOffset
    let payload := frameData request
    if code = amlReqReadSettings then
      (memoire, some { code := amlRspReadSettings, data := memoire.reglages.bytes })
    else if code = amlReqWriteSettings then
      (memoire.ecrireReglages payload, some { code := amlRspWriteSettings, data := [] })
    else if code = amlReqAlarm then memoire.traiterAlarme payload
    else (memoire, autres code payload)
  fits reponse f := f == responseFrame reponse.code reponse.data

section Receive

variable {autres : UInt8 → List UInt8 → Option Reponse} {memoire : Memoire} {request : List UInt8}

/-- Settings written. -/
theorem receive_writeSettings {reglages : Reglages}
    (hbuild : protocolBuildRequest amlReqWriteSettings reglages.bytes requestBufferSize = some request) :
    (aml005 autres).receive memoire request =
      ({ memoire with reglages }, some { code := amlRspWriteSettings, data := [] }) := by
  have hne : amlReqWriteSettings ≠ amlReqReadSettings := by decide
  simp [aml005, protocolBuildRequest_code hbuild, protocolBuildRequest_data hbuild, hne,
    Memoire.ecrireReglages, Reglages.ofBytes?, Reglages.bytes]

/-- No other request changes the settings. -/
theorem receive_reglages (hcode : octet request amlFrameCodeOffset ≠ amlReqWriteSettings) :
    ((aml005 autres).receive memoire request).1.reglages = memoire.reglages := by
  simp only [aml005, hcode, if_false]
  split
  · rfl
  split
  · -- an alarm: whatever becomes of its record
    unfold Memoire.traiterAlarme
    repeat' split
    all_goals rfl
  · rfl

/-- An alarm read: its record, after its index. -/
theorem receive_alarmRead {n : Alarme}
    (hbuild : protocolBuildRequest amlReqAlarm [indexAlarme n ||| alarmReadFlag, 0x02]
      requestBufferSize = some request) :
    (aml005 autres).receive memoire request = (memoire,
      some { code := amlRspAlarm
             data := (indexAlarme n ||| alarmReadFlag) :: (memoire.alarmes n).bytes }) := by
  have hne : amlReqAlarm ≠ amlReqReadSettings ∧ amlReqAlarm ≠ amlReqWriteSettings := by decide
  simp only [aml005, protocolBuildRequest_code hbuild, protocolBuildRequest_data hbuild, hne.1, hne.2,
    if_false, if_true]
  match n with
  | 0 | 1 => rfl

/-- An alarm written: the record is replaced. -/
theorem receive_alarmWrite {n : Alarme} {fiche : Fiche}
    (hbuild : protocolBuildRequest amlReqAlarm (indexAlarme n :: fiche.bytes) requestBufferSize =
      some request) :
    (aml005 autres).receive memoire request =
      ({ memoire with alarmes := Function.update memoire.alarmes n fiche },
        some { code := amlRspAlarm, data := [] }) := by
  have hne : amlReqAlarm ≠ amlReqReadSettings ∧ amlReqAlarm ≠ amlReqWriteSettings := by decide
  have hfiche : Fiche.ofBytes? fiche.bytes = some fiche := dif_pos fiche.valide
  have hindex : ∀ n : Alarme, alarmeDIndex (indexAlarme n &&& 0x7F) = some n ∧
      indexAlarme n &&& alarmReadFlag = 0 := by decide
  simp [aml005, protocolBuildRequest_code hbuild, protocolBuildRequest_data hbuild, hne,
    Memoire.traiterAlarme, hindex, hfiche]

end Receive

/-- An alarm that is off, with nothing else said of it. -/
def ficheNulle : Fiche where
  enable := 0
  minute := 0
  hour := 0
  days := 0
  tone := 0
  volume := 0
  snooze := 0
  sunriseEnable := 0
  sunriseMinutes := 0
  sunriseBrightness := 0
  valide := by decide

/-- The answer to the periodic reading of the status. -/
def statutSeul (code : UInt8) (_ : List UInt8) : Option Reponse :=
  if code = amlReqStatus then some { code := amlRspStatus, data := [0x16] } else none

/-- An AML005 that is asked for its status, its settings and its alarms only. -/
def amlSimple : Device Memoire (List UInt8) Reponse (List UInt8) := aml005 statutSeul

/-! ### The link, read in the journal -/

/-- Requests and frames go by on the link; a spontaneous message answers nothing. -/
def Obs.surLien? : Obs → Option (Event (List UInt8) (List UInt8))
  | .sent request => some (.request request)
  | .frame f => if spontaneous f then none else some (.answer f)
  | .opened => some .opened
  | _ => none

def surLien (added : List Obs) : List (Event (List UInt8) (List UInt8)) :=
  added.filterMap Obs.surLien?

@[simp] theorem surLien_append (added added' : List Obs) :
    surLien (added ++ added') = surLien added ++ surLien added' :=
  List.filterMap_append

@[simp] theorem surLien_sent (request : List UInt8) (added : List Obs) :
    surLien (.sent request :: added) = .request request :: surLien added := rfl

@[simp] theorem request_mem_surLien {request : List UInt8} {added : List Obs} :
    Event.request request ∈ surLien added ↔ .sent request ∈ added := by
  simp only [surLien, List.mem_filterMap]
  constructor
  · rintro ⟨o, ho, hevent⟩
    cases o with
    | sent r =>
      cases hevent
      exact ho
    | frame f =>
      simp only [Obs.surLien?] at hevent
      split at hevent <;> cases hevent
    | _ => cases hevent
  · intro ho
    exact ⟨_, ho, rfl⟩

/-- An exchange that sends nothing reads frames; those that are not spontaneous messages go
by as answers. -/
theorem surLien_of_unsent {added : List Obs} (hlink : ∀ o ∈ added, o.onLink = true)
    (hsent : SentCodes noCode added) :
    surLien added = ((framesOf added).filter fun f => !spontaneous f).map Event.answer := by
  induction added with
  | nil => rfl
  | cons o added ih =>
    have ih := ih (fun p hp => hlink p (List.mem_cons_of_mem o hp))
      fun r hr => hsent r (List.mem_cons_of_mem o hr)
    cases o with
    | sent request => exact (hsent request List.mem_cons_self).elim
    | opened => cases hlink _ List.mem_cons_self
    | frame f =>
      cases hf : spontaneous f <;> simp_all [surLien, framesOf, Obs.surLien?, Obs.frame?]
    | _ => exact ih

/-- Such an exchange only reads answers. -/
theorem isAnswer_of_unsent {added : List Obs} (hlink : ∀ o ∈ added, o.onLink = true)
    (hsent : SentCodes noCode added) : ∀ e ∈ surLien added, e.isAnswer = true := by
  intro e he
  rw [surLien_of_unsent hlink hsent] at he
  obtain ⟨f, -, rfl⟩ := List.mem_map.mp he
  rfl

/-- A frame that is not spontaneous goes by as an answer. -/
theorem answer_mem_surLien {added : List Obs} {f : List UInt8} :
    Event.answer f ∈ surLien added ↔ f ∈ framesOf added ∧ spontaneous f = false := by
  simp only [surLien, framesOf, List.mem_filterMap]
  constructor
  · rintro ⟨o, ho, hevent⟩
    cases o with
    | frame g =>
      simp only [Obs.surLien?] at hevent
      split at hevent
      · cases hevent
      · next hquiet =>
        cases hevent
        exact ⟨⟨.frame f, ho, rfl⟩, by simpa using hquiet⟩
    | _ => cases hevent
  · rintro ⟨⟨o, ho, hframe⟩, hquiet⟩
    cases o with
    | frame g =>
      cases hframe
      exact ⟨.frame f, ho, by simp [Obs.surLien?, hquiet]⟩
    | _ => cases hframe

/-! ### One exchange with the device -/

theorem frameData_responseFrame (code : UInt8) (data : List UInt8) :
    frameData (responseFrame code data) = data := by
  refine List.take_left' ?_
  simp only [responseFrame, List.length_append, List.length_cons, List.length_nil,
    amlFrameDataOffset]
  omega

theorem isResponse_responseFrame (code : UInt8) (data : List UInt8) :
    isResponse code (responseFrame code data) = true := by
  simp [isResponse, responseFrame, octet, amlFrameCodeOffset]

theorem length_responseFrame (code : UInt8) (data : List UInt8) :
    (responseFrame code data).length = frameOverhead + data.length := by
  simp only [responseFrame, List.length_append, List.length_cons, List.length_nil, frameOverhead]
  omega

theorem ofInt_toNat (c : UInt8) : UInt8.ofInt c.toNat = c := by
  have hlt := c.toNat_lt
  rw [UInt8.ofInt, Int.emod_eq_of_lt (by omega) (by omega), Int.toNat_natCast, UInt8.ofNat_toNat]

variable {σ : Type}

/-- **An exchange with a device that owes nothing** and answers the request with the code
expected: nothing was sent; or its answer is the response; or there is no response, and
the answer is still owed. -/
theorem Requested.outcome {requestCode : UInt8} {expectedCode : Int} {arguments : List UInt8}
    {added : List Obs} {a b : SweetDawn σ} {r : Except AmlErr (List UInt8)}
    (h : Requested requestCode expectedCode arguments added a b r)
    {autres : UInt8 → List UInt8 → Option Reponse} {c c' : Side Memoire Reponse}
    (hfollows : (aml005 autres).Follows untouched c (surLien added) c') (hc : c.owed = [])
    (hne : expectedCode ≠ sweetdawnNoResponse) (hexp : estEvenement (UInt8.ofInt expectedCode) = false)
    {request : List UInt8} {reponse : Reponse}
    (hbuild : protocolBuildRequest requestCode arguments requestBufferSize = some request)
    (hreponse : ((aml005 autres).receive c.memory request).2 = some reponse)
    (hcode : reponse.code = UInt8.ofInt expectedCode) :
    ((∃ code, r = .error code) ∧ c' = c) ∨
      (r = .ok (responseFrame reponse.code reponse.data) ∧
        c' = { (aml005 autres).take c request with owed := [] }) ∨
      ((∃ code, r = .error code) ∧ c'.owed ≠ []) := by
  have hlink := h.exchange.onLink
  cases h.dialogue with
  | unsent hsent =>
    exact .inl ⟨⟨_, rfl⟩, (hfollows.silent hc (isAnswer_of_unsent hlink hsent)).2⟩
  | sent _ hno => exact absurd hno hne
  | @waited before after skipped request' result hbuild' _ hbefore hafter hframes hskipped hok =>
    obtain rfl : request' = request := Option.some.inj (hbuild'.symm.trans hbuild)
    have hlink' : ∀ o ∈ after, o.onLink = true := fun o ho => hlink o (by simp [ho])
    rw [surLien_append, surLien_sent] at hfollows
    obtain ⟨-, ⟨hnone, rfl⟩ | ⟨f, hanswer, hfits, rfl⟩⟩ := hfollows.exchange hc hreponse
      (isAnswer_of_unsent (fun o ho => hlink o (by simp [ho])) hbefore)
      (isAnswer_of_unsent hlink' hafter)
    · -- no answer was read: no response either
      cases r with
      | error code =>
        exact .inr (.inr ⟨⟨code, rfl⟩, by simp [Device.take, hreponse]⟩)
      | ok response =>
        have hread : Event.answer response ∈ surLien after :=
          answer_mem_surLien.mpr ⟨by rw [hframes]; simp [resultFrames],
            not_spontaneous_of_response hexp (hok response rfl)⟩
        rw [hnone] at hread
        cases hread
    · -- its answer was read, and no frame like it is skipped
      obtain rfl : f = responseFrame reponse.code reponse.data := by simpa [aml005] using hfits
      have hread : responseFrame reponse.code reponse.data ∈ framesOf after :=
        (answer_mem_surLien.mp (by rw [hanswer]; exact List.mem_singleton_self _)).1
      rw [hframes, List.mem_append] at hread
      rcases hread with hskip | hresult
      · have hnot := hskipped _ hskip
        rw [← hcode, isResponse_responseFrame] at hnot
        cases hnot
      · cases r with
        | error _ => cases hresult
        | ok response =>
          obtain rfl : _ = response := by simpa [resultFrames] using hresult
          exact .inr (.inl ⟨rfl, rfl⟩)

/-- The same for `demander`, which returns the data of the answer. -/
theorem demander_outcome {requestCode : UInt8} {arguments : List UInt8} {responseCode : UInt8}
    (hanswers : Answers responseCode) {timeoutMs : Int} {minData : Nat} {app app' : SweetDawn σ}
    {r : Except AmlErr (List UInt8)}
    (h : demander requestCode arguments responseCode timeoutMs minData app = (r, app'))
    {request : List UInt8}
    (hbuild : protocolBuildRequest requestCode arguments requestBufferSize = some request) :
    ∃ added, Exchange added app app' ∧
      ∀ {autres : UInt8 → List UInt8 → Option Reponse} {c c' : Side Memoire Reponse} {data : List UInt8},
        (aml005 autres).Follows untouched c (surLien added) c' → c.owed = [] →
        ((aml005 autres).receive c.memory request).2 = some { code := responseCode, data } →
        minData ≤ data.length →
        ((∃ code, r = .error code) ∧ c' = c) ∨
          (r = .ok data ∧ c' = { (aml005 autres).take c request with owed := [] }) ∨
          ((∃ code, r = .error code) ∧ c'.owed ≠ []) := by
  have hne := code_expected responseCode
  rcases hreq : envoyerRequete requestCode responseCode.toNat timeoutMs arguments
      amlProtocolMaxFrameSize app with ⟨result, later⟩
  obtain ⟨added, hrequested⟩ := envoyerRequete_requested (fun _ => Nat.le_refl _) hanswers hreq
  have hstate : later = app' := by
    have hsnd := demander_snd requestCode arguments responseCode timeoutMs minData app
    rw [h, hreq] at hsnd
    exact hsnd.symm
  subst hstate
  unfold demander at h
  rw [bind_run, hreq] at h
  refine ⟨added, hrequested.exchange, fun hfollows hc hreceive hmin => ?_⟩
  rcases hrequested.outcome hfollows hc hne hanswers hbuild hreceive (ofInt_toNat _).symm with
    ⟨⟨code, rfl⟩, hsame⟩ | ⟨rfl, htaken⟩ | ⟨⟨code, rfl⟩, hlate⟩
  · exact .inl ⟨⟨code, (congrArg Prod.fst h).symm⟩, hsame⟩
  · right; left
    dsimp only at h
    rw [if_neg (by rw [length_responseFrame]; omega), frameData_responseFrame] at h
    exact ⟨(congrArg Prod.fst h).symm, htaken⟩
  · exact .inr (.inr ⟨⟨code, (congrArg Prod.fst h).symm⟩, hlate⟩)

end AmlService
