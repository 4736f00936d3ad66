import AmlService.Core.Requests

/-!
# AmlService.Core.Events

Spontaneous messages over whole runs. A client of the core calls `sweetdawn_tick` and
`sweetdawn_request` in any order; whichever loop reads a frame, the event handler gets
the spontaneous ones, and no response is one of them.
-/

namespace AmlService

open Effect

variable {σ : Type}

/-- A call of the core by its client. -/
inductive Call
  | tick
  | request (requestCode : UInt8) (arguments : List UInt8) (expectedCode timeoutMs : Int)
      (responseCapacity : Nat)

/-- The response waited for is not a spontaneous message, and there is room for it. -/
def Call.Admissible : Call → Prop
  | .tick => True
  | .request _ _ expectedCode _ responseCapacity =>
    estEvenement (UInt8.ofInt expectedCode) = false ∧ 259 ≤ responseCapacity

/-- One call: the response it returns, if it returns one, and the application after it. -/
def runCall (app : SweetDawn σ) : Call → Option (List UInt8) × SweetDawn σ
  | .tick => (none, sweetdawnTick app)
  | .request requestCode arguments expectedCode timeoutMs responseCapacity =>
    match envoyerRequete requestCode expectedCode timeoutMs arguments responseCapacity app with
    | (.ok response, app) =>
      (if expectedCode = sweetdawnNoResponse then none else some response, app)
    | (.error _, app) => (none, app)

theorem runCall_request (app : SweetDawn σ) (requestCode : UInt8) (arguments : List UInt8)
    (expectedCode timeoutMs : Int) (responseCapacity : Nat) :
    (runCall app (.request requestCode arguments expectedCode timeoutMs responseCapacity)).2 =
      (envoyerRequete requestCode expectedCode timeoutMs arguments responseCapacity app).2 := by
  rw [runCall]
  rcases envoyerRequete requestCode expectedCode timeoutMs arguments responseCapacity app with ⟨_ | _, _⟩ <;> rfl

/-- A run of calls: the responses, in order, and the application at the end. -/
def runCalls (app : SweetDawn σ) : List Call → List (List UInt8) × SweetDawn σ
  | [] => ([], app)
  | call :: calls =>
    let (response, app) := runCall app call
    let (responses, app) := runCalls app calls
    (response.toList ++ responses, app)

/-- One call is a move of the core, and returns a frame that was read and is not
spontaneous. -/
theorem runCall_runs {app app' : SweetDawn σ} {call : Call} (hadm : call.Admissible)
    {response : Option (List UInt8)} (h : runCall app call = (response, app')) :
    ∃ added, Traced added app app' ∧
      ∀ f ∈ response, spontaneous f = false ∧ f ∈ framesOf added := by
  cases call with
  | tick =>
    obtain ⟨rfl, rfl⟩ := Prod.mk.inj h
    obtain ⟨added, htraced⟩ := sweetdawnTick_runs app
    exact ⟨added, htraced, by simp⟩
  | request requestCode arguments expectedCode timeoutMs responseCapacity =>
    obtain ⟨hexp, hcap⟩ := hadm
    rcases hreq : envoyerRequete requestCode expectedCode timeoutMs arguments responseCapacity app
      with ⟨r, later⟩
    obtain ⟨added, hrequested⟩ := envoyerRequete_requested (fun _ => hcap) hexp hreq
    simp only [runCall, hreq] at h
    refine ⟨added, ?_, ?_⟩
    · cases r <;> (obtain ⟨-, rfl⟩ := Prod.mk.inj h; exact hrequested.exchange.toTraced)
    · intro f hf
      cases r with
      | error code =>
        obtain ⟨rfl, -⟩ := Prod.mk.inj h
        cases hf
      | ok g =>
        obtain ⟨rfl, -⟩ := Prod.mk.inj h
        split at hf
        · cases hf
        · next hne =>
          cases hf
          obtain ⟨hresp, request, -, hsub⟩ := hrequested.response f rfl hne
          refine ⟨not_spontaneous_of_response hexp hresp, ?_⟩
          exact List.mem_filterMap.mpr ⟨.frame f, hsub.subset (by simp), rfl⟩

theorem runCalls_runs {calls : List Call} (hadm : ∀ call ∈ calls, call.Admissible) :
    ∀ {app app' : SweetDawn σ} {responses : List (List UInt8)},
      runCalls app calls = (responses, app') →
      ∃ added, Traced added app app' ∧ ∀ f ∈ responses, spontaneous f = false ∧ f ∈ framesOf added := by
  induction calls with
  | nil =>
    intro app app' responses h
    obtain ⟨rfl, rfl⟩ := Prod.mk.inj h
    exact ⟨[], (Exchange.refl app).toTraced, by simp⟩
  | cons call calls ih =>
    intro app app' responses h
    rcases hcall : runCall app call with ⟨response, later⟩
    rcases hcalls : runCalls later calls with ⟨rest, last⟩
    simp only [runCalls, hcall, hcalls] at h
    obtain ⟨rfl, rfl⟩ := Prod.mk.inj h
    obtain ⟨added, htraced, hresponse⟩ := runCall_runs (hadm call List.mem_cons_self) hcall
    obtain ⟨added', htraced', hrest⟩ :=
      ih (fun c hc => hadm c (List.mem_cons_of_mem call hc)) hcalls
    refine ⟨added ++ added', htraced.trans htraced', fun f hf => ?_⟩
    rw [framesOf_append]
    rcases List.mem_append.mp hf with hf | hf
    · obtain ⟨hquiet, hread⟩ := hresponse f (by simpa using hf)
      exact ⟨hquiet, List.mem_append_left _ hread⟩
    · obtain ⟨hquiet, hread⟩ := hrest f hf
      exact ⟨hquiet, List.mem_append_right _ hread⟩

theorem sweetdawnInit_wired (device : AmlConfig) (onEvent : Option (σ → UInt8 → List UInt8 → σ))
    (context : σ) (world : World) : Wired (sweetdawnInit device onEvent context world) :=
  ⟨by simp [sweetdawnInit], by simp [sweetdawnInit]⟩

/-- **Every spontaneous message once, in order.** Over any run, whatever the link does:
the handler has been called for exactly the spontaneous frames among the frames read,
and its context is the result of these calls. On the current link, they are those
among the frames that came before what is still in the parser, in the left-to-right
scan of the bytes received. No response is a spontaneous message. -/
theorem events_delivered (device : AmlConfig) (handler : σ → UInt8 → List UInt8 → σ) (context : σ)
    (world : World) (calls : List Call)
    (hadm : ∀ call ∈ calls, call.Admissible) :
    let (responses, app) := runCalls (sweetdawnInit device (some handler) context world) calls
    let journal := app.world.journal
    let calledWith := fun f => (octet f amlFrameCodeOffset, frameData f)
    eventsOf journal = ((framesOf journal).filter spontaneous).map calledWith ∧
      app.eventContext = (eventsOf journal).foldl (fun c e => handler c e.1 e.2) context ∧
      (linkLog journal).events = ((linkLog journal).frames.filter spontaneous).map calledWith ∧
      (app.connected = true → (frameScanner.scan (linkLog journal).bytes).1 =
        (linkLog journal).frames ++ (frameScanner.scan app.connection.parser.data).1) ∧
      ∀ response ∈ responses, spontaneous response = false ∧ response ∈ framesOf journal := by
  rcases hrun : runCalls (sweetdawnInit device (some handler) context world) calls with
    ⟨responses, app⟩
  obtain ⟨added, htraced, hresponses⟩ := runCalls_runs hadm hrun
  have hjournal : app.world.journal = added := htraced.world.journal
  have hdelivered : Delivered (sweetdawnInit device (some handler) context world) := rfl
  refine ⟨?_, ?_, ?_, fun hc => ?_, ?_⟩
  · rw [hjournal, htraced.events]
    rfl
  · rw [hjournal, htraced.context]
    rfl
  · have hlink := htraced.delivered hdelivered
    rw [Delivered, htraced.onEvent] at hlink
    exact hlink
  · have hwired := htraced.wired (sweetdawnInit_wired device (some handler) context world)
    rw [hwired.scanned hc]
  · rw [hjournal]
    exact hresponses

/-- A ringing received while a request waits for its response. -/
theorem events_delivered_ringing :
    let device : AmlConfig := { name := "AML", bltMac := "B", amlMac := "A", amlChn := 1 }
    let world := World.scripted [.quiet, .reply 0xF0 [0x16], .quiet, .reply 0xE2 [0, 0, 0, 0, 0],
      .quiet, .reply 0xC7 [2], .reply 0xC9 []]
    let (responses, app) := runCalls
      (sweetdawnInit device (some fun events code data => events ++ [(code, data)]) [] world)
      [.tick, .request 0x29 [] 0xC9 0 259]
    app.eventContext = [(0xC7, [2])] ∧
      ∀ response ∈ responses, spontaneous response = false := by
  have hrun := events_delivered { name := "AML", bltMac := "B", amlMac := "A", amlChn := 1 }
    (fun events code data => events ++ [(code, data)]) []
    (.scripted [.quiet, .reply 0xF0 [0x16], .quiet, .reply 0xE2 [0, 0, 0, 0, 0],
      .quiet, .reply 0xC7 [2], .reply 0xC9 []])
    [.tick, .request 0x29 [] 0xC9 0 259] (by simp [Call.Admissible]; decide)
  exact ⟨by decide +kernel, fun response hr => (hrun.2.2.2.2 response hr).1⟩

end AmlService
