import AmlService.Core.Sweetdawn
import AmlService.Lib.Run

/-!
# AmlService.Core.Exchange

What the functions of the core do to the application, said once. The journal explains
the state: the settings held are the last recorded ones (`settingsAfter`), what is
known of the AML clock is what was last noted (`clockAfter`), and the handler has been
given the spontaneous frames among the frames read (`deliveries`), once each and in
order.

Four relations, each stronger than the one before, between the application before and
after, for what was added to the journal in between:

* `Recorded`: settings and clock follow the journal;
* `Traced`: the event handler has been called for the spontaneous frames, and for
  nothing else;
* `Served`: no connection was opened; the link may have been lost;
* `Exchange`: only the link and its supervision moved.
-/

namespace AmlService

open Effect

variable {σ : Type}

/-! ### Reading the journal -/

def Obs.event? : Obs → Option (UInt8 × List UInt8)
  | .event code data => some (code, data)
  | _ => none

def Obs.frame? : Obs → Option (List UInt8)
  | .frame f => some f
  | _ => none

/-- What was handed to the event handler. -/
def eventsOf (added : List Obs) : List (UInt8 × List UInt8) := added.filterMap Obs.event?

/-- The frames read. -/
def framesOf (added : List Obs) : List (List UInt8) := added.filterMap Obs.frame?

/-- Nothing but what an exchange on the link leaves in the journal. -/
def Obs.onLink : Obs → Bool
  | .closed | .sent _ | .received _ | .frame _ | .event _ _ => true
  | _ => false

/-- The same, or settings read or written. -/
def Obs.served : Obs → Bool
  | .settingsRead _ | .settingsWritten _ => true
  | o => o.onLink

/-- Nothing that only the handlers leave there: broadcasts, and settings of the clock. -/
def Obs.ofCore : Obs → Bool
  | .broadcast _ _ | .clockNoted _ _ => false
  | _ => true

def recordedSettings (state : AmlState) : Obs → AmlState
  | .settingsRead settings | .settingsWritten settings => settings
  | _ => state

/-- The settings held after `added`. -/
def settingsAfter (state : AmlState) (added : List Obs) : AmlState := added.foldl recordedSettings state

/-- What is known of the AML clock. -/
structure ClockKnowledge where
  set : Bool
  offsetS : Int
  syncedMs : Int
  deriving DecidableEq

def notedClock (clock : ClockKnowledge) : Obs → ClockKnowledge
  | .clockNoted offsetS syncedMs => { set := true, offsetS, syncedMs }
  | _ => clock

/-- What is known of the AML clock after `added`. -/
def clockAfter (clock : ClockKnowledge) (added : List Obs) : ClockKnowledge := added.foldl notedClock clock

def SweetDawn.clockKnowledge (app : SweetDawn σ) : ClockKnowledge :=
  { set := app.clockSet, offsetS := app.clockOffsetS, syncedMs := app.clockSyncedMs }

/-- The calls made for some frames, when there is a handler. -/
def deliveries (handled : Bool) (frames : List (List UInt8)) : List (UInt8 × List UInt8) :=
  if handled then (frames.filter spontaneous).map fun f => (octet f amlFrameCodeOffset, frameData f)
  else []

/-- One call of the handler, if there is one. -/
def handle (onEvent : Option (σ → UInt8 → List UInt8 → σ)) (context : σ)
    (e : UInt8 × List UInt8) : σ :=
  match onEvent with
  | none => context
  | some handler => handler context e.1 e.2

section Lemmas

variable (added added' : List Obs)

@[simp] theorem eventsOf_append : eventsOf (added ++ added') = eventsOf added ++ eventsOf added' :=
  List.filterMap_append

@[simp] theorem framesOf_append : framesOf (added ++ added') = framesOf added ++ framesOf added' :=
  List.filterMap_append

theorem settingsAfter_append (state : AmlState) :
    settingsAfter state (added ++ added') = settingsAfter (settingsAfter state added) added' :=
  List.foldl_append

theorem clockAfter_append (clock : ClockKnowledge) :
    clockAfter clock (added ++ added') = clockAfter (clockAfter clock added) added' :=
  List.foldl_append

theorem deliveries_append (handled : Bool) (frames frames' : List (List UInt8)) :
    deliveries handled (frames ++ frames') =
      deliveries handled frames ++ deliveries handled frames' := by
  unfold deliveries
  split
  · rw [List.filter_append, List.map_append]
  · rfl

variable {added}

theorem settingsAfter_of_onLink (h : ∀ o ∈ added, o.onLink = true) (state : AmlState) :
    settingsAfter state added = state := by
  refine Run.foldl_fixed (fun o ho state => ?_) state
  have hlink := h o ho
  cases o <;> first | rfl | cases hlink

theorem clockAfter_of_served (h : ∀ o ∈ added, o.served = true) (clock : ClockKnowledge) :
    clockAfter clock added = clock := by
  refine Run.foldl_fixed (fun o ho clock => ?_) clock
  have hserved := h o ho
  cases o <;> first | rfl | cases hserved

/-- Without a new connection, the frames and the calls of the link add up. -/
theorem linkLog_of_served (h : ∀ o ∈ added, o.served = true) (log : LinkLog) :
    (added.foldl LinkLog.step log).frames = log.frames ++ framesOf added ∧
      (added.foldl LinkLog.step log).events = log.events ++ eventsOf added := by
  induction added generalizing log with
  | nil => simp [framesOf, eventsOf]
  | cons o added ih =>
    have ho := h o List.mem_cons_self
    obtain ⟨hframes, hevents⟩ := ih (fun p hp => h p (List.mem_cons_of_mem o hp)) (log.step o)
    rw [List.foldl_cons, hframes, hevents]
    cases o with
    | opened | clockNoted _ _ | broadcast _ _ => cases ho
    | _ => simp [LinkLog.step, framesOf, eventsOf, List.filterMap_cons, Obs.frame?, Obs.event?]

theorem Obs.served_of_onLink {o : Obs} (h : o.onLink = true) : o.served = true := by
  cases o <;> first | rfl | cases h

theorem Obs.ofCore_of_served {o : Obs} (h : o.served = true) : o.ofCore = true := by
  cases o <;> first | rfl | cases h

end Lemmas

/-! ### The link and the journal agree -/

/-- A connected application has a socket, and its parser holds what is left of the
bytes received since the link was opened. -/
structure Wired (app : SweetDawn σ) : Prop where
  descriptor : app.connected = true ↔ 0 ≤ app.connection.socketFd
  scanned : app.connected = true → Scanned (linkLog app.world.journal) app.connection.parser

/-- Neither the link nor the journal moved. -/
theorem Wired.kept {a b : SweetDawn σ} (hw : Wired a) (hconnected : b.connected = a.connected)
    (hconnection : b.connection = a.connection) (hjournal : b.world.journal = a.world.journal) :
    Wired b where
  descriptor := by
    rw [hconnected, hconnection]
    exact hw.descriptor
  scanned hc := by
    rw [hjournal, hconnection]
    exact hw.scanned (hconnected.symm.trans hc)

/-- An entry of the journal that the parser has no part in. -/
theorem Wired.logged {a b : SweetDawn σ} {o : Obs} (hw : Wired a) (hconnected : b.connected = a.connected)
    (hconnection : b.connection = a.connection) (hjournal : b.world.journal = a.world.journal ++ [o])
    (ho : ∀ log parser, Scanned log parser → Scanned (log.step o) parser) : Wired b where
  descriptor := by
    rw [hconnected, hconnection]
    exact hw.descriptor
  scanned hc := by
    rw [hjournal, hconnection, linkLog_append]
    exact ho _ _ (hw.scanned (hconnected.symm.trans hc))

/-- On the last link opened, the handler was called for the spontaneous frames among
those read, once each and in order. -/
def Delivered (app : SweetDawn σ) : Prop :=
  (linkLog app.world.journal).events =
    deliveries app.onEvent.isSome (linkLog app.world.journal).frames

/-! ### The relations -/

structure Recorded (added : List Obs) (a b : SweetDawn σ) : Prop where
  world : World.Extends added a.world b.world
  state : b.state = settingsAfter a.state added
  clock : b.clockKnowledge = clockAfter a.clockKnowledge added
  onEvent : b.onEvent = a.onEvent
  device : b.device = a.device
  initialized : b.initialized = a.initialized
  wired : Wired a → Wired b

structure Traced (added : List Obs) (a b : SweetDawn σ) : Prop extends Recorded added a b where
  context : b.eventContext = (eventsOf added).foldl (handle a.onEvent) a.eventContext
  events : eventsOf added = deliveries a.onEvent.isSome (framesOf added)
  core : ∀ o ∈ added, o.ofCore = true
  delivered : Delivered a → Delivered b

structure Served (added : List Obs) (a b : SweetDawn σ) : Prop extends Traced added a b where
  connectCount : b.connectCount = a.connectCount
  wallReads : b.world.wallReads = a.world.wallReads
  stays : b.connected = true → a.connected = true
  closed : Wired a → a.connected = true → b.connected = false → .closed ∈ added
  served : ∀ o ∈ added, o.served = true

structure Exchange (added : List Obs) (a b : SweetDawn σ) : Prop extends Served added a b where
  authorization : b.authorization = a.authorization
  lastRefreshMs : b.lastRefreshMs = a.lastRefreshMs
  onLink : ∀ o ∈ added, o.onLink = true

section Composition

variable {added added' : List Obs} {a b c : SweetDawn σ}

theorem Recorded.refl (a : SweetDawn σ) : Recorded [] a a :=
  ⟨.refl a.world, rfl, rfl, rfl, rfl, rfl, id⟩

theorem Recorded.trans (h : Recorded added a b) (h' : Recorded added' b c) :
    Recorded (added ++ added') a c where
  world := h.world.trans h'.world
  state := by rw [h'.state, h.state, settingsAfter_append]
  clock := by rw [h'.clock, h.clock, clockAfter_append]
  onEvent := h'.onEvent.trans h.onEvent
  device := h'.device.trans h.device
  initialized := h'.initialized.trans h.initialized
  wired hw := h'.wired (h.wired hw)

theorem Traced.trans (h : Traced added a b) (h' : Traced added' b c) : Traced (added ++ added') a c where
  toRecorded := h.toRecorded.trans h'.toRecorded
  context := by rw [h'.context, h.context, h.onEvent, eventsOf_append, List.foldl_append]
  events := by
    rw [eventsOf_append, framesOf_append, deliveries_append, h.events, h'.events, h.onEvent]
  core o ho := (List.mem_append.mp ho).elim (h.core o) (h'.core o)
  delivered hd := h'.delivered (h.delivered hd)

theorem Served.trans (h : Served added a b) (h' : Served added' b c) : Served (added ++ added') a c where
  toTraced := h.toTraced.trans h'.toTraced
  connectCount := h'.connectCount.trans h.connectCount
  wallReads := h'.wallReads.trans h.wallReads
  stays hc := h.stays (h'.stays hc)
  closed hw ha hc := by
    cases hb : b.connected with
    | false => exact List.mem_append_left _ (h.closed hw ha hb)
    | true => exact List.mem_append_right _ (h'.closed (h.wired hw) hb hc)
  served o ho := (List.mem_append.mp ho).elim (h.served o) (h'.served o)

theorem Exchange.trans (h : Exchange added a b) (h' : Exchange added' b c) :
    Exchange (added ++ added') a c where
  toServed := h.toServed.trans h'.toServed
  authorization := h'.authorization.trans h.authorization
  lastRefreshMs := h'.lastRefreshMs.trans h.lastRefreshMs
  onLink o ho := (List.mem_append.mp ho).elim (h.onLink o) (h'.onLink o)

theorem Exchange.state_eq (h : Exchange added a b) : b.state = a.state := by
  rw [h.state, settingsAfter_of_onLink h.onLink]

theorem Served.clock_eq (h : Served added a b) : b.clockKnowledge = a.clockKnowledge := by
  rw [h.clock, clockAfter_of_served h.served]

/-- Events that follow the frames of `added` follow those of the link. -/
theorem delivered_of_served (hserved : ∀ o ∈ added, o.served = true)
    (hworld : World.Extends added a.world b.world) (honEvent : b.onEvent = a.onEvent)
    (hevents : eventsOf added = deliveries a.onEvent.isSome (framesOf added)) (hd : Delivered a) :
    Delivered b := by
  obtain ⟨hframes, hcalls⟩ := linkLog_of_served hserved (linkLog a.world.journal)
  rw [Delivered, hworld.journal, linkLog_append, hframes, hcalls, honEvent, deliveries_append,
    hevents, hd]

/-- The link moved, by what an exchange may leave in the journal, and the events among
it were handled. The conditions that remain say what became of the link. -/
theorem Exchange.of_link (connection : AmlConnection) {world : World} (connected : Bool)
    {eventContext : σ} {nextConnectMs connectBackoffMs : Int} {consecutiveFailures : Nat}
    (hworld : World.Extends added a.world world) (hreads : world.wallReads = a.world.wallReads)
    (hlink : ∀ o ∈ added, o.onLink = true)
    (hcontext : eventContext = (eventsOf added).foldl (handle a.onEvent) a.eventContext)
    (hcalls : eventsOf added = deliveries a.onEvent.isSome (framesOf added))
    (hstays : connected = true → a.connected = true)
    (hclosed : Wired a → a.connected = true → connected = false → .closed ∈ added)
    (hwired : Wired a → Wired { a with
      connection, world, connected, nextConnectMs, connectBackoffMs, consecutiveFailures }) :
    Exchange added a { a with
      connection, world, connected, eventContext, nextConnectMs, connectBackoffMs,
      consecutiveFailures } where
  world := hworld
  state := (settingsAfter_of_onLink hlink a.state).symm
  clock := (clockAfter_of_served (fun o ho => Obs.served_of_onLink (hlink o ho)) _).symm
  onEvent := rfl
  device := rfl
  initialized := rfl
  wired hw := (hwired hw).kept rfl rfl rfl
  context := hcontext
  events := hcalls
  core o ho := Obs.ofCore_of_served (Obs.served_of_onLink (hlink o ho))
  delivered := delivered_of_served (fun o ho => Obs.served_of_onLink (hlink o ho)) hworld rfl hcalls
  connectCount := rfl
  wallReads := hreads
  stays := hstays
  closed := hclosed
  served o ho := Obs.served_of_onLink (hlink o ho)
  authorization := rfl
  lastRefreshMs := rfl
  onLink := hlink

/-- The same on a link that stays up or down. -/
theorem Exchange.of_reading (connection : AmlConnection) {world : World} {eventContext : σ}
    {nextConnectMs connectBackoffMs : Int} {consecutiveFailures : Nat}
    (hworld : World.Extends added a.world world) (hreads : world.wallReads = a.world.wallReads)
    (hlink : ∀ o ∈ added, o.onLink = true)
    (hcontext : eventContext = (eventsOf added).foldl (handle a.onEvent) a.eventContext)
    (hcalls : eventsOf added = deliveries a.onEvent.isSome (framesOf added))
    (hwired : Wired a → Wired { a with connection, world }) :
    Exchange added a { a with
      connection, world, eventContext, nextConnectMs, connectBackoffMs, consecutiveFailures } :=
  .of_link connection a.connected hworld hreads hlink hcontext hcalls id
    (fun _ hc hn => absurd (hc.symm.trans hn) (by simp)) fun hw => (hwired hw).kept rfl rfl rfl

/-- Fields of the supervision and readings of the clock: nothing for the journal. -/
theorem Exchange.supervised {world : World} {nextConnectMs connectBackoffMs : Int}
    {consecutiveFailures : Nat} (hworld : World.Extends [] a.world world)
    (hreads : world.wallReads = a.world.wallReads) :
    Exchange [] a { a with world, nextConnectMs, connectBackoffMs, consecutiveFailures } := by
  refine .of_reading a.connection hworld hreads (by simp) rfl ?_ fun hw => ?_
  · cases a.onEvent.isSome <;> rfl
  · exact hw.kept rfl rfl (hworld.journal.trans (List.append_nil _))

theorem Exchange.refl (a : SweetDawn σ) : Exchange [] a a :=
  .supervised (.refl a.world) rfl

end Composition

/-! ### What goes out -/

/-- The requests sent have a code in `codes`. -/
def SentCodes (codes : UInt8 → Prop) (added : List Obs) : Prop :=
  ∀ request, .sent request ∈ added → codes (octet request amlFrameCodeOffset)

/-- An exchange that sends no other codes than `codes`. -/
def Talks (codes : UInt8 → Prop) (a b : SweetDawn σ) : Prop :=
  ∃ added, Exchange added a b ∧ SentCodes codes added

/-- The same, where settings may be recorded. -/
def Serves (codes : UInt8 → Prop) (a b : SweetDawn σ) : Prop :=
  ∃ added, Served added a b ∧ SentCodes codes added

theorem SentCodes.append {codes : UInt8 → Prop} {added added' : List Obs} (h : SentCodes codes added)
    (h' : SentCodes codes added') : SentCodes codes (added ++ added') :=
  fun r hr => (List.mem_append.mp hr).elim (h r) (h' r)

theorem SentCodes.nil (codes : UInt8 → Prop) : SentCodes codes [] := fun _ h => absurd h (by simp)

instance (codes : UInt8 → Prop) : IsPreorder (SweetDawn σ) (Talks codes) where
  refl a := ⟨[], .refl a, .nil codes⟩
  trans _ _ _ := fun ⟨_, h, hs⟩ ⟨_, h', hs'⟩ => ⟨_, h.trans h', hs.append hs'⟩

instance (codes : UInt8 → Prop) : IsPreorder (SweetDawn σ) (Serves codes) where
  refl a := ⟨[], (Exchange.refl a).toServed, .nil codes⟩
  trans _ _ _ := fun ⟨_, h, hs⟩ ⟨_, h', hs'⟩ => ⟨_, h.trans h', hs.append hs'⟩

theorem Talks.mono {codes codes' : UInt8 → Prop} {a b : SweetDawn σ}
    (hsub : ∀ c, codes c → codes' c) (h : Talks codes a b) : Talks codes' a b :=
  h.imp fun _ h => ⟨h.1, fun r hr => hsub _ (h.2 r hr)⟩

theorem Talks.serves {codes : UInt8 → Prop} {a b : SweetDawn σ} (h : Talks codes a b) :
    Serves codes a b :=
  h.imp fun _ h => ⟨h.1.toServed, h.2⟩

end AmlService
