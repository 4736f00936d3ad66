import AmlService.Aml.Transport

/-!
# AmlService.Aml.Link

What the transport does to the world and to the receive parser. `World.Extends` says
what every step shares: the journal only grows, and the clocks are what they were.
`Receives` is one call of `aml_receive` without its clock: which bytes came in, which
frame went out and what the parser is left with.

On one link, the frames returned so far followed by those still in the parser are
those of the bytes received (`Scanned`); with room for the longest frame, this holds
across every call and no call fails with a protocol error.
-/

namespace AmlService

open Scan

/-! ### The world only moves forward -/

/-- `world'` is `world` later on, after `added` has happened. -/
structure World.Extends (added : List Obs) (world world' : World) : Prop where
  journal : world'.journal = world.journal ++ added
  clock : world'.clock = world.clock
  wall : world'.wall = world.wall
  zone : world'.zone = world.zone
  clockReads : world.clockReads ≤ world'.clockReads
  wallReads : world.wallReads ≤ world'.wallReads

namespace World.Extends

variable {added added' : List Obs} {world world' world'' : World}

theorem refl (world : World) : World.Extends [] world world :=
  ⟨(List.append_nil _).symm, rfl, rfl, rfl, Nat.le_refl _, Nat.le_refl _⟩

theorem trans (h : World.Extends added world world') (h' : World.Extends added' world' world'') :
    World.Extends (added ++ added') world world'' where
  journal := by rw [h'.journal, h.journal, List.append_assoc]
  clock := h'.clock.trans h.clock
  wall := h'.wall.trans h.wall
  zone := h'.zone.trans h.zone
  clockReads := Nat.le_trans h.clockReads h'.clockReads
  wallReads := Nat.le_trans h.wallReads h'.wallReads

theorem log (world : World) (o : Obs) : World.Extends [o] world (world.log o) :=
  ⟨rfl, rfl, rfl, rfl, Nat.le_refl _, Nat.le_refl _⟩

theorem monotonicMs (world : World) : World.Extends [] world world.monotonicMs.2 :=
  ⟨(List.append_nil _).symm, rfl, rfl, rfl, Nat.le_succ _, Nat.le_refl _⟩

theorem time (world : World) : World.Extends [] world world.time.2 :=
  ⟨(List.append_nil _).symm, rfl, rfl, rfl, Nat.le_refl _, Nat.le_succ _⟩

/-- Outcomes consumed leave no trace. -/
theorem receptions (h : World.Extends added world world') (rest : List Reception) :
    World.Extends added world { world' with receptions := rest } :=
  ⟨h.journal, h.clock, h.wall, h.zone, h.clockReads, h.wallReads⟩

end World.Extends

theorem World.expired_inv {world world' : World} {deadlineMs : Option Int} {expired : Bool}
    (h : world.expired deadlineMs = (expired, world')) :
    World.Extends [] world world' ∧ world'.wallReads = world.wallReads := by
  cases deadlineMs with
  | none =>
    obtain ⟨-, rfl⟩ := Prod.mk.inj h
    exact ⟨.refl world, rfl⟩
  | some d =>
    obtain ⟨-, rfl⟩ := Prod.mk.inj h
    exact ⟨.monotonicMs world, rfl⟩

/-! ### One wait for a frame -/

/-- One wait of `aml_receive`, from a parser to its result and the parser it leaves:
`added` is what was received, then the frame if there is one. -/
inductive Receives (outputCapacity : Nat) :
    ProtocolParser → List Obs → Except AmlErr (List UInt8) → ProtocolParser → Prop
  | frame {parser parser' f} :
      protocolParserNext parser outputCapacity = (.frame f, parser') →
      Receives outputCapacity parser [.frame f] (.ok f) parser'
  | refused {parser parser'} :
      protocolParserNext parser outputCapacity = (.error, parser') →
      Receives outputCapacity parser [] (.error .protocol) protocolParserInit
  | stop {parser parser' code} :
      protocolParserNext parser outputCapacity = (.incomplete, parser') →
      code ≠ .protocol → Receives outputCapacity parser [] (.error code) parser'
  | overflow {parser parser' chunk} :
      protocolParserNext parser outputCapacity = (.incomplete, parser') →
      protocolParserFeed parser' (Chunk.bytes chunk) = none →
      Receives outputCapacity parser [.received chunk.bytes] (.error .protocol) protocolParserInit
  | quiet {parser parser' added r last} :
      protocolParserNext parser outputCapacity = (.incomplete, parser') →
      Receives outputCapacity parser' added r last → Receives outputCapacity parser added r last
  | bytes {parser parser' fed chunk added r last} :
      protocolParserNext parser outputCapacity = (.incomplete, parser') →
      protocolParserFeed parser' (Chunk.bytes chunk) = some fed →
      Receives outputCapacity fed added r last →
      Receives outputCapacity parser (.received chunk.bytes :: added) r last

theorem LinkError.code_ne_protocol (error : LinkError) : error.code ≠ .protocol := by
  cases error <;> decide

/-- The wait loop: only the receptions and the clock move besides the journal. -/
theorem receiveLoop_receives {outputCapacity : Nat} {deadlineMs : Option Int}
    {receptions : List Reception} {polled : Bool} {parser parser' : ProtocolParser}
    {world world' : World} {result : Except AmlErr (List UInt8)}
    (h : receiveLoop outputCapacity deadlineMs receptions polled parser world =
      (result, parser', world')) :
    ∃ added, Receives outputCapacity parser added result parser' ∧ World.Extends added world world' ∧
      world'.wallReads = world.wallReads := by
  fun_induction receiveLoop outputCapacity deadlineMs receptions polled parser world with
  -- a frame, or a parser error: before any clock is read
  | case1 receptions polled parser world f last hnext =>
    cases h
    exact ⟨_, .frame hnext, ⟨rfl, rfl, rfl, rfl, Nat.le_refl _, Nat.le_refl _⟩, rfl⟩
  | case2 receptions polled parser world last hnext =>
    cases h
    exact ⟨_, .refused hnext, (World.Extends.refl world).receptions _, rfl⟩
  -- the deadline has passed
  | case3 receptions polled parser world last hnext expired later hexp =>
    cases h
    obtain ⟨hlater, hreads⟩ := World.expired_inv hexp
    exact ⟨_, .stop hnext (by simp), hlater.receptions _, hreads⟩
  -- no reception left, or the link fails
  | case4 polled parser world last hnext expired later hexp =>
    cases h
    obtain ⟨hlater, hreads⟩ := World.expired_inv hexp
    exact ⟨_, .stop hnext (by simp), hlater.receptions _, hreads⟩
  | case5 polled parser world last hnext expired later hexp _ rest ih =>
    obtain ⟨hlater, hwall⟩ := World.expired_inv hexp
    obtain ⟨added, hrec, hext, hreads⟩ := ih h
    exact ⟨added, .quiet hnext hrec, hlater.trans hext, hreads.trans hwall⟩
  | case6 polled parser world last hnext expired later hexp _ error rest =>
    cases h
    obtain ⟨hlater, hreads⟩ := World.expired_inv hexp
    exact ⟨_, .stop hnext error.code_ne_protocol, hlater.receptions _, hreads⟩
  -- bytes: refused by the parser, or taken in
  | case7 polled parser world last hnext expired later hexp _ chunk rest logged hfeed =>
    cases h
    obtain ⟨hlater, hreads⟩ := World.expired_inv hexp
    exact ⟨_, .overflow hnext hfeed, (hlater.trans (.log later _)).receptions _, hreads⟩
  | case8 polled parser world last hnext expired later hexp _ chunk rest logged fed hfeed ih =>
    obtain ⟨hlater, hwall⟩ := World.expired_inv hexp
    obtain ⟨added, hrec, hext, hreads⟩ := ih h
    exact ⟨_, .bytes hnext hfeed hrec, hlater.trans ((World.Extends.log later _).trans hext),
      hreads.trans hwall⟩

/-- **`aml_receive` on an open link is one wait.** -/
theorem amlReceive_receives {connection connection' : AmlConnection} {outputCapacity : Nat}
    {timeoutMs : Int} {world world' : World} {result : Except AmlErr (List UInt8)}
    (hfd : 0 ≤ connection.socketFd)
    (h : amlReceive connection outputCapacity timeoutMs world = (result, connection', world')) :
    connection'.socketFd = connection.socketFd ∧
      ∃ added, Receives outputCapacity connection.parser added result connection'.parser ∧
        World.Extends added world world' ∧ world'.wallReads = world.wallReads := by
  rw [amlReceive, if_neg (by omega)] at h
  by_cases ht : 0 ≤ timeoutMs
  · simp only [ht, if_true, Prod.mk.injEq] at h
    obtain ⟨rfl, rfl, rfl⟩ := h
    obtain ⟨added, hrec, hext, hreads⟩ := receiveLoop_receives rfl
    exact ⟨rfl, added, hrec, (World.Extends.monotonicMs world).trans hext, hreads⟩
  · simp only [ht, if_false, Prod.mk.injEq] at h
    obtain ⟨rfl, rfl, rfl⟩ := h
    obtain ⟨added, hrec, hext, hreads⟩ := receiveLoop_receives rfl
    exact ⟨rfl, added, hrec, hext, hreads⟩

/-! ### A frame uses up bytes -/

/-- Bytes in the parser and still to come. -/
def pendingBytes (connection : AmlConnection) (world : World) : Nat :=
  connection.parser.data.length + receptionBytes world.receptions

/-- The parser never grows by itself. -/
theorem length_protocolParserNext_le (parser : ProtocolParser) (outputCapacity : Nat) :
    (protocolParserNext parser outputCapacity).2.data.length ≤ parser.data.length := by
  fun_induction protocolParserNext parser outputCapacity with
  -- one byte dropped, and the search goes on
  | case5 parser _ i _ candidate d hlen _ ih
  | case7 parser _ i _ candidate d hlen _ _ _ ih
  | case8 parser _ i _ candidate d hlen _ _ _ n _ ih
  | case10 parser _ i _ candidate d hlen _ _ _ n _ _ _ ih =>
    refine Nat.le_trans ih ?_
    simp only [candidate, protocolParserConsume_data, dropNoise_data, List.length_drop]
    omega
  -- the parser waits
  | case4 parser _ i _ candidate | case6 parser _ i _ candidate | case9 parser _ i _ candidate
  | case11 parser _ i _ candidate =>
    simp only [candidate, dropNoise_data, List.length_drop]
    omega
  | case12 parser _ i _ candidate =>
    simp only [candidate, protocolParserConsume_data, dropNoise_data, List.length_drop]
    omega
  | case2 parser hne => exact Nat.pos_of_ne_zero hne
  | case1 | case3 => simp

/-- The bytes of the frame, if there is one. -/
def NextResult.bytes : NextResult → List UInt8
  | .frame f => f
  | _ => []

/-- The frame returned, then what stays in the parser, end the bytes that were in it. -/
theorem protocolParserNext_suffix (parser : ProtocolParser) (outputCapacity : Nat) :
    (protocolParserNext parser outputCapacity).1.bytes ++
      (protocolParserNext parser outputCapacity).2.data <:+ parser.data := by
  fun_induction protocolParserNext parser outputCapacity with
  | case5 parser _ i _ candidate d _ _ ih
  | case7 parser _ i _ candidate d _ _ _ _ ih
  | case8 parser _ i _ candidate d _ _ _ _ n _ ih
  | case10 parser _ i _ candidate d _ _ _ _ n _ _ _ ih =>
    refine ih.trans ?_
    simp only [candidate, protocolParserConsume_data, dropNoise_data, List.drop_drop]
    exact List.drop_suffix _ _
  | case4 parser _ i _ candidate | case6 parser _ i _ candidate | case9 parser _ i _ candidate
  | case11 parser _ i _ candidate =>
    simp only [NextResult.bytes, List.nil_append, candidate, dropNoise_data]
    exact List.drop_suffix _ _
  | case12 parser _ i _ candidate d =>
    simp only [NextResult.bytes, protocolParserConsume_data, d, List.take_append_drop]
    rw [dropNoise_data]
    exact List.drop_suffix _ _
  | case1 parser => exact List.suffix_refl _
  | case2 parser hne _ hlast =>
    -- a final FE is kept
    have hnil : parser.data ≠ [] := by simpa using hne
    have hlast : parser.data.getLast hnil = amlFrameStart1 := by
      have hpos : parser.data.length - 1 < parser.data.length := by omega
      rw [List.getLast_eq_getElem, ← hlast, octet]
      simp [hpos]
    refine ⟨parser.data.dropLast, ?_⟩
    rw [← hlast]
    exact List.dropLast_append_getLast hnil
  | case3 parser => exact List.nil_suffix

theorem length_protocolParserFeed {parser fed : ProtocolParser} {data : List UInt8}
    (h : protocolParserFeed parser data = some fed) : fed.data = parser.data ++ data := by
  unfold protocolParserFeed at h
  split at h
  · cases h
  · cases h; rfl

theorem receiveLoop_pending_lt {outputCapacity : Nat} {deadlineMs : Option Int}
    {receptions : List Reception} {polled : Bool} {parser : ProtocolParser} {world : World}
    {f : List UInt8}
    (h : (receiveLoop outputCapacity deadlineMs receptions polled parser world).1 = .ok f) :
    (receiveLoop outputCapacity deadlineMs receptions polled parser world).2.1.data.length +
        receptionBytes
          (receiveLoop outputCapacity deadlineMs receptions polled parser world).2.2.receptions <
      parser.data.length + receptionBytes receptions := by
  fun_induction receiveLoop outputCapacity deadlineMs receptions polled parser world with
  | case1 receptions polled parser world f parser' hnext =>
    have hframe : (protocolParserNext parser outputCapacity).1 = .frame f := by rw [hnext]
    have hlt := length_lt_of_frame hframe
    rw [hnext] at hlt
    simpa using hlt
  -- nothing came: what is pending can only have shrunk
  | case5 polled parser world parser' hnext expired world' hexp _ rest ih =>
    have hle := length_protocolParserNext_le parser outputCapacity
    rw [hnext] at hle
    have hlt := ih h
    simp only [receptionBytes]
    dsimp only at hle
    omega
  -- bytes moved from the link to the parser
  | case8 polled parser world parser' hnext expired world' hexp _ chunk rest later fed hfeed ih =>
    have hle := length_protocolParserNext_le parser outputCapacity
    rw [hnext] at hle
    have hlt := ih h
    rw [length_protocolParserFeed hfeed, List.length_append] at hlt
    simp only [receptionBytes]
    dsimp only at hle
    omega
  | _ => exact absurd h (by simp)

/-- A frame returned by `aml_receive` leaves fewer bytes pending. -/
theorem amlReceive_pending_lt {connection : AmlConnection} {outputCapacity : Nat}
    {timeoutMs : Int} {world : World} {f : List UInt8}
    (h : (amlReceive connection outputCapacity timeoutMs world).1 = .ok f) :
    pendingBytes (amlReceive connection outputCapacity timeoutMs world).2.1
        (amlReceive connection outputCapacity timeoutMs world).2.2 <
      pendingBytes connection world := by
  unfold amlReceive at h ⊢
  split at h
  · cases h
  · next hfd =>
    simp only [hfd, if_false] at h ⊢
    split at h
    · next ht =>
      simp only [ht, if_true] at h ⊢
      exact receiveLoop_pending_lt h
    · next ht =>
      simp only [ht, if_false] at h ⊢
      exact receiveLoop_pending_lt h

/-! ### The frames of a link -/

/-- What came through a link since it was opened: bytes, frames returned, and calls of
the event handler. -/
structure LinkLog where
  bytes : List UInt8
  frames : List (List UInt8)
  events : List (UInt8 × List UInt8)

def LinkLog.empty : LinkLog := { bytes := [], frames := [], events := [] }

def LinkLog.step (log : LinkLog) : Obs → LinkLog
  | .opened => .empty
  | .received bytes => { log with bytes := log.bytes ++ bytes }
  | .frame f => { log with frames := log.frames ++ [f] }
  | .event code data => { log with events := log.events ++ [(code, data)] }
  | _ => log

/-- What came through the last link opened in a journal. -/
def linkLog (journal : List Obs) : LinkLog := journal.foldl LinkLog.step .empty

theorem linkLog_append (journal added : List Obs) :
    linkLog (journal ++ added) = added.foldl LinkLog.step (linkLog journal) :=
  List.foldl_append

/-- The frames returned, then those of the parser, are those of the bytes received. -/
def Scanned (log : LinkLog) (parser : ProtocolParser) : Prop :=
  frameScanner.scan log.bytes =
    (log.frames ++ (frameScanner.scan parser.data).1, (frameScanner.scan parser.data).2)

section Scanned

variable {outputCapacity : Nat} {parser parser' : ProtocolParser}

theorem scan_of_incomplete (hcap : amlProtocolMaxFrameSize ≤ outputCapacity)
    (h : protocolParserNext parser outputCapacity = (.incomplete, parser')) :
    frameVerdict parser'.data = .wait ∧
      frameScanner.scan parser'.data = frameScanner.scan parser.data := by
  obtain ⟨hres, hrest⟩ := protocolParserNext_agrees parser hcap
  rw [h] at hres hrest
  dsimp only at hrest
  rcases hnext : frameScanner.next parser.data with ⟨_ | u, r⟩
  · have hwait := Scanner.verdict_of_next_none parser.data (by rw [hnext])
    rw [hnext] at hrest hwait
    dsimp only at hrest hwait
    subst hrest
    refine ⟨hwait, ?_⟩
    rw [Scanner.scan_of_wait hwait, Scanner.scan_eq_next parser.data, hnext]
  · rw [hnext] at hres
    exact absurd hres (by simp [NextResult.ofUnit])

theorem scan_of_frame (hcap : amlProtocolMaxFrameSize ≤ outputCapacity) {f : List UInt8}
    (h : protocolParserNext parser outputCapacity = (.frame f, parser')) :
    frameScanner.scan parser.data =
      (f :: (frameScanner.scan parser'.data).1, (frameScanner.scan parser'.data).2) := by
  obtain ⟨hres, hrest⟩ := protocolParserNext_agrees parser hcap
  rw [h] at hres hrest
  dsimp only at hrest
  rcases hnext : frameScanner.next parser.data with ⟨_ | u, r⟩
  · rw [hnext] at hres
    exact absurd hres (by simp [NextResult.ofUnit])
  · rw [hnext] at hres hrest
    obtain rfl : f = u := by simpa [NextResult.ofUnit] using hres
    rw [Scanner.scan_eq_next parser.data, hnext, hrest]

/-- A parser with room for the longest frame never fails. -/
theorem protocolParserNext_ne_error (hcap : amlProtocolMaxFrameSize ≤ outputCapacity) (parser : ProtocolParser) :
    (protocolParserNext parser outputCapacity).1 ≠ .error := by
  rw [(protocolParserNext_agrees parser hcap).1]
  cases (frameScanner.next parser.data).1 <;> simp [NextResult.ofUnit]

theorem Scanned.feed {log : LinkLog} (h : Scanned log parser) {fed : ProtocolParser}
    {data : List UInt8} (hfeed : protocolParserFeed parser data = some fed) :
    Scanned (log.step (.received data)) fed := by
  show frameScanner.scan (log.bytes ++ data) = _
  rw [Scanner.scan_append, h, length_protocolParserFeed hfeed,
    Scanner.scan_append parser.data data]
  simp [LinkLog.step]

/-- **Nothing is lost or made up by a wait**: it accounts for every byte received and
every frame returned, and never fails with a protocol error. -/
theorem Receives.scanned (hcap : amlProtocolMaxFrameSize ≤ outputCapacity) {added : List Obs}
    {r : Except AmlErr (List UInt8)} (h : Receives outputCapacity parser added r parser') :
    r ≠ .error .protocol ∧
      ∀ log, Scanned log parser → Scanned (added.foldl LinkLog.step log) parser' := by
  induction h with
  | frame hnext =>
    refine ⟨by simp, fun log hlog => ?_⟩
    show frameScanner.scan log.bytes = _
    rw [hlog, scan_of_frame hcap hnext]
    simp [LinkLog.step]
  | @refused parser parser' hnext => exact absurd (by rw [hnext]) (protocolParserNext_ne_error hcap parser)
  | stop hnext hcode =>
    refine ⟨by simpa using hcode, fun log hlog => ?_⟩
    rw [Scanned, (scan_of_incomplete hcap hnext).2]
    exact hlog
  -- a parser that waits has room for any chunk
  | overflow hnext hfeed =>
    obtain ⟨fed, hsome, -⟩ := feed_of_wait _ (scan_of_incomplete hcap hnext).1
    rw [hfeed] at hsome
    cases hsome
  | quiet hnext _ ih =>
    refine ⟨ih.1, fun log hlog => ih.2 log ?_⟩
    rw [Scanned, (scan_of_incomplete hcap hnext).2]
    exact hlog
  | bytes hnext hfeed _ ih =>
    refine ⟨ih.1, fun log hlog => ih.2 _ ?_⟩
    refine Scanned.feed ?_ hfeed
    rw [Scanned, (scan_of_incomplete hcap hnext).2]
    exact hlog

end Scanned

end AmlService
