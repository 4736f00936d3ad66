import AmlService.Aml.Link

/-!
# AmlService.Aml.ReceiveBounds

How full the receive parser gets, over any run of `aml_receive` on one link. Every read
comes after an extraction that has found nothing complete, and what such an extraction
leaves is the start of one frame: there is always room for the bytes of a `recv`, and the
two resets of the parser are never reached.

`receiveLoopSuivi` is the loop of `aml_receive` with the record of what it does to the
parser, and nothing else changed (`receiveLoopSuivi_fst`).
-/

namespace AmlService

open Scan

/-! ### What is done to the parser -/

/-- The operations on the parser, in order. -/
inductive Etape
  /-- What `protocol_parser_next` returned. -/
  | extraite (r : NextResult)
  /-- `poll`, then `recv`, with so many bytes in the parser. -/
  | lecture (held : Nat)
  /-- `protocol_parser_feed`: whether the bytes were taken, and how many the parser then holds. -/
  | accumulee (accepted : Bool) (held : Nat)
  /-- `protocol_parser_init` -/
  | remise
  deriving Repr, DecidableEq

/-- `receiveLoop`, and what it does to the parser. -/
def receiveLoopSuivi (outputCapacity : Nat) (deadlineMs : Option Int) (receptions : List Reception)
    (polled : Bool) (parser : ProtocolParser) (world : World) :
    (Except AmlErr (List UInt8) × ProtocolParser × World) × List Etape :=
  match protocolParserNext parser outputCapacity with
  | (.frame f, parser) => ((.ok f, parser, ({ world with receptions }).log (.frame f)), [.extraite (.frame f)])
  | (.error, _) =>
    ((.error .protocol, protocolParserInit, { world with receptions }), [.extraite .error, .remise])
  | (.incomplete, parser) =>
    let (expired, world) := world.expired deadlineMs
    if expired && polled then ((.error .timeout, parser, { world with receptions }), [.extraite .incomplete])
    else
      let regard : List Etape := [.extraite .incomplete, .lecture parser.data.length]
      match receptions with
      | [] => ((.error .disconnected, parser, { world with receptions := [] }), regard)
      | .quiet :: rest =>
        let (r, etapes) := receiveLoopSuivi outputCapacity deadlineMs rest true parser world
        (r, regard ++ etapes)
      | .failed error :: rest => ((.error error.code, parser, { world with receptions := rest }), regard)
      | .bytes chunk :: rest =>
        let world := world.log (.received chunk.bytes)
        match protocolParserFeed parser chunk.bytes with
        | none =>
          ((.error .protocol, protocolParserInit, { world with receptions := rest }),
            regard ++ [.accumulee false parser.data.length, .remise])
        | some parser =>
          let (r, etapes) := receiveLoopSuivi outputCapacity deadlineMs rest true parser world
          (r, regard ++ .accumulee true parser.data.length :: etapes)
termination_by structural receptions

/-- The record changes nothing. -/
theorem receiveLoopSuivi_fst (outputCapacity : Nat) (deadlineMs : Option Int) (receptions : List Reception)
    (polled : Bool) (parser : ProtocolParser) (world : World) :
    (receiveLoopSuivi outputCapacity deadlineMs receptions polled parser world).1 =
      receiveLoop outputCapacity deadlineMs receptions polled parser world := by
  induction receptions generalizing polled parser world with
  | nil =>
    rw [receiveLoopSuivi, receiveLoop]
    rcases protocolParserNext parser outputCapacity with ⟨_ | _ | _, last⟩
    · rfl
    · dsimp only
      split <;> rfl
    · rfl
  | cons reception rest ih =>
    rw [receiveLoopSuivi, receiveLoop]
    rcases protocolParserNext parser outputCapacity with ⟨_ | _ | _, last⟩
    · rfl
    · dsimp only
      split
      · rfl
      cases reception with
      | quiet => exact ih _ _ _
      | failed error => rfl
      | bytes chunk =>
        dsimp only
        cases protocolParserFeed last chunk.bytes with
        | none => rfl
        | some fed => exact ih _ _ _
    · rfl

/-- `amlReceive`, and what it does to the parser. -/
def amlReceiveSuivi (connection : AmlConnection) (outputCapacity : Nat) (timeoutMs : Int)
    (world : World) : (Except AmlErr (List UInt8) × AmlConnection × World) × List Etape :=
  if connection.socketFd < 0 then ((.error .generic, connection, world), [])
  else
    let (deadlineMs, world) : Option Int × World :=
      if 0 ≤ timeoutMs then
        let (now, world) := world.monotonicMs
        (some (now + timeoutMs), world)
      else (none, world)
    let run := receiveLoopSuivi outputCapacity deadlineMs world.receptions false connection.parser world
    ((run.1.1, { connection with parser := run.1.2.1 }, run.1.2.2), run.2)

theorem amlReceiveSuivi_fst (connection : AmlConnection) (outputCapacity : Nat) (timeoutMs : Int) (world : World) :
    (amlReceiveSuivi connection outputCapacity timeoutMs world).1 =
      amlReceive connection outputCapacity timeoutMs world := by
  unfold amlReceiveSuivi amlReceive
  split
  · rfl
  · simp only [receiveLoopSuivi_fst]

/-! ### How full it gets -/

/-- At most 258 bytes before a read and 514 after; every read is taken in, nothing fails and
the parser is never reset. -/
def Etape.Bornee : Etape → Prop
  | .extraite r => r ≠ .error
  | .lecture held => held ≤ 258
  | .accumulee accepted held => accepted = true ∧ held ≤ 514
  | .remise => False

/-- What an extraction without a frame leaves has room for a `recv`. -/
theorem length_of_incomplete {outputCapacity : Nat} (hcap : amlProtocolMaxFrameSize ≤ outputCapacity)
    {parser parser' : ProtocolParser} (h : protocolParserNext parser outputCapacity = (.incomplete, parser')) :
    parser'.data.length ≤ 258 :=
  length_le_of_wait (scan_of_incomplete hcap h).1

/-- **One call.** -/
theorem receiveLoopSuivi_bornee {outputCapacity : Nat} (hcap : amlProtocolMaxFrameSize ≤ outputCapacity)
    (deadlineMs : Option Int) (receptions : List Reception) (polled : Bool) (parser : ProtocolParser) (world : World) :
    ∀ etape ∈ (receiveLoopSuivi outputCapacity deadlineMs receptions polled parser world).2, etape.Bornee := by
  have hrefused := protocolParserNext_ne_error hcap parser
  induction receptions generalizing polled parser world with
  | nil =>
    rw [receiveLoopSuivi]
    rcases hnext : protocolParserNext parser outputCapacity with ⟨_ | _ | _, last⟩
    · simp [Etape.Bornee]
    · have hlength := length_of_incomplete hcap hnext
      dsimp only
      split <;> simp [Etape.Bornee, hlength]
    · rw [hnext] at hrefused
      exact absurd rfl hrefused
  | cons reception rest ih =>
    rw [receiveLoopSuivi]
    rcases hnext : protocolParserNext parser outputCapacity with ⟨_ | _ | _, last⟩
    · simp [Etape.Bornee]
    · have hlength := length_of_incomplete hcap hnext
      have hrest := fun polled parser world => ih polled parser world (protocolParserNext_ne_error hcap parser)
      dsimp only
      split
      · simp [Etape.Bornee]
      cases reception with
      | quiet =>
        intro etape hmem
        simp only [List.cons_append, List.nil_append, List.mem_cons] at hmem
        rcases hmem with rfl | rfl | hmem
        · simp [Etape.Bornee]
        · exact hlength
        · exact hrest _ _ _ etape hmem
      | failed error => simp [Etape.Bornee, hlength]
      | bytes chunk =>
        obtain ⟨fed, hfeed, hfed⟩ := feed_of_wait chunk (scan_of_incomplete hcap hnext).1
        have hsize := chunk.size
        have hheld : fed.data.length ≤ 514 := by
          rw [hfed, List.length_append]
          omega
        dsimp only
        rw [hfeed]
        intro etape hmem
        simp only [List.cons_append, List.nil_append, List.mem_cons] at hmem
        rcases hmem with rfl | rfl | rfl | hmem
        · simp [Etape.Bornee]
        · exact hlength
        · exact ⟨rfl, hheld⟩
        · exact hrest _ _ _ etape hmem
    · rw [hnext] at hrefused
      exact absurd rfl hrefused

/-- One call of `aml_receive`, with room for any frame; `world` is what it finds then. -/
structure Attente where
  outputCapacity : Nat
  timeoutMs : Int
  world : World
  room : amlProtocolMaxFrameSize ≤ outputCapacity

/-- Calls on one connection, one after the other: what they return, what they do to the parser,
and the connection they leave. -/
def attentes (connection : AmlConnection) :
    List Attente → List (Except AmlErr (List UInt8)) × List Etape × AmlConnection
  | [] => ([], [], connection)
  | attente :: rest =>
    let run := amlReceiveSuivi connection attente.outputCapacity attente.timeoutMs attente.world
    let later := attentes run.1.2.1 rest
    (run.1.1 :: later.1, run.2 ++ later.2.1, later.2.2)

theorem amlReceiveSuivi_bornee (connection : AmlConnection) (attente : Attente) :
    (∀ etape ∈ (amlReceiveSuivi connection attente.outputCapacity attente.timeoutMs attente.world).2, etape.Bornee) ∧
      (amlReceiveSuivi connection attente.outputCapacity attente.timeoutMs attente.world).1.1 ≠ .error .protocol := by
  constructor
  · unfold amlReceiveSuivi
    split
    · exact fun _ hmem => absurd hmem List.not_mem_nil
    · exact receiveLoopSuivi_bornee attente.room _ _ _ _ _
  · rw [amlReceiveSuivi_fst]
    by_cases hfd : 0 ≤ connection.socketFd
    · obtain ⟨-, added, hreceives, -⟩ := amlReceive_receives hfd
        (rfl : amlReceive connection attente.outputCapacity attente.timeoutMs attente.world = (_, _, _))
      exact (hreceives.scanned attente.room).1
    · rw [amlReceive, if_pos (by omega)]
      simp

/-! ### Every extraction ends -/

theorem start_fits : [amlFrameStart1].length ≤ amlProtocolBufferSize := by decide

/-- One turn of `protocol_parser_next`: what it returns, or the parser for which it calls itself. -/
def protocolParserTurn (outputCapacity : Nat) (parser : ProtocolParser) :
    (NextResult × ProtocolParser) ⊕ ProtocolParser :=
  if parser.data.length = 0 then .inl (.incomplete, parser)
  else
    match frameStart parser.data with
    | none =>
      if octet parser.data (parser.data.length - 1) = amlFrameStart1 then
        .inl (.incomplete, ⟨[amlFrameStart1], start_fits⟩)
      else .inl (.incomplete, protocolParserInit)
    | some i =>
      let candidate := dropNoise parser i
      let d := candidate.data
      if d.length < 4 then .inl (.incomplete, candidate)
      else if octet d 2 ≠ amlFrameTypeRequest ∧ octet d 2 ≠ amlFrameTypeResponse then
        .inr (protocolParserConsume candidate 1)
      else if d.length < 6 then .inl (.incomplete, candidate)
      else if octet d 4 ≠ amlFrameHeader ∨ octet d 5 ≠ expectedHeader (octet d 2) then
        .inr (protocolParserConsume candidate 1)
      else
        let frameLength := (octet d 3).toNat + 4
        if frameLength < 12 ∨ frameLength > amlProtocolMaxFrameSize then .inr (protocolParserConsume candidate 1)
        else if d.length < frameLength then .inl (.incomplete, candidate)
        else if octet d (frameLength - 3) ≠ amlFrameEnd ∨ octet d (frameLength - 2) ≠ amlFrameCr ∨
            octet d (frameLength - 1) ≠ amlFrameLf then
          .inr (protocolParserConsume candidate 1)
        else if outputCapacity < frameLength then .inl (.error, candidate)
        else .inl (.frame (d.take frameLength), protocolParserConsume candidate frameLength)

/-- At most so many turns; `none` if that is not the end. -/
def protocolParserTurns (outputCapacity : Nat) : Nat → ProtocolParser → Option (NextResult × ProtocolParser)
  | 0, _ => none
  | turns + 1, parser =>
    match protocolParserTurn outputCapacity parser with
    | .inl r => some r
    | .inr parser' => protocolParserTurns outputCapacity turns parser'

/-- A call is a turn, and the call it ends with if there is one. -/
theorem protocolParserNext_turn (outputCapacity : Nat) (parser : ProtocolParser) :
    protocolParserNext parser outputCapacity =
      (protocolParserTurn outputCapacity parser).elim id (protocolParserNext · outputCapacity) := by
  rw [protocolParserNext, protocolParserTurn]
  cases frameStart parser.data <;>
    simp only [apply_ite (Sum.elim id _), Sum.elim_inl, Sum.elim_inr, id_eq, dite_eq_ite]

/-- Each turn drops a byte at least. -/
theorem protocolParserTurn_lt {outputCapacity : Nat} {parser parser' : ProtocolParser}
    (h : protocolParserTurn outputCapacity parser = .inr parser') : parser'.data.length < parser.data.length := by
  revert h
  fun_cases protocolParserTurn outputCapacity parser with
  | case5 _ i _ candidate d hlen | case7 _ i _ candidate d hlen | case8 _ i _ candidate d hlen
  | case10 _ i _ candidate d hlen =>
    intro h
    obtain rfl := Sum.inr.inj h
    simp only [d, candidate, dropNoise_data, List.length_drop] at hlen
    simp only [candidate, protocolParserConsume_data, dropNoise_data, List.length_drop]
    omega
  | _ => exact fun h => by cases h

/-- **`protocol_parser_next` ends**, after at most one turn for each byte and one more. -/
theorem protocolParserTurns_eq {outputCapacity turns : Nat} {parser : ProtocolParser}
    (h : parser.data.length < turns) :
    protocolParserTurns outputCapacity turns parser = some (protocolParserNext parser outputCapacity) := by
  induction turns generalizing parser with
  | zero => cases h
  | succ turns ih =>
    rw [protocolParserTurns, protocolParserNext_turn]
    cases hturn : protocolParserTurn outputCapacity parser with
    | inl r => rfl
    | inr parser' => exact ih (Nat.lt_of_lt_of_le (protocolParserTurn_lt hturn) (Nat.le_of_lt_succ h))

/-! ### Over a run -/

/-- **The parser is never full.** Whatever calls of `aml_receive` follow one another on a
connection, with any time-outs and whatever is received: the parser holds at most 258 bytes
before a read and 514 after, every read is taken in, no extraction fails, no call returns
`AML_ERR_PROTOCOL`, the parser is never reset, and every extraction ends. -/
theorem attentes_bornees (connection : AmlConnection) (calls : List Attente) :
    (∀ etape ∈ (attentes connection calls).2.1, etape.Bornee) ∧
      (∀ r ∈ (attentes connection calls).1, r ≠ .error .protocol) ∧
      ∀ parser outputCapacity, protocolParserTurns outputCapacity (parser.data.length + 1) parser =
        some (protocolParserNext parser outputCapacity) := by
  refine ⟨?_, ?_, fun parser outputCapacity => protocolParserTurns_eq (Nat.lt_succ_self _)⟩
  · induction calls generalizing connection with
    | nil => exact fun _ hmem => absurd hmem List.not_mem_nil
    | cons attente rest ih =>
      intro etape hmem
      rcases List.mem_append.mp hmem with hmem | hmem
      · exact (amlReceiveSuivi_bornee connection attente).1 etape hmem
      · exact ih _ etape hmem
  · induction calls generalizing connection with
    | nil => exact fun _ hmem => absurd hmem List.not_mem_nil
    | cons attente rest ih =>
      intro r hmem
      rcases List.mem_cons.mp hmem with rfl | hmem
      · exact (amlReceiveSuivi_bornee connection attente).2
      · exact ih _ r hmem

/-- A state of the AML, received with room for the largest frame and no more. -/
def attenteEtat : Attente where
  outputCapacity := 259
  timeoutMs := 0
  world := World.scripted [.bytes ⟨responseFrame amlRspStatus [0x16], by decide, by decide⟩]
  room := by decide

theorem attentes_bornees_etat :
    let run := attentes { socketFd := 3, parser := protocolParserInit } [attenteEtat]
    run.2.1 = [.extraite .incomplete, .lecture 0, .accumulee true 13,
      .extraite (.frame (responseFrame amlRspStatus [0x16]))] ∧ ∀ etape ∈ run.2.1, etape.Bornee :=
  ⟨by decide +kernel, (attentes_bornees _ _).1⟩

end AmlService
