import AmlService.Aml.Link

/-!
# AmlService.Aml.PolledReceive

`aml_receive` with a time-out of 0: it does not wait, and looks at the socket once. What it
finds there is at most one `recv`, so that a frame that has arrived is returned if it is
complete after that one, and only then.
-/

namespace AmlService

open Scan

variable {outputCapacity : Nat} {parser : ProtocolParser} {chunks : List Chunk} {rest : List Reception}
  {connection : AmlConnection} {world : World}

/-! ### The first frame -/

/-- The first complete frame of a sequence of bytes, read from left to right. -/
def premiereTrame (d : List UInt8) : Option (List UInt8) := (frameScanner.scan d).1.head?

/-- What comes later does not change the first frame. -/
theorem premiereTrame_append {d f : List UInt8} (h : premiereTrame d = some f) (later : List UInt8) :
    premiereTrame (d ++ later) = some f := by
  unfold premiereTrame at h ⊢
  rw [Scanner.scan_append]
  simp [List.head?_append, h]

/-- Nor does what is dropped before it. -/
theorem premiereTrame_scan {d kept : List UInt8} (h : frameScanner.scan d = ([], kept)) (later : List UInt8) :
    premiereTrame (d ++ later) = premiereTrame (kept ++ later) := by
  rw [premiereTrame, Scanner.scan_append, h]
  rfl

/-- The parser returns it; without one, it waits, and what it keeps has none either. -/
theorem protocolParserNext_premiere (hcap : amlProtocolMaxFrameSize ≤ outputCapacity) (parser : ProtocolParser) :
    (∃ f parser', protocolParserNext parser outputCapacity = (.frame f, parser') ∧
        premiereTrame parser.data = some f) ∨
      ∃ parser', protocolParserNext parser outputCapacity = (.incomplete, parser') ∧
        frameVerdict parser'.data = .wait ∧
        frameScanner.scan parser.data = ([], parser'.data) := by
  rcases hnext : protocolParserNext parser outputCapacity with ⟨_ | _ | _, parser'⟩
  · exact .inl ⟨_, parser', rfl, by rw [premiereTrame, scan_of_frame hcap hnext]; rfl⟩
  · obtain ⟨hwait, hscan⟩ := scan_of_incomplete hcap hnext
    exact .inr ⟨parser', rfl, hwait, by rw [← hscan, Scanner.scan_of_wait hwait]⟩
  · exact absurd (by rw [hnext]) (protocolParserNext_ne_error hcap parser)

/-! ### One look at the socket -/

theorem World.expired_past {deadlineMs : Int} (hpast : deadlineMs ≤ world.clock world.clockReads) :
    world.expired (some deadlineMs) = (true, world.monotonicMs.2) := by
  have htrue : decide (deadlineMs - world.clock world.clockReads ≤ 0) = true := decide_eq_true (by omega)
  exact Prod.ext htrue rfl

/-- The end of a wait whose time is over, once the socket has been looked at. -/
theorem receiveLoop_expired (hcap : amlProtocolMaxFrameSize ≤ outputCapacity) {deadlineMs : Int}
    (hpast : deadlineMs ≤ world.clock world.clockReads) (receptions : List Reception) (parser : ProtocolParser) :
    (receiveLoop outputCapacity (some deadlineMs) receptions true parser world).1 =
      match premiereTrame parser.data with
      | some f => .ok f
      | none => .error .timeout := by
  have hexpired := World.expired_past hpast
  rcases protocolParserNext_premiere hcap parser with ⟨f, parser', hnext, hfirst⟩ | ⟨parser', hnext, -, hscan⟩
  · cases receptions <;> rw [receiveLoop, hnext, hfirst]
  · have hnone : premiereTrame parser.data = none := by rw [premiereTrame, hscan]; rfl
    cases receptions <;> rw [receiveLoop, hnext, hnone] <;> dsimp only <;> rw [hexpired] <;> rfl

/-- The bytes of the first `recv`. -/
def premiereLecture (chunks : List Chunk) : List UInt8 := (chunks.head?.map Chunk.bytes).getD []

/-- **What a call that does not wait returns**: the first frame of what the parser holds and of
one `recv`. -/
theorem amlReceive_zero (hcap : amlProtocolMaxFrameSize ≤ outputCapacity) (hfd : 0 ≤ connection.socketFd)
    (hclock : ∀ i j, i ≤ j → world.clock i ≤ world.clock j)
    (havailable : world.receptions = chunks.map .bytes ++ .quiet :: rest) :
    (amlReceive connection outputCapacity 0 world).1 =
      match premiereTrame (connection.parser.data ++ premiereLecture chunks) with
      | some f => .ok f
      | none => .error .timeout := by
  have hstart : (amlReceive connection outputCapacity 0 world).1 =
      (receiveLoop outputCapacity (some (world.clock world.clockReads + 0)) world.receptions false connection.parser
        world.monotonicMs.2).1 := by
    rw [amlReceive, if_neg (by omega)]
    rfl
  -- at its second and third readings the clock is past the first
  have hpast : ∀ w : World, w.clock = world.clock → world.clockReads ≤ w.clockReads →
      world.clock world.clockReads + 0 ≤ w.clock w.clockReads := by
    intro w hsame hreads
    rw [hsame, Int.add_zero]
    exact hclock _ _ hreads
  have hexpired := World.expired_past (hpast world.monotonicMs.2 rfl (Nat.le_add_right _ 1))
  rw [hstart, havailable]
  rcases protocolParserNext_premiere hcap connection.parser with ⟨f, parser', hnext, hfirst⟩ |
    ⟨parser', hnext, hwait, hscan⟩
  · rw [premiereTrame_append hfirst]
    cases chunks <;> rw [List.map] <;> dsimp only [List.nil_append, List.cons_append] <;> rw [receiveLoop, hnext]
  · rw [premiereTrame_scan hscan]
    cases chunks with
    | nil =>
      rw [List.map_nil, List.nil_append, receiveLoop, hnext]
      dsimp only
      rw [hexpired]
      have hend := receiveLoop_expired hcap (hpast world.monotonicMs.2.monotonicMs.2 rfl (Nat.le_add_right _ 2)) rest
        parser'
      simpa [premiereLecture] using hend
    | cons c cs =>
      obtain ⟨fed, hfeed, hfed⟩ := feed_of_wait c hwait
      rw [List.map_cons, List.cons_append, receiveLoop, hnext]
      dsimp only
      rw [hexpired]
      have hend := receiveLoop_expired hcap
        (hpast (world.monotonicMs.2.monotonicMs.2.log (.received c.bytes)) rfl (Nat.le_add_right _ 2))
        (cs.map .bytes ++ .quiet :: rest) fed
      rw [hfed] at hend
      simpa [premiereLecture, hfeed] using hend

/-! ### A frame already there -/

/-- What is promised of a call that does not wait, for the bytes of the parser and of the socket:
the first frame is returned, and there is none if the time has run out. -/
def RenduSansAttendre (d : List UInt8) (r : Except AmlErr (List UInt8)) : Prop :=
  (∀ f, premiereTrame d = some f → r = .ok f) ∧ (r = .error .timeout → premiereTrame d = none)

/-- **A frame that has arrived is returned without waiting** if and only if one `recv` is
enough to complete the first. -/
theorem renduSansAttendre_iff (hcap : amlProtocolMaxFrameSize ≤ outputCapacity) (hfd : 0 ≤ connection.socketFd)
    (hclock : ∀ i j, i ≤ j → world.clock i ≤ world.clock j)
    (havailable : world.receptions = chunks.map .bytes ++ .quiet :: rest) :
    RenduSansAttendre (connection.parser.data ++ streamOf chunks) (amlReceive connection outputCapacity 0 world).1 ↔
      premiereTrame (connection.parser.data ++ streamOf chunks) = none ∨
        premiereTrame (connection.parser.data ++ premiereLecture chunks) ≠ none := by
  have hresult := amlReceive_zero hcap hfd hclock havailable
  have hstream : ∃ later, connection.parser.data ++ streamOf chunks =
      connection.parser.data ++ premiereLecture chunks ++ later := by
    cases chunks with
    | nil => exact ⟨[], by simp [streamOf, premiereLecture]⟩
    | cons c cs => exact ⟨streamOf cs, by simp [streamOf, premiereLecture]⟩
  obtain ⟨later, hlater⟩ := hstream
  rw [hresult, hlater]
  cases hfirst : premiereTrame (connection.parser.data ++ premiereLecture chunks) with
  | none =>
    constructor
    · exact fun h => .inl (h.2 rfl)
    · rintro (hnone | hsome)
      · exact ⟨fun f hf => absurd (hnone.symm.trans hf) (by simp), fun _ => hnone⟩
      · exact absurd rfl hsome
  | some f =>
    have hsame := premiereTrame_append hfirst later
    refine ⟨fun _ => .inr (by simp), fun _ => ⟨fun g hg => ?_, fun htimeout => by cases htimeout⟩⟩
    rw [hsame] at hg
    rw [Option.some.inj hg]

/-- A connection that has received nothing yet. -/
def liaisonNeuve : AmlConnection := { socketFd := 3, parser := protocolParserInit }

/-- A reply in one piece. -/
theorem renduSansAttendre_entiere :
    let reply : Chunk := ⟨responseFrame amlRspStatus [0x16], by decide, by decide⟩
    RenduSansAttendre (liaisonNeuve.parser.data ++ streamOf [reply])
      (amlReceive liaisonNeuve 259 0 (World.scripted [.bytes reply, .quiet])).1 := by
  intro reply
  refine (renduSansAttendre_iff (Nat.le_refl 259) (by decide) (fun _ _ _ => Int.le_refl _) rfl).mpr (.inr ?_)
  decide +kernel

/-- The longest frame takes two `recv`: it has arrived, and the time runs out. -/
theorem renduSansAttendre_coupee :
    let frame := responseFrame amlRspStatus (List.replicate 247 0)
    let first : Chunk := ⟨frame.take 256, by decide +kernel, by decide +kernel⟩
    let second : Chunk := ⟨frame.drop 256, by decide +kernel, by decide +kernel⟩
    let r := (amlReceive liaisonNeuve 259 0 (World.scripted [.bytes first, .bytes second, .quiet])).1
    r = .error .timeout ∧ ¬ RenduSansAttendre (liaisonNeuve.parser.data ++ streamOf [first, second]) r := by
  intro frame first second r
  have htimeout : r = .error .timeout := by decide +kernel
  refine ⟨htimeout, fun h => ?_⟩
  have hnone := h.2 htimeout
  have hframe : (premiereTrame (liaisonNeuve.parser.data ++ streamOf [first, second])).isSome = true := by
    decide +kernel
  rw [hnone] at hframe
  cases hframe

end AmlService
