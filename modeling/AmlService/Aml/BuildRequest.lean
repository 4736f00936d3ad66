import AmlService.Aml.ProtocolScan

/-!
# AmlService.Aml.BuildRequest

`protocol_build_request` as it writes into the buffer of its caller, byte after byte:
`protocolBuildRequest` is what it computes. A request of up to 247 argument bytes is a frame
that the parser gives back; 248 and 249 are accepted as well, though their length does not fit
in its byte.
-/

namespace AmlService

/-! ### Into a buffer -/

/-- `memcpy` at an index of a buffer. -/
def memcpyAt (buffer : List UInt8) (i : Nat) (bytes : List UInt8) : List UInt8 :=
  buffer.take i ++ bytes ++ buffer.drop (i + bytes.length)

/-- `protocol_build_request`: its return value, `output` and `*output_length`. -/
def protocolBuildRequestInto (requestCode : UInt8) (arguments output : List UInt8)
    (outputCapacity outputLength : Nat) : Int × List UInt8 × Nat :=
  if arguments.length > sizeMax - 4 then (-1, output, outputLength)
  else
    let internalLength := arguments.length + 4
    if internalLength - 1 > 255 then (-1, output, outputLength)
    else if internalLength > 255 - 2 then (-1, output, outputLength)
    else if internalLength > sizeMax - amlFrameFixedSize then (-1, output, outputLength)
    else
      let frameLength := internalLength + amlFrameFixedSize
      if outputCapacity < frameLength then (-1, output, outputLength)
      else
        let output := output.set 0 amlFrameStart1
        let output := output.set 1 amlFrameStart2
        let output := output.set 2 amlFrameTypeRequest
        let output := output.set 3 (UInt8.ofNat (frameLength - 4))
        let output := output.set 4 amlFrameHeader
        let output := output.set 5 amlFrameHeaderRequest
        let output := output.set 6 (UInt8.ofNat (internalLength - 1))
        let output := output.set 7 requestCode
        let output := memcpyAt output 8 arguments
        let checksumIndex := 8 + arguments.length
        let checksum := (List.range' 6 (checksumIndex - 6)).foldl (fun sum i => sum ^^^ octet output i) 0
        let output := output.set checksumIndex checksum
        let output := output.set (checksumIndex + 1) amlFrameEnd
        let output := output.set (frameLength - 2) amlFrameCr
        let output := output.set (frameLength - 1) amlFrameLf
        (0, output, frameLength)

/-- A loop over consecutive bytes of a buffer is a loop over these bytes. -/
theorem foldl_range_octet (f : UInt8 → UInt8 → UInt8) (pre bytes post : List UInt8) (init : UInt8) :
    (List.range' pre.length bytes.length).foldl (fun acc i => f acc (octet (pre ++ bytes ++ post) i)) init =
      bytes.foldl f init := by
  induction bytes generalizing pre init with
  | nil => rfl
  | cons b bytes ih =>
    have hb : octet (pre ++ b :: bytes ++ post) pre.length = b := by simp [octet]
    have hrest := ih (pre ++ [b]) (f init b)
    simp only [List.append_assoc, List.cons_append, List.nil_append, List.length_append, List.length_singleton] at hrest
    rw [List.length_cons, List.range'_succ, List.foldl_cons, hb, List.foldl_cons]
    simpa using hrest

theorem memcpyAt_append {pre old post bytes : List UInt8} (h : old.length = bytes.length) :
    memcpyAt (pre ++ (old ++ post)) pre.length bytes = pre ++ (bytes ++ post) := by
  simp [memcpyAt, ← h]

theorem set_append_four (pre rest : List UInt8) (a b c d w x y z : UInt8) :
    ((((pre ++ a :: b :: c :: d :: rest).set pre.length w).set (pre.length + 1) x).set (pre.length + 2) y).set
      (pre.length + 3) z = pre ++ w :: x :: y :: z :: rest := by
  induction pre with
  | nil => rfl
  | cons p pre ih => exact congrArg (p :: ·) ih

/-- A buffer cut where a request of `n` argument bytes goes. -/
theorem buffer_split {output : List UInt8} {n : Nat} (h : n + 12 ≤ output.length) :
    ∃ a b c d e f g i old w x y z rest, old.length = n ∧
      output = [a, b, c, d, e, f, g, i] ++ (old ++ w :: x :: y :: z :: rest) := by
  match output, h with
  | a :: b :: c :: d :: e :: f :: g :: i :: output, h =>
    simp only [List.length_cons] at h
    have hsplit := List.take_append_drop n output
    have htake : (output.take n).length = n := List.length_take_of_le (by omega)
    have hdrop : (output.drop n).length = output.length - n := List.length_drop
    match hlast : output.drop n with
    | w :: x :: y :: z :: rest =>
      rw [hlast] at hsplit
      exact ⟨a, b, c, d, e, f, g, i, output.take n, w, x, y, z, rest, htake, by rw [hsplit]; rfl⟩
    | [] | [_] | [_, _] | [_, _, _] =>
      rw [hlast] at hdrop
      simp only [List.length_cons, List.length_nil] at hdrop
      omega

/-- The bytes written one after the other, in a buffer that has room for them. -/
theorem writes_eq (ll il requestCode a b c d e f g i w x y z : UInt8) {arguments old : List UInt8} (rest : List UInt8)
    (hold : old.length = arguments.length) :
    let output := memcpyAt ((((((((([a, b, c, d, e, f, g, i] ++ (old ++ w :: x :: y :: z :: rest)).set 0
      amlFrameStart1).set 1 amlFrameStart2).set 2 amlFrameTypeRequest).set 3 ll).set 4 amlFrameHeader).set 5
      amlFrameHeaderRequest).set 6 il).set 7 requestCode) 8 arguments
    ((((output.set (8 + arguments.length) ((List.range' 6 (8 + arguments.length - 6)).foldl
        (fun sum i => sum ^^^ octet output i) 0)).set (8 + arguments.length + 1) amlFrameEnd).set
        (arguments.length + 4 + 8 - 2) amlFrameCr).set (arguments.length + 4 + 8 - 1) amlFrameLf) =
      [amlFrameStart1, amlFrameStart2, amlFrameTypeRequest, ll, amlFrameHeader, amlFrameHeaderRequest] ++
        il :: requestCode :: arguments ++
        [checksum (il :: requestCode :: arguments), amlFrameEnd, amlFrameCr, amlFrameLf] ++ rest := by
  intro output
  have houtput : output = [amlFrameStart1, amlFrameStart2, amlFrameTypeRequest, ll, amlFrameHeader,
      amlFrameHeaderRequest, il, requestCode] ++ (arguments ++ w :: x :: y :: z :: rest) :=
    @memcpyAt_append [amlFrameStart1, amlFrameStart2, amlFrameTypeRequest, ll, amlFrameHeader, amlFrameHeaderRequest,
      il, requestCode] old (w :: x :: y :: z :: rest) arguments hold
  have hsum : (List.range' 6 (8 + arguments.length - 6)).foldl (fun sum i => sum ^^^ octet output i) 0 =
      checksum (il :: requestCode :: arguments) := by
    have hcount : 8 + arguments.length - 6 = (il :: requestCode :: arguments).length := by simp; omega
    rw [hcount, houtput]
    exact foldl_range_octet (· ^^^ ·) [amlFrameStart1, amlFrameStart2, amlFrameTypeRequest, ll, amlFrameHeader,
      amlFrameHeaderRequest] (il :: requestCode :: arguments) (w :: x :: y :: z :: rest) 0
  have hlength : 8 + arguments.length = ([amlFrameStart1, amlFrameStart2, amlFrameTypeRequest, ll, amlFrameHeader,
      amlFrameHeaderRequest, il, requestCode] ++ arguments).length := by simp; omega
  have hlast : arguments.length + 4 + 8 - 2 = 8 + arguments.length + 2 ∧
      arguments.length + 4 + 8 - 1 = 8 + arguments.length + 3 := by omega
  rw [hsum, houtput, hlast.1, hlast.2, hlength, ← List.append_assoc, set_append_four]
  simp

/-- **What is written is the frame**, and nothing else is. -/
theorem protocolBuildRequestInto_eq {requestCode : UInt8} {arguments output : List UInt8}
    {outputCapacity outputLength : Nat} (hroom : outputCapacity ≤ output.length) :
    protocolBuildRequestInto requestCode arguments output outputCapacity outputLength =
      match protocolBuildRequest requestCode arguments outputCapacity with
      | none => (-1, output, outputLength)
      | some frame => (0, frame ++ output.drop frame.length, frame.length) := by
  unfold protocolBuildRequestInto protocolBuildRequest
  split
  · rfl
  dsimp only
  split
  · rfl
  split
  · rfl
  split
  · rfl
  split
  · rfl
  next hcap =>
  simp only [amlFrameFixedSize] at hcap
  obtain ⟨a, b, c, d, e, f, g, i, old, w, x, y, z, rest, hold, rfl⟩ :=
    @buffer_split output arguments.length (by omega)
  refine Prod.ext rfl (Prod.ext ((writes_eq _ _ _ a b c d e f g i w x y z rest hold).trans ?_) ?_)
  · have hrest : ([a, b, c, d, e, f, g, i] ++ (old ++ w :: x :: y :: z :: rest)).drop (old.length + 4 + 8) = rest := by
      simp [List.drop_length_add_append]
    have hlength : ∀ {ll il sum : UInt8}, ([amlFrameStart1, amlFrameStart2, amlFrameTypeRequest, ll, amlFrameHeader,
        amlFrameHeaderRequest] ++ il :: requestCode :: arguments ++ [sum, amlFrameEnd, amlFrameCr, amlFrameLf]).length =
        old.length + 4 + 8 := by simp [hold]
    dsimp only
    rw [hlength, hrest]
  · simp [amlFrameFixedSize]

/-! ### Read back -/

/-- A frame at the start of the buffer is the next one. -/
theorem protocolParserNext_frameAt {parser : ProtocolParser} {n outputCapacity : Nat} (h : FrameAt parser.data n)
    (hroom : n ≤ outputCapacity) :
    protocolParserNext parser outputCapacity = (.frame (parser.data.take n), protocolParserConsume parser n) := by
  obtain ⟨hpresent, ⟨hfe, hef⟩, hkind, hheader, hdeclared, hminimal, hend⟩ := h
  have hstart : frameStart parser.data = some 0 := by
    rcases hdata : parser.data with _ | ⟨a, _ | ⟨b, rest⟩⟩ <;> rw [hdata] at hpresent hfe hef
    · simp at hpresent; omega
    · simp at hpresent; omega
    · simp only [octet, List.getD_cons_zero, List.getD_cons_succ] at hfe hef
      rw [frameStart, if_pos ⟨hfe, hef⟩]
  have hsame : dropNoise parser 0 = parser := rfl
  have hlast := declaredLength_le parser.data
  rw [declaredLength, ← hdeclared] at hlast
  rw [protocolParserNext, if_neg (by omega), hstart]
  simp only [hsame, ← hdeclared]
  rw [dif_neg (by omega), if_neg (by tauto), if_neg (by omega), if_neg (by tauto),
    if_neg (by show ¬ (n < 12 ∨ n > 259); omega), if_neg (by omega), if_neg (by tauto), if_neg (by omega)]

/-- The frame of a request, with its two lengths in a byte each. -/
def requestFrame (requestCode : UInt8) (arguments : List UInt8) : List UInt8 :=
  let content := UInt8.ofNat (arguments.length + 3) :: requestCode :: arguments
  [amlFrameStart1, amlFrameStart2, amlFrameTypeRequest, UInt8.ofNat (arguments.length + 8), amlFrameHeader,
    amlFrameHeaderRequest] ++ content ++ [checksum content, amlFrameEnd, amlFrameCr, amlFrameLf]

theorem protocolBuildRequest_eq (requestCode : UInt8) (arguments : List UInt8) (outputCapacity : Nat) :
    protocolBuildRequest requestCode arguments outputCapacity =
      if arguments.length ≤ 249 ∧ arguments.length + 12 ≤ outputCapacity then some (requestFrame requestCode arguments)
      else none := by
  unfold protocolBuildRequest
  simp only [sizeMax, amlFrameFixedSize]
  split
  · rw [if_neg (by omega)]
  split
  · rw [if_neg (by omega)]
  split
  · rw [if_neg (by omega)]
  split
  · rw [if_neg (by omega)]
  split
  · rw [if_neg (by omega)]
  · rw [if_pos (by omega)]
    rfl

section RequestFrame

variable (requestCode : UInt8) (arguments : List UInt8)

@[simp] theorem length_requestFrame : (requestFrame requestCode arguments).length = arguments.length + 12 := by
  simp [requestFrame]

/-- The declared length, the internal length, and the checksum. -/
theorem octet_requestFrame (rest : List UInt8) :
    octet (requestFrame requestCode arguments ++ rest) 3 = UInt8.ofNat (arguments.length + 8) ∧
      octet (requestFrame requestCode arguments ++ rest) 6 = UInt8.ofNat (arguments.length + 3) ∧
      octet (requestFrame requestCode arguments ++ rest) (arguments.length + 8) =
        checksum (((requestFrame requestCode arguments ++ rest).drop 6).take (arguments.length + 2)) := by
  refine ⟨rfl, rfl, ?_⟩
  simp [requestFrame, octet]

/-- A length that fits in its byte makes a frame. -/
theorem frameAt_requestFrame (h : arguments.length ≤ 247) :
    FrameAt (requestFrame requestCode arguments) (arguments.length + 12) := by
  have hbyte : (UInt8.ofNat (arguments.length + 8)).toNat = arguments.length + 8 :=
    UInt8.toNat_ofNat_of_lt' (show arguments.length + 8 < 256 by omega)
  refine ⟨by simp, ⟨rfl, rfl⟩, .inl rfl, ⟨rfl, rfl⟩, ?_, by omega, ?_⟩
  · show arguments.length + 12 = (UInt8.ofNat (arguments.length + 8)).toNat + 4
    omega
  · simp [requestFrame, octet]

end RequestFrame

/-! ### What is promised of a request -/

/-- A request built has the length it says, which is that of a frame, and its lengths and its
checksum where they are to be, and the parser gives it back; a request refused leaves the
outputs as they were. -/
structure RequeteTenue (arguments output : List UInt8) (outputLength : Nat) (r : Int × List UInt8 × Nat) : Prop where
  length : r.1 = 0 → r.2.2 = arguments.length + 12 ∧ r.2.2 ≤ amlProtocolMaxFrameSize
  declared : r.1 = 0 → (octet r.2.1 3).toNat = r.2.2 - 4 ∧ (octet r.2.1 6).toNat = arguments.length + 3
  sum : r.1 = 0 → octet r.2.1 (arguments.length + 8) = checksum ((r.2.1.drop 6).take (arguments.length + 2))
  relue : r.1 = 0 → ∀ capacity, r.2.2 ≤ capacity →
    ∃ parser, protocolParserFeed protocolParserInit (r.2.1.take r.2.2) = some parser ∧
      protocolParserNext parser capacity = (.frame (r.2.1.take r.2.2), protocolParserInit)
  refusee : r.1 = -1 → r.2 = (output, outputLength)

/-- A request that the parser gives back. -/
theorem requestFrame_tenue (requestCode : UInt8) {arguments : List UInt8} (output rest : List UInt8)
    (outputLength : Nat) (h : arguments.length ≤ 247) :
    RequeteTenue arguments output outputLength
      (0, requestFrame requestCode arguments ++ rest, (requestFrame requestCode arguments).length) := by
  obtain ⟨hdeclared, hinternal, hsum⟩ := octet_requestFrame requestCode arguments rest
  have htake : (requestFrame requestCode arguments ++ rest).take (requestFrame requestCode arguments).length =
      requestFrame requestCode arguments := List.take_left
  have hlength := length_requestFrame requestCode arguments
  refine ⟨fun _ => ⟨hlength, ?_⟩, fun _ => ⟨?_, ?_⟩, fun _ => hsum, fun _ capacity hcap => ?_, nofun⟩
  · show (requestFrame requestCode arguments).length ≤ 259
    omega
  · show (octet (requestFrame requestCode arguments ++ rest) 3).toNat = (requestFrame requestCode arguments).length - 4
    rw [hdeclared, hlength, UInt8.toNat_ofNat_of_lt' (show arguments.length + 8 < 256 by omega)]
    omega
  · show (octet (requestFrame requestCode arguments ++ rest) 6).toNat = arguments.length + 3
    rw [hinternal, UInt8.toNat_ofNat_of_lt' (show arguments.length + 3 < 256 by omega)]
  · -- alone in an empty buffer, it is the first frame and the last
    show ∃ parser, protocolParserFeed protocolParserInit ((requestFrame requestCode arguments ++ rest).take
      (requestFrame requestCode arguments).length) = some parser ∧ protocolParserNext parser capacity =
        (.frame ((requestFrame requestCode arguments ++ rest).take (requestFrame requestCode arguments).length),
          protocolParserInit)
    rw [htake]
    have hfits : (requestFrame requestCode arguments).length ≤ amlProtocolBufferSize := by
      show _ ≤ 1024
      omega
    have hframe := frameAt_requestFrame requestCode arguments h
    rw [← hlength] at hframe
    refine ⟨⟨requestFrame requestCode arguments, hfits⟩, ?_, ?_⟩
    · rw [protocolParserFeed, dif_neg (by simpa using hfits)]
      rfl
    · rw [protocolParserNext_frameAt hframe hcap, List.take_length, protocolParserConsume, if_pos (Nat.le_refl _)]

/-- **A request built is a frame**, except with 248 or 249 argument bytes and the room for them:
the length of the frame then does not fit in its byte. -/
theorem requeteTenue_iff (requestCode : UInt8) (arguments output : List UInt8) (outputCapacity outputLength : Nat)
    (hroom : outputCapacity ≤ output.length) :
    RequeteTenue arguments output outputLength
        (protocolBuildRequestInto requestCode arguments output outputCapacity outputLength) ↔
      ¬ ((arguments.length = 248 ∨ arguments.length = 249) ∧ arguments.length + 12 ≤ outputCapacity) := by
  rw [protocolBuildRequestInto_eq hroom, protocolBuildRequest_eq]
  constructor
  · rintro h ⟨hlong, hcap⟩
    rw [if_pos (by omega)] at h
    have hlength : (requestFrame requestCode arguments).length ≤ 259 := (h.length rfl).2
    rw [length_requestFrame] at hlength
    omega
  · intro h
    split
    · exact ⟨nofun, nofun, nofun, nofun, fun _ => rfl⟩
    · next hframe =>
      split at hframe
      · cases hframe
        exact requestFrame_tenue requestCode output _ outputLength (by omega)
      · cases hframe

/-- A color of the mood light. -/
theorem requeteTenue_couleur :
    RequeteTenue [255, 128, 0] (List.replicate 259 0) 0
      (protocolBuildRequestInto amlReqMoodColor [255, 128, 0] (List.replicate 259 0) 259 0) :=
  (requeteTenue_iff amlReqMoodColor [255, 128, 0] (List.replicate 259 0) 259 0
    (Nat.le_of_eq List.length_replicate.symm)).mpr (by decide)

/-- With 248 argument bytes, the frame of 260 bytes declares a length of 0. -/
theorem requeteTenue_tronquee :
    let r := protocolBuildRequestInto 0 (List.replicate 248 0) (List.replicate 260 0) 260 0
    r.1 = 0 ∧ r.2.2 = 260 ∧ octet r.2.1 3 = 0 ∧ ¬ RequeteTenue (List.replicate 248 0) (List.replicate 260 0) 0 r := by
  intro r
  have hbuilt : r.1 = 0 := by decide +kernel
  have hlength : r.2.2 = 260 := by decide +kernel
  refine ⟨hbuilt, hlength, by decide +kernel, fun h => ?_⟩
  have hmax := (h.length hbuilt).2
  rw [hlength] at hmax
  exact absurd hmax (by decide)

end AmlService
