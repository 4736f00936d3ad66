import Mathlib.Data.List.Basic

/-!
# AmlService.Aml.Protocol

The frames exchanged with the AML005 (`aml/protocol.c`): building a request, and
the receive parser that cuts frames out of the incoming bytes.

```
byte :  0  1  2  3  4  5  6  7  8 ...       n-3 n-2 n-1
       FE EF TT LL AB KK IL CC [data]    XX  55  0D  0A
```

The parser's array and its `length` are one list, bounded by the capacity of the
array; the bytes after `length` are never read by the source.
-/

namespace AmlService

/-! ### The envelope

`TT` is the direction of a frame, `LL` its length less four, `AB KK` the header of a request or
of a response, `IL` the internal length, `CC` the code, `XX` the exclusive or of the bytes from
`IL` to the last of the data. -/

abbrev amlFrameStart1 : UInt8 := 0xFE
abbrev amlFrameStart2 : UInt8 := 0xEF
abbrev amlFrameEnd : UInt8 := 0x55
abbrev amlFrameCr : UInt8 := 0x0D
abbrev amlFrameLf : UInt8 := 0x0A
abbrev amlFrameTypeRequest : UInt8 := 0x0A
abbrev amlFrameTypeResponse : UInt8 := 0x0C
abbrev amlFrameHeader : UInt8 := 0xAB
abbrev amlFrameHeaderRequest : UInt8 := 0xAA
abbrev amlFrameHeaderResponse : UInt8 := 0xBB

/-- Where the code is in a frame; the data come next. -/
abbrev amlFrameCodeOffset : Nat := 7
abbrev amlFrameDataOffset : Nat := 8

/-! ### Codes

A request `amlReqX` has the response `amlRspX`, whose code is another one: that is how a response
is told from the others. A request without one has no response. The messages `amlEvtX` are sent
by the AML without a request. -/

abbrev amlReqStatus : UInt8 := 0x00
abbrev amlRspStatus : UInt8 := 0xF0
abbrev amlReqSyncTime : UInt8 := 0x01
abbrev amlRspSyncTime : UInt8 := 0xF1
abbrev amlReqWriteSettings : UInt8 := 0x02
abbrev amlRspWriteSettings : UInt8 := 0xF2
abbrev amlReqReadSettings : UInt8 := 0x12
abbrev amlRspReadSettings : UInt8 := 0xE2
abbrev amlReqAlarm : UInt8 := 0x03
abbrev amlRspAlarm : UInt8 := 0xF3
abbrev amlReqAlarmStatus : UInt8 := 0x25
abbrev amlRspAlarmStatus : UInt8 := 0xC5
abbrev amlReqAlarmSnooze : UInt8 := 0x28
abbrev amlRspAlarmSnooze : UInt8 := 0xC8
abbrev amlReqAlarmStop : UInt8 := 0x29
abbrev amlRspAlarmStop : UInt8 := 0xC9
abbrev amlReqLightQuery : UInt8 := 0x30
abbrev amlRspLightQuery : UInt8 := 0xD0
abbrev amlReqLightBrightness : UInt8 := 0x31
abbrev amlReqMoodColor : UInt8 := 0x32
abbrev amlReqLightTimer : UInt8 := 0x33
abbrev amlReqMoodScene : UInt8 := 0x34
abbrev amlReqLightOff : UInt8 := 0x35
abbrev amlReqLightTimerOff : UInt8 := 0x36
abbrev amlReqLightOn : UInt8 := 0x37
abbrev amlReqLightTimerOn : UInt8 := 0x38
abbrev amlReqRadioQuery : UInt8 := 0x07
abbrev amlRspRadioQuery : UInt8 := 0xF7
abbrev amlReqRadioEnable : UInt8 := 0x08
abbrev amlRspRadioEnable : UInt8 := 0xF8
abbrev amlReqRadioPreset : UInt8 := 0x09
abbrev amlRspRadioPreset : UInt8 := 0xF9
abbrev amlReqRadioTune : UInt8 := 0x0A
abbrev amlRspRadioTune : UInt8 := 0xFA
abbrev amlReqRadioVolume : UInt8 := 0x0B
abbrev amlReqRadioTimerEnable : UInt8 := 0x0C
abbrev amlReqRadioTimer : UInt8 := 0x0D
abbrev amlReqSpeakerOn : UInt8 := 0x10
abbrev amlRspSpeakerOn : UInt8 := 0xE0
abbrev amlReqSpeakerOff : UInt8 := 0x24

abbrev amlEvtSunriseStart : UInt8 := 0xC6
abbrev amlEvtAlarmRing : UInt8 := 0xC7
abbrev amlEvtLightRefresh : UInt8 := 0xCA
abbrev amlEvtLightTimerEnd : UInt8 := 0xEB
abbrev amlEvtMoodTimerEnd : UInt8 := 0xEC
abbrev amlEvtRadioTimerEnd : UInt8 := 0xED
abbrev amlEvtMusicTimerEnd : UInt8 := 0xEE

/-- Argument of the status request. -/
abbrev amlStatusArg : UInt8 := 0x16

/-! ### Sizes -/

/-- The longest frame: the length byte counts all but the first four. -/
abbrev amlProtocolMaxFrameSize : Nat := 259

/-- Capacity of the receive buffer. -/
abbrev amlProtocolBufferSize : Nat := 1024

/-- Bytes around the internal content: six before it, two after. -/
abbrev amlFrameFixedSize : Nat := 8

/-- The largest `size_t`. -/
abbrev sizeMax : Nat := 0xFFFFFFFFFFFFFFFF

/-- Byte `i` of a buffer. The source only reads indices below the length. -/
def octet (d : List UInt8) (i : Nat) : UInt8 := d.getD i 0

/-! ### Building a request

Every test of the source on a length is kept, those that only guard an addition of `size_t`
included: which of them refuses first is what decides the longest request. -/

/-- The XOR of the bytes from the internal length to the last argument. -/
def checksum (bytes : List UInt8) : UInt8 := bytes.foldl (· ^^^ ·) 0

/-- `protocol_build_request`: the frame of a request, or `none` where the source
returns -1 and leaves its outputs untouched. -/
def protocolBuildRequest (requestCode : UInt8) (arguments : List UInt8)
    (outputCapacity : Nat) : Option (List UInt8) :=
  if arguments.length > sizeMax - 4 then none
  else
    let internalLength := arguments.length + 4
    if internalLength - 1 > 255 then none
    else if internalLength > 255 - 2 then none
    else if internalLength > sizeMax - amlFrameFixedSize then none
    else
      let frameLength := internalLength + amlFrameFixedSize
      if outputCapacity < frameLength then none
      else
        let content := UInt8.ofNat (internalLength - 1) :: requestCode :: arguments
        some ([amlFrameStart1, amlFrameStart2, amlFrameTypeRequest,
            UInt8.ofNat (frameLength - 4), amlFrameHeader, amlFrameHeaderRequest]
          ++ content ++ [checksum content, amlFrameEnd, amlFrameCr, amlFrameLf])

/-- A response as the AML005 sends it. -/
def responseFrame (code : UInt8) (data : List UInt8) : List UInt8 :=
  let content := UInt8.ofNat (data.length + 3) :: code :: data
  [amlFrameStart1, amlFrameStart2, amlFrameTypeResponse, UInt8.ofNat (data.length + 8),
    amlFrameHeader, amlFrameHeaderResponse] ++ content ++
    [checksum content, amlFrameEnd, amlFrameCr, amlFrameLf]

/-! ### The receive parser

The bytes come in pieces that have nothing to do with the frames. They are put at the end of
the buffer, and frames are cut from its front; what cannot be part of a frame is dropped on the
way. A candidate is a `FE EF`; as soon as a byte of it is wrong, the search goes on one byte
later, since what looked like the start of a frame may have been noise before the real one. -/

/-- The bytes received and not yet cut into frames. -/
@[ext] structure ProtocolParser where
  data : List UInt8
  fits : data.length ≤ amlProtocolBufferSize

/-- What `protocol_parser_next` returns: 1 with a frame, 0, or -1. -/
inductive NextResult
  | frame (bytes : List UInt8)
  | incomplete
  | error
  deriving Repr, DecidableEq

/-- `protocol_parser_init` -/
def protocolParserInit : ProtocolParser := ⟨[], Nat.zero_le _⟩

@[simp] theorem protocolParserInit_data : protocolParserInit.data = [] := rfl

/-- `protocol_parser_feed`: refused when the data exceed the remaining capacity. -/
def protocolParserFeed (parser : ProtocolParser) (data : List UInt8) :
    Option ProtocolParser :=
  if h : data.length > amlProtocolBufferSize - parser.data.length then none
  else some ⟨parser.data ++ data, by
    have := parser.fits
    simp only [List.length_append]; omega⟩

/-- `protocol_parser_consume`: drops the first `count` bytes. -/
def protocolParserConsume (parser : ProtocolParser) (count : Nat) : ProtocolParser :=
  if count ≥ parser.data.length then protocolParserInit
  else ⟨parser.data.drop count, by
    have := parser.fits
    simp only [List.length_drop]; omega⟩

@[simp] theorem protocolParserConsume_data (parser : ProtocolParser) (count : Nat) :
    (protocolParserConsume parser count).data = parser.data.drop count := by
  unfold protocolParserConsume
  split
  · next h => rw [List.drop_eq_nil_of_le h]; rfl
  · rfl

/-- The search loop for `FE EF`: index of the first occurrence. A final `FE` is not one. -/
def frameStart : List UInt8 → Option Nat
  | a :: b :: rest =>
    if a = amlFrameStart1 ∧ b = amlFrameStart2 then some 0
    else (frameStart (b :: rest)).map (· + 1)
  | _ => none

/-- Byte 5 of a frame, given its byte 2. -/
def expectedHeader (frameType : UInt8) : UInt8 :=
  if frameType = amlFrameTypeRequest then amlFrameHeaderRequest
  else amlFrameHeaderResponse

/-- Removes the noise found before `FE EF`, if any. -/
def dropNoise (parser : ProtocolParser) (i : Nat) : ProtocolParser :=
  if 0 < i then protocolParserConsume parser i else parser

@[simp] theorem dropNoise_data (parser : ProtocolParser) (i : Nat) :
    (dropNoise parser i).data = parser.data.drop i := by
  unfold dropNoise
  split
  · rw [protocolParserConsume_data]
  · next h => simp [Nat.eq_zero_of_not_pos h]

/-- `protocol_parser_next`: the next complete frame, dropping what cannot be one. -/
def protocolParserNext (parser : ProtocolParser) (outputCapacity : Nat) :
    NextResult × ProtocolParser :=
  if parser.data.length = 0 then (.incomplete, parser)
  else
    match frameStart parser.data with
    | none =>
      -- keep a final FE: the EF may come with the next bytes
      if octet parser.data (parser.data.length - 1) = amlFrameStart1 then
        (.incomplete, ⟨[amlFrameStart1], by decide⟩)
      else (.incomplete, protocolParserInit)
    | some i =>
      let candidate := dropNoise parser i
      let d := candidate.data
      if _short : d.length < 4 then (.incomplete, candidate)
      else if octet d 2 ≠ amlFrameTypeRequest ∧ octet d 2 ≠ amlFrameTypeResponse then
        protocolParserNext (protocolParserConsume candidate 1) outputCapacity
      else if d.length < 6 then (.incomplete, candidate)
      else if octet d 4 ≠ amlFrameHeader ∨ octet d 5 ≠ expectedHeader (octet d 2) then
        protocolParserNext (protocolParserConsume candidate 1) outputCapacity
      else
        let frameLength := (octet d 3).toNat + 4
        if frameLength < 12 ∨ frameLength > amlProtocolMaxFrameSize then
          protocolParserNext (protocolParserConsume candidate 1) outputCapacity
        else if d.length < frameLength then (.incomplete, candidate)
        else if octet d (frameLength - 3) ≠ amlFrameEnd ∨
            octet d (frameLength - 2) ≠ amlFrameCr ∨
            octet d (frameLength - 1) ≠ amlFrameLf then
          protocolParserNext (protocolParserConsume candidate 1) outputCapacity
        else if outputCapacity < frameLength then (.error, candidate)
        else (.frame (d.take frameLength), protocolParserConsume candidate frameLength)
termination_by parser.data.length
decreasing_by
  all_goals
    simp only [d, candidate, dropNoise_data, List.length_drop] at _short
    simp only [protocolParserConsume_data, dropNoise_data, List.length_drop]
    omega

/-- An extracted frame leaves the buffer strictly shorter. -/
theorem length_lt_of_frame {parser : ProtocolParser} {outputCapacity : Nat} {f : List UInt8}
    (h : (protocolParserNext parser outputCapacity).1 = .frame f) :
    (protocolParserNext parser outputCapacity).2.data.length < parser.data.length := by
  fun_induction protocolParserNext parser outputCapacity with
  | case5 parser _ i _ candidate d hlen _ ih
  | case7 parser _ i _ candidate d hlen _ _ _ ih
  | case8 parser _ i _ candidate d hlen _ _ _ n _ ih
  | case10 parser _ i _ candidate d hlen _ _ _ n _ _ _ ih =>
    refine Nat.lt_of_lt_of_le (ih h) ?_
    simp only [candidate, protocolParserConsume_data, dropNoise_data, List.length_drop]
    omega
  | case12 parser _ i _ candidate d hlen _ _ _ n hsize hpart =>
    have : 0 < n := Nat.succ_pos _
    simp only [d, candidate, dropNoise_data, List.length_drop] at hlen
    simp only [candidate, protocolParserConsume_data, dropNoise_data, List.length_drop]
    omega
  | _ => exact absurd h (by simp)

end AmlService
