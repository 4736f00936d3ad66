import AmlService.Lib.Scan
import AmlService.Aml.Protocol

/-!
# AmlService.Aml.ProtocolScan

What the receive parser computes, independently of its buffer: `frameVerdict` is
the decision taken at one position of the byte stream, `frameScanner` the scanner
it makes, and `protocolParserNext_agrees` says that `protocol_parser_next` is exactly
that scanner's `next`. The buffer bound (`length_le_of_wait`) makes every feed of at most
256 bytes succeed, so the results of `AmlService.Lib.Scan` apply to the parser.
-/

namespace AmlService

open Scan

theorem octet_append {d : List UInt8} {i : Nat} (t : List UInt8) (h : i < d.length) :
    octet (d ++ t) i = octet d i := by
  simp only [octet, List.getD_eq_getElem?_getD, List.getElem?_append_left h]

/-! ### Frames in a byte sequence -/

/-- The first `n` bytes of `d` are a structurally valid frame. -/
structure FrameAt (d : List UInt8) (n : Nat) : Prop where
  present : n ≤ d.length
  start : octet d 0 = amlFrameStart1 ∧ octet d 1 = amlFrameStart2
  kind : octet d 2 = amlFrameTypeRequest ∨ octet d 2 = amlFrameTypeResponse
  header : octet d 4 = amlFrameHeader ∧ octet d 5 = expectedHeader (octet d 2)
  declared : n = (octet d 3).toNat + 4
  minimal : 12 ≤ n
  closing : octet d (n - 3) = amlFrameEnd ∧ octet d (n - 2) = amlFrameCr ∧
    octet d (n - 1) = amlFrameLf

/-- `d` carries the header of a frame, of which fewer than the declared number of
bytes have arrived; its closing bytes are not looked at. -/
structure Unfinished (d : List UInt8) : Prop where
  enough : 6 ≤ d.length
  start : octet d 0 = amlFrameStart1 ∧ octet d 1 = amlFrameStart2
  kind : octet d 2 = amlFrameTypeRequest ∨ octet d 2 = amlFrameTypeResponse
  header : octet d 4 = amlFrameHeader ∧ octet d 5 = expectedHeader (octet d 2)
  minimal : 12 ≤ (octet d 3).toNat + 4
  short : d.length < (octet d 3).toNat + 4

/-- `d` can still become a frame when more bytes arrive. -/
def CanBecomeFrame (d : List UInt8) : Prop := ∃ t n, FrameAt (d ++ t) n

theorem FrameAt.unique {d : List UInt8} {n m : Nat} (hn : FrameAt d n) (hm : FrameAt d m) :
    n = m := by
  rw [hn.declared, hm.declared]

/-- Later bytes do not change a frame that has arrived. -/
theorem FrameAt.append {d : List UInt8} {n : Nat} (h : FrameAt d n) (t : List UInt8) :
    FrameAt (d ++ t) n := by
  have hp := h.present
  have hm := h.minimal
  have o (i : Nat) (hi : i < n) : octet (d ++ t) i = octet d i := octet_append t (by omega)
  refine ⟨by simp only [List.length_append]; omega, ?_, ?_, ?_, ?_, hm, ?_⟩
  · rw [o 0 (by omega), o 1 (by omega)]; exact h.start
  · rw [o 2 (by omega)]; exact h.kind
  · rw [o 4 (by omega), o 5 (by omega), o 2 (by omega)]; exact h.header
  · rw [o 3 (by omega)]; exact h.declared
  · rw [o (n - 3) (by omega), o (n - 2) (by omega), o (n - 1) (by omega)]; exact h.closing

/-! ### The decision at one position -/

/-- The length declared by byte 3. -/
def declaredLength (d : List UInt8) : Nat := (octet d 3).toNat + 4

theorem declaredLength_le (d : List UInt8) : declaredLength d ≤ 259 := by
  have := (octet d 3).toNat_lt
  unfold declaredLength; omega

/-- What the parser decides about the bytes at one position, in the order in which
`protocol_parser_next` looks at them. -/
def frameVerdict (d : List UInt8) : Verdict :=
  .check (0 < d.length) (octet d 0 = amlFrameStart1) <|
  .check (1 < d.length) (octet d 1 = amlFrameStart2) <|
  .check (4 ≤ d.length)
    (octet d 2 = amlFrameTypeRequest ∨ octet d 2 = amlFrameTypeResponse) <|
  .check (6 ≤ d.length)
    (octet d 4 = amlFrameHeader ∧ octet d 5 = expectedHeader (octet d 2)) <|
  .check True (12 ≤ declaredLength d) <|
  .check (declaredLength d ≤ d.length)
    (octet d (declaredLength d - 3) = amlFrameEnd ∧
      octet d (declaredLength d - 2) = amlFrameCr ∧
      octet d (declaredLength d - 1) = amlFrameLf) <|
  .emit (declaredLength d)

theorem frameVerdict_emit_iff {d : List UInt8} {n : Nat} :
    frameVerdict d = .emit n ↔ FrameAt d n := by
  simp only [frameVerdict, Verdict.check_eq_emit, Verdict.emit.injEq, true_and]
  constructor
  · rintro ⟨-, h0, -, h1, -, hk, -, hh, hm, hp, hc, rfl⟩
    exact ⟨hp, ⟨h0, h1⟩, hk, hh, rfl, hm, hc⟩
  · intro ⟨hp, ⟨h0, h1⟩, hk, hh, hd, hm, hc⟩
    obtain rfl : n = declaredLength d := hd
    exact ⟨by omega, h0, by omega, h1, by omega, hk, by omega, hh, hm, hp, hc, rfl⟩

/-- Later bytes revoke no decision but `wait`. -/
theorem frameVerdict_stable {d : List UInt8} (t : List UInt8) (h : frameVerdict d ≠ .wait) :
    frameVerdict (d ++ t) = frameVerdict d := by
  have o {i : Nat} (hi : i < d.length) : octet (d ++ t) i = octet d i := octet_append t hi
  have hlen : d.length ≤ (d ++ t).length := by simp
  unfold frameVerdict at h ⊢
  refine Verdict.check_stable (by omega) (fun e => by rw [o e]) (fun _ _ h => ?_) h
  refine Verdict.check_stable (by omega) (fun e => by rw [o e]) (fun _ _ h => ?_) h
  refine Verdict.check_stable (by omega) (fun e => by rw [o (by omega)]) (fun _ _ h => ?_) h
  refine Verdict.check_stable (by omega)
    (fun e => by rw [o (by omega), o (by omega), o (by omega)]) (fun e _ h => ?_) h
  have hd : declaredLength (d ++ t) = declaredLength d := by
    unfold declaredLength; rw [o (by omega)]
  rw [hd]
  refine Verdict.check_stable id (fun _ => Iff.rfl) (fun _ hm h => ?_) h
  refine Verdict.check_stable (by omega)
    (fun e => by rw [o (by omega), o (by omega), o (by omega)]) (fun _ _ _ => rfl) h

/-- The scanner of AML005 frames. -/
def frameScanner : Scanner UInt8 where
  verdict := frameVerdict
  verdict_nil := rfl
  emit_pos h := by have := (frameVerdict_emit_iff.mp h).minimal; omega
  emit_le h := (frameVerdict_emit_iff.mp h).present
  stable h t := frameVerdict_stable t h

@[simp] theorem frameScanner_verdict (d : List UInt8) :
    frameScanner.verdict d = frameVerdict d := rfl

/-- The parser waits only on the start of a frame, at most 258 bytes long. -/
theorem length_le_of_wait {d : List UInt8} (h : frameVerdict d = .wait) :
    d.length ≤ 258 := by
  have := declaredLength_le d
  simp only [frameVerdict, Verdict.check_eq_wait] at h
  rcases h with h | ⟨-, h | ⟨-, h | ⟨-, h | ⟨-, h | ⟨-, h | ⟨-, h⟩⟩⟩⟩⟩⟩
  all_goals first | omega | exact absurd trivial h | cases h

/-! ### The parser is the scanner -/

theorem frameVerdict_skip_of_start {a b : UInt8} {rest : List UInt8}
    (h : ¬ (a = amlFrameStart1 ∧ b = amlFrameStart2)) :
    frameScanner.verdict (a :: b :: rest) = .skip := by
  rw [frameScanner_verdict, frameVerdict, Verdict.check_eq_skip, Verdict.check_eq_skip]
  refine ⟨by simp, ?_⟩
  by_cases ha : a = amlFrameStart1
  · exact .inr ⟨by simp, .inl fun hb => h ⟨ha, hb⟩⟩
  · exact .inl ha

/-- The noise before the first `FE EF` is skipped by the scanner. -/
theorem next_frameStart_some {d : List UInt8} {i : Nat} (h : frameStart d = some i) :
    frameScanner.next d = frameScanner.next (d.drop i) ∧ 2 ≤ (d.drop i).length ∧
      octet (d.drop i) 0 = amlFrameStart1 ∧ octet (d.drop i) 1 = amlFrameStart2 := by
  induction d using frameStart.induct generalizing i with
  | case1 a b rest hab =>
    simp only [frameStart, hab, and_self, if_true, Option.some.injEq] at h
    subst h
    simp [octet, hab]
  | case2 a b rest hab ih =>
    rw [frameStart, if_neg hab, Option.map_eq_some_iff] at h
    obtain ⟨j, hj, rfl⟩ := h
    rw [Scanner.next_of_skip (frameVerdict_skip_of_start hab),
      List.tail_cons, List.drop_succ_cons]
    exact ih hj
  | case3 d hd =>
    unfold frameStart at h
    split at h
    · next a b rest => exact absurd rfl (hd a b rest)
    · exact absurd h (by simp)

/-- Without any `FE EF`, the scanner keeps at most a final `FE`. -/
theorem next_frameStart_none {d : List UInt8} (hd : 0 < d.length) (h : frameStart d = none) :
    frameScanner.next d =
      (none, if octet d (d.length - 1) = amlFrameStart1 then [amlFrameStart1] else []) := by
  induction d using frameStart.induct with
  | case1 a b rest hab => simp [frameStart, hab] at h
  | case2 a b rest hab ih =>
    rw [frameStart, if_neg hab, Option.map_eq_none_iff] at h
    rw [Scanner.next_of_skip (frameVerdict_skip_of_start hab),
      List.tail_cons, ih (by simp) h]
    simp [octet]
  | case3 d hd' =>
    match d, hd, hd' with
    | [a], _, _ =>
      by_cases ha : a = amlFrameStart1
      · subst ha
        rw [Scanner.next_of_wait (S := frameScanner) (by decide)]
        simp [octet]
      · have hskip : frameScanner.verdict [a] = .skip := by
          rw [frameScanner_verdict, frameVerdict, Verdict.check_eq_skip]
          exact ⟨by simp, .inl ha⟩
        rw [Scanner.next_of_skip hskip, List.tail_cons,
          Scanner.next_of_wait (S := frameScanner) (by decide)]
        simp [octet, ha]
    | a :: b :: rest, _, hd' => exact absurd rfl (hd' a b rest)

/-- The checks left once the header has been accepted. -/
def bodyVerdict (d : List UInt8) : Verdict :=
  .check True (12 ≤ declaredLength d) <|
  .check (declaredLength d ≤ d.length)
    (octet d (declaredLength d - 3) = amlFrameEnd ∧
      octet d (declaredLength d - 2) = amlFrameCr ∧
      octet d (declaredLength d - 1) = amlFrameLf) <|
  .emit (declaredLength d)

/-- The checks left once `FE EF` has been found. -/
def candidateVerdict (d : List UInt8) : Verdict :=
  .check (4 ≤ d.length)
    (octet d 2 = amlFrameTypeRequest ∨ octet d 2 = amlFrameTypeResponse) <|
  .check (6 ≤ d.length)
    (octet d 4 = amlFrameHeader ∧ octet d 5 = expectedHeader (octet d 2)) <|
  bodyVerdict d

/-- An accepted header leaves the checks of the body. -/
theorem candidateVerdict_body {d : List UInt8} (hlen : ¬ d.length < 4)
    (hkind : ¬ (octet d 2 ≠ amlFrameTypeRequest ∧ octet d 2 ≠ amlFrameTypeResponse))
    (hshort : ¬ d.length < 6)
    (hheader : ¬ (octet d 4 ≠ amlFrameHeader ∨ octet d 5 ≠ expectedHeader (octet d 2))) :
    candidateVerdict d = bodyVerdict d := by
  rw [candidateVerdict, Verdict.check, if_pos (Nat.le_of_not_lt hlen),
    if_pos (Decidable.not_not.mp (mt not_or.mp hkind)), Verdict.check,
    if_pos (Nat.le_of_not_lt hshort), if_pos (by simpa using hheader)]

/-- At the first `FE EF`, the scanner goes by the remaining checks. -/
theorem next_candidate {parser : ProtocolParser} {i : Nat}
    (h : frameStart parser.data = some i) :
    frameScanner.next parser.data = frameScanner.next (dropNoise parser i).data ∧
      frameScanner.verdict (dropNoise parser i).data =
        candidateVerdict (dropNoise parser i).data := by
  obtain ⟨hnext, hlen, h0, h1⟩ := next_frameStart_some h
  rw [dropNoise_data]
  refine ⟨hnext, ?_⟩
  rw [frameScanner_verdict, frameVerdict, Verdict.check, if_pos (by omega), if_pos h0,
    Verdict.check, if_pos (by omega), if_pos h1]
  rfl

/-- The parser's return value for what the scanner found. -/
def NextResult.ofUnit : Option (List UInt8) → NextResult
  | some f => .frame f
  | none => .incomplete

/-- The parser's step agrees with the scanner's. -/
def AgreesWithScanner (parser : ProtocolParser) (r : NextResult × ProtocolParser) : Prop :=
  r.1 = .ofUnit (frameScanner.next parser.data).1 ∧
    r.2.data = (frameScanner.next parser.data).2

namespace AgreesWithScanner

variable {parser : ProtocolParser} {i : Nat}

theorem wait (h : frameStart parser.data = some i)
    (hv : candidateVerdict (dropNoise parser i).data = .wait) :
    AgreesWithScanner parser (.incomplete, dropNoise parser i) := by
  obtain ⟨hnext, hverdict⟩ := next_candidate h
  rw [AgreesWithScanner, hnext, Scanner.next_of_wait (hverdict.trans hv)]
  exact ⟨rfl, rfl⟩

theorem skip {r : NextResult × ProtocolParser} (h : frameStart parser.data = some i)
    (hv : candidateVerdict (dropNoise parser i).data = .skip)
    (ih : AgreesWithScanner (protocolParserConsume (dropNoise parser i) 1) r) :
    AgreesWithScanner parser r := by
  obtain ⟨hnext, hverdict⟩ := next_candidate h
  rw [AgreesWithScanner, hnext, Scanner.next_of_skip (hverdict.trans hv), ← List.drop_one,
    ← protocolParserConsume_data]
  exact ih

theorem emit {n : Nat} (h : frameStart parser.data = some i)
    (hv : candidateVerdict (dropNoise parser i).data = .emit n) :
    AgreesWithScanner parser
      (.frame ((dropNoise parser i).data.take n),
        protocolParserConsume (dropNoise parser i) n) := by
  obtain ⟨hnext, hverdict⟩ := next_candidate h
  rw [AgreesWithScanner, hnext, Scanner.next_of_emit (hverdict.trans hv),
    protocolParserConsume_data]
  exact ⟨rfl, rfl⟩

end AgreesWithScanner

/-- **The parser is the scanner.** With room for the longest frame,
`protocol_parser_next` returns the first frame of its buffer and keeps what the
scanner leaves unread. -/
theorem protocolParserNext_agrees (parser : ProtocolParser) {outputCapacity : Nat}
    (hcap : amlProtocolMaxFrameSize ≤ outputCapacity) :
    AgreesWithScanner parser (protocolParserNext parser outputCapacity) := by
  fun_induction protocolParserNext parser outputCapacity with
  -- nothing in the buffer
  | case1 parser hempty =>
    have hnil : parser.data = [] := List.eq_nil_of_length_eq_zero hempty
    have hwait : frameScanner.verdict parser.data = .wait := by
      rw [hnil]; exact frameScanner.verdict_nil
    rw [AgreesWithScanner, Scanner.next_of_wait hwait]
    exact ⟨rfl, rfl⟩
  -- no `FE EF`: a final `FE` is kept, the rest dropped
  | case2 parser hne hnone hfe =>
    rw [AgreesWithScanner, next_frameStart_none (by omega) hnone, if_pos hfe]
    exact ⟨rfl, rfl⟩
  | case3 parser hne hnone hfe =>
    rw [AgreesWithScanner, next_frameStart_none (by omega) hnone, if_neg hfe]
    exact ⟨rfl, rfl⟩
  -- the byte of the kind has not come
  | case4 parser _ i hi candidate d hshort =>
    refine .wait hi (Verdict.check_eq_wait.mpr (.inl ?_))
    show ¬ 4 ≤ d.length
    omega
  -- not a kind of frame
  | case5 parser _ i hi candidate d hlen hkind ih =>
    refine .skip hi (Verdict.check_eq_skip.mpr ⟨Nat.le_of_not_lt hlen, .inl ?_⟩) ih
    exact not_or.mpr hkind
  -- the header has not come
  | case6 parser _ i hi candidate d hlen hkind hshort =>
    refine .wait hi (Verdict.check_eq_wait.mpr (.inr ⟨?_, Verdict.check_eq_wait.mpr (.inl ?_)⟩))
    · exact Decidable.not_not.mp (mt not_or.mp hkind)
    · exact Nat.not_le.mpr hshort
  -- not the header of this kind
  | case7 parser _ i hi candidate d hlen hkind hshort hheader ih =>
    refine .skip hi (Verdict.check_eq_skip.mpr ⟨Nat.le_of_not_lt hlen, .inr ?_⟩) ih
    refine Verdict.check_eq_skip.mpr ⟨Nat.le_of_not_lt hshort, .inl ?_⟩
    exact Decidable.not_and_iff_or_not.mpr hheader
  -- a declared length that no frame has
  | case8 parser _ i hi candidate d hlen hkind hshort hheader n hsize ih =>
    refine .skip hi ((candidateVerdict_body hlen hkind hshort hheader).trans ?_) ih
    refine Verdict.check_eq_skip.mpr ⟨trivial, .inl (Nat.not_le.mpr ?_)⟩
    exact hsize.resolve_right (Nat.not_lt.mpr (declaredLength_le d))
  -- part of the declared frame
  | case9 parser _ i hi candidate d hlen hkind hshort hheader n hsize hpart =>
    refine .wait hi ((candidateVerdict_body hlen hkind hshort hheader).trans ?_)
    refine Verdict.check_eq_wait.mpr (.inr ⟨?_, Verdict.check_eq_wait.mpr (.inl ?_)⟩)
    · exact Nat.le_of_not_lt (not_or.mp hsize).1
    · exact Nat.not_le.mpr hpart
  -- wrong closing bytes
  | case10 parser _ i hi candidate d hlen hkind hshort hheader n hsize hpart hclosing ih =>
    refine .skip hi ((candidateVerdict_body hlen hkind hshort hheader).trans ?_) ih
    refine Verdict.check_eq_skip.mpr ⟨trivial, .inr (Verdict.check_eq_skip.mpr ?_)⟩
    refine ⟨Nat.le_of_not_lt hpart, .inl ?_⟩
    rintro ⟨hend, hcr, hlf⟩
    exact hclosing.elim (· hend) (·.elim (· hcr) (· hlf))
  -- a frame too long for the output: the capacity rules it out
  | case11 parser _ i hi candidate d hlen hkind hshort hheader n hsize hpart hclosing hroom =>
    exact absurd hroom (Nat.not_lt.mpr (Nat.le_trans (declaredLength_le d) hcap))
  | case12 parser _ i hi candidate d hlen hkind hshort hheader n hsize hpart hclosing hroom =>
    refine .emit hi ((candidateVerdict_body hlen hkind hshort hheader).trans ?_)
    simp only [not_or, ne_eq, Decidable.not_not] at hclosing
    refine Verdict.check_eq_emit.mpr ⟨trivial, Nat.le_of_not_lt (not_or.mp hsize).1, ?_⟩
    exact Verdict.check_eq_emit.mpr ⟨Nat.le_of_not_lt hpart, hclosing, rfl⟩

end AmlService
