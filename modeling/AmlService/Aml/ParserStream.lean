import AmlService.Aml.ProtocolScan

/-!
# AmlService.Aml.ParserStream

The receive parser over a whole byte stream: chunks are fed one after the other and
frames are taken out until none is left, as `aml_receive` does. The frames that come
out are those of a left-to-right reading of the stream, whatever the chunks.

The reading has to say when the bytes at a position are worth waiting for. The
parser looks at the closing bytes of a frame only once all the declared bytes have
arrived, so it also waits (`Unfinished`) where one of them is already wrong and
nothing can become of the candidate; `withheldStream` is such a stream.
-/

namespace AmlService

open Scan

/-- Bytes returned by one `recv` into a buffer of 256 bytes. -/
structure Chunk where
  bytes : List UInt8
  nonempty : 0 < bytes.length
  size : bytes.length ≤ 256
  deriving DecidableEq

/-- `protocol_parser_next` called until it returns 0: the frames, in order, or
`none` if it returns -1. -/
def extractAll (outputCapacity : Nat) (parser : ProtocolParser) :
    Option (List (List UInt8) × ProtocolParser) :=
  match _h : protocolParserNext parser outputCapacity with
  | (.frame f, rest) =>
    (extractAll outputCapacity rest).map fun (fs, last) => (f :: fs, last)
  | (.incomplete, rest) => some ([], rest)
  | (.error, _) => none
termination_by parser.data.length
decreasing_by
  have hframe : (protocolParserNext parser outputCapacity).1 = .frame f := by rw [_h]
  have := length_lt_of_frame hframe
  rwa [_h] at this

theorem extractAll_of_frame {outputCapacity : Nat} {parser rest : ProtocolParser}
    {f : List UInt8} (h : protocolParserNext parser outputCapacity = (.frame f, rest)) :
    extractAll outputCapacity parser =
      (extractAll outputCapacity rest).map fun (fs, last) => (f :: fs, last) := by
  rw [extractAll]; split <;> simp_all

theorem extractAll_of_incomplete {outputCapacity : Nat} {parser rest : ProtocolParser}
    (h : protocolParserNext parser outputCapacity = (.incomplete, rest)) :
    extractAll outputCapacity parser = some ([], rest) := by
  rw [extractAll]; split <;> simp_all

/-- One chunk fed, then the frames it completes taken out; `none` if the feed is
refused or an extraction fails. -/
def feedChunk (outputCapacity : Nat) (acc : List (List UInt8) × ProtocolParser)
    (chunk : Chunk) : Option (List (List UInt8) × ProtocolParser) :=
  (protocolParserFeed acc.2 chunk.bytes).bind fun parser =>
    (extractAll outputCapacity parser).map fun (fs, rest) => (acc.1 ++ fs, rest)

/-- The frames extracted from a stream received as `chunks`, and the parser then. -/
def feedAll (outputCapacity : Nat) (chunks : List Chunk) :
    Option (List (List UInt8) × ProtocolParser) :=
  chunks.foldlM (feedChunk outputCapacity) ([], protocolParserInit)

/-- The byte stream of a list of chunks. -/
def streamOf (chunks : List Chunk) : List UInt8 := (chunks.map Chunk.bytes).flatten

/-- The bytes at a position are worth waiting for: they can still become a frame, or
carry a header and fewer bytes than it declares. -/
def Awaited (d : List UInt8) : Prop := CanBecomeFrame d ∨ Unfinished d

/-! ### The buffer never overflows -/

/-- Taking out every frame is scanning the buffer. -/
theorem extractAll_eq {outputCapacity : Nat} (hcap : amlProtocolMaxFrameSize ≤ outputCapacity)
    (parser : ProtocolParser) :
    ∃ rest, extractAll outputCapacity parser = some ((frameScanner.scan parser.data).1, rest) ∧
      rest.data = (frameScanner.scan parser.data).2 := by
  induction hn : parser.data.length using Nat.strongRecOn generalizing parser with
  | _ n ih =>
    obtain ⟨hres, hrest⟩ := protocolParserNext_agrees parser hcap
    rw [Scanner.scan_eq_next]
    rcases hnext : frameScanner.next parser.data with ⟨u, r⟩
    rcases hp : protocolParserNext parser outputCapacity with ⟨res, rest⟩
    rw [hnext, hp] at hres hrest
    dsimp only at hres hrest
    subst hrest
    cases u with
    | none =>
      subst hres
      exact ⟨rest, extractAll_of_incomplete hp, rfl⟩
    | some f =>
      subst hres
      have hlt : rest.data.length < parser.data.length := by
        have hframe : (protocolParserNext parser outputCapacity).1 = .frame f := by rw [hp]; rfl
        have := length_lt_of_frame hframe
        rwa [hp] at this
      obtain ⟨last, hlast, hdata⟩ := ih rest.data.length (hn ▸ hlt) rest rfl
      exact ⟨last, by rw [extractAll_of_frame hp, hlast]; rfl, hdata⟩

/-- A parser on which the scanner waits has room for any chunk. -/
theorem feed_of_wait {parser : ProtocolParser} (chunk : Chunk)
    (hw : frameVerdict parser.data = .wait) :
    ∃ parser', protocolParserFeed parser chunk.bytes = some parser' ∧
      parser'.data = parser.data ++ chunk.bytes := by
  have hlen := length_le_of_wait hw
  have hsize := chunk.size
  unfold protocolParserFeed
  rw [dif_neg (by show ¬ chunk.bytes.length > 1024 - parser.data.length; omega)]
  exact ⟨_, rfl, rfl⟩

/-- Feeding chunks from a parser on which the scanner waits is feeding the scanner. -/
theorem foldlM_feedChunk {outputCapacity : Nat}
    (hcap : amlProtocolMaxFrameSize ≤ outputCapacity) (chunks : List Chunk) :
    ∀ (fs : List (List UInt8)) (parser : ProtocolParser),
      frameVerdict parser.data = .wait →
      ∃ rest, chunks.foldlM (feedChunk outputCapacity) (fs, parser) =
          some (((chunks.map Chunk.bytes).foldl frameScanner.feed (fs, parser.data)).1, rest) ∧
        rest.data = ((chunks.map Chunk.bytes).foldl frameScanner.feed (fs, parser.data)).2 := by
  induction chunks with
  | nil => intro fs parser _; exact ⟨parser, rfl, rfl⟩
  | cons c cs ih =>
    intro fs parser hw
    obtain ⟨fed, hfeed, hfed⟩ := feed_of_wait c hw
    obtain ⟨rest, hext, hrest⟩ := extractAll_eq hcap fed
    rw [hfed] at hext hrest
    have hstep : feedChunk outputCapacity (fs, parser) c =
        some (fs ++ (frameScanner.scan (parser.data ++ c.bytes)).1, rest) := by
      simp [feedChunk, hfeed, hext]
    obtain ⟨last, hlast, hdata⟩ := ih (fs ++ (frameScanner.scan (parser.data ++ c.bytes)).1) rest
      (by rw [hrest, ← frameScanner_verdict]; exact Scanner.verdict_scan _)
    refine ⟨last, ?_, ?_⟩
    · rw [List.foldlM_cons, hstep, List.map_cons, List.foldl_cons, Scanner.feed, ← hrest]
      exact hlast
    · rw [List.map_cons, List.foldl_cons, Scanner.feed, ← hrest]
      exact hdata

/-- The parser fed with any chunks extracts the scan of their stream. -/
theorem feedAll_eq_scan {outputCapacity : Nat}
    (hcap : amlProtocolMaxFrameSize ≤ outputCapacity) (chunks : List Chunk) :
    ∃ rest, feedAll outputCapacity chunks =
        some ((frameScanner.scan (streamOf chunks)).1, rest) ∧
      rest.data = (frameScanner.scan (streamOf chunks)).2 := by
  obtain ⟨rest, hrun, hrest⟩ := foldlM_feedChunk hcap chunks [] protocolParserInit (by decide)
  rw [Scanner.feed_chunks _ _ (by decide)] at hrun hrest
  exact ⟨rest, by simpa [feedAll, streamOf] using hrun, by simpa [streamOf] using hrest⟩

/-! ### The frames are those of a left-to-right reading -/

/-- Bytes that can still become a frame are never dropped. -/
theorem not_canBecome_of_skip {d : List UInt8} (h : frameVerdict d = .skip) :
    ¬ CanBecomeFrame d := by
  rintro ⟨t, n, hframe⟩
  have hemit := frameVerdict_emit_iff.mpr hframe
  rw [frameVerdict_stable t (by simp [h]), h] at hemit
  exact absurd hemit (by simp)

/-- An unfinished frame is never dropped. -/
theorem not_unfinished_of_skip {d : List UInt8} (h : frameVerdict d = .skip) :
    ¬ Unfinished d := by
  intro ⟨_, ⟨h0, h1⟩, hk, hh, hm, hs⟩
  simp only [frameVerdict, Verdict.check_eq_skip] at h
  rcases h with ⟨-, h | ⟨-, h | ⟨-, h | ⟨-, h | ⟨-, h | ⟨hp, -⟩⟩⟩⟩⟩⟩
  · exact h h0
  · exact h h1
  · exact h hk
  · exact h hh
  · exact h hm
  · exact absurd hp (Nat.not_le.mpr hs)

/-- Where the scanner waits, the bytes are awaited, or too few to hold a frame. -/
theorem awaited_of_wait {d : List UInt8} (h : frameVerdict d = .wait) :
    Awaited d ∨ ∀ t, t <:+ d → ∀ n, ¬ FrameAt t n := by
  by_cases hlen : d.length < 12
  · refine .inr fun t ht n hframe => ?_
    have := ht.length_le
    have := hframe.present
    have := hframe.minimal
    omega
  · simp only [frameVerdict, Verdict.check_eq_wait] at h
    rcases h with h | ⟨h0, h | ⟨h1, h | ⟨hk, h | ⟨hh, h | ⟨hm, h | ⟨-, h⟩⟩⟩⟩⟩⟩
    · omega
    · omega
    · omega
    · omega
    · exact absurd trivial h
    · exact .inl (.inr ⟨by omega, ⟨h0, h1⟩, hk, hh, hm, Nat.lt_of_not_le h⟩)
    · cases h

/-- **The frames extracted from a byte stream.** Whatever the chunks, no feed is
refused, no extraction fails, and the frames are those of the left-to-right reading
of the stream; in particular they depend on the stream alone. -/
theorem feedAll_reads {outputCapacity : Nat} (hcap : 259 ≤ outputCapacity)
    (chunks : List Chunk) :
    ∃ fs parser, feedAll outputCapacity chunks = some (fs, parser) ∧
      Reads FrameAt Awaited (streamOf chunks) fs ∧
      (∀ gs, Reads FrameAt Awaited (streamOf chunks) gs → gs = fs) ∧
      ∀ chunks', streamOf chunks' = streamOf chunks →
        (feedAll outputCapacity chunks').map Prod.fst = some fs := by
  obtain ⟨parser, hrun, -⟩ := feedAll_eq_scan hcap chunks
  have hreads : Reads FrameAt Awaited (streamOf chunks) (frameScanner.scan (streamOf chunks)).1 :=
    frameScanner.reads_scan frameVerdict_emit_iff
      (fun h => not_or.mpr ⟨not_canBecome_of_skip h, not_unfinished_of_skip h⟩)
      awaited_of_wait _
  refine ⟨_, parser, hrun, hreads, fun gs hgs => hgs.unique (fun _ _ _ hn hm => hn.unique hm) hreads, ?_⟩
  intro chunks' hs
  obtain ⟨parser', hrun', -⟩ := feedAll_eq_scan hcap chunks'
  rw [hrun', hs]
  rfl

/-! ### A frame withheld by a dead candidate -/

theorem not_frameAt_of_not_canBecome {d : List UInt8} (h : ¬ CanBecomeFrame d) (n : Nat) :
    ¬ FrameAt d n :=
  fun hframe => h ⟨[], n, by rwa [List.append_nil]⟩

/-- A closing byte that has arrived and is wrong settles the candidate. -/
theorem not_canBecome_of_closing {d : List UInt8} (hthere : declaredLength d - 3 < d.length)
    (h3 : 3 < d.length) (hwrong : octet d (declaredLength d - 3) ≠ amlFrameEnd) :
    ¬ CanBecomeFrame d := by
  rintro ⟨t, n, hframe⟩
  obtain rfl : n = declaredLength d := by
    rw [hframe.declared, octet_append t h3, declaredLength]
  have hclosing := hframe.closing.1
  rw [octet_append t hthere] at hclosing
  exact hwrong hclosing

/-- A header declaring 20 bytes, then a complete frame, whose last byte stands where the
`55` that closes the first should be. -/
def withheldStream : List UInt8 :=
  [0xFE, 0xEF, 0x0A, 0x10, 0xAB, 0xAA,
    0xFE, 0xEF, 0x0C, 0x08, 0xAB, 0xBB, 0x03, 0xF0, 0xF3, 0x55, 0x0D, 0x0A]

def withheldChunk : Chunk := ⟨withheldStream, by decide, by decide⟩

/-- Waiting only while the bytes can still become a frame, the reading of
`withheldStream` contains its second half. -/
theorem reads_withheld : Reads FrameAt CanBecomeFrame withheldStream [withheldStream.drop 6] := by
  have skip {a : UInt8} {s : List UInt8} {us : List (List UInt8)}
      (h : ¬ CanBecomeFrame (a :: s)) (hs : Reads FrameAt CanBecomeFrame s us) :
      Reads FrameAt CanBecomeFrame (a :: s) us :=
    .skip (not_frameAt_of_not_canBecome h) h hs
  refine skip (not_canBecome_of_closing (by decide) (by decide) (by decide)) ?_
  refine skip (not_canBecome_of_skip (by decide)) ?_
  refine skip (not_canBecome_of_skip (by decide)) ?_
  refine skip (not_canBecome_of_skip (by decide)) ?_
  refine skip (not_canBecome_of_skip (by decide)) ?_
  refine skip (not_canBecome_of_skip (by decide)) ?_
  have hframe : FrameAt (withheldStream.drop 6) 12 := frameVerdict_emit_iff.mp (by decide)
  exact .emit hframe (.nil_of_no_unit fun t ht n hn => by
    have hempty : ((withheldStream.drop 6).drop 12).length = 0 := by decide
    have := ht.length_le
    have := hn.present
    have := hn.minimal
    omega)

/-- The parser extracts nothing from `withheldStream`: it waits for the 20 declared
bytes of a candidate that can no longer become a frame. -/
theorem feedAll_withheld :
    (feedAll 259 [withheldChunk]).map Prod.fst = some [] ∧
      ¬ Reads FrameAt CanBecomeFrame (streamOf [withheldChunk]) [] := by
  refine ⟨by decide +kernel, fun h => ?_⟩
  have hstream : streamOf [withheldChunk] = withheldStream := by simp [streamOf, withheldChunk]
  rw [hstream] at h
  exact absurd (h.unique (fun _ _ _ hn hm => hn.unique hm) reads_withheld) (by simp)

/-- The amended reading at work: a reply cut in two. -/
theorem feedAll_reads_split_reply :
    ∃ fs parser, feedAll 259
        [⟨[0xFE, 0xEF, 0x0C, 0x09, 0xAB, 0xBB], by decide, by decide⟩,
          ⟨[0x04, 0xF0, 0x16, 0xE2, 0x55, 0x0D, 0x0A], by decide, by decide⟩] =
        some (fs, parser) ∧
      Reads FrameAt Awaited
        [0xFE, 0xEF, 0x0C, 0x09, 0xAB, 0xBB, 0x04, 0xF0, 0x16, 0xE2, 0x55, 0x0D, 0x0A] fs :=
  let ⟨fs, parser, hrun, hreads, _⟩ := feedAll_reads (Nat.le_refl 259)
    [⟨[0xFE, 0xEF, 0x0C, 0x09, 0xAB, 0xBB], by decide, by decide⟩,
      ⟨[0x04, 0xF0, 0x16, 0xE2, 0x55, 0x0D, 0x0A], by decide, by decide⟩]
  ⟨fs, parser, hrun, hreads⟩

end AmlService
