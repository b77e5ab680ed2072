import TransportStream.Pes
import TransportStream.Proofs.Machine.Packet

/-!
# Reading PES units with a cursor

A PES unit is read with a cursor as it is decoded. If its length is left open, the cursor moves on
to the end of the buffer.
-/

namespace TransportStream.Machine

open Reader

/-- Reads the clock reference of an elementary stream and counts its ticks. -/
def readStreamClock : Reader ClockReference := do
  let f ← readFields [2, 3, 1, 15, 1, 15, 1, 9, 1]
  let base ← joinTimestamp (← fieldAs 8 f 1) (← fieldAs 16 f 3) (← fieldAs 16 f 5)
  let clock : ClockReference := ⟨base, ← fieldAs 16 f 7⟩
  let _ ← clockTicks clock
  return clock

/-- Reads a time stamp behind four bits. -/
def readTimestamp : Reader Nat := Prod.snd <$> readNibbleAndTimestamp

/-- Reads the rate of a stream. -/
def readStreamRate : Reader Nat := do
  let f ← readFields [1, 22, 1]
  fieldAs 32 f 1

/-- Reads a trick mode. -/
def readTrickMode : Reader TrickMode := do
  let f ← readFields [3, 5]
  return ⟨← fieldAs 8 f 0, ← fieldAs 8 f 1⟩

/-- Reads information on copying. -/
def readCopyInfo : Reader Nat := do
  let f ← readFields [1, 7]
  fieldAs 8 f 1

/-- Reads the optional header of a PES unit. -/
def readPesHeader : Reader PesHeader := do
  let marks ← readFields [2, 2, 1, 1, 1, 1]
  expectEq marks 0 2
  let flags ← readFields [2, 1, 1, 1, 1, 1, 1]
  expectNe flags 0 1
  let length ← readU8
  let scrambling ← fieldAs 8 marks 1
  let priority ← flag marks 2
  let aligned ← flag marks 3
  let copyright ← flag marks 4
  let uncopied ← flag marks 5
  let timeFlags ← fieldAs 8 flags 0
  let extended ← flag flags 6
  within length do
    let pts ← ifFlag (timeFlags &&& 2 != 0) readTimestamp
    let dts ← ifFlag (timeFlags == 3) readTimestamp
    let escr ← ifFlag (← flag flags 1) readStreamClock
    let rate ← ifFlag (← flag flags 2) readStreamRate
    let trickMode ← ifFlag (← flag flags 3) readTrickMode
    let copyInfo ← ifFlag (← flag flags 4) readCopyInfo
    let previousCrc ← ifFlag (← flag flags 5) readU16
    return {
      scrambling, priority, aligned, copyright, uncopied, extended, length, pts, dts, escr, rate,
      trickMode, copyInfo, previousCrc }

/-- Takes the bytes that a unit's length gives it, all that are left if it is open. -/
def readBody (strictLength : Bool) (streamId : StreamId) (length : Nat) : Reader Bytes :=
  if length = 0 then
    if strictLength && !streamId.isVideo then throw (.unboundedLength streamId.code)
    else do readBytes (← remainingBytes)
  else readBytes length

/-- Reads the optional header and the payload of a unit. -/
def readContent (streamId : StreamId) : Reader (Option PesHeader × Bytes) := do
  let header ← ifFlag streamId.hasOptionalHeader readPesHeader
  return (header, ← remainingData)

/-- Reads a PES unit. -/
def readPes (strictLength : Bool) : Reader PesUnit := do
  let startCode ← readU24
  if startCode ≠ 1 then throw (.invalidStartCode startCode)
  else
    let streamId : StreamId := ⟨← readU8⟩
    let length ← readU16
    let content ← readBody strictLength streamId length
    let (header, payload) ← inside content (readContent streamId)
    return { streamId, length, header, payload }

/-- The clock reference of a stream is read with a cursor as it is decoded, and its ticks fit 64
bits. -/
theorem simulates_readStreamClock : Simulates readStreamClock Decoder.streamClock := by
  refine (SimulatesAs.readFields _).bind fun f _ => ?_
  have hticks : clockTicks ⟨timestamp (f.get 1) (f.get 3) (f.get 5), f.get 7⟩ = _ :=
    clockTicks_of_fields (timestamp_lt _ _ _) (f.get_lt 7 (by decide))
  simp (disch := decide) only [fieldAs_values, pure_bind, joinTimestamp_eq, hticks, liftM_pure]
  exact .pure trivial

/-- A time stamp is read with a cursor as it is decoded. -/
theorem simulates_readTimestamp :
    Simulates readTimestamp (Prod.snd <$> Decoder.nibbleAndTimestamp) := by
  rw [readTimestamp, map_eq_pure_bind, map_eq_pure_bind]
  exact simulates_readNibbleAndTimestamp.bind fun _ _ => .pure trivial

/-- The rate of a stream is read with a cursor as it is decoded. -/
theorem simulates_readStreamRate : Simulates readStreamRate streamRate := by
  refine (SimulatesAs.readFields _).bind fun f _ => ?_
  simp (disch := decide) only [fieldAs_values]
  exact .pure trivial

/-- A trick mode is read with a cursor as it is decoded. -/
theorem simulates_readTrickMode : Simulates readTrickMode TrickMode.decoder := by
  refine (SimulatesAs.readFields _).bind fun f _ => ?_
  simp (disch := decide) only [fieldAs_values, pure_bind]
  exact .pure trivial

/-- Information on copying is read with a cursor as it is decoded. -/
theorem simulates_readCopyInfo : Simulates readCopyInfo copyInfo := by
  refine (SimulatesAs.readFields _).bind fun f _ => ?_
  simp (disch := decide) only [fieldAs_values]
  exact .pure trivial

/-- Of two bits the upper one is told by a mask. -/
theorem and_two_ne_zero {n : Nat} (h : n < 4) : (n &&& 2 != 0) = decide (2 ≤ n) := by
  have hall : ∀ n < 4, (n &&& 2 != 0) = decide (2 ≤ n) := by decide
  exact hall n h

/-- The header of a unit is read with a cursor as it is decoded. Its flags for the times are told
apart by a mask. -/
theorem simulates_readPesHeader : Simulates readPesHeader PesHeader.decoder := by
  refine (SimulatesAs.readFields _).bind fun marks _ => ?_
  refine (Simulates.expectEq marks 0 _ 2).bind fun _ _ => ?_
  refine (SimulatesAs.readFields _).bind fun flags _ => ?_
  refine (Simulates.expectNe flags 0 _ 1).bind fun _ _ => ?_
  refine SimulatesWith.readU8.bind fun length hlength => ?_
  have htime := and_two_ne_zero (flags.get_lt 0 (by decide))
  simp (disch := decide) only [flag_values, fieldAs_values, pure_bind, htime]
  refine SimulatesWith.within ?_ (le_bufferLimit hlength (by decide))
  refine (simulates_readTimestamp.ifFlag _).bind fun _ _ => ?_
  refine (simulates_readTimestamp.ifFlag _).bind fun _ _ => ?_
  refine (simulates_readStreamClock.ifFlag _).bind fun _ _ => ?_
  refine (simulates_readStreamRate.ifFlag _).bind fun _ _ => ?_
  refine (simulates_readTrickMode.ifFlag _).bind fun _ _ => ?_
  refine (simulates_readCopyInfo.ifFlag _).bind fun _ _ => ?_
  refine (SimulatesWith.readU16.simulates.ifFlag _).bind fun _ _ => ?_
  exact .pure trivial

/-- What a unit holds is read with a cursor as it is decoded. -/
theorem simulates_readContent (streamId : StreamId) :
    Simulates (readContent streamId) (PesUnit.contentDecoder streamId) :=
  (simulates_readPesHeader.ifFlag _).bind fun _ _ =>
    SimulatesWith.remainingData.bind fun _ _ => .pure trivial

section Agreement

variable {α β : Type} {P : α → Prop} {reader : Reader α} {decoder : Decoder α}
  {next : α → Reader β} {next' : α → Decoder β} {c : Cursor} {r : BitReader}

/-- The value or error of a decoder. -/
def valueOf : EStateM.Result DecodeError BitReader α → Except DecodeError α
  | .ok a _ => .ok a
  | .error e _ => .error e

/-- A computation gives what a decoder gives. Where the cursor ends does not matter. -/
def Agrees (reader : Reader α) (decoder : Decoder α) (c : Cursor) (r : BitReader) : Prop :=
  ∃ c', reader.runOn c = pure (valueOf (decoder r), c')

/-- The same error is given on both sides. -/
theorem agrees_throw (e : DecodeError) (c : Cursor) (r : BitReader) :
    Agrees (throw e : Reader α) (throw e) c r := ⟨c, rfl⟩

/-- What simulates a decoder gives what the decoder gives. -/
theorem SimulatesWith.agrees (h : SimulatesWith P reader decoder) (hfollows : Follows c r) :
    Agrees reader decoder c r := by
  rw [Agrees]
  cases hread : decoder r with
  | ok a r' =>
    obtain ⟨_, c', hrun, _⟩ := h.of_ok hfollows hread
    exact ⟨c', hrun⟩
  | error e r' =>
    obtain ⟨c', hrun, _⟩ := h.of_error hfollows hread
    exact ⟨c', hrun⟩

/-- Behind a simulation it is enough that the later parts give the same. -/
theorem SimulatesWith.agrees_bind (h : SimulatesWith P reader decoder) (hfollows : Follows c r)
    (hnext : ∀ a c' r', P a → decoder r = .ok a r' → Follows c' r' →
      Agrees (next a) (next' a) c' r') :
    Agrees (reader >>= next) (decoder >>= next') c r := by
  cases hread : decoder r with
  | ok a r' =>
    obtain ⟨ha, c', hrun, hfollows'⟩ := h.of_ok hfollows hread
    rw [Agrees, Reader.runOn_bind_of_ok hrun, Decoder.bind_of_ok hread]
    exact hnext a c' r' ha hread hfollows'
  | error e r' =>
    obtain ⟨c', hrun, _⟩ := h.of_error hfollows hread
    rw [Agrees, Reader.runOn_bind_of_error hrun, Decoder.bind_of_error hread]
    exact ⟨c', rfl⟩

end Agreement

/-- Behind whole bytes a reader is at a byte boundary again. -/
theorem aligned_of_bits {n value : Nat} {r r' : BitReader} (h : Decoder.bits n r = .ok value r')
    (hn : 8 ∣ n) (haligned : r.aligned = true) : r'.aligned = true ∧ r'.failed = false := by
  unfold Decoder.bits at h
  split at h
  case isTrue => cases h
  case isFalse =>
    obtain ⟨hfailed, _, _, rfl⟩ := Decoder.consume_eq_ok.mp h
    have hused : r.used = 0 := by simpa [BitReader.aligned] using haligned
    refine ⟨?_, hfailed⟩
    simp only [BitReader.aligned, BitReader.advance, hused, beq_iff_eq]
    omega

/-- All bytes ahead are taken from a byte boundary. -/
theorem Follows.runOn_readBytes_all {c : Cursor} {r : BitReader} (h : Follows c r)
    (haligned : r.aligned = true) (hfailed : r.failed = false) :
    ∃ c' r', (do readBytes (← remainingBytes)).runOn c = pure (.ok r.rest, c') ∧
      Follows c' r' := by
  have hused : r.used = 0 := by simpa [BitReader.aligned] using haligned
  have hsmall := h.small
  have hlength := h.length_rest
  have hremaining : r.remainingBytes = r.rest.length := by
    rw [BitReader.remainingBytes, BitReader.available, hused]
    omega
  have hroom : 8 * r.rest.length ≤ r.available := by
    rw [BitReader.available, hused]
    omega
  have hread : Decoder.bytes r.rest.length r = .ok r.rest (r.advance _ hroom) := by
    rw [Decoder.bytes_of_aligned haligned]
    exact Decoder.consume_eq_ok.mpr ⟨hfailed, hroom, (List.take_length).symm, rfl⟩
  obtain ⟨_, c', hrun, hfollows'⟩ := (SimulatesWith.readBytes (by omega)).of_ok h hread
  refine ⟨c', _, ?_, hfollows'⟩
  rw [Reader.runOn_bind_of_ok h.runOn_remainingBytes, hremaining, hrun]
  rfl

/-- The bytes of a unit are taken, and what is behind them does not matter any more. -/
theorem agrees_readBody {β : Type} {strictLength : Bool} {streamId : StreamId} {length : Nat}
    (hlength : length < 2 ^ 16) {next : Bytes → Reader β} {next' : Bytes → Decoder β}
    (hnext : ∀ content, content.length < bufferLimit → Simulates (next content) (next' content))
    (hvalue : ∀ content r r', valueOf (next' content r) = valueOf (next' content r'))
    {c : Cursor} {r : BitReader} (hfollows : Follows c r) (haligned : r.aligned = true)
    (hfailed : r.failed = false) :
    Agrees (readBody strictLength streamId length >>= next)
      (PesUnit.body strictLength streamId length >>= next') c r := by
  unfold readBody PesUnit.body
  by_cases hzero : length = 0
  · rw [if_pos hzero, if_pos hzero]
    by_cases hstrict : (strictLength && !streamId.isVideo) = true
    · rw [if_pos hstrict]
      simp only [hstrict, if_true]
      exact agrees_throw _ c r
    · rw [if_neg hstrict]
      simp only [hstrict]
      obtain ⟨c', r', hrun, hfollows'⟩ := hfollows.runOn_readBytes_all haligned hfailed
      have hsmall : r.rest.length < bufferLimit := by
        have := hfollows.small
        have := hfollows.length_rest
        omega
      obtain ⟨c'', hlater⟩ := (hnext r.rest hsmall).agrees hfollows'
      refine ⟨c'', ?_⟩
      rw [Reader.runOn_bind_of_ok hrun, hlater, hvalue r.rest r' r]
      rfl
  · rw [if_neg hzero, if_neg hzero]
    have hbytes := SimulatesWith.readBytes (le_bufferLimit hlength (by decide))
    exact (hbytes.bind hnext).agrees hfollows

/-- If the reader does not matter for what is made of a result, it does not matter for the whole. -/
theorem valueOf_ofExcept_bind {α β : Type} (result : Except DecodeError α)
    {next : α → Decoder β} (hvalue : ∀ a r r', valueOf (next a r) = valueOf (next a r'))
    (r r' : BitReader) :
    valueOf ((ofExcept result >>= next) r) = valueOf ((ofExcept result >>= next) r') := by
  cases result with
  | ok a => exact hvalue a r r'
  | error e => rfl

/-- A PES unit is read off some bytes as it is decoded from them. -/
theorem parsePes_eq (strictLength : Bool) {bytes : Bytes} (hbytes : bytes.length < bufferLimit) :
    parse (readPes strictLength) bytes = pure (PesUnit.decode strictLength bytes) := by
  have haligned : (BitReader.ofBytes bytes).aligned = true := by rfl
  have hagrees : Agrees (readPes strictLength) (PesUnit.decoder strictLength) { data := bytes }
      (.ofBytes bytes) := by
    refine SimulatesWith.readU24.agrees_bind (.ofBytes hbytes) fun startCode c r _ hread hfollows =>
      ?_
    obtain ⟨haligned, _⟩ := aligned_of_bits hread (by decide) haligned
    by_cases hstart : startCode = 1
    · simp only [hstart, ne_eq, not_true_eq_false, if_false]
      refine SimulatesWith.readU8.agrees_bind hfollows fun code c r _ hread hfollows => ?_
      obtain ⟨haligned, _⟩ := aligned_of_bits hread (by decide) haligned
      refine SimulatesWith.readU16.agrees_bind hfollows fun length c r hlength hread hfollows => ?_
      obtain ⟨haligned, hfailed⟩ := aligned_of_bits hread (by decide) haligned
      refine agrees_readBody hlength ?_ ?_ hfollows haligned hfailed
      · intro content hcontent
        exact ((simulates_readContent _).inside hcontent).bind fun _ _ => .pure trivial
      · intro content
        exact valueOf_ofExcept_bind _ fun _ _ _ => rfl
    · simp only [ne_eq, hstart, not_false_eq_true, if_true]
      exact agrees_throw _ c r
  obtain ⟨c', hrun⟩ := hagrees
  rw [parse, hrun, map_pure, PesUnit.decode, Decoder.decode]
  cases PesUnit.decoder strictLength (.ofBytes bytes) with
  | ok unit r => rfl
  | error e r => rfl

end TransportStream.Machine
