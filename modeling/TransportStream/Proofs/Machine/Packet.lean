import TransportStream.Packet
import TransportStream.Proofs.Machine.Clock
import TransportStream.Proofs.Machine.Reading

/-!
# Reading packets with a cursor

Every part of a packet is read with a cursor as it is decoded. The ticks of its clock references fit
into 64 bits.
-/

namespace TransportStream.Machine

open Reader

/-- Reads a clock reference and counts its ticks. -/
def readProgramClock : Reader ClockReference := do
  let f ← readFields [33, 6, 9]
  let clock : ClockReference := ⟨← field f 0, ← fieldAs 16 f 2⟩
  let _ ← clockTicks clock
  return clock

/-- Reads four bits and the time stamp behind them. -/
def readNibbleAndTimestamp : Reader (Nat × Nat) := do
  let f ← readFields [4, 3, 1, 15, 1, 15, 1]
  let time ← joinTimestamp (← fieldAs 8 f 1) (← fieldAs 16 f 3) (← fieldAs 16 f 5)
  return (← fieldAs 8 f 0, time)

/-- Reads a signed 8-bit number. -/
def readI8 : Reader Int := return (Int.ofNat (← readU8)).bmod 256

/-- Reads a number of bytes in one byte, and then so many bytes. -/
def readCountedBytes : Reader Bytes := do readBytes (← readU8)

/-- Reads a legal time window. -/
def readTimeWindow : Reader TimeWindow := do
  let f ← readFields [1, 15]
  return ⟨← flag f 0, ← fieldAs 16 f 1⟩

/-- Reads a piecewise rate. -/
def readPiecewiseRate : Reader Nat := do
  let f ← readFields [2, 22]
  fieldAs 32 f 1

/-- Reads a seamless splice. -/
def readSeamlessSplice : Reader SeamlessSplice := do
  let (spliceType, nextDecodingTime) ← readNibbleAndTimestamp
  return ⟨spliceType, nextDecodingTime⟩

/-- Reads the extension of an adaptation field. -/
def readExtension : Reader AdaptationExtension := do
  within (← readU8) do
    let flags ← readFields [1, 1, 1, 5]
    let timeWindow ← ifFlag (← flag flags 0) readTimeWindow
    let piecewiseRate ← ifFlag (← flag flags 1) readPiecewiseRate
    let seamlessSplice ← ifFlag (← flag flags 2) readSeamlessSplice
    return { timeWindow, piecewiseRate, seamlessSplice }

/-- Reads the flags and the parts of an adaptation field. -/
def readAdaptationParts (length : Nat) : Reader AdaptationField := do
  let flags ← readFields [1, 1, 1, 1, 1, 1, 1, 1]
  let discontinuity ← flag flags 0
  let randomAccess ← flag flags 1
  let priority ← flag flags 2
  let pcr ← ifFlag (← flag flags 3) readProgramClock
  let opcr ← ifFlag (← flag flags 4) readProgramClock
  let spliceCountdown ← ifFlag (← flag flags 5) readI8
  let privateData ← ifFlag (← flag flags 6) readCountedBytes
  let extension ← ifFlag (← flag flags 7) readExtension
  return {
    length, discontinuity, randomAccess, priority, pcr, opcr, spliceCountdown, privateData,
    extension }

/-- Reads an adaptation field. -/
def readAdaptation : Reader AdaptationField := do
  let length ← readU8
  if length = 0 then return { length } else within length (readAdaptationParts length)

/-- Reads a packet. -/
def readPacket : Reader Packet := do
  let sync ← readU8
  if sync ≠ syncByte.toNat then throw (.invalidSyncByte sync)
  else
    let head ← readFields [1, 1, 1, 13, 2, 2, 4]
    if ← flag head 0 then throw .transportError
    else
      let unitStart ← flag head 1
      let priority ← flag head 2
      let pid ← fieldAs 16 head 3
      let scrambling ← fieldAs 8 head 4
      let control ← fieldAs 8 head 5
      let counter ← fieldAs 8 head 6
      let adaptation ← ifFlag (control &&& 2 != 0) readAdaptation
      let payload ← ifFlag (control &&& 1 != 0) remainingData
      return { unitStart, priority, pid, scrambling, counter, adaptation, payload }

/-- Reads a packet off some bytes, which must have the size of one. -/
def parsePacket (bytes : Bytes) : Checked (Except DecodeError Packet) :=
  if bytes.length = packetSize then parse readPacket bytes
  else return .error (.invalidPacketSize bytes.length)

/-- A length of so few bits keeps to the limit of a buffer. -/
theorem le_bufferLimit {n width : Nat} (h : n < 2 ^ width) (hwidth : width ≤ 60) :
    n ≤ bufferLimit :=
  Nat.le_trans (Nat.le_of_lt h) (Nat.pow_le_pow_right (by decide) hwidth)

/-- A program clock reference is read with a cursor as it is decoded, and its ticks fit 64 bits. -/
theorem simulates_readProgramClock : Simulates readProgramClock Decoder.programClock := by
  refine (SimulatesAs.readFields _).bind fun f _ => ?_
  have hticks : clockTicks ⟨f.get 0, f.get 2⟩ = pure (ClockReference.ticks ⟨f.get 0, f.get 2⟩) :=
    clockTicks_of_fields (f.get_lt 0 (by decide)) (f.get_lt 2 (by decide))
  simp (disch := decide) only [field_values, fieldAs_values, pure_bind, hticks, liftM_pure]
  exact .pure trivial

/-- A time behind four bits is read with a cursor as it is decoded. -/
theorem simulates_readNibbleAndTimestamp :
    Simulates readNibbleAndTimestamp Decoder.nibbleAndTimestamp := by
  refine (SimulatesAs.readFields _).bind fun f _ => ?_
  simp (disch := decide) only [fieldAs_values, pure_bind, joinTimestamp_eq, liftM_pure]
  exact .pure trivial

/-- A signed byte is read with a cursor as it is decoded. -/
theorem simulates_readI8 : Simulates readI8 Decoder.i8 :=
  SimulatesWith.readU8.bind fun _ _ => .pure trivial

/-- Counted bytes are read with a cursor as they are decoded. -/
theorem simulates_readCountedBytes : Simulates readCountedBytes Decoder.countedBytes :=
  SimulatesWith.readU8.bind fun _ hn =>
    (SimulatesWith.readBytes (le_bufferLimit hn (by decide))).simulates

/-- A legal time window is read with a cursor as it is decoded. -/
theorem simulates_readTimeWindow : Simulates readTimeWindow TimeWindow.decoder := by
  refine (SimulatesAs.readFields _).bind fun f _ => ?_
  simp (disch := decide) only [flag_values, fieldAs_values, pure_bind]
  exact .pure trivial

/-- A piecewise rate is read with a cursor as it is decoded. -/
theorem simulates_readPiecewiseRate : Simulates readPiecewiseRate piecewiseRateDecoder := by
  refine (SimulatesAs.readFields _).bind fun f _ => ?_
  simp (disch := decide) only [fieldAs_values]
  exact .pure trivial

/-- A seamless splice is read with a cursor as it is decoded. -/
theorem simulates_readSeamlessSplice : Simulates readSeamlessSplice SeamlessSplice.decoder :=
  simulates_readNibbleAndTimestamp.bind fun _ _ => .pure trivial

/-- An extension is read with a cursor as it is decoded. -/
theorem simulates_readExtension : Simulates readExtension AdaptationExtension.decoder := by
  refine SimulatesWith.readU8.bind fun n hn => ?_
  refine SimulatesWith.within ?_ (le_bufferLimit hn (by decide))
  refine (SimulatesAs.readFields _).bind fun f _ => ?_
  simp (disch := decide) only [flag_values, pure_bind]
  refine (simulates_readTimeWindow.ifFlag _).bind fun _ _ => ?_
  refine (simulates_readPiecewiseRate.ifFlag _).bind fun _ _ => ?_
  refine (simulates_readSeamlessSplice.ifFlag _).bind fun _ _ => ?_
  exact .pure trivial

/-- The flags and the parts of an adaptation field are read with a cursor as they are decoded. -/
theorem simulates_readAdaptationParts (length : Nat) :
    Simulates (readAdaptationParts length) (AdaptationField.partsDecoder length) := by
  refine (SimulatesAs.readFields _).bind fun f _ => ?_
  simp (disch := decide) only [flag_values, pure_bind]
  refine (simulates_readProgramClock.ifFlag _).bind fun _ _ => ?_
  refine (simulates_readProgramClock.ifFlag _).bind fun _ _ => ?_
  refine (simulates_readI8.ifFlag _).bind fun _ _ => ?_
  refine (simulates_readCountedBytes.ifFlag _).bind fun _ _ => ?_
  refine (simulates_readExtension.ifFlag _).bind fun _ _ => ?_
  exact .pure trivial

/-- An adaptation field is read with a cursor as it is decoded, also one that counts no bytes. -/
theorem simulates_readAdaptation : Simulates readAdaptation AdaptationField.decoder := by
  refine SimulatesWith.readU8.bind fun length hlength => ?_
  refine .ite (fun _ => .pure trivial) fun _ => ?_
  exact (simulates_readAdaptationParts length).within (le_bufferLimit hlength (by decide))

/-- The two bits that announce an adaptation field and a payload are told by masks. -/
theorem and_ne_zero {control : Nat} (h : control < 4) :
    (control &&& 2 != 0) = control.testBit 1 ∧ (control &&& 1 != 0) = control.testBit 0 := by
  have hall : ∀ control < 4, (control &&& 2 != 0) = Nat.testBit control 1 ∧
      (control &&& 1 != 0) = Nat.testBit control 0 := by decide
  exact hall control h

/-- A packet is read with a cursor as it is decoded, and its payload keeps to the limit of a
buffer. -/
theorem simulates_readPacket :
    SimulatesWith (fun packet => ∀ payload ∈ packet.payload, payload.length < bufferLimit)
      readPacket Packet.decoder := by
  refine SimulatesWith.readU8.bind fun sync _ => ?_
  refine .ite (fun _ => .throw _) fun _ => ?_
  refine (SimulatesAs.readFields _).bind fun f _ => ?_
  have hcontrol := and_ne_zero (f.get_lt 5 (by decide))
  simp (disch := decide) only [flag_values, fieldAs_values, pure_bind, hcontrol.1, hcontrol.2]
  refine .ite (fun _ => .throw _) fun _ => ?_
  refine (simulates_readAdaptation.ifFlag _).bind fun _ _ => ?_
  exact (SimulatesWith.remainingData.ifFlag _).bind fun _ hpayload => .pure hpayload

/-- What is read off some bytes is what is decoded from them. -/
theorem parse_eq {α : Type} {reader : Reader α} {decoder : Decoder α}
    (h : Simulates reader decoder) {bytes : Bytes} (hbytes : bytes.length < bufferLimit) :
    parse reader bytes = pure (decoder.decode bytes) := by
  rw [parse, Decoder.decode]
  cases hread : decoder (.ofBytes bytes) with
  | ok a r' =>
    obtain ⟨_, c', hrun, _⟩ := h.of_ok (Follows.ofBytes hbytes) hread
    rw [hrun, map_pure]
    rfl
  | error e r' =>
    obtain ⟨c', hrun, _⟩ := h.of_error (Follows.ofBytes hbytes) hread
    rw [hrun, map_pure]

/-- Whatever bytes are given, a packet is read off them without a fault. -/
theorem parsePacket_eq (bytes : Bytes) : parsePacket bytes = pure (Packet.decode bytes) := by
  unfold parsePacket Packet.decode
  split
  case isTrue hsize => exact parse_eq simulates_readPacket.simulates (by rw [hsize]; decide)
  case isFalse => rfl

/-- The payload of a packet keeps to the limit of a buffer. -/
theorem length_payload_lt {bytes payload : Bytes} {packet : Packet}
    (h : Packet.decode bytes = .ok packet) (hpayload : packet.payload = some payload) :
    payload.length < bufferLimit := by
  unfold Packet.decode at h
  split at h
  case isTrue hsize =>
    obtain ⟨r, hread⟩ := Decoder.decode_eq_ok.mp h
    have hlimit : bytes.length < bufferLimit := by
      rw [hsize]
      decide
    exact (simulates_readPacket.of_ok (Follows.ofBytes hlimit) hread).1 payload hpayload
  case isFalse => cases h

end TransportStream.Machine
