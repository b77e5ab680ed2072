import TransportStream.Proofs.Machine.Demuxer
import TransportStream.Proofs.Machine.Packetizer
import TransportStream.Proofs.Machine.Pes
import TransportStream.Receiver

/-!
# No call is a fault

A packetizer and a demultiplexer are called in any order, and packets, adaptation fields, tables and
PES units are decoded in between. As long as the caller keeps to what the calls ask for, and the
buffers to their limit, a machine answers each call without a fault, and as the packetizer, the
demultiplexer and the decoders do.

The questions after tables, counts and the configuration are left out: they are answered from what
is known, without any arithmetic.
-/

namespace TransportStream.Machine

open Packetizer (Output)

/-- A call of a packetizer, of a demultiplexer or of a decoder. -/
inductive Call where
  /-- The packetizer reads a chunk. -/
  | feed (chunk : Bytes)
  /-- The packetizer drops the held bytes. -/
  | clear
  /-- The demultiplexer reads a packet. -/
  | read (bytes : Bytes)
  /-- The pending unit is handed out. -/
  | take
  /-- The pending unit is decoded. -/
  | decodePending
  /-- The bytes of the pending unit are asked for. -/
  | pendingBytes
  /-- The PID of the pending unit is asked for. -/
  | pendingPid
  /-- The demultiplexer forgets all tables and units. -/
  | reset
  /-- A packet is decoded. -/
  | decodePacket (bytes : Bytes)
  /-- An adaptation field is decoded. -/
  | decodeAdaptation (bytes : Bytes)
  /-- A program association table is decoded. -/
  | decodeAssociation (bytes : Bytes)
  /-- A program map table is decoded. -/
  | decodeMap (bytes : Bytes)
  /-- A PES unit is decoded. -/
  | decodePes (strictLength : Bool) (bytes : Bytes)
  deriving DecidableEq, Repr

/-- Whether the demultiplexer reads a packet. -/
def Call.isRead : Call → Bool
  | read _ => true
  | _ => false

/-- The answer to a call. -/
inductive Answer where
  /-- What the packetizer put out. -/
  | outputs (outputs : List Output)
  /-- Nothing. -/
  | done
  /-- Whether a packet could be decoded, and what there is to note. -/
  | reading (result : Except DecodeError Unit) (notices : List Notice)
  /-- The unit that was pending. -/
  | taken (unit : Option PendingUnit)
  /-- What the pending unit holds. -/
  | decoded (unit : Option (Except DecodeError PesUnit))
  /-- The bytes of the pending unit. -/
  | bytes (bytes : Except MissingUnit Bytes)
  /-- The PID of the pending unit. -/
  | pid (pid : Except MissingUnit Nat)
  /-- A decoded packet. -/
  | packet (packet : Except DecodeError Packet)
  /-- A decoded adaptation field. -/
  | adaptation (field : Except DecodeError AdaptationField)
  /-- A decoded program association table. -/
  | association (table : Except DecodeError ProgramAssociation)
  /-- A decoded program map table. -/
  | map (table : Except DecodeError ProgramMap)
  /-- A decoded PES unit. -/
  | pes (unit : Except DecodeError PesUnit)

/-- The answer to a call, and what the packetizer and the demultiplexer are afterwards. -/
def answer (r : Receiver) : Call → Answer × Receiver
  | .feed chunk =>
    let (packetizer, outputs) := r.packetizer.read chunk
    (.outputs outputs, { r with packetizer })
  | .clear => (.done, { r with packetizer := r.packetizer.reset })
  | .read bytes =>
    let reading := r.demuxer.read bytes
    (.reading reading.result reading.notices, { r with demuxer := reading.demuxer })
  | .take => (.taken r.demuxer.take.1, { r with demuxer := r.demuxer.take.2 })
  | .decodePending => (.decoded r.demuxer.decodePending, r)
  | .pendingBytes => (.bytes r.demuxer.pendingBytes, r)
  | .pendingPid => (.pid r.demuxer.pendingPid, r)
  | .reset => (.done, { r with demuxer := r.demuxer.reset })
  | .decodePacket bytes => (.packet (Packet.decode bytes), r)
  | .decodeAdaptation bytes => (.adaptation (AdaptationField.decoder.decode bytes), r)
  | .decodeAssociation bytes => (.association (ProgramAssociation.decode bytes), r)
  | .decodeMap bytes => (.map (ProgramMap.decode bytes), r)
  | .decodePes strictLength bytes => (.pes (PesUnit.decode strictLength bytes), r)

/-- The answers to call after call. -/
def answers (r : Receiver) : List Call → List Answer
  | [] => []
  | call :: calls => (answer r call).1 :: answers (answer r call).2 calls

/-- What a machine keeps between the calls. -/
structure State where
  /-- The bytes that the packetizer holds. -/
  held : Bytes := []
  /-- What the demultiplexer knows. -/
  demuxer : Demuxer := {}

/-- What a machine keeps of a packetizer and a demultiplexer. -/
def State.of (r : Receiver) : State := ⟨r.packetizer.held, r.demuxer⟩

/-- The pending unit, which must be there. -/
def pendingUnit (d : Demuxer) : Checked PendingUnit :=
  match d.pending with
  | some unit => pure unit
  | none => throw .missingUnit

/-- Answers a call with the arithmetic of a machine. -/
def step (s : State) : Call → Checked (Answer × State)
  | .feed chunk => do
    let (held, outputs) ← readChunk s.held chunk
    return (.outputs outputs, { s with held })
  | .clear => return (.done, { s with held := [] })
  | .read bytes => do
    let reading ← readNext s.demuxer bytes
    return (.reading reading.result reading.notices, { s with demuxer := reading.demuxer })
  | .take => return (.taken s.demuxer.take.1, { s with demuxer := s.demuxer.take.2 })
  | .decodePending =>
    match s.demuxer.pending with
    | none => return (.decoded none, s)
    | some unit => do
      let decoded ← Reader.parse (readPes s.demuxer.config.strictLength) unit.bytes
      return (.decoded (some decoded), s)
  | .pendingBytes => do return (.bytes (.ok (← pendingUnit s.demuxer).bytes), s)
  | .pendingPid => do return (.pid (.ok (← pendingUnit s.demuxer).pid), s)
  | .reset => return (.done, { s with demuxer := s.demuxer.reset })
  | .decodePacket bytes => do return (.packet (← parsePacket bytes), s)
  | .decodeAdaptation bytes => do return (.adaptation (← Reader.parse readAdaptation bytes), s)
  | .decodeAssociation bytes => do return (.association (← Reader.parse readAssociation bytes), s)
  | .decodeMap bytes => do return (.map (← Reader.parse readMap bytes), s)
  | .decodePes strictLength bytes => do
    return (.pes (← Reader.parse (readPes strictLength) bytes), s)

/-- Answers call after call with the arithmetic of a machine. -/
def run (s : State) : List Call → Checked (List Answer)
  | [] => return []
  | call :: calls => do
    let (answer, later) ← step s call
    let answers ← run later calls
    return answer :: answers

/-- What a call asks for: chunks are not empty, there is a pending unit if it is asked for, and all
bytes keep to the limit of a buffer. -/
def Call.Allowed (r : Receiver) : Call → Prop
  | feed chunk => chunk ≠ [] ∧ chunk.length < bufferLimit
  | pendingBytes | pendingPid => r.demuxer.pending ≠ none
  | decodeAdaptation bytes | decodeAssociation bytes | decodeMap bytes | decodePes _ bytes =>
    bytes.length < bufferLimit
  | clear | read _ | take | decodePending | reset | decodePacket _ => True

/-- A caller keeps to what each call asks for, and all units keep to the limit of a buffer. -/
def Legal (r : Receiver) : List Call → Prop
  | [] => True
  | call :: calls => Small r.demuxer ∧ call.Allowed r ∧ Legal (answer r call).2 calls

/-- Whether all units keep to the limit can be found out by going through them. -/
theorem small_iff {d : Demuxer} : Small d ↔
    (∀ entry ∈ d.units.toList, entry.2.bytes.length < bufferLimit) ∧
      ∀ unit ∈ d.pending, unit.bytes.length < bufferLimit := by
  simp only [Prod.forall, Std.ExtTreeMap.mem_toList_iff_getElem?_eq_some]
  exact ⟨fun h => ⟨h.units, h.pending⟩, fun h => ⟨h.1, h.2⟩⟩

instance (d : Demuxer) : Decidable (Small d) := decidable_of_iff _ small_iff.symm

instance decidableAllowed (r : Receiver) : ∀ call : Call, Decidable (call.Allowed r)
  | .feed _ => inferInstanceAs (Decidable (_ ∧ _))
  | .pendingBytes | .pendingPid => inferInstanceAs (Decidable (_ ≠ _))
  | .decodeAdaptation _ | .decodeAssociation _ | .decodeMap _ | .decodePes _ _ =>
    inferInstanceAs (Decidable (_ < _))
  | .clear | .read _ | .take | .decodePending | .reset | .decodePacket _ => isTrue trivial

instance decidableLegal (r : Receiver) : ∀ calls, Decidable (Legal r calls)
  | [] => isTrue trivial
  | call :: calls =>
    have := decidableLegal (answer r call).2 calls
    inferInstanceAs (Decidable (_ ∧ _ ∧ _))

variable {reads : Nat} {r : Receiver} {call : Call}

/-- A pending unit that is there is handed out without a fault. -/
theorem pendingUnit_eq {d : Demuxer} (h : d.pending ≠ none) :
    ∃ unit, d.pending = some unit ∧ pendingUnit d = pure unit := by
  obtain ⟨unit, hunit⟩ := Option.ne_none_iff_exists'.mp h
  exact ⟨unit, hunit, by rw [pendingUnit, hunit]⟩

/-- Only the calls that read a packet add to the counts. -/
theorem Counted.answer (h : Counted reads r.demuxer) (call : Call) :
    Counted (reads + call.isRead.toNat) (answer r call).2.demuxer := by
  cases call with
  | read bytes => exact h.read bytes
  | reset => exact ⟨fun pid unit hunit => by simp [Machine.answer, Demuxer.reset] at hunit,
      h.losses, h.oversizes⟩
  | _ => exact ⟨h.counters, h.losses, h.oversizes⟩

/-- Each call that is allowed is answered without a fault. -/
theorem step_eq (hcounted : Counted reads r.demuxer) (hsmall : Small r.demuxer)
    (hallowed : call.Allowed r) (hreads : reads + call.isRead.toNat < 2 ^ 64) :
    step (.of r) call = pure ((answer r call).1, .of (answer r call).2) := by
  cases call with
  | feed chunk =>
    obtain ⟨hne, hchunk⟩ := hallowed
    simp only [step, State.of, readChunk_eq r.packetizer hne hchunk, pure_bind]
    rfl
  | read bytes =>
    simp only [step, State.of, readNext_eq hcounted hsmall hreads bytes, pure_bind]
    rfl
  | decodePending =>
    cases hpending : r.demuxer.pending with
    | none => simp [step, State.of, answer, Demuxer.decodePending, hpending]
    | some unit =>
      have hunit := hsmall.pending unit hpending
      simp only [step, State.of, hpending, parsePes_eq _ hunit, pure_bind, answer,
        Demuxer.decodePending, Option.map_some]
  | pendingBytes =>
    obtain ⟨unit, hpending, hunit⟩ := pendingUnit_eq hallowed
    simp only [step, State.of, hunit, pure_bind, answer, Demuxer.pendingBytes, hpending]
  | pendingPid =>
    obtain ⟨unit, hpending, hunit⟩ := pendingUnit_eq hallowed
    simp only [step, State.of, hunit, pure_bind, answer, Demuxer.pendingPid, hpending]
  | decodePacket bytes => simp only [step, parsePacket_eq, pure_bind, answer]
  | decodeAdaptation bytes =>
    simp only [step, parse_eq simulates_readAdaptation hallowed, pure_bind, answer]
  | decodeAssociation bytes =>
    simp only [step, parse_eq simulates_readAssociation hallowed, pure_bind, answer,
      ProgramAssociation.decode]
  | decodeMap bytes =>
    simp only [step, parse_eq simulates_readMap hallowed, pure_bind, answer, ProgramMap.decode]
  | decodePes strictLength bytes =>
    simp only [step, parsePes_eq strictLength hallowed, pure_bind, answer]
  | clear | take | reset => rfl

/-- Call after call is answered without a fault. -/
theorem run_eq {calls : List Call} (hcounted : Counted reads r.demuxer) (hlegal : Legal r calls)
    (hreads : reads + calls.countP (·.isRead) < 2 ^ 64) :
    run (.of r) calls = pure (answers r calls) := by
  induction calls generalizing reads r with
  | nil => rfl
  | cons call calls ih =>
    obtain ⟨hsmall, hallowed, hlater⟩ := hlegal
    have hcount : (call :: calls).countP (·.isRead) =
        call.isRead.toNat + calls.countP (·.isRead) := by
      rw [List.countP_cons, Nat.add_comm]
      cases call.isRead <;> rfl
    rw [hcount, ← Nat.add_assoc] at hreads
    rw [run, step_eq hcounted hsmall hallowed (by omega), pure_bind]
    simp only
    rw [ih (hcounted.answer call) hlater hreads, pure_bind, answers]

/-- From a new packetizer and a new demultiplexer on, a machine answers all calls, none of them with
a fault, and as the packetizer, the demultiplexer and the decoders do. The caller keeps to what
each call asks for, no buffer exceeds its limit, and there are fewer packets than 64 bits count. -/
theorem never_faults (config : Config) (calls : List Call)
    (hlegal : Legal { demuxer := { config } } calls)
    (hreads : calls.countP (·.isRead) < 2 ^ 64) :
    run { demuxer := { config } } calls = pure (answers { demuxer := { config } } calls) :=
  run_eq (counted_new config) hlegal (by omega)

/-- A chunk ends inside of a packet, a unit is completed and asked for, and bytes that stand for
nothing are decoded. -/
theorem never_faults_around_pending_unit :
    let packet (first : Bytes) : Bytes := first ++ List.replicate (188 - first.length) 0xff
    let association := packet [0x47, 0x40, 0x00, 0x10, 0x00, 0x00, 0xb0, 0x0d, 0x00, 0x01, 0xc1,
      0x00, 0x00, 0x00, 0x01, 0xe0, 0x20, 0, 0, 0, 0]
    let listing := packet [0x47, 0x40, 0x20, 0x10, 0x00, 0x02, 0xb0, 0x12, 0x00, 0x01, 0xc1, 0x00,
      0x00, 0xe0, 0x41, 0xf0, 0x00, 0x1b, 0xe0, 0x41, 0xf0, 0x00, 0, 0, 0, 0]
    let calls : List Call :=
      [.feed (association ++ [0x47, 0x40]), .feed [0x20], .clear, .read association, .read listing,
        .read (packet [0x47, 0x40, 0x41, 0x1f, 0, 0, 1, 0xe0]),
        .read (packet [0x47, 0x40, 0x41, 0x10]), .pendingBytes, .pendingPid, .decodePending, .take,
        .reset, .decodePacket [0x47],
        .decodeAdaptation [7, 0x10], .decodeAssociation [0, 0xff, 0xff], .decodeMap [2, 0xb0, 0x00],
        .decodePes true [0, 0, 1, 0xe0, 0, 0, 0x80, 0xff]]
    Legal { demuxer := { config := {} } } calls ∧ calls.countP (·.isRead) < 2 ^ 64 ∧
      run { demuxer := { config := {} } } calls =
        pure (answers { demuxer := { config := {} } } calls) := by
  intro packet association listing calls
  have hlegal : Legal { demuxer := { config := {} } } calls := by decide +kernel
  have hreads : calls.countP (·.isRead) < 2 ^ 64 := by decide +kernel
  exact ⟨hlegal, hreads, never_faults {} calls hlegal hreads⟩

/-- Calls that are not allowed are faults. -/
example : run {} [.feed []] = throw .emptyChunk ∧ run {} [.pendingBytes] = throw .missingUnit :=
  ⟨rfl, rfl⟩

end TransportStream.Machine
