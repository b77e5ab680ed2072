import TransportStream.Demuxer
import TransportStream.Proofs.Reassembly.Run
import TransportStream.Proofs.Tables.Growth

/-!
# Reading packet after packet

A packet with a payload is either a fragment on an elementary stream, and then only the
unit of its PID and the counts change, or it is read for the tables, and then only these
change. Every other packet changes nothing but that no unit is pending afterwards.
-/

namespace TransportStream.Demuxer

/-- One packet in a run of packets. -/
structure Step where
  /-- The demultiplexer that reads the packet. -/
  before : Demuxer
  /-- The bytes of the packet. -/
  bytes : Bytes

namespace Step

/-- The demultiplexer behind the packet. -/
def after (s : Step) : Demuxer := (s.before.read s.bytes).demuxer

/-- Whether the packet has a payload on a PID. -/
def carries (pid : Nat) (s : Step) : Bool := TransportStream.carries pid s.bytes

/-- By how much the packet raised the count of units dropped because packets were lost. -/
def losses (s : Step) : Nat := s.after.lossCount - s.before.lossCount

/-- By how much the packet raised the count of units dropped because of their size. -/
def oversizes (s : Step) : Nat := s.after.oversizeCount - s.before.oversizeCount

end Step

/-- The steps of reading packet after packet. -/
def steps (d : Demuxer) : List Bytes → List Step
  | [] => []
  | bytes :: inputs => ⟨d, bytes⟩ :: (d.read bytes).demuxer.steps inputs

/-- The demultiplexer behind packet after packet. -/
def readAll (d : Demuxer) : List Bytes → Demuxer
  | [] => d
  | bytes :: inputs => (d.read bytes).demuxer.readAll inputs

/-- Packets are read on from where the packets before them lead to. -/
theorem readAll_append (d : Demuxer) (first later : List Bytes) :
    d.readAll (first ++ later) = (d.readAll first).readAll later := by
  induction first generalizing d with
  | nil => rfl
  | cons bytes first ih => exact ih _

variable {d : Demuxer} {bytes : Bytes} {f : Fragment}

/-- A packet without a fragment changes nothing, and leaves nothing to note. -/
theorem exists_read_of_no_fragment (h : fragment? bytes = none) (d : Demuxer) :
    ∃ result, d.read bytes = { demuxer := { d with pending := none }, result } := by
  unfold read
  cases hpacket : Packet.decode bytes with
  | error e => exact ⟨.error e, rfl⟩
  | ok packet =>
    cases hpayload : packet.payload with
    | none => exact ⟨.ok (), by simp only [hpayload]⟩
    | some payload =>
      have hfragment := fragment?_eq_some_iff.mpr ⟨packet, hpacket, by
        rw [Packet.fragment?, hpayload, Option.map_some]⟩
      rw [h] at hfragment
      cases hfragment

/-- Behind a packet without a fragment no unit is pending, and all else is as before. -/
theorem read_of_no_fragment (h : fragment? bytes = none) :
    (d.read bytes).demuxer = { d with pending := none } := by
  obtain ⟨result, hread⟩ := exists_read_of_no_fragment h d
  rw [hread]

/-- A fragment is read as the payload of a packet with its PID, its start and its counter. -/
theorem read_of_fragment (h : fragment? bytes = some f) :
    ∃ packet : Packet, packet.pid = f.pid ∧ packet.unitStart = f.unitStart ∧
      packet.counter = f.counter ∧
      d.read bytes = ({ d with pending := none } : Demuxer).readPayload packet f.payload := by
  obtain ⟨packet, hpacket, hfragment⟩ := fragment?_eq_some_iff.mp h
  obtain ⟨payload, hpayload, rfl⟩ := Option.map_eq_some_iff.mp hfragment
  exact ⟨packet, rfl, rfl, rfl, by simp only [read, hpacket, hpayload]⟩

/-- A fragment on an elementary stream is put to the unit of its PID, and what there is to note is
what this leads to. -/
theorem reading_of_hasStream (h : fragment? bytes = some f)
    (hstream : d.tables.hasStream f.pid = true) :
    d.read bytes =
      let r := Reassembly.ofFragment d.config.maxUnitSize f d.units[f.pid]?
      { demuxer := ({ d with pending := none } : Demuxer).withReassembly f.pid r
        notices := r.notices } := by
  obtain ⟨packet, hpid, hstart, hcounter, hread⟩ := read_of_fragment (d := d) h
  rw [hread, readPayload, hpid, if_pos hstream, hstart, hcounter]
  rfl

/-- A fragment on any other PID is read for the tables, with what they have to tell of it. -/
theorem reading_of_not_hasStream (h : fragment? bytes = some f)
    (hstream : d.tables.hasStream f.pid = false) :
    d.read bytes =
      let update := d.tables.read f.pid f.unitStart f.payload
      { demuxer := { d with pending := none, tables := update.tables }
        result := update.result
        notices := update.notices } := by
  obtain ⟨packet, hpid, hstart, hcounter, hread⟩ := read_of_fragment (d := d) h
  rw [hread, readPayload, hpid, if_neg (by simp [hstream]), hstart]

/-- Behind a fragment on an elementary stream, the unit of its PID and the counts are new. -/
theorem read_of_hasStream (h : fragment? bytes = some f)
    (hstream : d.tables.hasStream f.pid = true) :
    (d.read bytes).demuxer = ({ d with pending := none } : Demuxer).withReassembly f.pid
      (Reassembly.ofFragment d.config.maxUnitSize f d.units[f.pid]?) := by
  rw [reading_of_hasStream h hstream]

/-- Behind a fragment on any other PID, only the tables are new. -/
theorem read_of_not_hasStream (h : fragment? bytes = some f)
    (hstream : d.tables.hasStream f.pid = false) :
    (d.read bytes).demuxer =
      { d with
        pending := none
        tables := (d.tables.read f.pid f.unitStart f.payload).tables } := by
  rw [reading_of_not_hasStream h hstream]

/-- So there are three kinds of packets. What is kept by each of them is kept by all. -/
theorem read_cases (d : Demuxer) (bytes : Bytes) :
    (fragment? bytes = none ∧ (d.read bytes).demuxer = { d with pending := none }) ∨
      (∃ f, fragment? bytes = some f ∧ d.tables.hasStream f.pid = true ∧
        (d.read bytes).demuxer = ({ d with pending := none } : Demuxer).withReassembly f.pid
          (Reassembly.ofFragment d.config.maxUnitSize f d.units[f.pid]?)) ∨
      ∃ f, fragment? bytes = some f ∧ d.tables.hasStream f.pid = false ∧
        (d.read bytes).demuxer =
          { d with
            pending := none
            tables := (d.tables.read f.pid f.unitStart f.payload).tables } := by
  cases hfragment : fragment? bytes with
  | none => exact .inl ⟨rfl, read_of_no_fragment hfragment⟩
  | some f =>
    right
    cases hstream : d.tables.hasStream f.pid with
    | true => exact .inl ⟨f, rfl, hstream, read_of_hasStream hfragment hstream⟩
    | false => exact .inr ⟨f, rfl, hstream, read_of_not_hasStream hfragment hstream⟩

/-- The configuration never changes. -/
theorem config_read (d : Demuxer) (bytes : Bytes) : (d.read bytes).demuxer.config = d.config := by
  obtain ⟨_, hread⟩ | ⟨f, _, _, hread⟩ | ⟨f, _, _, hread⟩ := read_cases d bytes
  · rw [hread]
  · rw [hread, withReassembly]
  · rw [hread]

/-- An elementary stream, once it is known, stays known. -/
theorem hasStream_read {pid : Nat} (h : d.tables.hasStream pid = true) (bytes : Bytes) :
    (d.read bytes).demuxer.tables.hasStream pid = true := by
  obtain ⟨_, hread⟩ | ⟨f, _, _, hread⟩ | ⟨f, _, _, hread⟩ := read_cases d bytes
  · rwa [hread]
  · rwa [hread, withReassembly]
  · rw [hread]
    exact Tables.hasStream_read h _ _ _

/-- Packets do not change the configuration. -/
theorem config_readAll (d : Demuxer) (inputs : List Bytes) :
    (d.readAll inputs).config = d.config := by
  induction inputs generalizing d with
  | nil => rfl
  | cons bytes inputs ih => rw [readAll, ih, config_read]

/-- Along a run of packets an elementary stream stays one. -/
theorem hasStream_readAll {pid : Nat} (h : d.tables.hasStream pid = true) (inputs : List Bytes) :
    (d.readAll inputs).tables.hasStream pid = true := by
  induction inputs generalizing d with
  | nil => exact h
  | cons bytes inputs ih => exact ih (hasStream_read h bytes)

/-- The steps of a run read its packets in turn, each behind those before it. -/
theorem exists_of_mem_steps {inputs : List Bytes} {s : Step} (hs : s ∈ d.steps inputs) :
    ∃ before after, inputs = before ++ s.bytes :: after ∧ s.before = d.readAll before := by
  induction inputs generalizing d with
  | nil => cases hs
  | cons bytes inputs ih =>
    rcases List.mem_cons.mp hs with rfl | hs
    · exact ⟨[], inputs, rfl, rfl⟩
    · obtain ⟨before, after, rfl, hbefore⟩ := ih hs
      exact ⟨bytes :: before, after, rfl, hbefore⟩

end TransportStream.Demuxer
