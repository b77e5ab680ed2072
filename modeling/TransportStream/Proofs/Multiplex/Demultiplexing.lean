import TransportStream.Proofs.Multiplex.Reading
import TransportStream.Proofs.Packetizer.Chunking

/-!
# From a multiplexer to a receiver

What a multiplexer sends arrives whole. The main statement says so of a receiver that takes
the stream in chunks that are cut anywhere: it finds each packet, learns the tables, and
gets the units of each elementary stream.
-/

namespace TransportStream.Multiplex

/-- Let a receiver that has seen nothing yet take the packets of a multiplex, in chunks that
are cut anywhere. Then exactly these packets are found, and no bytes are left over. Each of
them can be read, and makes the unit pending that is due: where a unit begins on an elementary
stream, the one before, unless it is too large. In this way all units of the stream come, in
order and as they were sent, apart from the last one, which stays open, and from those that
are too large. No unit counts as lost, and each that is too large counts once. All tables
become known. -/
theorem demultiplexed (m : Multiplex) (sent : List WrittenPacket) (hsent : m.Sends sent)
    (config : Config) (chunks : List Bytes) (hchunks : chunks.flatten = (inputsOf sent).flatten) :
    let d : Demuxer := { config }
    let (receiver, events, _) := Receiver.readAll { demuxer := d } chunks
    (({} : Packetizer).readAll chunks).2 = (inputsOf sent).map .packet ∧
      receiver.packetizer.held = [] ∧
      receiver.demuxer = d.readAll (inputsOf sent) ∧
      events = ((d.steps (inputsOf sent)).map fun s => Receiver.eventOf (s.before.read s.bytes)) ∧
      (∀ before packet after, sent = before ++ packet :: after →
        let reading := (d.readAll (inputsOf before)).read packet.bytes
        reading.result = .ok () ∧
          reading.demuxer.pending = m.due config.maxUnitSize before packet.packet) ∧
      (∀ pid ∈ m.streamPids, (d.unitsOn pid (inputsOf sent)).map (·.bytes) =
        (m.unitBytes pid).dropLast.filter (·.length ≤ config.maxUnitSize) ∧
        receiver.demuxer.units[pid]?.map (·.bytes) =
          (m.unitBytes pid).getLast?.filter (·.length ≤ config.maxUnitSize)) ∧
      receiver.demuxer.lossCount = 0 ∧
      receiver.demuxer.oversizeCount = ∑ pid ∈ m.streamPids.toFinset,
        (m.unitBytes pid).countP (config.maxUnitSize < ·.length) ∧
      (sent ≠ [] → receiver.demuxer.tables.association = some m.association) ∧
      ∀ packet ∈ sent, ∀ table, m.Maps packet.packet table →
        receiver.demuxer.tables.program? packet.packet.pid = some table := by
  intro d
  have hidle : Idle d := ⟨rfl, fun pid => by simp [d]⟩
  have hpackets : ∀ bytes ∈ inputsOf sent, IsPacket bytes := by
    intro bytes hbytes
    obtain ⟨packet, _, rfl⟩ := List.mem_map.mp hbytes
    exact packet.isPacket_bytes
  obtain ⟨houtputs, hheld⟩ := Packetizer.readAll_of_packets hpackets hchunks
  obtain ⟨hdemuxer, hevents⟩ := Receiver.readOutputs_map_packet d (inputsOf sent)
  have hknown : m.Known sent (d.readAll (inputsOf sent)).tables := by
    have hall : m.Sends (sent ++ []) := (List.append_nil sent).symm ▸ hsent
    exact hall.known hidle
  obtain ⟨hlosses, hoversizes⟩ := hsent.counts hidle
  rw [Receiver.readAll_eq]
  simp only [houtputs, hdemuxer, hevents]
  refine ⟨trivial, hheld, trivial, trivial, ?_, ?_, hlosses, ?_, hknown.association, ?_⟩
  · rintro before packet after rfl
    exact hsent.read hidle
  · intro pid hpid
    exact ⟨hsent.unitsOn hidle hpid, hsent.openUnit hidle hpid⟩
  · rw [hoversizes]
    exact Nat.zero_add _
  · intro packet hpacket table hmaps
    rw [Tables.program?, hknown.mapped packet hpacket table hmaps]
    rfl

/-- A program with one stream of two units. The first is cut into a full piece and an empty one,
with a null packet between them and a counter that turns, and the second is too large. The
stream is cut in the middle of the map table. -/
theorem demultiplexed_two_units :
    let body (byte : UInt8) : Bytes := List.replicate 184 byte
    let head (tableId : Nat) : SectionHead := ⟨tableId, true, 1, 0, true, 0, 0⟩
    let association : ProgramAssociation := ⟨head associationTableId, [⟨1, 0x20⟩], 0⟩
    let table : ProgramMap := ⟨head mapTableId, 0x41, [], [⟨.avcVideo, 0x41, []⟩], 0⟩
    let m : Multiplex :=
      { association
        maps := fun _ => some table
        units := fun _ => [[body 1, []], [body 2, body 3]]
        firstCounter := fun _ => 15
        association_id := rfl
        association_fits := by decide
        map_id := by
          rintro _ _ ⟨⟩
          rfl
        map_fits := by
          rintro _ _ ⟨⟩
          decide
        mapPids_separate := by decide
        streamPids_separate := by decide
        pieces_ne_nil := by simp }
    let announcement : Bytes :=
      [0x00, 0xb0, 0x0d, 0x00, 0x01, 0xc1, 0x00, 0x00, 0x00, 0x01, 0xe0, 0x20, 0, 0, 0, 0]
    let listing : Bytes :=
      [0x02, 0xb0, 0x12, 0x00, 0x01, 0xc1, 0x00, 0x00, 0xe0, 0x41, 0xf0, 0x00, 0x1b, 0xe0, 0x41,
        0xf0, 0x00, 0, 0, 0, 0]
    let plain (start : Bool) (pid counter : Nat) (payload : Bytes) : Packet :=
      ⟨start, false, pid, 0, counter, none, some payload⟩
    let first := [0x00] ++ announcement ++ List.replicate 167 0xff
    let second := [0x00] ++ listing ++ List.replicate 162 0xff
    let sent : List WrittenPacket :=
      [⟨plain true 0 0 first, 0, [0x47, 0x40, 0x00, 0x10] ++ first, by decide +kernel,
          [], by decide +kernel, by decide +kernel⟩,
        ⟨plain true 0x20 0 second, 0, [0x47, 0x40, 0x20, 0x10] ++ second, by decide +kernel,
          [], by decide +kernel, by decide +kernel⟩,
        ⟨plain true 0x41 15 (body 1), 0, [0x47, 0x40, 0x41, 0x1f] ++ body 1, by decide +kernel,
          [], by decide +kernel, by decide +kernel⟩,
        ⟨plain false 0x1fff 0 (body 0), 0, [0x47, 0x1f, 0xff, 0x10] ++ body 0, by decide +kernel,
          [], by decide +kernel, by decide +kernel⟩,
        ⟨⟨false, false, 0x41, 0, 0, some { length := 183 }, some []⟩, 0,
          [0x47, 0x00, 0x41, 0x30, 0xb7, 0x00] ++ List.replicate 182 0xff, by decide +kernel,
          List.replicate 1456 true, by decide +kernel, by decide +kernel⟩,
        ⟨plain true 0x41 1 (body 2), 0, [0x47, 0x40, 0x41, 0x11] ++ body 2, by decide +kernel,
          [], by decide +kernel, by decide +kernel⟩,
        ⟨plain false 0x41 2 (body 3), 0, [0x47, 0x00, 0x41, 0x12] ++ body 3, by decide +kernel,
          [], by decide +kernel, by decide +kernel⟩]
    let stream := (inputsOf sent).flatten
    let config : Config := { maxUnitSize := 200 }
    let receiver :=
      (Receiver.readAll { demuxer := { config } } [stream.take 200, stream.drop 200]).1
    m.Sends sent ∧
      (({ config } : Demuxer).unitsOn 0x41 (inputsOf sent)).map (·.bytes) = [body 1] ∧
      receiver.demuxer.lossCount = 0 ∧ receiver.demuxer.oversizeCount = 1 := by
  intro body head association table m announcement listing plain first second sent stream config
    receiver
  have hfirst : Section.PointedAt first m.association.layout :=
    ⟨0, [], announcement, List.replicate 167 0xff, rfl, rfl,
      [false, true, true, true, true, true, true, true], by decide +kernel, by decide +kernel⟩
  have hsecond : Section.PointedAt second table.layout :=
    ⟨0, [], listing, List.replicate 162 0xff, rfl, rfl,
      false :: List.replicate 18 true, by decide +kernel, by decide +kernel⟩
  have hmaps : ∀ packet : Packet, packet = plain true 0x20 0 second → m.Maps packet table := by
    rintro _ rfl
    exact ⟨by decide, rfl, rfl, second, rfl, hsecond⟩
  have hsends : m.Sends sent := by
    constructor
    · simp only [sent, forall_split_cons_iff]
      refine ⟨.association first rfl rfl rfl hfirst,
        .map (List.cons_ne_nil _ _) table (hmaps _ rfl),
        .piece _ (.tail _ (.head _)) table (hmaps _ rfl) (by decide),
        m.maySend_null (List.cons_ne_nil _ _) rfl,
        .piece _ (.tail _ (.head _)) table (hmaps _ rfl) (by decide),
        .piece _ (.tail _ (.head _)) table (hmaps _ rfl) (by decide),
        .piece _ (.tail _ (.head _)) table (hmaps _ rfl) (by decide), by simp⟩
    · intro pid hpid
      obtain rfl : pid = 0x41 := by
        revert pid
        decide
      decide +kernel
  obtain ⟨-, -, -, -, -, hunits, hlosses, hoversizes, -⟩ :=
    demultiplexed m sent hsends config [stream.take 200, stream.drop 200] (by simp [stream])
  refine ⟨hsends, ?_, hlosses, ?_⟩
  · have h := (hunits 0x41 (by decide)).1
    refine h.trans ?_
    decide +kernel
  · refine hoversizes.trans ?_
    decide +kernel

end TransportStream.Multiplex
