import TransportStream.Proofs.Demuxer.Run
import TransportStream.Proofs.Layout.Tables
import TransportStream.Proofs.Tables.Framing

/-!
# Packets that carry the same section

What a packet with a section does to a demultiplexer is a matter of the section alone. Neither what
the pointer skips nor what is behind the section counts, nor how the packet is made otherwise. This
holds for bad sections, too, of which the errors are the same.
-/

namespace TransportStream

/-- The number of bytes of a section, the length of which has 12 bits in a program association table
and ten bits in any other one. -/
def Section.ownSize (s : Bytes) : Nat :=
  if s.head?.map (·.toNat) = some associationTableId then TableKind.association.sizeIn s
  else TableKind.map.sizeIn s

/-- A packet on a PID begins a section: its payload leads to it over as many bytes as its pointer
counts. -/
def BeginsSection (pid : Nat) (s bytes : Bytes) : Prop :=
  ∃ (packet : Packet) (pointer : UInt8) (filler behind : Bytes),
    Packet.decode bytes = .ok packet ∧ packet.pid = pid ∧ packet.unitStart = true ∧
      packet.payload = some (pointer :: (filler ++ (s ++ behind))) ∧
        filler.length = pointer.toNat

namespace Section

variable {s : Bytes}

/-- A section has at least three bytes of its own. -/
theorem three_le_ownSize (s : Bytes) : 3 ≤ ownSize s := by
  unfold ownSize
  split
  · exact Nat.le_add_right 3 _
  · exact Nat.le_add_right 3 _

/-- A section of the expected kind of table has the size that is expected of it. -/
theorem ownSize_of_head {kind : TableKind} (h : s.head?.map (·.toNat) = some kind.id) :
    ownSize s = kind.sizeIn s := by
  rw [ownSize, h]
  cases kind <;> rfl

/-- A payload is decoded as if it had nothing but the section that it points at. -/
theorem decode_of_ownSize (kind : TableKind) (hs : s.length = ownSize s) {pointer : UInt8}
    {filler : Bytes} (h : filler.length = pointer.toNat) (behind : Bytes) :
    (Section.decoder kind).decode (pointer :: (filler ++ (s ++ behind))) =
      (Section.decoder kind).decode (0 :: s) := by
  have hthree := three_le_ownSize s
  obtain ⟨byte, later, rfl⟩ : ∃ byte later, s = byte :: later :=
    List.exists_cons_of_length_pos (by omega)
  have halone : (Section.decoder kind).decode (0 :: byte :: later) =
      (Section.decoder kind).decode (0 :: ([] ++ byte :: later)) := rfl
  rw [halone, List.cons_append]
  by_cases hkind : byte.toNat = kind.id
  · have hhead : ∀ bytes : Bytes, (byte :: bytes).head?.map (·.toNat) = some kind.id :=
      fun bytes => congrArg some hkind
    rw [decode_of_head kind h (hhead _), decode_of_head kind rfl (hhead _)]
    rw [ownSize_of_head (hhead later)] at hs
    exact (frames_tableDecoder kind).decode_append (Nat.le_of_eq hs.symm) behind
  · rw [decode_of_other kind h rfl hkind, decode_of_other kind rfl rfl hkind]

end Section

namespace Demuxer

variable {d : Demuxer} {pid : Nat} {s bytes first second : Bytes}

/-- A packet that begins a section is read for the tables, as if it had nothing but the section. -/
theorem read_of_beginsSection (hstream : d.tables.hasStream pid = false)
    (hs : s.length = Section.ownSize s) (h : BeginsSection pid s bytes) :
    d.read bytes =
      let update := d.tables.read pid true (0 :: s)
      { demuxer := { d with pending := none, tables := update.tables }
        result := update.result
        notices := update.notices } := by
  obtain ⟨packet, pointer, filler, behind, hpacket, rfl, hstart, hpayload, hfiller⟩ := h
  have hupdate : d.tables.read packet.pid true (pointer :: (filler ++ (s ++ behind))) =
      d.tables.read packet.pid true (0 :: s) := by
    simp only [Tables.read, Section.decode_of_ownSize _ hs hfiller behind]
  simp only [read, hpacket, hpayload, readPayload, hstream, Bool.false_eq_true, if_false, hstart,
    hupdate]

/-- Two packets that begin the same section on a PID, which is not that of an elementary stream, are
read alike: with the same result, the same tables, and the same notices. The section may be bad, and
apart from it the packets may differ in everything. -/
theorem section_alone_counts (hstream : d.tables.hasStream pid = false)
    (hs : s.length = Section.ownSize s) (hfirst : BeginsSection pid s first)
    (hsecond : BeginsSection pid s second) : d.read first = d.read second := by
  rw [read_of_beginsSection hstream hs hfirst, read_of_beginsSection hstream hs hsecond]

/-- A map table that is cut behind its head is an error, which is the same in both packets. -/
theorem section_alone_counts_cut_map :
    let packet (first : Bytes) : Bytes := first ++ List.replicate (188 - first.length) 0xff
    let association := packet [0x47, 0x40, 0x00, 0x10, 0x00, 0x00, 0xb0, 0x0d, 0x00, 0x01, 0xc1,
      0x00, 0x00, 0x00, 0x01, 0xe0, 0x20, 0, 0, 0, 0]
    let cut : Bytes := [0x02, 0xb0, 0x05, 0x00, 0x01, 0xc1, 0x00, 0x00]
    let first := packet ([0x47, 0x40, 0x20, 0x10, 0x00] ++ cut)
    let second := packet ([0x47, 0x60, 0x20, 0xb7, 0x01, 0x00, 0x03, 0, 1, 2] ++ cut ++ [3, 4])
    let d := readAll {} [association]
    d.read first = d.read second ∧ (d.read first).result.isOk = false := by
  intro packet association cut first second d
  have hstream : d.tables.hasStream 0x20 = false := by decide +kernel
  have hfirst : BeginsSection 0x20 cut first :=
    ⟨⟨true, false, 0x20, 0, 0, none, some (0 :: ([] ++ (cut ++ List.replicate 175 0xff)))⟩, 0, [],
      List.replicate 175 0xff, toOption_eq_some_iff.mp (by decide +kernel), rfl, rfl, rfl, rfl⟩
  have hsecond : BeginsSection 0x20 cut second :=
    ⟨⟨true, true, 0x20, 2, 7, some { length := 1 },
        some (3 :: ([0, 1, 2] ++ (cut ++ ([3, 4] ++ List.replicate 168 0xff))))⟩, 3, [0, 1, 2],
      [3, 4] ++ List.replicate 168 0xff, toOption_eq_some_iff.mp (by decide +kernel), rfl, rfl, rfl,
      rfl⟩
  exact ⟨section_alone_counts hstream (by decide) hfirst hsecond, by decide +kernel⟩

end Demuxer

end TransportStream
