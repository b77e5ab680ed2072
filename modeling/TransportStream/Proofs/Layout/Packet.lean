import TransportStream.Layout.Packet
import TransportStream.Proofs.Layout.AdaptationField
import TransportStream.Proofs.Reassembly.Run

/-!
# Reading written packets

A packet that can be written is read off its layout, whatever its reserved bits and its
stuffing are, and so is the fragment in it.
-/

namespace TransportStream.Packet

open Layout Decoder

instance (stuffing : Nat) (p : Packet) : Decidable (p.Writable stuffing) := by
  unfold Writable
  infer_instance

variable {p : Packet} {stuffing : Nat} {bytes : Bytes}

/-- The bytes of a packet are its sync byte, the rest of its head, its adaptation field, and
what is behind that. -/
theorem split_of_writes (h : p.Writable stuffing) (hbytes : (p.layout stuffing).Writes bytes) :
    ∃ sync head adaptation behind, bytes = sync ++ (head ++ (adaptation ++ behind)) ∧
      Writes [.value 8 syncByte.toNat] sync ∧ Writes p.headLayout.tail head ∧
      Writes (ofOption (AdaptationField.layout stuffing) p.adaptation) adaptation ∧
      ∀ payload ∈ p.payload, behind = payload := by
  have hadaptation : 8 ∣ size (ofOption (AdaptationField.layout stuffing) p.adaptation) :=
    dvd_size_ofOption fun a ha => (AdaptationField.undoes_decoder (h.2.1 a ha) []).whole
  have hsplit : p.layout stuffing = [.value 8 syncByte.toNat] ++ (p.headLayout.tail ++
      (ofOption (AdaptationField.layout stuffing) p.adaptation ++ p.fromPayload stuffing)) := rfl
  rw [hsplit] at hbytes
  obtain ⟨sync, _, rfl, hsync, hbytes⟩ := hbytes.split (by simp)
  obtain ⟨head, _, rfl, hhead, hbytes⟩ := hbytes.split ⟨3, rfl⟩
  obtain ⟨adaptation, behind, rfl, hadaptation, hbehind⟩ := hbytes.split hadaptation
  refine ⟨sync, head, adaptation, behind, rfl, hsync, hhead, hadaptation, ?_⟩
  intro payload hpayload
  rw [Option.mem_def] at hpayload
  rw [fromPayload, hpayload] at hbehind
  exact bytes_eq_of_writes_ofBytes hbehind

/-- Of the two bits that announce what is in a packet, the upper one is for the adaptation field and
the lower one for the payload. -/
theorem testBit_control (p : Packet) :
    p.control.testBit 1 = p.adaptation.isSome ∧ p.control.testBit 0 = p.payload.isSome := by
  unfold control
  cases p.adaptation.isSome <;> cases p.payload.isSome <;> decide

/-- A written packet is decoded to what was written. -/
theorem decode_of_writes (h : p.Writable stuffing) (hbytes : (p.layout stuffing).Writes bytes) :
    decode bytes = .ok p := by
  have hsize : bytes.length = packetSize := by
    have hlength := hbytes.length_eq
    rw [h.2.2] at hlength
    omega
  obtain ⟨sync, head, adaptation, behind, rfl, hsync, hhead, hadaptation, hpayload⟩ :=
    split_of_writes h hbytes
  obtain ⟨f, hf, hfields⟩ := fields_ofBytes (by decide : PackedWidths [1, 1, 1, 13, 2, 2, 4])
    (by rfl) (fun piece hpiece => h.1 piece (List.mem_of_mem_tail hpiece)) hhead
  have hadaptation := (undoes_ifFlag fun a ha =>
    AdaptationField.undoes_decoder (h.2.1 a ha) behind).reads adaptation hadaptation
  have hsync := (undoes_u8 (by decide) (head ++ (adaptation ++ behind))).reads sync hsync
  obtain ⟨hadaptive, hpaying⟩ := p.testBit_control
  rw [decode, if_pos hsize, Decoder.decode, decoder, bind_of_ok hsync]
  simp only [ne_eq, not_true_eq_false, if_false]
  rw [bind_of_ok (hfields _)]
  simp only [hf.flag 0 (by decide) false rfl, hf.flag 1 (by decide) _ rfl,
    hf.flag 2 (by decide) _ rfl, hf 3 (by decide) 13 _ rfl, hf 4 (by decide) 2 _ rfl,
    hf 5 (by decide) 2 _ rfl, hf 6 (by decide) 4 _ rfl, hadaptive, hpaying, Bool.false_eq_true,
    if_false]
  have hrest :
      ifFlag p.payload.isSome rest (.ofBytes behind) = .ok p.payload (.ofBytes behind) := by
    cases hp : p.payload with
    | none => rfl
    | some payload =>
      rw [hpayload payload hp]
      rfl
  rw [bind_of_ok hadaptation, bind_of_ok hrest]
  rfl

/-- The fragment in a written packet is the one that was written. -/
theorem fragment?_of_writes (h : p.Writable stuffing) (hbytes : (p.layout stuffing).Writes bytes) :
    TransportStream.fragment? bytes = p.fragment? := by
  rw [TransportStream.fragment?, decode_of_writes h hbytes]
  rfl

end TransportStream.Packet
