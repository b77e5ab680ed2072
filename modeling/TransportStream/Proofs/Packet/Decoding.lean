import TransportStream.Proofs.Packet.Acceptance
import TransportStream.Proofs.Reassembly.Run

/-!
# Decoded packets

The numbers in a decoded packet are those of the fields in its head, and have no more bits than
these.
-/

namespace TransportStream

variable {bytes : Bytes}

/-- A decoded packet has the numbers of its head. -/
theorem Packet.exists_head_of_decode {packet : Packet} (h : decode bytes = .ok packet) :
    ∃ head : Fields [1, 1, 1, 13, 2, 2, 4], packet.pid = head.get 3 ∧
      packet.scrambling = head.get 4 ∧ packet.counter = head.get 6 := by
  obtain ⟨-, adaptation, -, rfl⟩ := decode_eq_ok_iff.mp h
  obtain ⟨-, -, hpid, hscrambling, hcounter⟩ := get_headIn bytes adaptation
  exact ⟨headIn bytes, hpid.symm, hscrambling.symm, hcounter.symm⟩

/-- The continuity counter of a decoded packet has four bits. -/
theorem Packet.counter_lt_of_decode {packet : Packet} (h : decode bytes = .ok packet) :
    packet.counter < 16 := by
  obtain ⟨head, _, _, hcounter⟩ := exists_head_of_decode h
  rw [hcounter]
  exact head.get_lt 6 (by decide)

/-- The PID of a decoded packet has thirteen bits. -/
theorem Packet.pid_lt_of_decode {packet : Packet} (h : decode bytes = .ok packet) :
    packet.pid < 8192 := by
  obtain ⟨head, hpid, _, _⟩ := exists_head_of_decode h
  rw [hpid]
  exact head.get_lt 3 (by decide)

/-- The continuity counter of a fragment has four bits. -/
theorem counter_lt_of_fragment {f : Fragment} (h : fragment? bytes = some f) : f.counter < 16 := by
  obtain ⟨packet, hpacket, hfragment⟩ := fragment?_eq_some_iff.mp h
  obtain ⟨payload, _, rfl⟩ := Option.map_eq_some_iff.mp hfragment
  exact Packet.counter_lt_of_decode hpacket

/-- The PID of a fragment has thirteen bits. -/
theorem pid_lt_of_fragment {f : Fragment} (h : fragment? bytes = some f) : f.pid < 8192 := by
  obtain ⟨packet, hpacket, hfragment⟩ := fragment?_eq_some_iff.mp h
  obtain ⟨payload, _, rfl⟩ := Option.map_eq_some_iff.mp hfragment
  exact Packet.pid_lt_of_decode hpacket

end TransportStream
