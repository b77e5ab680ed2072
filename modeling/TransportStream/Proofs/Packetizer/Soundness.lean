import TransportStream.Proofs.Packetizer.Search

/-!
# Packets are cut out of the stream

No bytes, no chunks and no resets make a packetizer put out anything but pieces of what it
has read. The pieces follow each other in the stream without overlap, and what is held is the
end of the stream, behind the last of them.
-/

namespace TransportStream

/-- Packets that stand in a stream at some positions, each behind the end of the one before it,
and none of them beyond a place where they have to end. -/
structure CutOut (stream : Bytes) (finish : Nat) (positions : List Nat) (packets : List Bytes) :
    Prop where
  /-- The packets are what stands at the positions. -/
  packets_eq : packets = positions.map fun position => (stream.drop position).take packetSize
  /-- All of them are packets. -/
  isPacket : ∀ bytes ∈ packets, IsPacket bytes
  /-- Each begins behind the end of the one before. -/
  apart : positions.Pairwise fun position next => position + packetSize ≤ next
  /-- None goes on beyond the end. -/
  ends : ∀ position ∈ positions, position + packetSize ≤ finish

variable {stream : Bytes} {finish : Nat} {positions : List Nat} {packets : List Bytes}

/-- No packets stand in any stream. -/
theorem cutOut_nil (stream : Bytes) (finish : Nat) : CutOut stream finish [] [] :=
  ⟨rfl, by simp, .nil, by simp⟩

/-- Packets that end before some place end before every later one. -/
theorem CutOut.mono (h : CutOut stream finish positions packets) {later : Nat}
    (hle : finish ≤ later) : CutOut stream later positions packets where
  packets_eq := h.packets_eq
  isPacket := h.isPacket
  apart := h.apart
  ends := fun position hposition => Nat.le_trans (h.ends position hposition) hle

/-- What stands in the bytes behind an offset stands in all of them, so much further on. -/
theorem CutOut.of_drop {offset : Nat} (h : CutOut (stream.drop offset) finish positions packets) :
    CutOut stream (offset + finish) (positions.map (offset + ·)) packets where
  packets_eq := by
    rw [h.packets_eq, List.map_map]
    simp only [List.drop_drop, Function.comp_def]
  isPacket := h.isPacket
  apart := by
    rw [List.pairwise_map]
    refine h.apart.imp ?_
    intro position next hapart
    omega
  ends := by
    intro position hposition
    obtain ⟨inner, hinner, rfl⟩ := List.mem_map.mp hposition
    have hend := h.ends inner hinner
    omega

/-- What stands in a stream stands there also when the stream goes on. -/
theorem CutOut.append_right (h : CutOut stream finish positions packets)
    (hfinish : finish ≤ stream.length) (tail : Bytes) :
    CutOut (stream ++ tail) finish positions packets where
  packets_eq := by
    rw [h.packets_eq]
    apply List.map_congr_left
    intro position hposition
    have hend := h.ends position hposition
    rw [List.drop_append_of_le_length (by omega),
      List.take_append_of_le_length (by rw [List.length_drop]; omega)]
  isPacket := h.isPacket
  apart := h.apart
  ends := h.ends

/-- Packets and those behind them. -/
theorem CutOut.append {middle : Nat} {positions' : List Nat} {packets' : List Bytes}
    (hfirst : CutOut stream middle positions packets)
    (hlater : CutOut stream finish positions' packets')
    (hbehind : ∀ position ∈ positions', middle ≤ position) (hle : middle ≤ finish) :
    CutOut stream finish (positions ++ positions') (packets ++ packets') where
  packets_eq := by rw [List.map_append, ← hfirst.packets_eq, ← hlater.packets_eq]
  isPacket := by
    intro bytes hbytes
    rcases List.mem_append.mp hbytes with h | h
    · exact hfirst.isPacket bytes h
    · exact hlater.isPacket bytes h
  apart := by
    rw [List.pairwise_append]
    refine ⟨hfirst.apart, hlater.apart, ?_⟩
    intro position hposition next hnext
    exact Nat.le_trans (hfirst.ends position hposition) (hbehind next hnext)
  ends := by
    intro position hposition
    rcases List.mem_append.mp hposition with h | h
    · exact Nat.le_trans (hfirst.ends position h) hle
    · exact hlater.ends position h

/-- The blocks of bytes that are in sync. -/
theorem cutOut_blocks (h : inSync stream = true) :
    CutOut stream (stream.length / packetSize * packetSize)
      ((List.range (stream.length / packetSize)).map (· * packetSize))
      ((List.range (stream.length / packetSize)).map (block stream)) where
  packets_eq := by
    rw [List.map_map]
    rfl
  isPacket := by
    intro bytes hbytes
    obtain ⟨i, hi, rfl⟩ := List.mem_map.mp hbytes
    exact isPacket_block_of_inSync h (List.mem_range.mp hi)
  apart := by
    rw [List.pairwise_map]
    exact List.pairwise_lt_range.imp packet_end_le
  ends := by
    intro position hposition
    obtain ⟨i, hi, rfl⟩ := List.mem_map.mp hposition
    exact packet_end_le (List.mem_range.mp hi)

namespace Packetizer

/-- The packets among what was put out. -/
def packetsIn (outputs : List Output) : List Bytes := outputs.filterMap Output.packet?

/-- The packets of what is put out later come later. -/
@[simp] theorem packetsIn_append (first later : List Output) :
    packetsIn (first ++ later) = packetsIn first ++ packetsIn later := List.filterMap_append

/-- A notice is no packet. -/
@[simp] theorem packetsIn_notice (notice : Notice) (outputs : List Output) :
    packetsIn (.notice notice :: outputs) = packetsIn outputs := rfl

/-- Where nothing is put out, there are no packets. -/
@[simp] theorem packetsIn_nil : packetsIn [] = [] := rfl

/-- Among packets all are packets. -/
@[simp] theorem packetsIn_map_packet (packets : List Bytes) :
    packetsIn (packets.map .packet) = packets := by
  rw [packetsIn, List.filterMap_map]
  exact List.filterMap_some

/-- Held bytes are an end of a stream, and packets were cut out of the stream before that. -/
structure FromStream (stream held : Bytes) (packets : List Bytes) : Prop where
  /-- What is held is an end of the stream. -/
  suffix : held <:+ stream
  /-- The packets were cut out before it. -/
  packets : ∃ positions, CutOut stream (stream.length - held.length) positions packets

variable {held held' : Bytes}

/-- Before anything is put out, all bytes may be held. -/
theorem fromStream_nil (stream : Bytes) : FromStream stream stream [] :=
  ⟨List.suffix_refl _, [], cutOut_nil _ _⟩

/-- Held bytes may be dropped. -/
theorem FromStream.forget (h : FromStream stream held packets) : FromStream stream [] packets := by
  obtain ⟨positions, hpackets⟩ := h.packets
  exact ⟨List.nil_suffix, positions, hpackets.mono (Nat.sub_le_sub_left (Nat.zero_le _) _)⟩

/-- What came from the end of a stream came from the stream. -/
theorem FromStream.of_drop {offset : Nat} (hoffset : offset ≤ stream.length)
    (h : FromStream (stream.drop offset) held packets) : FromStream stream held packets := by
  have hle := h.suffix.length_le
  obtain ⟨positions, hpackets⟩ := h.packets
  rw [List.length_drop] at hle hpackets
  refine ⟨h.suffix.trans (List.drop_suffix _ _), positions.map (offset + ·), ?_⟩
  exact hpackets.of_drop.mono (by omega)

/-- What came from a stream, and then from what was held of it together with further bytes, came
from the stream that goes on with these. -/
theorem FromStream.append {tail : Bytes} {packets' : List Bytes}
    (hfirst : FromStream stream held packets) (hlater : FromStream (held ++ tail) held' packets') :
    FromStream (stream ++ tail) held' (packets ++ packets') := by
  obtain ⟨⟨before, rfl⟩, positions, hpackets⟩ := hfirst
  obtain ⟨hheld, positions', hpackets'⟩ := hlater
  have hle := hheld.length_le
  have hdrop : (before ++ held ++ tail).drop before.length = held ++ tail := by
    rw [List.append_assoc, List.drop_left]
  rw [← hdrop] at hpackets'
  simp only [List.length_append, List.length_drop] at hle hpackets hpackets'
  refine ⟨?_, positions ++ positions'.map (before.length + ·), ?_⟩
  · rw [List.append_assoc]
    exact hheld.trans (List.suffix_append _ _)
  · have hearlier : CutOut (before ++ held ++ tail) before.length positions packets :=
      (hpackets.append_right (by simp) tail).mono (by omega)
    simp only [List.length_append]
    refine hearlier.append (hpackets'.of_drop.mono (by omega)) ?_ (by omega)
    intro position hposition
    obtain ⟨inner, _, rfl⟩ := List.mem_map.mp hposition
    exact Nat.le_add_right _ _

/-- A packet, and then what came from the bytes behind it, came from all of them. -/
theorem FromStream.cons (hpacket : IsPacket (stream.take packetSize))
    (hlater : FromStream (stream.drop packetSize) held packets) :
    FromStream stream held (stream.take packetSize :: packets) := by
  have hone : FromStream (stream.take packetSize) [] [stream.take packetSize] := by
    refine ⟨List.nil_suffix, [0], ⟨?_, ?_, List.pairwise_singleton _ _, ?_⟩⟩
    · simp [List.take_take]
    · simpa using hpacket
    · simp [hpacket.1]
  have hboth := hone.append hlater
  rwa [List.take_append_drop] at hboth

/-- Bytes that are in sync are cut into their blocks, and of what they leave over all or nothing
is held. -/
theorem fromStream_readAligned {bytes : Bytes} (h : inSync bytes = true) :
    FromStream bytes (readAligned bytes).1.held (packetsIn (readAligned bytes).2) := by
  have hblocks : FromStream bytes (bytes.drop (bytes.length / packetSize * packetSize))
      (leadingPackets (bytes.length / packetSize) bytes) := by
    have hle := Nat.div_mul_le_self bytes.length packetSize
    rw [leadingPackets_eq_map_block]
    refine ⟨List.drop_suffix _ _, _, (cutOut_blocks h).mono ?_⟩
    rw [List.length_drop]
    omega
  simp only [readAligned, holdTail]
  split
  · simpa using hblocks
  · simpa using hblocks.forget

/-- Wherever sync is found, the packets come from the bytes. -/
theorem fromStream_readWindow (bytes : Bytes) :
    FromStream bytes (readWindow bytes).1.held (packetsIn (readWindow bytes).2) := by
  unfold readWindow
  split
  case h_1 => exact (fromStream_nil bytes).forget
  case h_2 hoffset => exact fromStream_readAligned (syncOffset?_eq_some_iff.mp hoffset).1
  case h_3 offset hne hoffset =>
    obtain ⟨hsync, hroom, _⟩ := syncOffset?_eq_some_iff.mp hoffset
    have hroom := hroom.resolve_left hne
    exact (fromStream_readAligned hsync).of_drop (by omega)

/-- Whichever way a chunk is taken, the packets come from the held bytes and the chunk. -/
theorem fromStream_complete (p : Packetizer) (hheld : p.held.head? = some syncByte)
    (chunk : Bytes) : FromStream (p.held ++ chunk) (p.complete hheld chunk).1.held
      (packetsIn (p.complete hheld chunk).2) := by
  have hmissing : p.missing = packetSize - p.held.length := rfl
  have hfirst := p.take_held_append chunk
  have hrest := p.drop_held_append chunk
  unfold complete
  by_cases hshort : chunk.length < p.missing
  · rw [dif_pos hshort]
    exact fromStream_nil _
  rw [dif_neg hshort]
  have hpacket : IsPacket ((p.held ++ chunk).take packetSize) := by
    refine ⟨List.length_take_of_le ?_, ?_⟩
    · rw [List.length_append]
      omega
    · rw [hfirst, List.head?_append, hheld]
      rfl
  by_cases hend : chunk.drop p.missing = []
  · have hall : chunk.take p.missing = chunk :=
      List.take_of_length_le (List.drop_eq_nil_iff.mp hend)
    have hnone : FromStream ((p.held ++ chunk).drop packetSize) [] [] := by
      rw [hrest, hend]
      exact fromStream_nil _
    have hone := hnone.cons hpacket
    rw [hfirst, hall] at hone
    rw [if_pos hend]
    exact hone
  rw [if_neg hend]
  by_cases hsync : inSync (chunk.drop p.missing) = true
  · have hlater := fromStream_readAligned hsync
    rw [← hrest] at hlater
    have hboth := hlater.cons hpacket
    rw [hfirst, hrest] at hboth
    rw [if_pos hsync]
    exact hboth
  · have hchunk : (p.held ++ chunk).drop p.held.length = chunk := List.drop_left
    have hwindow := fromStream_readWindow ((p.held ++ chunk).drop p.held.length)
    have hall := hwindow.of_drop (by rw [List.length_append]; omega)
    rw [hchunk] at hall
    rw [if_neg hsync]
    exact hall

/-- What a read puts out and holds comes from what was held and the chunk. -/
theorem fromStream_read (p : Packetizer) (chunk : Bytes) :
    FromStream (p.held ++ chunk) (p.read chunk).1.held (packetsIn (p.read chunk).2) := by
  unfold read
  by_cases hchunk : chunk = []
  · rw [if_pos hchunk, hchunk, List.append_nil]
    exact fromStream_nil _
  rw [if_neg hchunk]
  by_cases hheld : p.held.head? = some syncByte
  · rw [dif_pos hheld]
    exact fromStream_complete p hheld chunk
  · rw [dif_neg hheld, p.held_sync.resolve_right hheld, List.nil_append]
    exact fromStream_readWindow chunk

/-- What is done with a packetizer. -/
inductive Action where
  /-- The next chunk is read. -/
  | read (chunk : Bytes)
  /-- The held bytes are dropped. -/
  | reset
  deriving DecidableEq, Repr

/-- The bytes that an action reads. -/
def Action.bytes : Action → Bytes
  | read chunk => chunk
  | reset => []

/-- The bytes that some actions read. -/
def bytesRead (actions : List Action) : Bytes := actions.flatMap Action.bytes

/-- What an action leads to. -/
def act (p : Packetizer) : Action → Packetizer × List Output
  | .read chunk => p.read chunk
  | .reset => (p.reset, [])

/-- What action after action leads to. -/
def run (p : Packetizer) : List Action → Packetizer × List Output
  | [] => (p, [])
  | action :: actions =>
    let (next, outputs) := p.act action
    let (last, later) := next.run actions
    (last, outputs ++ later)

/-- What is done later goes on from what was done first, and puts out its packets behind. -/
theorem run_append (p : Packetizer) (first later : List Action) :
    p.run (first ++ later) =
      (((p.run first).1.run later).1, (p.run first).2 ++ ((p.run first).1.run later).2) := by
  induction first generalizing p with
  | nil => rfl
  | cons action first ih => simp only [List.cons_append, run, ih, List.append_assoc]

/-- The bytes that are read later come later in the stream. -/
theorem bytesRead_append (first later : List Action) :
    bytesRead (first ++ later) = bytesRead first ++ bytesRead later := List.flatMap_append

/-- What an action puts out and leaves held comes from what was held and what it reads. -/
theorem fromStream_act (p : Packetizer) (action : Action) :
    FromStream (p.held ++ action.bytes) (p.act action).1.held (packetsIn (p.act action).2) := by
  cases action with
  | read chunk => exact fromStream_read p chunk
  | reset => exact (fromStream_nil _).forget

/-- Everything that was put out and is held comes from what was held at first and what was
read since. -/
theorem fromStream_run (p : Packetizer) (actions : List Action) :
    FromStream (p.held ++ bytesRead actions) (p.run actions).1.held
      (packetsIn (p.run actions).2) := by
  induction actions generalizing p with
  | nil =>
    rw [bytesRead, List.flatMap_nil, List.append_nil]
    exact fromStream_nil _
  | cons action actions ih =>
    have hread : bytesRead (action :: actions) = action.bytes ++ bytesRead actions :=
      List.flatMap_cons
    rw [hread, run, packetsIn_append, ← List.append_assoc]
    exact (fromStream_act p action).append (ih _)

/-- What is held behind a reset was read behind it. -/
theorem held_le_of_reset (p : Packetizer) (before after : List Action) :
    (p.run (before ++ .reset :: after)).1.held.length ≤ (bytesRead after).length := by
  rw [run_append]
  exact (fromStream_run {} after).suffix.length_le

/-- Whatever a packetizer reads and however often it is reset, it has put out packets that stand
in the stream in their order and without overlap. What it holds is less than a packet, begins
with the sync byte and is the end of the stream, behind all packets and behind all resets. -/
theorem run_is_sound (actions : List Action) :
    let result := ({} : Packetizer).run actions
    let stream := bytesRead actions
    let start := stream.length - result.1.held.length
    (∃ positions, CutOut stream start positions (packetsIn result.2)) ∧
      result.1.held.length < packetSize ∧
      (result.1.held = [] ∨ result.1.held.head? = some syncByte) ∧
      result.1.held = stream.drop start ∧
      ∀ before after, actions = before ++ .reset :: after →
        (bytesRead before).length ≤ start := by
  intro result stream start
  obtain ⟨hsuffix, hpackets⟩ := fromStream_run {} actions
  refine ⟨hpackets, result.1.held_lt, result.1.held_sync, List.suffix_iff_eq_drop.mp hsuffix, ?_⟩
  intro before after hactions
  have hheld : result.1.held.length ≤ (bytesRead after).length := by
    simp only [result, hactions]
    exact held_le_of_reset {} before after
  have hlength : stream.length = (bytesRead before).length + (bytesRead after).length := by
    simp only [stream, hactions, bytesRead_append, List.length_append]
    rfl
  omega

end Packetizer

end TransportStream
