import TransportStream.Packet
import TransportStream.Proofs.Bits.Decoding
import TransportStream.Reassembly

/-!
# Reassembling fragment after fragment

What packets do to the units of a PID is decided by their fragments on that PID alone:
the payloads in their order, with what the heads of their packets say of them.
-/

namespace TransportStream

/-- A payload with what the head of its packet says of it. -/
structure Fragment where
  /-- The PID of the packet. -/
  pid : Nat
  /-- Whether a unit starts in the payload. -/
  unitStart : Bool
  /-- The continuity counter of the packet. -/
  counter : Nat
  /-- The payload. -/
  payload : Bytes
  deriving DecidableEq, Repr

/-- The fragment in a packet, if it has a payload. -/
def Packet.fragment? (packet : Packet) : Option Fragment :=
  packet.payload.map (⟨packet.pid, packet.unitStart, packet.counter, ·⟩)

/-- The fragment in the bytes of a packet, if they can be decoded and have a payload. -/
def fragment? (bytes : Bytes) : Option Fragment :=
  (Packet.decode bytes).toOption.bind Packet.fragment?

/-- Whether bytes are a packet with a payload on a PID. -/
def carries (pid : Nat) (bytes : Bytes) : Bool := (fragment? bytes).any (·.pid == pid)

/-- The fragments on a PID, in the order of their packets. -/
def fragmentsOn (pid : Nat) (inputs : List Bytes) : List Fragment :=
  (inputs.filterMap fragment?).filter (·.pid == pid)

/-- A fragment is that of a packet that can be decoded. -/
theorem fragment?_eq_some_iff {bytes : Bytes} {f : Fragment} : fragment? bytes = some f ↔
    ∃ packet, Packet.decode bytes = .ok packet ∧ packet.fragment? = some f := by
  simp only [fragment?, Option.bind_eq_some_iff, toOption_eq_some_iff]

/-- Packets on other PIDs have no fragments on this one. -/
theorem fragmentsOn_filter_carries (pid : Nat) (inputs : List Bytes) :
    fragmentsOn pid (inputs.filter (carries pid)) = fragmentsOn pid inputs := by
  induction inputs with
  | nil => rfl
  | cons bytes inputs ih =>
    cases hfragment : fragment? bytes with
    | none => simpa [carries, fragmentsOn, hfragment] using ih
    | some f =>
      by_cases hpid : f.pid = pid
      · simpa [carries, fragmentsOn, hfragment, hpid] using ih
      · simpa [carries, fragmentsOn, hfragment, hpid] using ih

/-- The fragments of packets behind others come behind theirs. -/
theorem fragmentsOn_append (pid : Nat) (first later : List Bytes) :
    fragmentsOn pid (first ++ later) = fragmentsOn pid first ++ fragmentsOn pid later := by
  simp [fragmentsOn]

namespace Reassembly

/-- What a fragment does to the unit that is open on its PID. -/
def ofFragment (bound : Nat) (f : Fragment) (unit : Option OpenUnit) : Reassembly :=
  ofPayload bound f.pid f.unitStart f.counter f.payload unit

/-- What each of some fragments does to the unit that is then open on their PID. -/
def trace (bound : Nat) : List Fragment → Option OpenUnit → List Reassembly
  | [], _ => []
  | f :: fragments, unit =>
    ofFragment bound f unit :: trace bound fragments (ofFragment bound f unit).openUnit

/-- The unit that is open behind some fragments of one PID. -/
def openAfter (bound : Nat) : List Fragment → Option OpenUnit → Option OpenUnit
  | [], unit => unit
  | f :: fragments, unit => openAfter bound fragments (ofFragment bound f unit).openUnit

/-- The units that some fragments completed. -/
def completions (trace : List Reassembly) : List Bytes := trace.filterMap (·.completed)

/-- How many units some fragments dropped because others were lost. -/
def losses (trace : List Reassembly) : Nat := trace.countP (·.dropped = some .packetsLost)

/-- How many units some fragments dropped because of their size. -/
def oversizes (trace : List Reassembly) : Nat := trace.countP (·.dropped = some .tooLarge)

/-- A unit that the first fragment completes comes first. -/
theorem completions_cons (r : Reassembly) (trace : List Reassembly) :
    completions (r :: trace) = r.completed.toList ++ completions trace := by
  rw [completions, List.filterMap_cons]
  cases r.completed <;> rfl

/-- The first fragment adds one if it drops a unit because packets were lost. -/
theorem losses_cons (r : Reassembly) (trace : List Reassembly) :
    losses (r :: trace) = losses trace + if r.dropped = some .packetsLost then 1 else 0 := by
  simp [losses, List.countP_cons]

/-- The first fragment adds one if it drops a unit because of its size. -/
theorem oversizes_cons (r : Reassembly) (trace : List Reassembly) :
    oversizes (r :: trace) = oversizes trace + if r.dropped = some .tooLarge then 1 else 0 := by
  simp [oversizes, List.countP_cons]

/-- Later fragments go on with the unit that the first ones leave open. -/
theorem openAfter_append (bound : Nat) (first later : List Fragment) (unit : Option OpenUnit) :
    openAfter bound (first ++ later) unit = openAfter bound later (openAfter bound first unit) := by
  induction first generalizing unit with
  | nil => rfl
  | cons f first ih => exact ih _

end Reassembly

end TransportStream
