import TransportStream.Bytes
import TransportStream.Clock
import TransportStream.Notice

/-!
# From payloads to PES units

The payloads of one PID, put together in order, form PES units. A packet that says so
begins a unit and thereby completes the one before. A continuity counter that does not go
up by one means that packets were lost, and a unit may not exceed a bound on its size. In
either case the open unit is dropped, and payloads are skipped until the next one begins.
-/

namespace TransportStream

/-- A unit that has begun and is not complete. -/
structure OpenUnit where
  /-- The bytes so far. -/
  bytes : Bytes
  /-- The continuity counter of the last packet. -/
  counter : Nat
  deriving DecidableEq, Repr

/-- Why an open unit was dropped. -/
inductive Drop where
  /-- The continuity counter jumped. -/
  | packetsLost
  /-- The unit would have exceeded the bound on its size. -/
  | tooLarge
  deriving DecidableEq, Repr

/-- What a payload does to the units of its PID. -/
structure Reassembly where
  /-- The unit that is open afterwards. -/
  openUnit : Option OpenUnit := none
  /-- The bytes of the unit that was completed. -/
  completed : Option Bytes := none
  /-- Why a unit was dropped, if one was. -/
  dropped : Option Drop := none
  /-- What there is to note. -/
  notices : List Notice := []
  deriving DecidableEq, Repr

namespace Reassembly

/-- Adds a payload to the bytes of a unit, unless that takes the unit beyond the bound. -/
def extend (bound pid : Nat) (bytes : Bytes) (counter : Nat) (payload : Bytes) : Reassembly :=
  if bytes.length + payload.length ≤ bound then
    { openUnit := some ⟨bytes ++ payload, counter⟩ }
  else { dropped := some .tooLarge, notices := [.unitTooLarge pid bound] }

/-- What a payload does to the unit that is open on its PID. -/
def ofPayload (bound pid : Nat) (unitStart : Bool) (counter : Nat) (payload : Bytes) :
    Option OpenUnit → Reassembly
  | none =>
    if unitStart then extend bound pid [] counter payload
    else { notices := [.payloadSkipped pid] }
  | some unit =>
    let expected := nextCounter unit.counter
    if counter ≠ expected then
      let lost := continuityLoss expected counter
      { dropped := some .packetsLost
        notices := [.packetsLost pid counter expected lost unit.bytes.length] }
    else if unitStart then
      let begun := extend bound pid [] counter payload
      { begun with
        completed := some unit.bytes
        notices := .unitComplete pid unit.bytes.length :: begun.notices }
    else extend bound pid unit.bytes counter payload

end Reassembly

end TransportStream
