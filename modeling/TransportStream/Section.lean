import TransportStream.ProgramAssociation
import TransportStream.ProgramMap

/-!
# Sections in payloads

The first byte of a payload in which a section starts points at it: it counts the bytes
between. What a section holds is told by its first byte, the kind of its table.
-/

namespace TransportStream

/-- The kinds of table that are read. -/
inductive TableKind where
  /-- A program association table. -/
  | association
  /-- A program map table. -/
  | map
  deriving DecidableEq, Repr

/-- The number of a kind of table in its sections. -/
def TableKind.id : TableKind → Nat
  | association => associationTableId
  | map => mapTableId

/-- A section as it is found at the start of a payload. -/
inductive Section where
  /-- A program association table. -/
  | association (table : ProgramAssociation)
  /-- A program map table. -/
  | map (table : ProgramMap)
  /-- The section of another kind of table than the one expected. -/
  | other (tableId : Nat)
  deriving DecidableEq, Repr

/-- Reads the section that a payload points at with its first byte, provided that it
belongs to the expected kind of table. -/
def Section.decoder (kind : TableKind) : Decoder Section := do
  let _ ← Decoder.countedBytes
  let found := (← Decoder.rest).head?.map (·.toNat)
  match found.filter (· ≠ kind.id), kind with
  | some tableId, _ => return .other tableId
  | none, .association => .association <$> ProgramAssociation.decoder
  | none, .map => .map <$> ProgramMap.decoder

end TransportStream
