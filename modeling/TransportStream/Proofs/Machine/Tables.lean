import TransportStream.Proofs.Machine.Packet
import TransportStream.Tables

/-!
# Reading tables with a cursor

Program association tables and program map tables are read with a cursor as they are decoded.
Their items are read in loops, which end.
-/

namespace TransportStream.Machine

open Reader

/-- Reads a PID behind three reserved bits. -/
def readPid : Reader Nat := do
  let f ← readFields [3, 13]
  fieldAs 16 f 1

/-- Reads the part of a section's head that its length counts. -/
def readSectionHead (tableId : Nat) (generalLayout : Bool) : Reader SectionHead := do
  let subject ← readU16
  let state ← readFields [2, 5, 1]
  let number ← readU8
  let lastNumber ← readU8
  let version ← fieldAs 8 state 1
  let current ← flag state 2
  return { tableId, generalLayout, subject, version, current, number, lastNumber }

/-- Reads an entry of a program association table. -/
def readEntry : Reader AssociationEntry := do
  let program ← readU16
  let pid ← readPid
  return ⟨program, pid⟩

/-- Reads a program association table. -/
def readAssociation : Reader ProgramAssociation := do
  let tableId ← readU8
  let f ← readFields [1, 1, 2, 12]
  let generalLayout ← flag f 0
  within (← field f 3) do
    let head ← readSectionHead tableId generalLayout
    let entries ← whileLeft checksumSize readEntry
    let crc ← readU32
    return { head, entries, crc }

/-- Reads a descriptor. -/
def readDescriptor : Reader Descriptor := do
  let tag ← readU8
  let data ← readCountedBytes
  return ⟨tag, data⟩

/-- Reads a length of ten bits behind four reserved bits and two zeros. -/
def readInfoLength : Reader Nat := do
  let f ← readFields [4, 2, 10]
  expectEq f 1 0
  field f 2

/-- Reads an elementary stream. -/
def readStream : Reader ElementaryStream := do
  let type ← readU8
  let pid ← readPid
  let descriptors ← within (← readInfoLength) (whileLeft 0 readDescriptor)
  return ⟨⟨type⟩, pid, descriptors⟩

/-- Reads a program map table. -/
def readMap : Reader ProgramMap := do
  let tableId ← readU8
  let f ← readFields [1, 1, 2, 2, 10]
  expectEq f 3 0
  let generalLayout ← flag f 0
  within (← field f 4) do
    let head ← readSectionHead tableId generalLayout
    let pcrPid ← readPid
    let programInfo ← readBytes (← readInfoLength)
    let streams ← whileLeft checksumSize readStream
    let crc ← readU32
    return { head, pcrPid, programInfo, streams, crc }

/-- Reads the section that a payload points at, if it is of the expected kind of table. -/
def readSection (kind : TableKind) : Reader Section := do
  let _ ← readCountedBytes
  let found := (← remainingData).head?.map (·.toNat)
  match found.filter (· ≠ kind.id), kind with
  | some tableId, _ => return .other tableId
  | none, .association => .association <$> readAssociation
  | none, .map => .map <$> readMap

/-- Reads a payload that is not of an elementary stream. -/
def readTables (tables : Tables) (pid : Nat) (unitStart : Bool) (payload : Bytes) :
    Checked Tables.Update :=
  match tables.expected? pid with
  | none => return { tables }
  | some kind =>
    if unitStart then do
      match ← parse (readSection kind) payload with
      | .error e => return { tables, result := .error e }
      | .ok found =>
        let (tables, notices) := tables.addSection pid kind found
        return { tables, notices }
    else return { tables, notices := [.noSectionStart pid] }

/-- A PID is read with a cursor as it is decoded. -/
theorem simulates_readPid : Simulates readPid pidField := by
  refine (SimulatesAs.readFields _).bind fun f _ => ?_
  simp (disch := decide) only [fieldAs_values]
  exact .pure trivial

/-- The head of a section is read with a cursor as it is decoded. -/
theorem simulates_readSectionHead (tableId : Nat) (generalLayout : Bool) :
    Simulates (readSectionHead tableId generalLayout)
      (SectionHead.decoder tableId generalLayout) := by
  refine SimulatesWith.readU16.bind fun _ _ => ?_
  refine (SimulatesAs.readFields _).bind fun f _ => ?_
  refine SimulatesWith.readU8.bind fun _ _ => ?_
  refine SimulatesWith.readU8.bind fun _ _ => ?_
  simp (disch := decide) only [flag_values, fieldAs_values, pure_bind]
  exact .pure trivial

/-- An entry is read with a cursor as it is decoded. -/
theorem simulates_readEntry : Simulates readEntry AssociationEntry.decoder :=
  SimulatesWith.readU16.bind fun _ _ => simulates_readPid.bind fun _ _ => .pure trivial

/-- A program association is read with a cursor as it is decoded. -/
theorem simulates_readAssociation : Simulates readAssociation ProgramAssociation.decoder := by
  refine SimulatesWith.readU8.bind fun tableId _ => ?_
  refine (SimulatesAs.readFields _).bind fun f _ => ?_
  simp (disch := decide) only [flag_values, field_values, pure_bind]
  refine SimulatesWith.within ?_ (le_bufferLimit (f.get_lt 3 (by decide)) (by decide))
  refine (simulates_readSectionHead _ _).bind fun _ _ => ?_
  refine (simulates_readEntry.whileLeft AssociationEntry.reads_decoder (by decide) _).bind
    fun _ _ => ?_
  exact SimulatesWith.readU32.bind fun _ _ => .pure trivial

/-- A descriptor is read with a cursor as it is decoded. -/
theorem simulates_readDescriptor : Simulates readDescriptor Descriptor.decoder :=
  SimulatesWith.readU8.bind fun _ _ => simulates_readCountedBytes.bind fun _ _ => .pure trivial

/-- The length of information is read with a cursor as it is decoded, and has ten bits. -/
theorem simulates_readInfoLength :
    SimulatesWith (· < 2 ^ 10) readInfoLength infoLength := by
  refine (SimulatesAs.readFields _).bind fun f _ => ?_
  refine (Simulates.expectEq f 1 _ 0).bind fun _ _ => ?_
  simp (disch := decide) only [field_values]
  exact .pure (f.get_lt 2 (by decide))

/-- An elementary stream is read with a cursor as it is decoded. -/
theorem simulates_readStream : Simulates readStream ElementaryStream.decoder := by
  refine SimulatesWith.readU8.bind fun _ _ => ?_
  refine simulates_readPid.bind fun _ _ => ?_
  refine simulates_readInfoLength.bind fun n hn => ?_
  have hdescriptors := simulates_readDescriptor.whileLeft Descriptor.reads_decoder (by decide) 0
  exact (hdescriptors.within (le_bufferLimit hn (by decide))).bind fun _ _ => .pure trivial

/-- A program map is read with a cursor as it is decoded. -/
theorem simulates_readMap : Simulates readMap ProgramMap.decoder := by
  refine SimulatesWith.readU8.bind fun tableId _ => ?_
  refine (SimulatesAs.readFields _).bind fun f _ => ?_
  refine (Simulates.expectEq f 3 _ 0).bind fun _ _ => ?_
  simp (disch := decide) only [flag_values, field_values, pure_bind]
  refine SimulatesWith.within ?_ (le_bufferLimit (f.get_lt 4 (by decide)) (by decide))
  refine (simulates_readSectionHead _ _).bind fun _ _ => ?_
  refine simulates_readPid.bind fun _ _ => ?_
  refine simulates_readInfoLength.bind fun n hn => ?_
  refine (SimulatesWith.readBytes (le_bufferLimit hn (by decide))).bind fun _ _ => ?_
  refine (simulates_readStream.whileLeft ElementaryStream.reads_decoder (by decide) _).bind
    fun _ _ => ?_
  exact SimulatesWith.readU32.bind fun _ _ => .pure trivial

/-- A section of either kind is read with a cursor as it is decoded. -/
theorem simulates_readSection (kind : TableKind) :
    Simulates (readSection kind) (Section.decoder kind) := by
  refine simulates_readCountedBytes.bind fun _ _ => ?_
  refine SimulatesWith.remainingData.bind fun bytes _ => ?_
  simp only [id]
  cases (bytes.head?.map (·.toNat)).filter (· ≠ kind.id) with
  | some tableId => exact .pure trivial
  | none =>
    cases kind with
    | association =>
      simp only [map_eq_pure_bind]
      exact simulates_readAssociation.bind fun _ _ => .pure trivial
    | map =>
      simp only [map_eq_pure_bind]
      exact simulates_readMap.bind fun _ _ => .pure trivial

/-- A payload that keeps to the limit of a buffer is read for the tables without a fault. -/
theorem readTables_eq (tables : Tables) (pid : Nat) (unitStart : Bool) {payload : Bytes}
    (hpayload : payload.length < bufferLimit) :
    readTables tables pid unitStart payload = pure (tables.read pid unitStart payload) := by
  unfold readTables Tables.read
  cases tables.expected? pid with
  | none => rfl
  | some kind =>
    cases unitStart with
    | false => rfl
    | true =>
      simp only [if_true, parse_eq (simulates_readSection kind) hpayload, pure_bind]
      cases (Section.decoder kind).decode payload with
      | error e => rfl
      | ok found => rfl

end TransportStream.Machine
