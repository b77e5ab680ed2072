import TransportStream.Layout.Basic
import TransportStream.ProgramAssociation
import TransportStream.ProgramMap

/-!
# The layouts of tables
-/

namespace TransportStream

open Layout

/-- The part of a section's head that its length counts. -/
def SectionHead.layout (head : SectionHead) : Layout :=
  [.value 16 head.subject, .free 2, .value 5 head.version, flag head.current,
    .value 8 head.number, .value 8 head.lastNumber]

/-- The layout of an entry of the program association table. -/
def AssociationEntry.layout (entry : AssociationEntry) : Layout :=
  [.value 16 entry.program, .free 3, .value 13 entry.pid]

/-- What the length of a program association table counts. -/
def ProgramAssociation.body (table : ProgramAssociation) : Layout :=
  table.head.layout ++ table.entries.flatMap AssociationEntry.layout ++ [.value 32 table.crc]

/-- The layout of a program association table. -/
def ProgramAssociation.layout (table : ProgramAssociation) : Layout :=
  [.value 8 table.head.tableId, flag table.head.generalLayout, .free 1, .free 2,
    .value 12 (table.body.size / 8)] ++ table.body

/-- The layout of a descriptor. -/
def Descriptor.layout (descriptor : Descriptor) : Layout :=
  [.value 8 descriptor.tag, .value 8 descriptor.data.length] ++ ofBytes descriptor.data

/-- The layout of a length of ten bits behind four reserved bits and two zeros. -/
def Layout.ofInfoLength (length : Nat) : Layout := [.free 4, .value 2 0, .value 10 length]

/-- The descriptors of an elementary stream. -/
def ElementaryStream.info (stream : ElementaryStream) : Layout :=
  stream.descriptors.flatMap Descriptor.layout

/-- The layout of an elementary stream. -/
def ElementaryStream.layout (stream : ElementaryStream) : Layout :=
  [.value 8 stream.type.code, .free 3, .value 13 stream.pid] ++
    ofInfoLength (stream.info.size / 8) ++ stream.info

/-- What the length of a program map table counts. -/
def ProgramMap.body (table : ProgramMap) : Layout :=
  table.head.layout ++ [.free 3, .value 13 table.pcrPid] ++
    ofInfoLength table.programInfo.length ++ ofBytes table.programInfo ++
    table.streams.flatMap ElementaryStream.layout ++ [.value 32 table.crc]

/-- The layout of a program map table. -/
def ProgramMap.layout (table : ProgramMap) : Layout :=
  [.value 8 table.head.tableId, flag table.head.generalLayout, .free 1, .free 2, .value 2 0,
    .value 10 (table.body.size / 8)] ++ table.body

end TransportStream
