import Std.Data.ExtTreeMap
import TransportStream.Notice
import TransportStream.Packet
import TransportStream.Section

/-!
# The tables of a stream

A stream announces its programs in the program association table, and each program lists
its elementary streams on a PID of its own. Every association table counts, whereas the
first map table of a program stays.
-/

namespace TransportStream

/-- What is known of a program. -/
inductive Program where
  /-- Its PID is known, and no more. -/
  | announced
  /-- Its streams are known. -/
  | mapped (table : ProgramMap)
  deriving DecidableEq, Repr

/-- The table of a program whose streams are known. -/
def Program.table? : Program → Option ProgramMap
  | announced => none
  | mapped table => some table

/-- The tables of a stream as far as they are known. -/
structure Tables where
  /-- The last program association table. -/
  association : Option ProgramAssociation := none
  /-- The programs by the PIDs on which they list their streams. -/
  programs : Std.ExtTreeMap Nat Program := ∅

namespace Tables

/-- The known map table on a PID. -/
def program? (tables : Tables) (mapPid : Nat) : Option ProgramMap :=
  tables.programs[mapPid]?.bind Program.table?

/-- All known map tables in the order of their PIDs. -/
def maps (tables : Tables) : List ProgramMap :=
  tables.programs.toList.filterMap fun (_, program) => program.table?

/-- The type of an elementary stream, after the first map table that lists it. -/
def streamType? (tables : Tables) (pid : Nat) : Option StreamType :=
  (tables.maps.findSome? (·.stream? pid)).map (·.type)

/-- Whether a known map table lists an elementary stream. -/
def hasStream (tables : Tables) (pid : Nat) : Bool := (tables.streamType? pid).isSome

/-- The kind of table to expect on a PID that is not of an elementary stream. -/
def expected? (tables : Tables) (pid : Nat) : Option TableKind :=
  if pid = associationPid then some .association
  else match tables.programs[pid]? with
    | some .announced => some .map
    | _ => none

/-- Adds the programs that are not known yet, and notes them. -/
def announce (programs : Std.ExtTreeMap Nat Program) :
    List Nat → Std.ExtTreeMap Nat Program × List Notice
  | [] => (programs, [])
  | pid :: pids =>
    if pid ∈ programs then announce programs pids
    else
      let (programs, notices) := announce (programs.insert pid .announced) pids
      (programs, .programAnnounced pid :: notices)

/-- Takes in a section that was found on a PID. -/
def addSection (tables : Tables) (pid : Nat) (kind : TableKind) :
    Section → Tables × List Notice
  | .association table =>
    let (programs, notices) := announce tables.programs table.programPids
    ({ association := some table, programs },
      .associationRead table.head.subject table.head.version table.entries.length :: notices)
  | .map table =>
    ({ tables with programs := tables.programs.insert pid (.mapped table) },
      .programMapRead table.head.subject table.pcrPid table.streams.length ::
        table.streams.map fun stream => .streamListed pid stream.pid stream.type)
  | .other tableId => (tables, [.otherTable pid tableId kind.id])

/-- What a payload does to the tables. -/
structure Update where
  /-- The tables afterwards. -/
  tables : Tables
  /-- Whether the payload could be decoded. -/
  result : Except DecodeError Unit := .ok ()
  /-- What there is to note. -/
  notices : List Notice := []

/-- Reads a payload that is not of an elementary stream. It counts only on a PID where a
table is expected. -/
def read (tables : Tables) (pid : Nat) (unitStart : Bool) (payload : Bytes) : Update :=
  match tables.expected? pid with
  | none => { tables }
  | some kind =>
    if unitStart then
      match (Section.decoder kind).decode payload with
      | .error e => { tables, result := .error e }
      | .ok found =>
        let (tables, notices) := tables.addSection pid kind found
        { tables, notices }
    else { tables, notices := [.noSectionStart pid] }

end Tables

end TransportStream
