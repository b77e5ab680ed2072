import Mathlib.Data.List.Forall2
import TransportStream.Proofs.Demuxer.Actions

/-!
# What is left behind a reset

A demultiplexer that has forgotten everything goes on like a new one. Only its counts go on from
where they were, and nothing that it does depends on them.
-/

namespace TransportStream.Demuxer

/-- What a demultiplexer is asked for. No question changes it. -/
inductive Question where
  /-- Its configuration. -/
  | config
  /-- The last program association table. -/
  | association
  /-- The map table on a PID. -/
  | program (mapPid : Nat)
  /-- All known map tables. -/
  | maps
  /-- Whether an elementary stream is known. -/
  | hasStream (pid : Nat)
  /-- The type of an elementary stream. -/
  | streamType (pid : Nat)
  /-- Whether a unit is pending. -/
  | hasPending
  /-- The bytes of the pending unit. -/
  | pendingBytes
  /-- The PID of the pending unit. -/
  | pendingPid
  /-- What the pending unit holds. -/
  | decodePending
  deriving DecidableEq, Repr

/-- Something is done with a demultiplexer, or it is asked for something. -/
inductive Request where
  /-- A packet is read, the pending unit is handed out, or everything is forgotten. -/
  | act (action : Action)
  /-- A question is asked. -/
  | ask (question : Question)
  deriving DecidableEq, Repr

/-- What a demultiplexer answers. -/
inductive Answer where
  /-- Nothing. -/
  | done
  /-- Whether a packet could be decoded. -/
  | read (result : Except DecodeError Unit)
  /-- The unit that was pending. -/
  | taken (unit : Option PendingUnit)
  /-- The configuration. -/
  | config (config : Config)
  /-- The last program association table. -/
  | association (table : Option ProgramAssociation)
  /-- The map table on a PID. -/
  | program (table : Option ProgramMap)
  /-- All known map tables. -/
  | maps (tables : List ProgramMap)
  /-- Whether there is an elementary stream, or a pending unit. -/
  | flag (flag : Bool)
  /-- The type of an elementary stream. -/
  | streamType (type : Option StreamType)
  /-- The bytes of the pending unit. -/
  | bytes (bytes : Except MissingUnit Bytes)
  /-- The PID of the pending unit. -/
  | pid (pid : Except MissingUnit Nat)
  /-- What the pending unit holds. -/
  | decoded (unit : Option (Except DecodeError PesUnit))

/-- The answer to a question. -/
def answer (d : Demuxer) : Question → Answer
  | .config => .config d.config
  | .association => .association d.tables.association
  | .program mapPid => .program (d.tables.program? mapPid)
  | .maps => .maps d.tables.maps
  | .hasStream pid => .flag (d.tables.hasStream pid)
  | .streamType pid => .streamType (d.tables.streamType? pid)
  | .hasPending => .flag d.pending.isSome
  | .pendingBytes => .bytes d.pendingBytes
  | .pendingPid => .pid d.pendingPid
  | .decodePending => .decoded d.decodePending

/-- What a request leads to. -/
structure Response where
  /-- The answer. -/
  answer : Answer
  /-- What there is to note. -/
  notices : List Notice := []
  /-- The demultiplexer afterwards. -/
  demuxer : Demuxer

/-- What a request leads to. -/
def respond (d : Demuxer) : Request → Response
  | .act (.read bytes) =>
    let reading := d.read bytes
    { answer := .read reading.result, notices := reading.notices, demuxer := reading.demuxer }
  | .act .take => { answer := .taken d.take.1, demuxer := d.take.2 }
  | .act .reset => { answer := .done, demuxer := d.reset }
  | .ask question => { answer := d.answer question, demuxer := d }

/-- What request after request leads to. -/
def responses (d : Demuxer) : List Request → List Response
  | [] => []
  | request :: requests => d.respond request :: (d.respond request).demuxer.responses requests

/-- Two responses are alike, but that the counts of the first one are higher. -/
structure Response.Exceeds (losses oversizes : Nat) (s t : Response) : Prop where
  /-- The answers are the same. -/
  answer : s.answer = t.answer
  /-- The same is noted. -/
  notices : s.notices = t.notices
  /-- The demultiplexers work alike. -/
  config : s.demuxer.config = t.demuxer.config
  /-- They know the same tables. -/
  tables : s.demuxer.tables = t.demuxer.tables
  /-- They have the same open units. -/
  units : s.demuxer.units = t.demuxer.units
  /-- The same unit is pending. -/
  pending : s.demuxer.pending = t.demuxer.pending
  /-- The first one has counted that many more units that were dropped because packets were lost. -/
  losses : s.demuxer.lossCount = losses + t.demuxer.lossCount
  /-- It has counted that many more units that were dropped because of their size. -/
  oversizes : s.demuxer.oversizeCount = oversizes + t.demuxer.oversizeCount

/-- A demultiplexer that has counted so many more dropped units. -/
def withMoreCounts (d : Demuxer) (losses oversizes : Nat) : Demuxer :=
  { d with lossCount := losses + d.lossCount, oversizeCount := oversizes + d.oversizeCount }

variable {losses oversizes : Nat}

/-- Raised counts stay raised by as much when a unit changes. -/
theorem withReassembly_withMoreCounts (d : Demuxer) (pid : Nat) (r : Reassembly) :
    (d.withMoreCounts losses oversizes).withReassembly pid r =
      (d.withReassembly pid r).withMoreCounts losses oversizes := by
  simp only [withReassembly, withMoreCounts, Nat.add_assoc]

/-- Raised counts do not matter for a payload. -/
theorem readPayload_withMoreCounts (d : Demuxer) (packet : Packet) (payload : Bytes) :
    (d.withMoreCounts losses oversizes).readPayload packet payload =
      { d.readPayload packet payload with
        demuxer := (d.readPayload packet payload).demuxer.withMoreCounts losses oversizes } := by
  have htables : (d.withMoreCounts losses oversizes).tables = d.tables := rfl
  unfold readPayload
  rw [htables]
  cases d.tables.hasStream packet.pid with
  | true =>
    simp only [if_true, withReassembly_withMoreCounts]
    rfl
  | false => rfl

/-- Reading a packet does not depend on the counts, and adds to them. -/
theorem read_withMoreCounts (d : Demuxer) (bytes : Bytes) :
    (d.withMoreCounts losses oversizes).read bytes =
      { d.read bytes with
        demuxer := (d.read bytes).demuxer.withMoreCounts losses oversizes } := by
  unfold read
  cases Packet.decode bytes with
  | error e => rfl
  | ok packet =>
    cases hpayload : packet.payload with
    | none =>
      simp only [hpayload]
      rfl
    | some payload =>
      simp only [hpayload]
      exact readPayload_withMoreCounts { d with pending := none } packet payload

/-- The same response of a demultiplexer that has counted so many more dropped units. -/
def Response.withMoreCounts (r : Response) (losses oversizes : Nat) : Response :=
  { r with demuxer := r.demuxer.withMoreCounts losses oversizes }

/-- No request asks for the counts, and what is done does not depend on them. -/
theorem respond_withMoreCounts (d : Demuxer) (request : Request) :
    (d.withMoreCounts losses oversizes).respond request =
      (d.respond request).withMoreCounts losses oversizes := by
  cases request with
  | act action =>
    cases action with
    | read bytes =>
      simp only [respond, read_withMoreCounts]
      rfl
    | take => rfl
    | reset => rfl
  | ask question => cases question <;> rfl

/-- Raised counts show in no response but those that ask for them. -/
theorem responses_withMoreCounts (d : Demuxer) (requests : List Request) :
    (d.withMoreCounts losses oversizes).responses requests =
      (d.responses requests).map (·.withMoreCounts losses oversizes) := by
  induction requests generalizing d with
  | nil => rfl
  | cons request requests ih =>
    rw [responses, respond_withMoreCounts, responses, List.map_cons]
    exact congrArg _ (ih _)

/-- A response with raised counts exceeds the one without by exactly these. -/
theorem Response.exceeds_withMoreCounts (r : Response) :
    (r.withMoreCounts losses oversizes).Exceeds losses oversizes r where
  answer := rfl
  notices := rfl
  config := rfl
  tables := rfl
  units := rfl
  pending := rfl
  losses := rfl
  oversizes := rfl

/-- A demultiplexer that has forgotten everything is a new one, but for what it has counted. -/
theorem reset_eq (d : Demuxer) :
    d.reset = ({ config := d.config } : Demuxer).withMoreCounts d.lossCount d.oversizeCount := rfl

/-- Whatever a demultiplexer has read before, once it has forgotten everything it responds to
request after request as a new one with its configuration does: with the same answers, the same
notices, the same tables and the same units. Only its counts are higher, by what they were. -/
theorem reset_keeps_only_counts (d : Demuxer) (requests : List Request) :
    List.Forall₂ (Response.Exceeds d.lossCount d.oversizeCount) (d.reset.responses requests)
      (({ config := d.config } : Demuxer).responses requests) := by
  rw [reset_eq, responses_withMoreCounts, List.forall₂_map_left_iff, List.forall₂_same]
  intro r _
  exact r.exceeds_withMoreCounts

/-- An open unit is not continued behind a reset, although its PID carries the same elementary
stream again and the counters fit together. -/
example :
    let packet (first : Bytes) : Bytes := first ++ List.replicate (188 - first.length) 0xff
    let association := Action.read (packet [0x47, 0x40, 0x00, 0x10, 0x00, 0x00, 0xb0, 0x0d, 0x00,
      0x01, 0xc1, 0x00, 0x00, 0x00, 0x01, 0xe0, 0x20, 0, 0, 0, 0])
    let listing := Action.read (packet [0x47, 0x40, 0x20, 0x10, 0x00, 0x02, 0xb0, 0x12, 0x00, 0x01,
      0xc1, 0x00, 0x00, 0xe0, 0x41, 0xf0, 0x00, 0x1b, 0xe0, 0x41, 0xf0, 0x00, 0, 0, 0, 0])
    let first := Action.read (packet [0x47, 0x40, 0x41, 0x10])
    let second := Action.read (packet [0x47, 0x00, 0x41, 0x11])
    let opened (between : List Action) : Option Nat :=
      (run {} ([association, listing, first] ++ between ++ [association, listing, second])).units[
        0x41]?.map (·.bytes.length)
    opened [] = some 368 ∧ opened [.reset] = none := by
  decide +kernel

end TransportStream.Demuxer
