import TransportStream.Proofs.Demuxer.LifeCycle

/-!
# The last association table

The association table that a demultiplexer knows is the last one that a packet carried since
everything was forgotten, as long as no map table lists PID 0 as an elementary stream. From then
on the packets on PID 0 are put together to units, and the association table stays what it was.
-/

namespace TransportStream.Demuxer

/-- The program association table that an action brings along. -/
def Action.association? : Action → Option ProgramAssociation
  | .read bytes => associationIn? bytes
  | .take | .reset => none

/-- The program association tables that packets carried since everything was forgotten last, in
the order of the packets. -/
def associationsIn (actions : List Action) : List ProgramAssociation :=
  (actions.rtakeWhile fun action => !action.isReset).filterMap Action.association?

variable {d : Demuxer} {bytes : Bytes} {actions : List Action} {action : Action} {config : Config}

/-- Where everything is forgotten, no association table was carried. -/
@[simp] theorem associationsIn_reset (actions : List Action) :
    associationsIn (actions ++ [.reset]) = [] := by
  rw [associationsIn, List.rtakeWhile_concat_neg _ _ _ (by simp [Action.isReset]),
    List.filterMap_nil]

/-- An action that forgets nothing adds the association table that it brings along. -/
theorem associationsIn_concat (h : action.isReset = false) :
    associationsIn (actions ++ [action]) =
      associationsIn actions ++ action.association?.toList := by
  rw [associationsIn, List.rtakeWhile_concat_pos _ _ _ (by simp [h]), List.filterMap_append,
    associationsIn]
  cases hassociation : action.association? <;> simp [hassociation]

/-- The last association table is that of the last action, if it brings one along. -/
theorem getLast?_associationsIn_concat (h : action.isReset = false) :
    (associationsIn (actions ++ [action])).getLast? =
      action.association?.or (associationsIn actions).getLast? := by
  rw [associationsIn_concat h, List.getLast?_append]
  cases action.association? <;> rfl

/-- Only an association table that is taken in replaces the one before. -/
theorem TableStep.association {after : Tables} (h : d.TableStep bytes after)
    (hinstalls : ∀ table, ¬ d.Installs bytes table) :
    after.association = d.tables.association := by
  cases h with
  | keep => rfl
  | associate table hinstalled => exact absurd hinstalled (hinstalls table)
  | map _ _ _ => rfl

/-- While PID 0 is that of association tables, the one in a packet replaces the one before. -/
theorem association_read (h : d.tables.hasStream associationPid = false) (bytes : Bytes) :
    (d.read bytes).demuxer.tables.association =
      (associationIn? bytes).or d.tables.association := by
  cases hcarried : associationIn? bytes with
  | some table => rw [tables_read_of_installs ⟨h, hcarried⟩, Option.some_or]
  | none =>
    rw [Option.none_or]
    refine (tableStep_read d bytes).association ?_
    rintro table ⟨_, hinstalled⟩
    rw [hcarried] at hinstalled
    cases hinstalled

/-- Once PID 0 carries an elementary stream, the association table stays. -/
theorem association_read_of_hasStream (h : d.tables.hasStream associationPid = true)
    (bytes : Bytes) :
    (d.read bytes).demuxer.tables.association = d.tables.association := by
  refine (tableStep_read d bytes).association ?_
  rintro table ⟨hstream, _⟩
  rw [h] at hstream
  cases hstream

/-- A PID becomes that of an elementary stream by a map table that lists it. -/
theorem exists_resolves_of_hasStream {pid : Nat} (hbefore : d.tables.hasStream pid = false)
    (hafter : (d.read bytes).demuxer.tables.hasStream pid = true) :
    ∃ mapPid table, d.Resolves bytes mapPid table ∧ pid ∈ table.streams.map (·.pid) := by
  obtain ⟨mapPid, table, hmapped, hlisted⟩ := Tables.hasStream_iff.mp hafter
  refine ⟨mapPid, table, ?_, hlisted⟩
  rw [← Tables.program?_eq_some_iff] at hmapped
  cases hprogram : d.tables.program? mapPid with
  | none => exact ((lifeCycle d bytes).resolved mapPid table hprogram).mp hmapped
  | some found =>
    have hkept := (lifeCycle d bytes).mapped mapPid found hprogram
    obtain rfl : table = found := Option.some_inj.mp (hmapped.symm.trans hkept)
    have hstream := Tables.hasStream_iff.mpr
      ⟨mapPid, table, Tables.program?_eq_some_iff.mp hprogram, hlisted⟩
    rw [hbefore] at hstream
    cases hstream

/-- A program got a map table that lists PID 0 since everything was forgotten last. Before that, the
last association table was a given one. -/
def ListsAssociationPid (config : Config) (actions : List Action)
    (association : Option ProgramAssociation) : Prop :=
  ReadSince actions fun before bytes =>
    (∃ mapPid table, (({ config } : Demuxer).run before).Resolves bytes mapPid table ∧
      associationPid ∈ table.streams.map (·.pid)) ∧
      association = (associationsIn before).getLast?

/-- What is known of the last association table: it is the last one that a packet carried, unless
PID 0 was listed as an elementary stream behind it. -/
structure KnowsAssociation (config : Config) (actions : List Action) (d : Demuxer) : Prop where
  /-- As long as no map table lists PID 0, every association table counts. -/
  last : d.tables.hasStream associationPid = false →
    d.tables.association = (associationsIn actions).getLast?
  /-- From the first map table on that lists PID 0, none does. -/
  listed : d.tables.hasStream associationPid = true →
    ListsAssociationPid config actions d.tables.association

/-- To hand out a unit changes nothing about the association table. -/
theorem KnowsAssociation.take (h : KnowsAssociation config actions d) :
    KnowsAssociation config (actions ++ [.take]) (d.act .take) where
  last hstream := by
    rw [getLast?_associationsIn_concat rfl]
    exact h.last hstream
  listed hstream := (h.listed hstream).concat rfl

/-- Where everything is forgotten, no association table is known, and none was carried since. -/
theorem knowsAssociation_reset (d : Demuxer) :
    KnowsAssociation config (actions ++ [.reset]) (d.act .reset) where
  last _ := by
    rw [associationsIn_reset]
    rfl
  listed hstream := by cases hstream

/-- A packet keeps this knowledge, whether it brings an association table along, lists PID 0 or does
neither. -/
theorem KnowsAssociation.read
    (h : KnowsAssociation config actions (({ config } : Demuxer).run actions)) (bytes : Bytes) :
    KnowsAssociation config (actions ++ [.read bytes])
      ((({ config } : Demuxer).run actions).act (.read bytes)) where
  last hstream := by
    have hbefore : (({ config } : Demuxer).run actions).tables.hasStream associationPid =
        false := by
      by_contra hlisted
      rw [hasStream_act (by simpa using hlisted) rfl] at hstream
      cases hstream
    rw [getLast?_associationsIn_concat rfl, ← h.last hbefore]
    exact association_read hbefore bytes
  listed hstream := by
    cases hbefore : (({ config } : Demuxer).run actions).tables.hasStream associationPid with
    | true =>
      have hkept := association_read_of_hasStream hbefore bytes
      rw [act, hkept]
      exact (h.listed hbefore).concat rfl
    | false =>
      -- The packet carries the map table that lists PID 0, so that the association table stays.
      obtain ⟨mapPid, table, hresolves, hlisted⟩ := exists_resolves_of_hasStream hbefore hstream
      refine readSince_read ⟨⟨mapPid, table, hresolves, hlisted⟩, ?_⟩
      rw [← h.last hbefore, act, tables_read_of_resolves hresolves]

/-- The association table that is known is the last one that a packet carried since everything was
forgotten, as long as no map table lists PID 0 as an elementary stream. From the first such map
table on, it stays the one that was the last then. -/
theorem association_is_last_until_listed (config : Config) (actions : List Action) :
    KnowsAssociation config actions (({ config } : Demuxer).run actions) := by
  induction actions using List.reverseRecOn with
  | nil => exact ⟨fun _ => rfl, fun h => by cases h⟩
  | append_singleton actions action ih =>
    rw [run_concat]
    cases action with
    | read bytes => exact ih.read bytes
    | take => exact ih.take
    | reset => exact knowsAssociation_reset _

/-- The association table is not always the last one: here a map table lists PID 0, and the
association table that comes then is not taken in. -/
theorem association_is_not_always_last :
    ¬ ∀ (config : Config) (actions : List Action),
      (({ config } : Demuxer).run actions).tables.association =
        (associationsIn actions).getLast? := by
  intro h
  let packet (first : Bytes) : Bytes := first ++ List.replicate (188 - first.length) 0xff
  let association (version : UInt8) : Action := .read (packet [0x47, 0x40, 0x00, 0x10, 0x00, 0x00,
    0xb0, 0x0d, 0x00, 0x01, version, 0x00, 0x00, 0x00, 0x01, 0xe0, 0x20, 0, 0, 0, 0])
  let listing : Action := .read (packet [0x47, 0x40, 0x20, 0x10, 0x00, 0x02, 0xb0, 0x12, 0x00, 0x01,
    0xc1, 0x00, 0x00, 0xe0, 0x41, 0xf0, 0x00, 0x1b, 0xe0, 0x00, 0xf0, 0x00, 0, 0, 0, 0])
  have hlast := h {} [association 0xc1, listing, association 0xc3]
  revert hlast
  decide +kernel

end TransportStream.Demuxer
