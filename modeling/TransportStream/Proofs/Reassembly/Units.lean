import Mathlib.Data.List.Chain
import TransportStream.Proofs.Reassembly.Run

/-!
# Units and the fragments that they are cut into

A unit begins with a fragment that says so and goes on up to the next one. A sequence of
fragments is clean if it begins with a unit and its continuity counters rise by one. Such
a sequence, arriving as it is, gives back the units that it was cut from, apart from the
last one, which stays open, and from those that are too large.
-/

namespace TransportStream

/-- The units of which one has begun, and consists of some bytes so far. -/
def unitsFrom (current : Bytes) : List Fragment → List Bytes
  | [] => [current]
  | f :: fragments =>
    if f.unitStart then current :: unitsFrom f.payload fragments
    else unitsFrom (current ++ f.payload) fragments

/-- The units that fragments form, of which the first begins one. -/
def unitsOf : List Fragment → List Bytes
  | [] => []
  | f :: fragments => unitsFrom f.payload fragments

/-- Each continuity counter is the one after that of the fragment before. -/
def Consecutive (fragments : List Fragment) : Prop :=
  fragments.IsChain fun f next => next.counter = nextCounter f.counter

/-- Fragments as they are sent: they begin with a unit, and none of them is missing. -/
structure Clean (fragments : List Fragment) : Prop where
  /-- The first fragment begins a unit. -/
  starts : ∀ f ∈ fragments.head?, f.unitStart = true
  /-- The continuity counters rise by one. -/
  consecutive : Consecutive fragments

/-- Fragments are those of one whole unit: the first begins it, and no other begins one. -/
def IsUnit (fragments : List Fragment) : Prop :=
  ∃ first others, fragments = first :: others ∧ first.unitStart = true ∧
    ∀ f ∈ others, f.unitStart = false

/-- A unit that has begun is one of the units. -/
theorem unitsFrom_ne_nil (current : Bytes) (fragments : List Fragment) :
    unitsFrom current fragments ≠ [] := by
  induction fragments generalizing current with
  | nil => simp [unitsFrom]
  | cons f fragments ih =>
    rw [unitsFrom]
    split
    · exact List.cons_ne_nil _ _
    · exact ih _

/-- A unit ends where the next one begins. -/
theorem unitsFrom_append {others later : List Fragment}
    (hothers : ∀ f ∈ others, f.unitStart = false) (hlater : ∀ f ∈ later.head?, f.unitStart = true)
    (current : Bytes) : unitsFrom current (others ++ later) =
      (current ++ others.flatMap (·.payload)) :: unitsOf later := by
  induction others generalizing current with
  | nil =>
    rw [List.nil_append, List.flatMap_nil, List.append_nil]
    cases later with
    | nil => rfl
    | cons next later => rw [unitsFrom, if_pos (hlater next rfl), unitsOf]
  | cons f others ih =>
    have hf : f.unitStart = false := hothers f List.mem_cons_self
    rw [List.cons_append, unitsFrom, if_neg (by simp [hf]),
      ih (fun g hg => hothers g (List.mem_cons_of_mem _ hg)), List.flatMap_cons,
      List.append_assoc]

/-- Fragments that begin no unit all belong to the one before them. -/
theorem unitsFrom_of_not_start {others : List Fragment}
    (hothers : ∀ f ∈ others, f.unitStart = false) (current : Bytes) :
    unitsFrom current others = [current ++ others.flatMap (·.payload)] := by
  have hnone : ∀ f ∈ ([] : List Fragment).head?, f.unitStart = true := by simp
  simpa [unitsOf] using unitsFrom_append hothers hnone current

/-- A whole unit that is followed by the next one is among the units of a sequence. -/
theorem mem_unitsFrom {own : List Fragment} (hunit : IsUnit own) {next : Fragment}
    (hnext : next.unitStart = true) (current : Bytes) (earlier later : List Fragment) :
    own.flatMap (·.payload) ∈ unitsFrom current (earlier ++ (own ++ next :: later)) := by
  induction earlier generalizing current with
  | nil =>
    obtain ⟨first, others, rfl, hstart, hothers⟩ := hunit
    rw [List.nil_append, List.cons_append, unitsFrom, if_pos hstart,
      unitsFrom_append hothers (by simpa using hnext), List.flatMap_cons]
    simp
  | cons f earlier ih =>
    rw [List.cons_append, unitsFrom]
    split
    · exact List.mem_cons_of_mem _ (ih _)
    · exact ih _

/-- The fragments of a whole unit, wherever they stand, form this unit. -/
theorem mem_unitsOf {own : List Fragment} (hunit : IsUnit own) {next : Fragment}
    (hnext : next.unitStart = true) (earlier later : List Fragment) :
    own.flatMap (·.payload) ∈ unitsOf (earlier ++ (own ++ next :: later)) := by
  cases earlier with
  | nil =>
    obtain ⟨first, others, rfl, _, hothers⟩ := hunit
    rw [List.nil_append, List.cons_append, unitsOf, unitsFrom_append hothers (by simpa using hnext),
      List.flatMap_cons]
    exact List.mem_cons_self
  | cons f earlier => exact mem_unitsFrom hunit hnext f.payload earlier later

namespace Reassembly

variable {bound pid counter : Nat} {bytes payload : Bytes} {f : Fragment} {unit : OpenUnit}

/-- What is open of a unit that consists of some bytes so far: nothing if they are too many. -/
def openUpTo (bound : Nat) (bytes : Bytes) (counter : Nat) : Option OpenUnit :=
  if bytes.length ≤ bound then some ⟨bytes, counter⟩ else none

/-- A unit that is opened within the bound has the bytes and the counter that it was opened with. -/
theorem eq_of_openUpTo (h : openUpTo bound bytes counter = some unit) :
    unit = ⟨bytes, counter⟩ := by
  unfold openUpTo at h
  split at h
  · cases h
    rfl
  · cases h

/-- Adding a payload completes no unit. -/
@[simp] theorem completed_extend :
    (extend bound pid bytes counter payload).completed = none := by
  unfold extend
  split <;> rfl

/-- Adding a payload leaves the longer unit open if it keeps to the bound. -/
theorem openUnit_extend : (extend bound pid bytes counter payload).openUnit =
    openUpTo bound (bytes ++ payload) counter := by
  rw [openUpTo, List.length_append]
  unfold extend
  split <;> rfl

/-- Adding a payload drops the unit if it exceeds the bound. -/
theorem dropped_extend : (extend bound pid bytes counter payload).dropped =
    if (bytes ++ payload).length ≤ bound then none else some .tooLarge := by
  rw [List.length_append]
  unfold extend
  split <;> rfl

/-- Without an open unit, a fragment that begins one opens it. -/
theorem ofFragment_none_of_start (bound : Nat) (h : f.unitStart = true) :
    (ofFragment bound f none).openUnit = openUpTo bound f.payload f.counter ∧
      (ofFragment bound f none).completed = none ∧
      (ofFragment bound f none).dropped =
        if f.payload.length ≤ bound then none else some .tooLarge := by
  simp [ofFragment, ofPayload, h, openUnit_extend, dropped_extend]

/-- Without an open unit, a fragment that begins none is skipped. -/
theorem ofFragment_none_of_not_start (bound : Nat) (h : f.unitStart = false) :
    ofFragment bound f none = { notices := [.payloadSkipped f.pid] } := by
  simp [ofFragment, ofPayload, h]

/-- A fragment that does not continue the open unit drops it, and itself does nothing. -/
theorem ofFragment_of_jump (bound : Nat) (h : f.counter ≠ nextCounter unit.counter) :
    (ofFragment bound f (some unit)).openUnit = none ∧
      (ofFragment bound f (some unit)).completed = none ∧
      (ofFragment bound f (some unit)).dropped = some .packetsLost := by
  simp [ofFragment, ofPayload, h]

/-- The next fragment, if it begins a unit, completes the open one and opens its own. -/
theorem ofFragment_of_start (bound : Nat) (hcounter : f.counter = nextCounter unit.counter)
    (hstart : f.unitStart = true) :
    (ofFragment bound f (some unit)).openUnit = openUpTo bound f.payload f.counter ∧
      (ofFragment bound f (some unit)).completed = some unit.bytes ∧
      (ofFragment bound f (some unit)).dropped =
        if f.payload.length ≤ bound then none else some .tooLarge := by
  simp [ofFragment, ofPayload, hcounter, hstart, openUnit_extend, dropped_extend]

/-- The next fragment, if it begins no unit, extends the open one. -/
theorem ofFragment_of_continue (bound : Nat) (hcounter : f.counter = nextCounter unit.counter)
    (hstart : f.unitStart = false) : ofFragment bound f (some unit) =
      extend bound f.pid unit.bytes f.counter f.payload := by
  simp [ofFragment, ofPayload, hcounter, hstart]

/-- A unit that is open behind a fragment has its continuity counter. -/
theorem counter_ofFragment {before : Option OpenUnit}
    (h : (ofFragment bound f before).openUnit = some unit) : unit.counter = f.counter := by
  cases before with
  | none =>
    cases hstart : f.unitStart with
    | true =>
      rw [(ofFragment_none_of_start bound hstart).1] at h
      rw [eq_of_openUpTo h]
    | false =>
      rw [ofFragment_none_of_not_start bound hstart] at h
      cases h
  | some previous =>
    by_cases hcounter : f.counter = nextCounter previous.counter
    · cases hstart : f.unitStart with
      | true =>
        rw [(ofFragment_of_start bound hcounter hstart).1] at h
        rw [eq_of_openUpTo h]
      | false =>
        rw [ofFragment_of_continue bound hcounter hstart, openUnit_extend] at h
        rw [eq_of_openUpTo h]
    · rw [(ofFragment_of_jump bound hcounter).1] at h
      cases h

end Reassembly

end TransportStream
