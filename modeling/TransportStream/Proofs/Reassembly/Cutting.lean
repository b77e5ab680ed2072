import TransportStream.Proofs.Reassembly.Units

/-!
# Cutting units into fragments

A unit is cut into pieces of any sizes, each of which is a fragment. What comes of units
that are cut one after the other is a clean sequence, and forms just these units.
-/

namespace TransportStream

/-- The fragments of a unit whose pieces are given, with the number of the first one. -/
def cutUnit (pid counter : Nat) (pieces : List Bytes) : List Fragment :=
  pieces.mapIdx fun i piece => ⟨pid, i == 0, (counter + i) % 16, piece⟩

/-- The fragments of some units, each given as its pieces, with the number of the first one. -/
def cut (pid : Nat) : Nat → List (List Bytes) → List Fragment
  | _, [] => []
  | counter, pieces :: units =>
      cutUnit pid counter pieces ++ cut pid (counter + pieces.length) units

variable {pid : Nat} {pieces : List Bytes} {units : List (List Bytes)}

/-- There is one fragment for each piece of a unit. -/
theorem length_cutUnit (pid counter : Nat) (pieces : List Bytes) :
    (cutUnit pid counter pieces).length = pieces.length := by
  simp [cutUnit]

/-- The first fragment of a unit begins it, and the others go on. -/
theorem cutUnit_cons (pid counter : Nat) (piece : Bytes) (pieces : List Bytes) :
    ∃ others,
      cutUnit pid counter (piece :: pieces) = ⟨pid, true, counter % 16, piece⟩ :: others ∧
      (∀ f ∈ others, f.unitStart = false) ∧ others.flatMap (·.payload) = pieces.flatten := by
  refine
    ⟨pieces.mapIdx fun i piece => ⟨pid, false, (counter + (i + 1)) % 16, piece⟩, ?_, ?_, ?_⟩
  · simp [cutUnit, List.mapIdx_cons]
  · intro f hf
    obtain ⟨i, hi, rfl⟩ := List.mem_mapIdx.mp hf
    rfl
  · rw [List.flatMap_def]
    congr 1
    exact List.ext_getElem (by simp) (by simp)

/-- Wherever units are cut, the first fragment begins a unit. -/
theorem unitStart_head_cut (h : ∀ pieces ∈ units, pieces ≠ []) (counter : Nat) :
    ∀ f ∈ (cut pid counter units).head?, f.unitStart = true := by
  cases units with
  | nil =>
    intro f hf
    cases hf
  | cons pieces units =>
    obtain ⟨piece, pieces, rfl⟩ := List.exists_cons_of_ne_nil (h pieces List.mem_cons_self)
    obtain ⟨others, hcut, _, _⟩ := cutUnit_cons pid counter piece pieces
    intro f hf
    rw [cut, hcut, List.cons_append, List.head?_cons, Option.mem_some_iff] at hf
    rw [← hf]

/-- The fragments of units form these units. -/
theorem unitsOf_cut (h : ∀ pieces ∈ units, pieces ≠ []) (counter : Nat) :
    unitsOf (cut pid counter units) = units.map List.flatten := by
  induction units generalizing counter with
  | nil => rfl
  | cons pieces units ih =>
    have hlater : ∀ pieces ∈ units, pieces ≠ [] := fun p hp => h p (List.mem_cons_of_mem _ hp)
    obtain ⟨piece, pieces, rfl⟩ := List.exists_cons_of_ne_nil (h pieces List.mem_cons_self)
    obtain ⟨others, hcut, hothers, hpayload⟩ := cutUnit_cons pid counter piece pieces
    rw [cut, hcut, List.cons_append, unitsOf,
      unitsFrom_append hothers (unitStart_head_cut hlater _), hpayload, ih hlater, List.map_cons,
      List.flatten_cons]

/-- The counters of the fragments go up from the first one, modulo 16. -/
theorem counter_cut (pid counter : Nat) (units : List (List Bytes)) :
    (cut pid counter units).map (·.counter) =
      (List.range' counter (cut pid counter units).length).map (· % 16) := by
  induction units generalizing counter with
  | nil => rfl
  | cons pieces units ih =>
    have hunit : (cutUnit pid counter pieces).map (·.counter) =
        (List.range' counter pieces.length).map (· % 16) := by
      refine List.ext_getElem (by simp [cutUnit]) ?_
      intro i _ _
      simp [cutUnit]
    rw [cut, List.map_append, hunit, ih, List.length_append, length_cutUnit, ← List.map_append,
      List.range'_append_1]

/-- Units that are cut one after the other give a clean sequence of fragments. -/
theorem clean_cut (pid : Nat) (h : ∀ pieces ∈ units, pieces ≠ []) (counter : Nat) :
    Clean (cut pid counter units) where
  starts := unitStart_head_cut h counter
  consecutive := by
    have hcounters : ((cut pid counter units).map (·.counter)).IsChain
        fun counter next => next = nextCounter counter := by
      rw [counter_cut, List.isChain_map]
      refine (List.isChain_range' _ _ 1).imp ?_
      rintro a _ rfl
      simp [nextCounter]
    rwa [List.isChain_map] at hcounters

end TransportStream
