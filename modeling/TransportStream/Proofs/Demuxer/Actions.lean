import Mathlib.Data.List.DropRight
import TransportStream.Proofs.Demuxer.Run

/-!
# What is done with a demultiplexer, and what has arrived so far

Packets are read, pending units are handed out, and now and then everything is forgotten. The
payloads that arrived since then are kept here with the places of their packets, so that it
can be said of each byte of a unit where it came from.
-/

namespace TransportStream.Demuxer

/-- What is done with a demultiplexer. -/
inductive Action where
  /-- The next packet is read. -/
  | read (bytes : Bytes)
  /-- The pending unit is handed out. -/
  | take
  /-- All tables and units are forgotten. -/
  | reset
  deriving DecidableEq, Repr

namespace Action

/-- The fragment that an action reads, if it does read one. -/
def fragment? : Action → Option Fragment
  | read bytes => TransportStream.fragment? bytes
  | take | reset => none

/-- Whether everything is forgotten. -/
def isReset : Action → Bool
  | reset => true
  | read _ | take => false

/-- Only one action forgets everything. -/
theorem eq_reset_of_isReset {action : Action} (h : action.isReset = true) : action = reset := by
  cases action with
  | reset => rfl
  | read | take => cases h

end Action

/-- What an action leads to. -/
def act (d : Demuxer) : Action → Demuxer
  | .read bytes => (d.read bytes).demuxer
  | .take => d.take.2
  | .reset => d.reset

/-- What action after action leads to. -/
def run (d : Demuxer) (actions : List Action) : Demuxer := actions.foldl act d

/-- What is done later goes on from what was done first. -/
theorem run_append (d : Demuxer) (first later : List Action) :
    d.run (first ++ later) = (d.run first).run later := List.foldl_append

/-- The last action is done to what all actions before it lead to. -/
theorem run_concat (d : Demuxer) (actions : List Action) (action : Action) :
    d.run (actions ++ [action]) = (d.run actions).act action := run_append d actions [action]

/-- A fragment with the place of its packet among some actions. -/
structure Arrival where
  /-- The place of the packet. -/
  place : Nat
  /-- The fragment. -/
  fragment : Fragment
  deriving DecidableEq, Repr

/-- The fragments that were read since everything was forgotten last. -/
def arrivals (actions : List Action) : List Arrival :=
  (actions.zipIdx.rtakeWhile fun x => !x.1.isReset).filterMap fun x =>
    x.1.fragment?.map (⟨x.2, ·⟩)

/-- Those of them on a PID. -/
def arrivalsOn (pid : Nat) (actions : List Action) : List Arrival :=
  (arrivals actions).filter (·.fragment.pid == pid)

variable {actions : List Action} {action : Action} {f : Fragment}

/-- The place of the last action is the number of those before it. -/
theorem zipIdx_concat (actions : List Action) (action : Action) :
    (actions ++ [action]).zipIdx = actions.zipIdx ++ [(action, actions.length)] := by
  simp [List.zipIdx_append]

/-- Where everything is forgotten, nothing has arrived. -/
@[simp] theorem arrivals_reset (actions : List Action) : arrivals (actions ++ [.reset]) = [] := by
  rw [arrivals, zipIdx_concat, List.rtakeWhile_concat_neg _ _ _ (by simp [Action.isReset]),
    List.filterMap_nil]

/-- An action that forgets nothing adds the fragment that it reads. -/
theorem arrivals_concat (h : action.isReset = false) : arrivals (actions ++ [action]) =
    arrivals actions ++ (action.fragment?.map (⟨actions.length, ·⟩)).toList := by
  rw [arrivals, zipIdx_concat, List.rtakeWhile_concat_pos _ _ _ (by simp [h]),
    List.filterMap_append, arrivals]
  rfl

/-- What has arrived stays there or is forgotten, and what comes with an action arrives at its
place. -/
theorem mem_arrivals_concat {a : Arrival} (h : a ∈ arrivals (actions ++ [action])) :
    a ∈ arrivals actions ∨ a.place = actions.length ∧ action.fragment? = some a.fragment := by
  cases hreset : action.isReset with
  | true =>
    obtain rfl := Action.eq_reset_of_isReset hreset
    simp at h
  | false =>
    rw [arrivals_concat hreset] at h
    rcases List.mem_append.mp h with h | h
    · exact .inl h
    · right
      obtain ⟨f, hf, rfl⟩ : ∃ f, action.fragment? = some f ∧ Arrival.mk actions.length f = a := by
        simpa using h
      exact ⟨rfl, hf⟩

/-- What has arrived came with one of the actions. -/
theorem place_lt_of_mem_arrivals {a : Arrival} (h : a ∈ arrivals actions) :
    a.place < actions.length := by
  induction actions using List.reverseRecOn with
  | nil => cases h
  | append_singleton actions action ih =>
    rw [List.length_append, List.length_singleton]
    rcases mem_arrivals_concat h with h | ⟨hplace, _⟩
    · exact Nat.lt_succ_of_lt (ih h)
    · omega

/-- What has arrived stands at its place among the actions. -/
theorem fragment?_of_mem_arrivals {a : Arrival} (h : a ∈ arrivals actions) :
    actions[a.place]?.bind Action.fragment? = some a.fragment := by
  induction actions using List.reverseRecOn with
  | nil => cases h
  | append_singleton actions action ih =>
    rcases mem_arrivals_concat h with h | ⟨hplace, hfragment⟩
    · rw [List.getElem?_append_left (place_lt_of_mem_arrivals h), ih h]
    · rw [hplace, List.getElem?_concat_length]
      exact hfragment

/-- What arrives later has a later place. -/
theorem pairwise_arrivals (actions : List Action) :
    (arrivals actions).Pairwise fun a b => a.place < b.place := by
  induction actions using List.reverseRecOn with
  | nil => exact .nil
  | append_singleton actions action ih =>
    cases hreset : action.isReset with
    | true =>
      obtain rfl := Action.eq_reset_of_isReset hreset
      simp
    | false =>
      rw [arrivals_concat hreset, List.pairwise_append]
      refine ⟨ih, ?_, ?_⟩
      · cases action.fragment? <;> simp
      · intro a ha b hb
        obtain ⟨f, -, rfl⟩ : ∃ f, action.fragment? = some f ∧ Arrival.mk actions.length f = b := by
          simpa using hb
        exact place_lt_of_mem_arrivals ha

/-- A fragment is among what has arrived, unless it was forgotten. Then all that has arrived has
a later place. -/
theorem mem_arrivals_or_lt (before later : List Action) (h : action.fragment? = some f) :
    ⟨before.length, f⟩ ∈ arrivals (before ++ action :: later) ∨
      ∀ a ∈ arrivals (before ++ action :: later), before.length < a.place := by
  induction later using List.reverseRecOn with
  | nil =>
    left
    have hreset : action.isReset = false := by
      cases action with
      | reset => cases h
      | read | take => rfl
    rw [arrivals_concat hreset, h]
    simp
  | append_singleton later next ih =>
    rw [← List.cons_append, ← List.append_assoc]
    cases hreset : next.isReset with
    | true =>
      obtain rfl := Action.eq_reset_of_isReset hreset
      right
      intro a ha
      rw [arrivals_reset] at ha
      cases ha
    | false =>
      rcases ih with ih | ih
      · left
        rw [arrivals_concat hreset]
        exact List.mem_append_left _ ih
      · right
        intro a ha
        rcases mem_arrivals_concat ha with ha | ⟨hplace, _⟩
        · exact ih a ha
        · rw [hplace, List.length_append, List.length_cons]
          omega

end TransportStream.Demuxer
