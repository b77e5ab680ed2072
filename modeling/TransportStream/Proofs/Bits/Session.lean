import Mathlib.Data.List.Forall2
import TransportStream.Bits.Decoder

/-!
# Sessions with bit readers

In a session, operations are called in any order on a reader, on the readers that are split off
from it, and on those that are split off from these. What an operation does to a reader is given,
so that readers of several kinds can be compared: if each operation does the same to readers that
are related, then so does a session.

The question after the bytes ahead is left out. It changes nothing, and inside of a byte its answer
shows bits that have been read.
-/

namespace TransportStream

namespace BitSession

/-- What can be done with a bit reader. -/
inductive Operation where
  /-- Reads one bit. -/
  | bit
  /-- Reads a number of at most 64 bits. -/
  | bits (n : Nat)
  /-- Reads an 8-bit number. -/
  | u8
  /-- Reads a 16-bit number. -/
  | u16
  /-- Reads a 24-bit number. -/
  | u24
  /-- Reads a 32-bit number. -/
  | u32
  /-- Reads the fields that are packed into the next whole bytes. -/
  | fields (widths : List Nat) (packed : PackedWidths widths)
  /-- Reads `n` whole bytes. -/
  | bytes (n : Nat)
  /-- Moves on by `n` whole bytes and splits off a reader over just these. -/
  | split (n : Nat)
  /-- Moves on by `n` bits. -/
  | skipBits (n : Nat)
  /-- Moves on to the next byte boundary. -/
  | align
  /-- Requires that a field holds the expected value. -/
  | expectEq {widths : List Nat} (fields : Fields widths) (i expected : Nat)
      (h : i < widths.length)
  /-- Requires that a field does not hold the forbidden value. -/
  | expectNe {widths : List Nat} (fields : Fields widths) (i forbidden : Nat)
      (h : i < widths.length)
  /-- Asks for the number of bits ahead. -/
  | available
  /-- Asks for the number of whole bytes ahead. -/
  | remainingBytes
  /-- Asks whether an operation has failed. -/
  | failed

/-- What an operation gives. -/
inductive Answer where
  /-- Nothing. -/
  | done
  /-- A bit, or whether something is so. -/
  | flag (flag : Bool)
  /-- A number. -/
  | number (number : Nat)
  /-- The values of some fields. -/
  | numbers (numbers : List Nat)
  /-- Some bytes. -/
  | bytes (bytes : Bytes)
  deriving DecidableEq, Repr

/-- What an operation leads to. -/
structure Outcome (ρ : Type) where
  /-- What it gives, or why it fails. -/
  answer : Except DecodeError Answer
  /-- The reader afterwards. -/
  reader : ρ
  /-- The reader that was split off. -/
  part : Option ρ

/-- What an operation leads to that ends with a result. -/
def Outcome.ofResult {ρ : Type} :
    EStateM.Result DecodeError ρ (Answer × Option ρ) → Outcome ρ
  | .ok (answer, part) reader => { answer := .ok answer, reader, part }
  | .error e reader => { answer := .error e, reader, part := none }

/-- All readers after an operation on the one at place `i`. One that is split off comes last. -/
def Outcome.putBack {ρ : Type} (outcome : Outcome ρ) (readers : List ρ) (i : Nat) : List ρ :=
  readers.set i outcome.reader ++ outcome.part.toList

/-- One operation on one of the readers. -/
structure Call where
  /-- The place of the reader among all readers, in the order in which they were split off. -/
  reader : Nat
  /-- What is done with it. -/
  operation : Operation

/-- What there is at the end of a session. -/
structure History (ρ : Type) where
  /-- The answer to each call, if there was a reader to be called. -/
  answers : List (Option (Except DecodeError Answer))
  /-- All readers. -/
  readers : List ρ

/-- The same with an earlier answer in front. -/
def History.behind {ρ : Type} (history : History ρ)
    (answer : Option (Except DecodeError Answer)) : History ρ :=
  { history with answers := answer :: history.answers }

section Monad

variable {m : Type → Type} [Monad m] {ρ : Type}

/-- The answer to a call, and all readers afterwards. -/
def turn (perform : ρ → Operation → m (Outcome ρ)) (readers : List ρ) (call : Call) :
    m (Option (Except DecodeError Answer) × List ρ) :=
  match readers[call.reader]? with
  | none => return (none, readers)
  | some reader => do
    let outcome ← perform reader call.operation
    return (some outcome.answer, outcome.putBack readers call.reader)

/-- Performs call after call. -/
def runM (perform : ρ → Operation → m (Outcome ρ)) (readers : List ρ) :
    List Call → m (History ρ)
  | [] => return ⟨[], readers⟩
  | call :: calls => do
    let (answer, later) ← turn perform readers call
    let history ← runM perform later calls
    return history.behind answer

/-- An operation that splits nothing off gives what a computation gives. -/
def answering {α : Type} (answer : α → Answer) (computation : m α) : m (Answer × Option ρ) := do
  return (answer (← computation), none)

/-- An operation gives nothing, but splits off what a computation gives. -/
def splitting (computation : m ρ) : m (Answer × Option ρ) := do
  return (.done, some (← computation))

end Monad

variable {ρ σ : Type}

/-- What there is at the end of a session, if each operation leads to something. -/
def run (perform : ρ → Operation → Outcome ρ) (readers : List ρ) (calls : List Call) :
    History ρ :=
  Id.run (runM perform readers calls)

end BitSession

open BitSession

/-- What an operation does with a bit reader. -/
def Decoder.ofOperation : Operation → Decoder (Answer × Option BitReader)
  | .bit => answering .flag bit
  | .bits n => answering .number (bits n)
  | .u8 => answering .number u8
  | .u16 => answering .number u16
  | .u24 => answering .number u24
  | .u32 => answering .number u32
  | .fields widths packed => answering (.numbers ·.values) (fields widths packed)
  | .bytes n => answering .bytes (bytes n)
  | .split n => splitting (split n)
  | .skipBits n => answering (fun _ => .done) (skipBits n)
  | .align => answering (fun _ => .done) align
  | .expectEq fields i expected h => answering (fun _ => .done) (expectEq fields i expected h)
  | .expectNe fields i forbidden h => answering (fun _ => .done) (expectNe fields i forbidden h)
  | .available => answering (.number ·.available) get
  | .remainingBytes => answering (.number ·.remainingBytes) get
  | .failed => answering (.flag ·.failed) get

/-- What an operation on a bit reader leads to. -/
def BitReader.perform (r : BitReader) (operation : Operation) : Outcome BitReader :=
  .ofResult (Decoder.ofOperation operation r)

namespace BitSession

section Turns

variable {m : Type → Type} [Monad m] {perform : ρ → Operation → m (Outcome ρ)}
  {readers later : List ρ} {call : Call} {calls : List Call}

/-- A call for a reader that is not there has no answer and changes nothing. -/
theorem turn_of_none (h : readers[call.reader]? = none) :
    turn perform readers call = pure (none, readers) := by
  rw [turn, h]

variable [LawfulMonad m]

/-- A call for a reader that is there has its answer, and the outcome takes its place. -/
theorem turn_of_some {reader : ρ} {outcome : Outcome ρ} (h : readers[call.reader]? = some reader)
    (hperform : perform reader call.operation = pure outcome) :
    turn perform readers call =
      pure (some outcome.answer, outcome.putBack readers call.reader) := by
  rw [turn, h]
  simp only [hperform, pure_bind]

/-- A run is its first turn and the run behind it. -/
theorem runM_cons {answer : Option (Except DecodeError Answer)} {history : History ρ}
    (hturn : turn perform readers call = pure (answer, later))
    (hrun : runM perform later calls = pure history) :
    runM perform readers (call :: calls) = pure (history.behind answer) := by
  rw [runM, hturn, pure_bind]
  simp only [hrun, pure_bind]

end Turns

section Pure

variable {perform : ρ → Operation → Outcome ρ} {readers : List ρ} {call : Call} {i j : Nat}

/-- A call for a reader that is not there leaves the rest of the run as it is. -/
theorem run_cons_of_none (h : readers[call.reader]? = none) (calls : List Call) :
    run perform readers (call :: calls) = (run perform readers calls).behind none := by
  rw [run, runM, turn_of_none h]
  rfl

/-- A call for a reader that is there gives the first answer, and the run goes on from its
outcome. -/
theorem run_cons_of_some {reader : ρ} (h : readers[call.reader]? = some reader)
    (calls : List Call) :
    run perform readers (call :: calls) =
      (run perform ((perform reader call.operation).putBack readers call.reader) calls).behind
        (some (perform reader call.operation).answer) := by
  rw [run, runM, turn_of_some (m := Id) h rfl]
  rfl

/-- A reader after one operation after the other. -/
def after (perform : ρ → Operation → Outcome ρ) (reader : ρ) (operations : List Operation) : ρ :=
  operations.foldl (fun reader operation => (perform reader operation).reader) reader

/-- What is done with the reader at place `i`. -/
def operationsOn (i : Nat) (calls : List Call) : List Operation :=
  (calls.filter (·.reader = i)).map (·.operation)

/-- A call for a reader is the first of its operations. -/
theorem operationsOn_cons_of_eq (h : call.reader = i) (calls : List Call) :
    operationsOn i (call :: calls) = call.operation :: operationsOn i calls := by
  simp [operationsOn, h]

/-- A call for another reader is none of its operations. -/
theorem operationsOn_cons_of_ne (h : call.reader ≠ i) (calls : List Call) :
    operationsOn i (call :: calls) = operationsOn i calls := by
  simp [operationsOn, h]

/-- The reader that was called is the one of the outcome. -/
theorem getElem?_putBack_self (outcome : Outcome ρ) (h : i < readers.length) :
    (outcome.putBack readers i)[i]? = some outcome.reader := by
  rw [Outcome.putBack, List.getElem?_append_left (by simpa using h), List.getElem?_set_self h]

/-- All other readers stay. -/
theorem getElem?_putBack_of_ne (outcome : Outcome ρ) (h : i < readers.length) (hne : j ≠ i) :
    (outcome.putBack readers j)[i]? = readers[i]? := by
  rw [Outcome.putBack, List.getElem?_append_left (by simpa using h), List.getElem?_set_ne hne]

/-- What becomes of a reader depends on what is done with it alone, and not on what is done with
those that are split off from it, or with any other one. -/
theorem getElem?_readers_run {reader : ρ} (h : readers[i]? = some reader) (calls : List Call) :
    (run perform readers calls).readers[i]? =
      some (after perform reader (operationsOn i calls)) := by
  induction calls generalizing readers reader with
  | nil => exact h
  | cons call calls ih =>
    have hi : i < readers.length := (List.getElem?_eq_some_iff.mp h).1
    by_cases hsame : call.reader = i
    · have hcalled : readers[call.reader]? = some reader := by rw [hsame, h]
      have hnext := getElem?_putBack_self (perform reader call.operation) hi
      rw [run_cons_of_some hcalled, hsame, operationsOn_cons_of_eq hsame]
      exact ih hnext
    · rw [operationsOn_cons_of_ne hsame]
      cases hcalled : readers[call.reader]? with
      | none =>
        rw [run_cons_of_none hcalled]
        exact ih h
      | some called =>
        have hnext := getElem?_putBack_of_ne (perform called call.operation) hi hsame
        rw [run_cons_of_some hcalled]
        exact ih (hnext.trans h)

end Pure

section Refinement

variable {R : ρ → σ → Prop} {allowed : Operation → Prop} {readers : List ρ} {models : List σ}

/-- Two outcomes have the same answer and related readers. -/
structure Outcome.Alike (R : ρ → σ → Prop) (o : Outcome ρ) (p : Outcome σ) : Prop where
  /-- The answers are the same. -/
  answer : o.answer = p.answer
  /-- The readers are related. -/
  reader : R o.reader p.reader
  /-- So are the readers that were split off, if there are such. -/
  part : List.Forall₂ R o.part.toList p.part.toList

/-- Wherever a reader is related to a model, each operation that is allowed leads to outcomes that
are alike. -/
def Refines {m : Type → Type} [Monad m] (R : ρ → σ → Prop) (allowed : Operation → Prop)
    (perform : ρ → Operation → m (Outcome ρ)) (ideal : σ → Operation → Outcome σ) : Prop :=
  ∀ r s, R r s → ∀ operation, allowed operation →
    ∃ outcome, perform r operation = pure outcome ∧ outcome.Alike R (ideal s operation)

/-- Related readers stay related where both are replaced by related ones. -/
theorem forall₂_set (h : List.Forall₂ R readers models) {r : ρ} {s : σ} (hrelated : R r s)
    (i : Nat) : List.Forall₂ R (readers.set i r) (models.set i s) := by
  induction h generalizing i with
  | nil => exact .nil
  | cons hfirst hlater ih =>
    cases i with
    | zero => exact .cons hrelated hlater
    | succ i => exact .cons hfirst (ih i)

/-- At each place there are two related readers, or none. -/
theorem forall₂_getElem? (h : List.Forall₂ R readers models) (i : Nat) :
    (readers[i]? = none ∧ models[i]? = none) ∨
      ∃ r s, readers[i]? = some r ∧ models[i]? = some s ∧ R r s := by
  induction h generalizing i with
  | nil => exact .inl ⟨rfl, rfl⟩
  | cons hfirst _ ih =>
    cases i with
    | zero => exact .inr ⟨_, _, rfl, rfl, hfirst⟩
    | succ i => simpa using ih i

/-- If each operation does the same to related readers, then so does a session. -/
theorem Refines.runM {m : Type → Type} [Monad m] [LawfulMonad m]
    {perform : ρ → Operation → m (Outcome ρ)} {ideal : σ → Operation → Outcome σ}
    (h : Refines R allowed perform ideal) (calls : List Call)
    (hcalls : ∀ call ∈ calls, allowed call.operation) (hreaders : List.Forall₂ R readers models) :
    ∃ last, runM perform readers calls = pure ⟨(run ideal models calls).answers, last⟩ ∧
      List.Forall₂ R last (run ideal models calls).readers := by
  induction calls generalizing readers models with
  | nil => exact ⟨readers, rfl, hreaders⟩
  | cons call calls ih =>
    have hallowed := hcalls call List.mem_cons_self
    have hlater := fun later hmem => hcalls later (List.mem_cons_of_mem call hmem)
    rcases forall₂_getElem? hreaders call.reader with ⟨hnone, hmodel⟩ | ⟨r, s, hr, hs, hrelated⟩
    · obtain ⟨last, hrun, hlast⟩ := ih hlater hreaders
      rw [runM_cons (turn_of_none hnone) hrun, run_cons_of_none hmodel]
      exact ⟨last, rfl, hlast⟩
    · obtain ⟨outcome, hperform, halike⟩ := h r s hrelated call.operation hallowed
      have hpools : List.Forall₂ R (outcome.putBack readers call.reader)
          ((ideal s call.operation).putBack models call.reader) :=
        List.rel_append (forall₂_set hreaders halike.reader _) halike.part
      obtain ⟨last, hrun, hlast⟩ := ih hlater hpools
      rw [runM_cons (turn_of_some hr hperform) hrun, run_cons_of_some hs, halike.answer]
      exact ⟨last, rfl, hlast⟩

end Refinement

end BitSession

end TransportStream
