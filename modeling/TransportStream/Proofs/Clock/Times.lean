import TransportStream.AdaptationField
import TransportStream.Pes
import TransportStream.Proofs.Bits.Values

/-!
# How late a decoded time can be

A time stamp is joined from 33 bits, and a clock reference has nine further bits beside such a
number. Nothing else limits them: the further bits may count more ticks than one tick of a time
stamp has. So the times in units and adaptation fields have a bound whatever bytes they are
decoded from.
-/

namespace TransportStream

open Decoder

/-- A time stamp has 33 bits, whatever the numbers are that it is joined from. -/
theorem timestamp_lt (high middle low : Nat) : timestamp high middle low < 2 ^ 33 := by
  have hhigh := Nat.mod_lt high (by decide : 8 > 0)
  have hmiddle := Nat.mod_lt middle (by decide : 32768 > 0)
  have hlow := Nat.mod_lt low (by decide : 32768 > 0)
  rw [timestamp, Nat.shiftLeft_eq, Nat.shiftLeft_eq]
  omega

namespace ClockReference

variable {clock : ClockReference}

/-- One tick of the base counts 300 ticks. -/
theorem ticks_eq (clock : ClockReference) : clock.ticks = 300 * clock.base + clock.extension := by
  have hrate : clockTicksPerTimestampTick = 300 := by rfl
  rw [ticks, hrate, Nat.mul_comm]

/-- The most ticks that a base of 33 bits and an extension of nine bits count. -/
theorem ticks_le (hbase : clock.base < 2 ^ 33) (hextension : clock.extension < 2 ^ 9) :
    clock.ticks ≤ 300 * (2 ^ 33 - 1) + 511 := by
  rw [ticks_eq]
  omega

end ClockReference

/-- The times in the header of a unit have as many bits as they are written in. -/
structure PesHeader.TimesInRange (header : PesHeader) : Prop where
  /-- The time of presentation has 33 bits. -/
  pts : ∀ time ∈ header.pts, time < 2 ^ 33
  /-- So has the time of decoding. -/
  dts : ∀ time ∈ header.dts, time < 2 ^ 33
  /-- The clock reference has a base of 33 bits and nine further bits. -/
  escr : ∀ clock ∈ header.escr, clock.ticks ≤ 300 * (2 ^ 33 - 1) + 511

/-- The times of an adaptation field have as many bits as they are written in. -/
structure AdaptationField.TimesInRange (field : AdaptationField) : Prop where
  /-- The clock reference has a base of 33 bits and nine further bits. -/
  pcr : ∀ clock ∈ field.pcr, clock.ticks ≤ 300 * (2 ^ 33 - 1) + 511
  /-- So has the one before multiplexing. -/
  opcr : ∀ clock ∈ field.opcr, clock.ticks ≤ 300 * (2 ^ 33 - 1) + 511
  /-- The decoding time behind a splice has 33 bits. -/
  nextDecodingTime : ∀ extension ∈ field.extension, ∀ splice ∈ extension.seamlessSplice,
    splice.nextDecodingTime < 2 ^ 33

namespace Decoder

/-- A time behind four bits has 33 bits. -/
theorem gives_nibbleAndTimestamp : Gives (·.2 < 2 ^ 33) nibbleAndTimestamp :=
  gives_bind fun _ => gives_pure (timestamp_lt _ _ _)

/-- A program clock reference counts no more than 33 bits and nine further ones can. -/
theorem gives_programClock : Gives (·.ticks ≤ 300 * (2 ^ 33 - 1) + 511) programClock :=
  gives_bind fun f =>
    gives_pure (ClockReference.ticks_le (f.get_lt 0 (by decide)) (f.get_lt 2 (by decide)))

/-- The clock reference of an elementary stream counts no more than 33 bits and nine further ones
can. -/
theorem gives_streamClock : Gives (·.ticks ≤ 300 * (2 ^ 33 - 1) + 511) streamClock :=
  gives_bind fun f =>
    gives_pure (ClockReference.ticks_le (timestamp_lt _ _ _) (f.get_lt 7 (by decide)))

end Decoder

namespace PesHeader

/-- The parts have times of so many bits, whichever of them the flags announce. -/
theorem gives_partsDecoder (marks : Fields [2, 2, 1, 1, 1, 1])
    (flags : Fields [2, 1, 1, 1, 1, 1, 1]) (length : Nat) :
    Gives TimesInRange (partsDecoder marks flags length) := by
  have htimestamp : Gives (· < 2 ^ 33) (Prod.snd <$> nibbleAndTimestamp) :=
    gives_nibbleAndTimestamp.map fun _ htime => htime
  refine (htimestamp.ifFlag _).bind fun pts hpts => ?_
  refine (htimestamp.ifFlag _).bind fun dts hdts => ?_
  refine (gives_streamClock.ifFlag _).bind fun escr hescr => ?_
  refine gives_bind fun rate => gives_bind fun trickMode => gives_bind fun copyInfo => ?_
  exact gives_bind fun previousCrc => gives_pure ⟨hpts, hdts, hescr⟩

/-- A header has no times but those among its parts. -/
theorem gives_decoder : Gives TimesInRange decoder := by
  refine gives_bind fun marks => gives_bind fun _ => gives_bind fun flags => gives_bind fun _ => ?_
  exact gives_bind fun length => (gives_partsDecoder marks flags length).within length

end PesHeader

namespace PesUnit

/-- The times in what a unit holds are those of its header, if it has one. -/
theorem gives_contentDecoder (streamId : StreamId) :
    Gives (fun content => ∀ header ∈ content.1, header.TimesInRange) (contentDecoder streamId) :=
  (PesHeader.gives_decoder.ifFlag _).bind fun _ hheader => gives_bind fun _ => gives_pure hheader

/-- Only behind its start code is a unit decoded, and it has no times but those of its header. -/
theorem gives_decoder (strictLength : Bool) :
    Gives (fun unit => ∀ header ∈ unit.header, header.TimesInRange) (decoder strictLength) := by
  refine gives_bind fun startCode => gives_ite (gives_throw _) ?_
  refine gives_bind fun code => gives_bind fun length => gives_bind fun content => ?_
  refine ((gives_contentDecoder _).inside content).bind fun found hfound => ?_
  exact gives_pure hfound

end PesUnit

/-- The decoding time in an extension has 33 bits. -/
theorem AdaptationExtension.gives_decoder : Gives
    (fun extension => ∀ splice ∈ extension.seamlessSplice, splice.nextDecodingTime < 2 ^ 33)
    AdaptationExtension.decoder := by
  have hsplice : Gives (·.nextDecodingTime < 2 ^ 33) SeamlessSplice.decoder :=
    gives_nibbleAndTimestamp.bind fun _ htime => gives_pure htime
  refine gives_bind fun length => Gives.within ?_ length
  refine gives_bind fun flags => gives_bind fun timeWindow => gives_bind fun piecewiseRate => ?_
  exact (hsplice.ifFlag _).bind fun seamlessSplice hsplice => gives_pure hsplice

namespace AdaptationField

/-- The times among the parts of a field have as many bits as they are written in, whichever of them
the flags announce. -/
theorem gives_partsDecoder (length : Nat) : Gives TimesInRange (partsDecoder length) := by
  refine gives_bind fun flags => ?_
  refine (gives_programClock.ifFlag _).bind fun pcr hpcr => ?_
  refine (gives_programClock.ifFlag _).bind fun opcr hopcr => ?_
  refine gives_bind fun spliceCountdown => gives_bind fun privateData => ?_
  refine (AdaptationExtension.gives_decoder.ifFlag _).bind fun extension hextension => ?_
  exact gives_pure ⟨hpcr, hopcr, hextension⟩

/-- A field that counts no bytes has no times, all others have those of their parts. -/
theorem gives_decoder : Gives TimesInRange decoder := by
  refine gives_bind fun length => gives_ite ?_ ((gives_partsDecoder length).within length)
  apply gives_pure
  constructor
  · simp
  · simp
  · simp

end AdaptationField

end TransportStream
