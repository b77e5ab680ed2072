import TransportStream.Text.Blank
import TransportStream.Text.Decimal

/-!
# Configuration

A demultiplexer is configured by a bound on the size of a PES unit and by how strictly
PES lengths are taken. Both have defaults, which named variables override.
-/

namespace TransportStream

/-- The default bound on the size of a PES unit, 16 MiB. -/
def defaultMaxUnitSize : Nat := 16 * 1024 * 1024

/-- The largest bound on the size of a PES unit that can be written. -/
def largestUnitSize : Nat := UInt64.size - 1

/-- The variable that overrides the bound on the size of a PES unit. -/
def maxUnitSizeVariable : String := "TSDEMUX_MAX_PES_SIZE"

/-- The variable that overrides the strictness of PES lengths. -/
def strictLengthVariable : String := "TSDEMUX_STRICT_PES_LENGTH"

/-- How a demultiplexer works. -/
structure Config where
  /-- The most bytes that a PES unit may have before it is dropped. -/
  maxUnitSize : Nat := defaultMaxUnitSize
  /-- Whether only video streams may leave the length of a PES unit open. -/
  strictLength : Bool := false
  deriving DecidableEq, Repr

/-- Why variables do not give a configuration. -/
inductive ConfigError where
  /-- The bound on the size of a PES unit is not a number. -/
  | badNumber (fault : DecimalFault)
  /-- The strictness of PES lengths is neither on nor off. -/
  | notBoolean (text : String)
  deriving DecidableEq, Repr

/-- The text that reports an unusable variable. -/
def ConfigError.message : ConfigError → String
  | .badNumber fault => s!"parse int error: {fault.message}"
  | .notBoolean text => s!"invalid data: {strictLengthVariable} must be a boolean, got '{text}'"

/-- Reads a bound on the size of a PES unit, blanks around it aside. -/
def readUnitSize (text : String) : Except ConfigError Nat :=
  (readDecimal largestUnitSize (trimBlank text.toList)).mapError .badNumber

/-- Reads a switch, blanks around it and the case of ASCII letters aside. -/
def readSwitch (text : String) : Except ConfigError Bool :=
  let word := String.ofList ((trimBlank text.toList).map Char.toLower)
  if word ∈ ["1", "true", "yes", "on"] then .ok true
  else if word ∈ ["0", "false", "no", "off", ""] then .ok false
  else .error (.notBoolean word)

namespace Config

/-- The configuration that variables describe. Defaults stand in for those not set. -/
def ofVariables (lookup : String → Option String) : Except ConfigError Config := do
  let maxUnitSize ← match lookup maxUnitSizeVariable with
    | some text => readUnitSize text
    | none => pure defaultMaxUnitSize
  let strictLength ← match lookup strictLengthVariable with
    | some text => readSwitch text
    | none => pure false
  return { maxUnitSize, strictLength }

/-- The same configuration with another bound on the size of a PES unit. -/
def withMaxUnitSize (config : Config) (size : Nat) : Config := { config with maxUnitSize := size }

/-- The same configuration with another strictness of PES lengths. -/
def withStrictLength (config : Config) (strict : Bool) : Config :=
  { config with strictLength := strict }

end Config

end TransportStream
