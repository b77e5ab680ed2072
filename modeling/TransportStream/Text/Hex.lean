/-!
# Hexadecimal text

Numbers are shown as lower-case hexadecimal behind `0x`, padded with zeros to a
least number of digits.
-/

namespace TransportStream

/-- A number in hexadecimal, with at least the given number of digits behind `0x`. -/
def hex (digits n : Nat) : String :=
  let text := Nat.toDigits 16 n
  "0x" ++ String.ofList (List.replicate (digits - text.length) '0' ++ text)

end TransportStream
