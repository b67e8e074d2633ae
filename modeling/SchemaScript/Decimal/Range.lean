/-!
# SchemaScript.Decimal.Range

Which decimal numbers are in the range of double-precision numbers.
-/

namespace SchemaScript
namespace Decimal

/-- Whether the decimal number `digits * 10 ^ exponent` does not round to infinity. Numbers far from
the limit are told apart by the count of their digits. -/
def isFinite (digits : Nat) (exponent : Int) : Bool :=
  let leading : Int := exponent + (toString digits).length
  if digits = 0 ∨ leading < 300 then true
  else if 320 < leading then false
  else
    let scaled := if 0 ≤ exponent then digits * Nat.pow 10 exponent.toNat
      else digits / Nat.pow 10 (-exponent).toNat
    scaled < Nat.pow 2 1024 - Nat.pow 2 970

end Decimal
end SchemaScript
