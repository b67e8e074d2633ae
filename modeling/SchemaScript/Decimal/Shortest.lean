/-!
# SchemaScript.Decimal.Shortest

The shortest decimal that reads back as a given double-precision number, and its text.

A positive finite number is `significand * 2 ^ exponent`. The reals nearer to it than to its
neighbours form an interval; the coarsest power of ten with a multiple in that interval gives the
fewest digits.
-/

namespace SchemaScript
namespace Decimal

/-- A positive real with the interval of reals that round to it, as fractions over `den`. -/
structure Rounding where
  low : Nat
  value : Nat
  high : Nat
  den : Nat
  /-- Whether the ends of the interval round to the value too. -/
  closed : Bool

/-- The interval of the number with the given biased exponent and fraction bits. -/
def Rounding.ofFields (biased fraction : Nat) : Rounding :=
  let significand := if biased = 0 then fraction else fraction + Nat.pow 2 52
  let shift := if biased = 0 then 1 else biased
  let below := if fraction = 0 ∧ 1 < biased then 1 else 2
  let scale := Nat.pow 2 shift
  ⟨(4 * significand - below) * scale, 4 * significand * scale, (4 * significand + 2) * scale,
    Nat.pow 2 1077, significand % 2 = 0⟩

/-- A decimal number `digits * 10 ^ exponent`. -/
structure Digits where
  digits : Nat
  exponent : Int
deriving DecidableEq, Repr

/-- Whether `n` units of `num / den` lie in the interval. -/
def Rounding.holds (r : Rounding) (n num den : Nat) : Bool :=
  if r.closed then r.low * den ≤ n * num * r.den && n * num * r.den ≤ r.high * den
  else r.low * den < n * num * r.den && n * num * r.den < r.high * den

/-- The multiple of `num / den` in the interval, the nearer one if there are two. -/
def Rounding.multiple? (r : Rounding) (num den : Nat) : Option Nat :=
  let lower := r.value * den / (num * r.den)
  let upper := lower + 1
  match r.holds lower num den, r.holds upper num den with
  | false, false => none
  | true, false => some lower
  | false, true => some upper
  | true, true =>
    let gapBelow := r.value * den - lower * num * r.den
    let gapAbove := upper * num * r.den - r.value * den
    if gapAbove < gapBelow ∨ (gapAbove = gapBelow ∧ lower % 2 = 1) then some upper else some lower

/-- Tries the powers of ten from `exponent` downwards. -/
def Rounding.search (r : Rounding) : Nat → Int → Digits
  | 0, exponent => ⟨0, exponent⟩
  | steps + 1, exponent =>
    let num := Nat.pow 10 exponent.toNat
    let den := Nat.pow 10 (-exponent).toNat
    match r.multiple? num den with
    | some n => ⟨n, exponent⟩
    | none => r.search steps (exponent - 1)

/-- The shortest decimal of a positive finite number given by its fields. -/
def shortest (biased fraction : Nat) : Digits :=
  (Rounding.ofFields biased fraction).search 700 309

/-- Positional notation serves numbers from `10 ^ -5` to below `10 ^ 16`, always with a digit on
both sides of the point; the others have an exponent with a sign and at least two digits. -/
def Digits.text (d : Digits) : String :=
  let ds := (toString d.digits).toList
  let count := ds.length
  let leading : Int := d.exponent + count - 1
  if -5 ≤ leading ∧ leading ≤ 15 then
    if 0 ≤ d.exponent then
      String.ofList (ds ++ List.replicate d.exponent.toNat '0') ++ ".0"
    else if 0 ≤ leading then
      let whole := leading.toNat + 1
      String.ofList (ds.take whole ++ '.' :: ds.drop whole)
    else
      String.ofList ('0' :: '.' :: List.replicate (-leading - 1).toNat '0' ++ ds)
  else
    let mantissa := match ds with
      | [] => []
      | [c] => [c]
      | c :: rest => c :: '.' :: rest
    let sign := if 0 ≤ leading then '+' else '-'
    let size := toString leading.natAbs
    let padded := if leading.natAbs < 10 then "0" ++ size else size
    String.ofList (mantissa ++ ['e', sign]) ++ padded

/-- The text of the double-precision number with the given bits. -/
def doubleText (bits : UInt64) : String :=
  let n := bits.toNat
  let negative := Nat.pow 2 63 ≤ n
  let biased := n / Nat.pow 2 52 % 2048
  let fraction := n % Nat.pow 2 52
  let size :=
    if biased = 2047 then (if fraction = 0 then "inf" else "NaN")
    else if biased = 0 ∧ fraction = 0 then "0.0"
    else (shortest biased fraction).text
  if negative then "-" ++ size else size

end Decimal
end SchemaScript
