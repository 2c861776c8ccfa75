/-
  SceneAssembly/Decimal.lean
  ==========================
  **Single-precision numbers as text.**

  A number is written with the fewest decimal digits that read back to it: the
  multiple of the coarsest power of ten that falls into the interval of reals
  rounding to the number, the nearer of two such multiples, and the larger one
  on a tie.  The interval includes its ends when the significand is even.  The
  text is positional, without an exponent and without a trailing point.
-/

namespace SceneAssembly

/-- The number `digits · 10 ^ exponent`. -/
structure Decimal where
  digits : Nat
  exponent : Int
deriving DecidableEq, Repr

namespace Decimal

/-! ## 1. The fewest digits that read back -/

/-- Reals near `value / denominator` that round to it, all three numerators over one
    denominator. -/
structure Neighbourhood where
  low : Nat
  value : Nat
  high : Nat
  denominator : Nat
  closed : Bool

/-- The reals that round to `significand · 2 ^ exponent`.  The gap below is half as wide when the
    significand is the smallest of its binade. -/
def Neighbourhood.ofBinary (significand : Nat) (exponent : Int) (narrowBelow : Bool) :
    Neighbourhood :=
  let unit := 1 <<< (exponent - 2).toNat
  { low := (4 * significand - if narrowBelow then 1 else 2) * unit
    value := 4 * significand * unit
    high := (4 * significand + 2) * unit
    denominator := 1 <<< (2 - exponent).toNat
    closed := significand % 2 == 0 }

/-- Does `digits · 10 ^ exponent` round to the number? -/
def Neighbourhood.contains (n : Neighbourhood) (d : Decimal) : Bool :=
  let x := d.digits * Nat.pow 10 d.exponent.toNat * n.denominator
  let grid := Nat.pow 10 (-d.exponent).toNat
  if n.closed then n.low * grid ≤ x && x ≤ n.high * grid
  else n.low * grid < x && x < n.high * grid

/-- The best multiple of `10 ^ exponent` in the neighbourhood, if there is one. -/
def Neighbourhood.best? (n : Neighbourhood) (exponent : Int) : Option Decimal :=
  let scaled := n.value * Nat.pow 10 (-exponent).toNat
  let grid := n.denominator * Nat.pow 10 exponent.toNat
  let below : Decimal := ⟨scaled / grid, exponent⟩
  let above : Decimal := ⟨scaled / grid + 1, exponent⟩
  match below.digits ≠ 0 && n.contains below, n.contains above with
  | true, true => if 2 * (scaled % grid) < grid then some below else some above
  | true, false => some below
  | false, true => some above
  | false, false => none

/-- The shortest decimal that reads back to a positive single-precision magnitude.  Such a
    magnitude lies below `10 ^ 39`, and a step of `10 ^ -60` is finer than the closest spacing. -/
def shortest (significand : Nat) (exponent : Int) (narrowBelow : Bool) : Decimal :=
  let n := Neighbourhood.ofBinary significand exponent narrowBelow
  ((List.range 100).findSome? fun (i : Nat) => n.best? (39 - (i : Int))).getD ⟨0, 0⟩

/-! ## 2. Positional text -/

/-- The decimal written out, with a leading zero before a bare fraction. -/
def positional (d : Decimal) : String :=
  let text := toString d.digits
  if 0 ≤ d.exponent then text ++ "".pushn '0' d.exponent.toNat
  else
    let places := (-d.exponent).toNat
    let padded := ("".pushn '0' (places + 1 - text.length) ++ text).toList
    String.ofList (padded.take (padded.length - places)) ++ "." ++
      String.ofList (padded.drop (padded.length - places))

end Decimal

/-- The text of a single-precision number. -/
def decimalText (x : Float32) : String :=
  let bits := x.toBits.toNat
  let negative := bits >>> 31 == 1
  let exponent : Nat := (bits >>> 23) % 0x100
  let fraction := bits % 0x800000
  let magnitude :=
    if exponent = 255 then "inf"
    else if exponent = 0 then
      if fraction = 0 then "0" else (Decimal.shortest fraction (-149) false).positional
    else
      (Decimal.shortest (fraction + 0x800000) ((exponent : Int) - 150)
        (fraction == 0 && exponent != 1)).positional
  if exponent = 255 ∧ fraction ≠ 0 then "NaN"
  else if negative then "-" ++ magnitude else magnitude

end SceneAssembly
