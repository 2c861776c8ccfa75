/-
  SceneAssembly/Json/Number.lean
  ==============================
  **The value of a number token.**

  The digits of a number are gathered into a 64-bit significand; whole digits
  beyond it raise the exponent and fraction digits beyond it are dropped.  A
  token without fraction and exponent whose digits all fit is an integer.  Any
  other is the significand, as a double, times or divided by a power of ten; it
  is out of range when the product is infinite.
-/
import SceneAssembly.Json.Basic

namespace SceneAssembly

/-- The parts of a number token. -/
structure NumberToken where
  negative : Bool
  whole : List Nat
  fraction : List Nat
  /-- The exponent with its sign, `true` for a negative one. -/
  exponent : Option (Bool × List Nat)

namespace NumberToken

/-! ## 1. Grammar -/

/-- The leading decimal digits and what follows them. -/
def digits (cs : List Char) : List Nat × List Char :=
  ((cs.takeWhile Char.isDigit).map fun c => c.toNat - '0'.toNat, cs.dropWhile Char.isDigit)

/-- The exponent part that makes up all of `cs`: nothing, or a letter, an optional sign and
    digits. -/
def exponent? : List Char → Option (Option (Bool × List Nat))
  | [] => some none
  | c :: cs =>
    if c ≠ 'e' ∧ c ≠ 'E' then none
    else
      let (negative, cs) := match cs with
        | '+' :: cs => (false, cs)
        | '-' :: cs => (true, cs)
        | cs => (false, cs)
      match digits cs with
      | ([], _) => none
      | (ds, []) => some (some (negative, ds))
      | (_, _ :: _) => none

/-- Reads a whole token: an optional minus, digits without a leading zero, an optional fraction
    and an optional exponent. -/
def ofChars? (cs : List Char) : Option NumberToken := do
  let (negative, cs) := match cs with
    | '-' :: cs => (true, cs)
    | cs => (false, cs)
  let (whole, cs) := digits cs
  if whole = [] ∨ (whole.head? = some 0 ∧ whole.length ≠ 1) then none
  else
    match cs with
    | '.' :: cs =>
      match digits cs with
      | ([], _) => none
      | (fraction, cs) => return ⟨negative, whole, fraction, ← exponent? cs⟩
    | cs => return ⟨negative, whole, [], ← exponent? cs⟩

/-! ## 2. Value -/

/-- Appends digits to a significand while it stays below `2 ^ 64`; the digits left over are
    returned. -/
def absorb (significand : Nat) : List Nat → Nat × List Nat
  | [] => (significand, [])
  | d :: ds =>
    if 10 * significand + d < UInt64.size then absorb (10 * significand + d) ds
    else (significand, d :: ds)

/-- A double times `10 ^ exponent`; a power beyond `10 ^ 308` is out of range, and a power below
    `10 ^ -308` is divided out in steps. -/
def scaled (x : Float) (exponent : Int) : Option Float :=
  if exponent.natAbs ≤ 308 then
    let power := Float.ofScientific 1 false exponent.natAbs
    if 0 ≤ exponent then
      if (x * power).isInf then none else some (x * power)
    else some (x / power)
  else if x == 0 then some x
  else if 0 ≤ exponent then none
  else scaled (x / 1e308) (exponent + 308)
termination_by (-exponent).toNat
decreasing_by omega

/-- A signed significand times a power of ten. -/
def signedDouble (negative : Bool) (significand : Nat) (exponent : Int) : Number :=
  match scaled significand.toUInt64.toFloat exponent with
  | none => .outOfRange
  | some x => .double (if negative then -x else x)

/-- A number without fraction and exponent whose digits fit the significand. -/
def integer (negative : Bool) (n : Nat) : Number :=
  if ¬ negative then .natural n
  else if n = 0 ∨ UInt64.size / 2 < n then .double (-n.toUInt64.toFloat)
  else .negative n

/-- The value of a token.  An exponent above `2 ^ 31 - 1` is settled by its sign alone. -/
def value (t : NumberToken) : Number :=
  let (whole, overflow) := absorb 0 t.whole
  let (significand, dropped) := absorb whole t.fraction
  let shift : Int := (overflow.length : Int) - (t.fraction.length - dropped.length : Nat)
  match t.exponent with
  | none =>
    if t.fraction = [] ∧ overflow = [] then integer t.negative significand
    else signedDouble t.negative significand shift
  | some (negativeExponent, ds) =>
    let power : Nat := ds.foldl (fun n d => 10 * n + d) 0
    if power < UInt32.size / 2 then
      signedDouble t.negative significand (shift + if negativeExponent then -(power : Int) else power)
    else if significand ≠ 0 ∧ ¬ negativeExponent then .outOfRange
    else .double (if t.negative then -0.0 else 0.0)

end NumberToken

end SceneAssembly
