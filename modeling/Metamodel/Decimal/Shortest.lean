/-!
# Metamodel.Decimal.Shortest -- the fewest digits that identify a binary64 value

A finite value is m · 2^q. The reals that round to it form an interval, its ends included exactly
when m is even. Of the decimals in the interval those with the fewest digits are taken, of these the
nearest to the value, and of two equally near ones the larger. The comparison is exact, in naturals.
NaN and the infinities are no such value; the caller sets them apart.
-/

namespace Metamodel.Decimal

/-! ## Binary values -/

/-- A finite non-negative binary64 value, `mantissa` · 2^`exponent`. -/
structure Binary where
  mantissa : Nat
  exponent : Int
  /-- Whether the gap to the value below is half the gap to the value above. -/
  narrowBelow : Bool
deriving DecidableEq, Repr

/-- How many fractions a binary64 value may have: they take 52 bits. -/
def fractions : Nat := 0x10000000000000

/-- How many stored exponents there are: they take 11 bits. -/
def exponents : Nat := 0x800

/-- The fraction in the low bits of a value. -/
def fractionOf (bits : UInt64) : Nat := bits.toNat % fractions

/-- The exponent that is stored above the fraction. -/
def exponentOf (bits : UInt64) : Nat := bits.toNat / fractions % exponents

/-- Whether the highest bit, the sign, is set. -/
def isNegative (bits : UInt64) : Bool := decide (fractions * exponents ≤ bits.toNat)

/-- The magnitude of the value with these bits, read as a finite value. -/
def Binary.ofBits (bits : UInt64) : Binary :=
  let stored := exponentOf bits
  let fraction := fractionOf bits
  if stored = 0 then ⟨fraction, -1074, false⟩
  else
    ⟨fractions + fraction, (stored : Int) - 1075, decide (fraction = 0) && decide (1 < stored)⟩

/-! ## Decimals -/

/-- The decimal `digits` · 10^`exponent`. -/
structure Dec where
  digits : Nat
  exponent : Int
deriving DecidableEq, Repr

/-- Compares a · 10^i with n · 2^j, exactly. -/
def compareScaled (a : Nat) (i : Int) (n : Nat) (j : Int) : Ordering :=
  compare (a * Nat.pow 10 i.toNat * Nat.pow 2 (-j).toNat)
    (n * Nat.pow 2 j.toNat * Nat.pow 10 (-i).toNat)

/-- Whether a decimal lies among the reals that round to `x`. -/
def Binary.readsBack (x : Binary) (d : Dec) : Bool :=
  let below := if x.narrowBelow then 4 * x.mantissa - 1 else 4 * x.mantissa - 2
  let above := 4 * x.mantissa + 2
  let closed := x.mantissa % 2 == 0
  let low := compareScaled d.digits d.exponent below (x.exponent - 2)
  let high := compareScaled d.digits d.exponent above (x.exponent - 2)
  (low == .gt || (closed && low == .eq)) && (high == .lt || (closed && high == .eq))

/-- The value as a quotient of naturals. -/
def Binary.quotient (x : Binary) : Nat × Nat :=
  (x.mantissa * Nat.pow 2 x.exponent.toNat, Nat.pow 2 (-x.exponent).toNat)

/-- How often `num` can be taken ten times as large and stay below `den`, counted up to `fuel`. -/
def leadingZeros (den : Nat) : Nat → Nat → Nat
  | 0, _ => 0
  | fuel + 1, num => if num * 10 < den then leadingZeros den fuel (num * 10) + 1 else 0

/-- The least k with x < 10^k, for a value other than zero. -/
def Binary.scale (x : Binary) : Int :=
  let (num, den) := x.quotient
  if den ≤ num then ((Nat.toDigits 10 (num / den)).length : Int)
  else -(leadingZeros den 400 num : Int)

/-- The multiple of 10^e at or below the value. -/
def Binary.floorAt (x : Binary) (e : Int) : Nat :=
  let (num, den) := x.quotient
  num * Nat.pow 10 (-e).toNat / (den * Nat.pow 10 e.toNat)

/-- Of the two neighbours of the value among the multiples of 10^e, the one that reads back; of two
the nearer, and the larger when they are equally near. -/
def Binary.pickAt (x : Binary) (e : Int) : Option Dec :=
  let below : Dec := ⟨x.floorAt e, e⟩
  let above : Dec := ⟨x.floorAt e + 1, e⟩
  match x.readsBack below, x.readsBack above with
  | true, true =>
    if compareScaled (2 * below.digits + 1) e (2 * x.mantissa) x.exponent == .gt then some below
    else some above
  | true, false => some below
  | false, true => some above
  | false, false => none

/-- Drops zeros at the end of the digits, at most `fuel` of them. -/
def Dec.strip : Nat → Dec → Dec
  | 0, d => d
  | fuel + 1, d => if d.digits % 10 = 0 then strip fuel ⟨d.digits / 10, d.exponent + 1⟩ else d

/-- The decimal of `x` with the fewest digits: the first grid, from coarse to fine, on which a
neighbour reads back. Seventeen digits are always enough. -/
def Binary.shortest (x : Binary) : Dec :=
  let scale := x.scale
  let found := (List.range 18).findSome? fun n => x.pickAt (scale - (n + 1 : Nat))
  (found.getD ⟨x.floorAt (scale - 19), scale - 19⟩).strip 20

/-! ## Positional notation -/

/-- The decimal written out by position, without an exponent, and without a point when whole. -/
def Dec.positional (d : Dec) : String :=
  let digits := Nat.toDigits 10 d.digits
  if 0 ≤ d.exponent then String.ofList (digits ++ List.replicate d.exponent.toNat '0')
  else
    let places := (-d.exponent).toNat
    let padded := List.replicate (places + 1 - digits.length) '0' ++ digits
    let whole := padded.length - places
    String.ofList (padded.take whole ++ '.' :: padded.drop whole)

/-- The text of the binary64 value with these bits: the shortest decimal by position, a sign also
before zero, and names for what is not a number. -/
def text (bits : UInt64) : String :=
  let sign := if isNegative bits then "-" else ""
  let stored := exponentOf bits
  let fraction := fractionOf bits
  if stored + 1 = exponents then (if fraction = 0 then sign ++ "inf" else "NaN")
  else if stored = 0 ∧ fraction = 0 then sign ++ "0"
  else sign ++ (Binary.ofBits bits).shortest.positional

end Metamodel.Decimal
