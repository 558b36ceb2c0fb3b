/-!
# Shortest decimals

Binary numbers are positive, have 53 digits and exponents down to -1074; a quotient is rounded to
the nearest of them, a tie going to the even one. The shortest decimal of a binary number has the
fewest digits that still round to it, and of those it is the nearest one. Where two are equally
near, the style of writing decides. A decimal is written with its point in place, or with an
exponent.
-/

namespace NativeBindings

/-- The number `significand * 2 ^ exponent`. -/
structure Binary64 where
  significand : Nat
  exponent : Int
deriving DecidableEq, Repr, Inhabited

namespace Binary64

def zero : Binary64 := ⟨0, -1074⟩

-- Powers are written `Nat.pow`, which is the same function whether or not the powers of monoids are
-- in scope.

/-- The part of a power of two with this exponent that belongs above the fraction line. -/
def above (exponent : Int) : Nat := Nat.pow 2 exponent.toNat

/-- The part of a power of two with this exponent that belongs below the fraction line. -/
def below (exponent : Int) : Nat := Nat.pow 2 (-exponent).toNat

/-- The quotient rounded to the nearest natural number, a tie to the even one. -/
def roundedQuotient (num den : Nat) : Nat :=
  let quotient := num / den
  let twice := 2 * (num % den)
  if twice > den || (twice == den && quotient % 2 == 1) then quotient + 1 else quotient

/-- The nearest number to a quotient; nothing if it is too large. -/
def ofQuotient? (num den : Nat) : Option Binary64 :=
  if num = 0 then some zero
  else
    let estimate : Int := (num.log2 : Int) - den.log2 - 52
    let fitting :=
      if num * below estimate < Nat.pow 2 52 * den * above estimate then estimate - 1
      else estimate
    let exponent := max fitting (-1074)
    let significand := roundedQuotient (num * below exponent) (den * above exponent)
    let carried : Binary64 :=
      if significand = Nat.pow 2 53 then ⟨Nat.pow 2 52, exponent + 1⟩
      else ⟨significand, exponent⟩
    if carried.exponent > 971 then none else some carried

def scale? (x : Binary64) (num den : Nat) : Option Binary64 :=
  ofQuotient? (x.significand * above x.exponent * num) (below x.exponent * den)

/-- The nearest number to a decimal `digits * 10 ^ exponent`; nothing if it is too large. Exponents
that no digits can make up for are answered at once. -/
def ofDecimal? (digits : Nat) (exponent : Int) : Option Binary64 :=
  let magnitude := exponent + (Nat.toDigits 10 digits).length
  if digits = 0 || magnitude < -400 then some zero
  else if magnitude > 400 then none
  else ofQuotient? (digits * Nat.pow 10 exponent.toNat) (Nat.pow 10 (-exponent).toNat)

end Binary64

/-- The number `digits * 10 ^ exponent`. -/
structure Decimal where
  digits : Nat
  exponent : Int
deriving DecidableEq, Repr, Inhabited

namespace Decimal

def withoutZeros (digits : Nat) (exponent : Int) : Nat → Decimal
  | 0 => ⟨digits, exponent⟩
  | bound + 1 =>
    if digits ≠ 0 ∧ digits % 10 = 0 then withoutZeros (digits / 10) (exponent + 1) bound
    else ⟨digits, exponent⟩

def digitChars (d : Decimal) : List Char := Nat.toDigits 10 d.digits

def leadingExponent (d : Decimal) : Int := d.exponent + d.digitChars.length - 1

/-- The decimal without an exponent; at least one digit stands on each side of the point. -/
def positional (d : Decimal) : String :=
  let digits := d.digitChars
  if d.exponent ≥ 0 then
    String.ofList (digits ++ List.replicate d.exponent.toNat '0') ++ ".0"
  else
    let places := (-d.exponent).toNat
    let padded := List.replicate (places + 1 - digits.length) '0' ++ digits
    String.ofList (padded.take (padded.length - places)) ++ "." ++
      String.ofList (padded.drop (padded.length - places))

/-- The decimal with one digit before the point and an exponent, whose sign is always written. -/
def scientific (d : Decimal) : String :=
  let power := d.leadingExponent
  let fraction := d.digitChars.drop 1
  String.ofList (d.digitChars.take 1) ++
    (if fraction.isEmpty then "" else "." ++ String.ofList fraction) ++
    (if power < 0 then "e-" else "e+") ++ toString power.natAbs

end Decimal

inductive TieRule where
  /-- The one whose last digit is even. -/
  | toEven
  /-- The one farther from zero. -/
  | outwards
deriving DecidableEq, Repr

def TieRule.takesLower : TieRule → (lower : Nat) → Bool
  | toEven, lower => lower % 2 == 0
  | outwards, _ => false

namespace Binary64

/-- Compares decimals of one exponent with a binary number and the ends of the interval of numbers
that round to it. Everything is counted in quarters of the last binary digit. -/
structure Grid where
  /-- Weight of one quarter of the last binary digit. -/
  quarter : Nat
  /-- Weight of one unit of the last decimal digit. -/
  unit : Nat

def grid (x : Binary64) (exponent : Int) : Grid :=
  { quarter := above (x.exponent - 2) * Nat.pow 10 (-exponent).toNat
    unit := Nat.pow 10 exponent.toNat * below (x.exponent - 2) }

/-- A decimal of the grid rounds to the number. The ends of the interval do if the last binary digit
is zero; below a power of two the interval is half as wide. -/
def rounds (x : Binary64) (g : Grid) (digits : Nat) : Bool :=
  let gap := if x.significand = Nat.pow 2 52 ∧ x.exponent > -1074 then 1 else 2
  let low := (4 * x.significand - gap) * g.quarter
  let high := (4 * x.significand + 2) * g.quarter
  let value := digits * g.unit
  if x.significand % 2 = 0 then low ≤ value && value ≤ high else low < value && value < high

/-- The decimal of the grid that rounds to the number, the nearer one if two neighbours do. -/
def nearestOnGrid? (tie : TieRule) (x : Binary64) (g : Grid) : Option Nat :=
  let value := 4 * x.significand * g.quarter
  let lower := value / g.unit
  match x.rounds g lower, x.rounds g (lower + 1) with
  | false, false => none
  | true, false => some lower
  | false, true => some (lower + 1)
  | true, true =>
    let middle := (2 * lower + 1) * g.unit
    if 2 * value < middle || (2 * value == middle && tie.takesLower lower) then some lower
    else some (lower + 1)

/-- Tries grids from `exponent` downwards. -/
def search (tie : TieRule) (x : Binary64) (exponent : Int) : Nat → Decimal
  | 0 => ⟨x.significand, 0⟩
  | bound + 1 =>
    match x.nearestOnGrid? tie (x.grid exponent) with
    | some digits => if digits = 0 then x.search tie (exponent - 1) bound
      else .withoutZeros digits exponent 20
    | none => x.search tie (exponent - 1) bound

def shortest (tie : TieRule) (x : Binary64) : Decimal :=
  if x.significand = 0 then ⟨0, 0⟩
  else
    let integral := x.significand * above x.exponent / below x.exponent
    if integral = 0 then
      let small := x.significand * Nat.pow 10 330 / below x.exponent
      x.search tie ((Nat.toDigits 10 small).length - 330) 400
    else x.search tie (Nat.toDigits 10 integral).length 400

/-- A binary number with its point in place, however many digits that takes. A tie goes outwards. -/
def plainText (negative : Bool) (x : Binary64) : String :=
  (if negative then "-" else "") ++ (x.shortest .outwards).positional

/-- A binary number in the shorter style: with an exponent if its first digit is more than five
places behind the point or more than sixteen before it. A tie goes to the even digit. -/
def compactText (negative : Bool) (x : Binary64) : String :=
  let d := x.shortest .toEven
  let power := if d.digits = 0 then 0 else d.leadingExponent
  (if negative then "-" else "") ++
    if -5 ≤ power ∧ power ≤ 15 then d.positional else d.scientific

end Binary64

end NativeBindings
