import NativeBindings.Decimal.Shortest
import NativeBindings.Json.Reader

/-!
# JSON numbers

Integers keep their value as long as they fit 64 bits. Everything else is a binary floating point
number, whose digits beyond the first 64 bits count only by their place.
-/

namespace NativeBindings.Json

inductive Number where
  | natural (value : Nat)
  | negative (value : Int)
  | floating (isNegative : Bool) (magnitude : Binary64)
deriving DecidableEq, Repr

def Number.shown : Number → Shown
  | natural value => .integer value
  | negative value => .integer value
  | floating isNegative magnitude => .floating (magnitude.compactText isNegative)

/-- Largest natural number of 64 bits. -/
def wordLimit : Nat := Nat.pow 2 64 - 1

namespace Reader

/-- Multiplies or divides a number by a power of ten, one table entry of at most 308 at a time. -/
def scaleByTen (x : Binary64) (exponent : Int) : Nat → Reader Binary64
  | 0 => pure x
  | bound + 1 => do
    let power (n : Nat) : Binary64 := (Binary64.ofQuotient? (Nat.pow 10 n) 1).getD .zero
    if exponent.natAbs ≤ 308 then
      let p := power exponent.natAbs
      if exponent ≥ 0 then
        match x.scale? (p.significand * Binary64.above p.exponent) (Binary64.below p.exponent) with
        | some y => pure y
        | none => fault .numberOutOfRange
      else
        pure ((x.scale? (Binary64.below p.exponent)
          (p.significand * Binary64.above p.exponent)).getD .zero)
    else if x.significand = 0 then pure x
    else if exponent ≥ 0 then fault .numberOutOfRange
    else
      let p := power 308
      let y := (x.scale? (Binary64.below p.exponent)
        (p.significand * Binary64.above p.exponent)).getD .zero
      scaleByTen y (exponent + 308) bound

def floatingOf (isNegative : Bool) (digits : Nat) (exponent : Int) : Reader Number := do
  let x := (Binary64.ofQuotient? digits 1).getD .zero
  return .floating isNegative (← scaleByTen x exponent 4)

/-- Takes digits into a number as long as it fits 64 bits; the others are counted. -/
def fittingDigits (value taken : Nat) : Nat → Reader (Nat × Nat × Nat)
  | 0 => pure (value, taken, 0)
  | bound + 1 => do
    match ← peek? with
    | some c =>
      if c.isDigit then
        let longer := 10 * value + (c.toNat - '0'.toNat)
        if longer ≤ wordLimit then
          advance
          fittingDigits longer (taken + 1) bound
        else
          let (_, dropped) ← digits
          pure (value, taken, dropped)
      else pure (value, taken, 0)
    | none => pure (value, taken, 0)

/-- Largest exponent that is counted; what lies beyond is zero or out of range. -/
def exponentLimit : Nat := Nat.pow 2 31 - 1

def exponentDigits (value : Nat) : Nat → Reader (Option Nat)
  | 0 => pure (some value)
  | bound + 1 => do
    match ← peek? with
    | some c =>
      if c.isDigit then
        advance
        let longer := 10 * value + (c.toNat - '0'.toNat)
        if longer ≤ exponentLimit then exponentDigits longer bound else pure none
      else pure (some value)
    | none => pure (some value)

/-- Reads an exponent from its letter on, behind the digits of a number. -/
def exponentPart (isNegative : Bool) (value : Nat) (exponent : Int) : Reader Number := do
  advance
  let sign ← peek?
  if sign = some '+' ∨ sign = some '-' then advance
  match ← peek? with
  | none => fault .endInValue
  | some c =>
    if !c.isDigit then faultAhead .invalidNumber
    else
      match ← exponentDigits 0 (← remaining) with
      | some power =>
        let power : Int := if sign = some '-' then -power else power
        floatingOf isNegative value (exponent + power)
      | none =>
        if value ≠ 0 ∧ sign ≠ some '-' then fault .numberOutOfRange
        else
          let _ ← digits
          pure (.floating isNegative .zero)

def scaledNumber (isNegative : Bool) (value : Nat) (exponent : Int) : Reader Number := do
  let next ← peek?
  if next = some 'e' ∨ next = some 'E' then exponentPart isNegative value exponent
  else floatingOf isNegative value exponent

/-- Reads the digits behind a point, from the point on. `dropped` digits before it did not fit. -/
def fractionPart (isNegative : Bool) (value dropped : Nat) : Reader Number := do
  advance
  let (longer, taken, rest) ← fittingDigits value 0 (← remaining)
  if taken = 0 ∧ rest = 0 then
    match ← peek? with
    | some _ => faultAhead .invalidNumber
    | none => fault .endInValue
  else scaledNumber isNegative longer (dropped - taken)

/-- The number with these digits if neither a point nor an exponent follows. A zero below zero and
integers that do not fit are floating point numbers. -/
def integerOf (isNegative : Bool) (value dropped : Nat) : Reader Number :=
  if dropped ≠ 0 then floatingOf isNegative value dropped
  else if !isNegative then pure (.natural value)
  else if 0 < value ∧ value ≤ Nat.pow 2 63 then pure (.negative (-value))
  else floatingOf true value 0

/-- Reads what follows the digits before the point. -/
def afterInteger (isNegative : Bool) (value dropped : Nat) : Reader Number := do
  match ← peek? with
  | some '.' => fractionPart isNegative value dropped
  | some 'e' => exponentPart isNegative value dropped
  | some 'E' => exponentPart isNegative value dropped
  | _ => integerOf isNegative value dropped

def unsignedNumber (isNegative : Bool) : Reader Number := do
  match ← peek? with
  | none => fault .endInValue
  | some '0' =>
    advance
    match ← peek? with
    | some c =>
      if c.isDigit then faultAhead .invalidNumber else afterInteger isNegative 0 0
    | none => afterInteger isNegative 0 0
  | some c =>
    if c.isDigit then
      let (value, _, dropped) ← fittingDigits 0 0 (← remaining)
      afterInteger isNegative value dropped
    else faultAhead .invalidNumber

def number : Reader Number := do
  if (← peek?) = some '-' then
    advance
    unsignedNumber true
  else unsignedNumber false

def skipExponent : Reader Unit := do
  advance
  let sign ← peek?
  if sign = some '+' ∨ sign = some '-' then advance
  match ← peek? with
  | some c =>
    if c.isDigit then
      let _ ← digits
    else faultAhead .invalidNumber
  | none => fault .invalidNumber

/-- Skips what follows the digits before the point. -/
def skipAfterInteger : Reader Unit := do
  let next ← peek?
  if next = some '.' then
    advance
    let (_, count) ← digits
    if count = 0 then faultAhead .invalidNumber
    else
      let next ← peek?
      if next = some 'e' ∨ next = some 'E' then skipExponent
  else if next = some 'e' ∨ next = some 'E' then skipExponent

/-- Skips a number. Its size does not matter. -/
def skipNumber : Reader Unit := do
  if (← peek?) = some '-' then advance
  match ← peek? with
  | none => fault .invalidNumber
  | some '0' =>
    advance
    match ← peek? with
    | some c => if c.isDigit then faultAhead .invalidNumber else skipAfterInteger
    | none => skipAfterInteger
  | some c =>
    if c.isDigit then
      let _ ← digits
      skipAfterInteger
    else faultAhead .invalidNumber

end Reader

end NativeBindings.Json
