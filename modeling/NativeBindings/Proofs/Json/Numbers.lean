import NativeBindings.Native.ToJson
import NativeBindings.Proofs.Json.Takes
import Mathlib.Data.Nat.Digits.Lemmas

/-!
# Printed numbers

A printed natural number of 64 bits is read as this number. Any number that JSON knows can be
skipped, whatever its size.
-/

namespace NativeBindings.Json

def digitChars (digits : List (Fin 10)) : List Char := digits.map fun digit => digit.val.digitChar

/-- An exponent with its letter; it has one digit at least. -/
structure Exponent where
  isCapital : Bool
  isNegative : Option Bool
  first : Fin 10
  others : List (Fin 10)
deriving DecidableEq, Repr

namespace Exponent

def letter (exponent : Exponent) : Char := if exponent.isCapital then 'E' else 'e'

def sign (exponent : Exponent) : List Char :=
  match exponent.isNegative with
  | none => []
  | some false => ['+']
  | some true => ['-']

def digits (exponent : Exponent) : List Char := digitChars (exponent.first :: exponent.others)

def text (exponent : Exponent) : List Char :=
  exponent.letter :: exponent.sign ++ exponent.digits

end Exponent

/-- A number as JSON writes it. Without a fraction, no point is written. -/
structure Numeral where
  isNegative : Bool
  whole : Nat
  fraction : List (Fin 10)
  exponent : Option Exponent
deriving DecidableEq, Repr

namespace Numeral

def natural (value : Nat) : Numeral := ⟨false, value, [], none⟩

def power (numeral : Numeral) : List Char := (numeral.exponent.map (·.text)).getD []

/-- What stands behind the digits before the point. -/
def tail (numeral : Numeral) : List Char :=
  if numeral.fraction = [] then numeral.power
  else '.' :: digitChars numeral.fraction ++ numeral.power

def text (numeral : Numeral) : List Char :=
  (if numeral.isNegative then ['-'] else []) ++ Nat.toDigits 10 numeral.whole ++ numeral.tail

@[simp] theorem text_natural (value : Nat) : (natural value).text = Print.natural value :=
  List.append_nil _

end Numeral

def EndsDigits (rest : List Char) : Prop := ∀ c ∈ rest.head?, c.isDigit = false

theorem EndsDigits.cons {c : Char} (h : c.isDigit = false) (rest : List Char) :
    EndsDigits (c :: rest) := by
  rintro _ ⟨⟩
  exact h

theorem EndsValue.endsDigits {rest : List Char} (h : EndsValue rest) : EndsDigits rest := by
  intro c hc
  rcases h c hc with rfl | rfl | rfl <;> decide

theorem isDigit_digitChar (digit : Fin 10) : digit.val.digitChar.isDigit = true := by
  revert digit
  decide

theorem isDigit_of_mem_digitChars {digits : List (Fin 10)} {c : Char}
    (h : c ∈ digitChars digits) : c.isDigit = true := by
  obtain ⟨digit, -, rfl⟩ := List.mem_map.mp h
  exact isDigit_digitChar digit

theorem isDigit_of_mem_toDigits {value : Nat} {c : Char} (h : c ∈ Nat.toDigits 10 value) :
    c.isDigit = true :=
  Nat.isDigit_of_mem_toDigits (by decide) (by decide) h

theorem exists_toDigits {value : Nat} (h : value ≠ 0) :
    ∃ c cs, Nat.toDigits 10 value = c :: cs ∧ c ≠ '0' ∧ c.isDigit = true := by
  induction value using Nat.strongRecOn with
  | ind value ih =>
    by_cases hsmall : value < 10
    · refine ⟨value.digitChar, [], Nat.toDigits_of_lt_base hsmall, ?_,
        isDigit_digitChar ⟨value, hsmall⟩⟩
      interval_cases value <;> first | contradiction | decide
    · obtain ⟨c, cs, heq, hc⟩ := ih (value / 10) (by omega) (by omega)
      refine ⟨c, cs ++ [(value % 10).digitChar], ?_, hc⟩
      rw [Nat.toDigits_of_base_le (by decide) (by omega), heq, List.cons_append]

namespace Reader

variable {digits rest : List Char}

theorem takes_digitsFrom (hdigits : ∀ c ∈ digits, c.isDigit = true) (hrest : EndsDigits rest)
    (value count : Nat) {bound : Nat} (hbound : digits.length ≤ bound) :
    ∃ value', (digitsFrom value count bound).Takes (digits ++ rest)
      (value', count + digits.length) rest := by
  induction digits generalizing value count bound with
  | nil =>
    refine ⟨value, ?_⟩
    cases bound with
    | zero => exact .pure _ _
    | succ bound =>
      refine (takes_peek? _).bind ?_
      cases rest with
      | nil => exact .pure _ _
      | cons c rest =>
        simp only [List.nil_append, List.head?_cons, hrest c rfl]
        exact .pure _ _
  | cons c digits ih =>
    obtain ⟨bound, rfl⟩ := Nat.exists_eq_add_one_of_ne_zero (Nat.ne_zero_of_lt hbound)
    obtain ⟨value', h⟩ := ih (fun d hd => hdigits d (List.mem_cons_of_mem _ hd))
      (10 * value + (c.toNat - '0'.toNat)) (count + 1) (Nat.le_of_succ_le_succ hbound)
    refine ⟨value', (takes_peek? _).bind ?_⟩
    simp only [List.cons_append, List.head?_cons, hdigits c List.mem_cons_self, if_true]
    rw [List.length_cons, Nat.add_comm digits.length, ← Nat.add_assoc]
    exact (takes_advance _ _).bind h

theorem takes_digits (hdigits : ∀ c ∈ digits, c.isDigit = true) (hrest : EndsDigits rest) :
    ∃ value, Reader.digits.Takes (digits ++ rest) (value, digits.length) rest := by
  obtain ⟨value, h⟩ := takes_digitsFrom hdigits hrest 0 0
    (Nat.le_trans (Nat.le_add_right _ rest.length) (Nat.le_of_eq List.length_append.symm))
  rw [Nat.zero_add] at h
  exact ⟨value, (takes_remaining _).bind h⟩

theorem le_ofDigitChars (digits : List Char) (value : Nat) :
    value ≤ Nat.ofDigitChars 10 digits value := by
  induction digits generalizing value with
  | nil => exact Nat.le_refl _
  | cons c digits ih =>
    rw [Nat.ofDigitChars_cons]
    exact Nat.le_trans (by omega) (ih _)

/-- Digits are taken in as long as the number fits. -/
theorem takes_fittingDigits (hdigits : ∀ c ∈ digits, c.isDigit = true) (hrest : EndsDigits rest)
    (value taken : Nat) (hfits : Nat.ofDigitChars 10 digits value ≤ wordLimit) {bound : Nat}
    (hbound : digits.length ≤ bound) :
    (fittingDigits value taken bound).Takes (digits ++ rest)
      (Nat.ofDigitChars 10 digits value, taken + digits.length, 0) rest := by
  -- The number only grows with further digits, so every value on the way fits as the last does.
  induction digits generalizing value taken bound with
  | nil =>
    cases bound with
    | zero => exact .pure _ _
    | succ bound =>
      refine (takes_peek? _).bind ?_
      cases rest with
      | nil => exact .pure _ _
      | cons c rest =>
        simp only [List.nil_append, List.head?_cons, hrest c rfl]
        exact .pure _ _
  | cons c digits ih =>
    obtain ⟨bound, rfl⟩ := Nat.exists_eq_add_one_of_ne_zero (Nat.ne_zero_of_lt hbound)
    rw [Nat.ofDigitChars_cons] at hfits ⊢
    have hlonger : 10 * value + (c.toNat - '0'.toNat) ≤ wordLimit :=
      Nat.le_trans (le_ofDigitChars digits _) hfits
    have h := ih (fun d hd => hdigits d (List.mem_cons_of_mem _ hd)) _ (taken + 1) hfits
      (Nat.le_of_succ_le_succ hbound)
    refine (takes_peek? _).bind ?_
    simp only [List.cons_append, List.head?_cons, hdigits c List.mem_cons_self, if_true,
      if_pos hlonger]
    rw [List.length_cons, Nat.add_comm digits.length, ← Nat.add_assoc]
    exact (takes_advance _ _).bind h

theorem takes_integer (value : Nat) (hrest : EndsValue rest) :
    (afterInteger false value 0).Takes rest (.natural value) rest := by
  refine (takes_peek? _).bind ?_
  cases rest with
  | nil => exact .pure _ _
  | cons c rest =>
    rcases hrest c rfl with rfl | rfl | rfl <;> exact .pure _ _

theorem takes_number {value : Nat} (hfits : value ≤ wordLimit) (hrest : EndsValue rest) :
    number.Takes (Print.natural value ++ rest) (.natural value) rest := by
  refine (takes_peek? _).bind ?_
  -- Zero is read on its own, since no other number begins with a zero.
  by_cases hzero : value = 0
  · subst hzero
    refine (takes_peek? _).bind ((takes_advance '0' rest).bind ((takes_peek? _).bind ?_))
    cases rest with
    | nil => exact takes_integer 0 hrest
    | cons c rest =>
      simp only [List.head?_cons, hrest.endsDigits c rfl]
      exact takes_integer 0 hrest
  · have hvalue : Nat.ofDigitChars 10 (Nat.toDigits 10 value) 0 = value :=
      Nat.ofDigitChars_ten_toDigits
    have hdigits : (fittingDigits 0 0 (Nat.toDigits 10 value ++ rest).length).Takes
        (Nat.toDigits 10 value ++ rest) (_, _, 0) rest :=
      takes_fittingDigits (fun _ => isDigit_of_mem_toDigits) hrest.endsDigits 0 0
        (hvalue.trans_le hfits) (by rw [List.length_append]; exact Nat.le_add_right _ _)
    rw [hvalue] at hdigits
    obtain ⟨c, cs, heq, hc, hdigit⟩ := exists_toDigits hzero
    have hsign : some c ≠ some '-' := by
      rintro ⟨⟩
      exact absurd hdigit (by decide)
    have hhead : (Print.natural value ++ rest).head? = some c := by
      rw [Print.natural, heq]
      rfl
    rw [hhead, if_neg hsign]
    refine (takes_peek? _).bind ?_
    rw [hhead]
    simp only [hdigit, if_true]
    exact (takes_remaining _).bind (hdigits.bind (takes_integer value hrest))

def skipPowerDigits : Reader Unit := do
  match ← peek? with
  | some c =>
    if c.isDigit then
      let _ ← Reader.digits
    else faultAhead .invalidNumber
  | none => fault .invalidNumber

theorem skipExponent_eq : skipExponent = (do
    advance
    let sign ← peek?
    if sign = some '+' ∨ sign = some '-' then
      advance
      skipPowerDigits
    else skipPowerDigits) := rfl

theorem takes_skipExponent (exponent : Exponent) (hrest : EndsDigits rest) :
    skipExponent.Takes (exponent.text ++ rest) () rest := by
  have hfirst := isDigit_digitChar exponent.first
  have hdigits : ∀ c ∈ exponent.digits, c.isDigit = true := fun _ => isDigit_of_mem_digitChars
  obtain ⟨value, h⟩ := takes_digits hdigits hrest
  have hunsigned : skipPowerDigits.Takes (exponent.digits ++ rest) () rest := by
    refine (takes_peek? _).bind ?_
    change (if exponent.first.val.digitChar.isDigit = true then _ else _ : Reader Unit).Takes _ _ _
    rw [if_pos hfirst]
    exact h.bind (.pure _ _)
  have htext : exponent.text ++ rest =
      exponent.letter :: (exponent.sign ++ (exponent.digits ++ rest)) := by
    simp [Exponent.text]
  rw [htext, skipExponent_eq]
  refine (takes_advance _ _).bind ((takes_peek? _).bind ?_)
  cases hsign : exponent.isNegative with
  | none =>
    have hnone : exponent.sign = [] := by rw [Exponent.sign, hsign]
    have hplain : ¬ (some exponent.first.val.digitChar = some '+' ∨
        some exponent.first.val.digitChar = some '-') := by
      generalize exponent.first = first
      revert first
      decide
    rw [hnone]
    change (if some exponent.first.val.digitChar = some '+' ∨
        some exponent.first.val.digitChar = some '-' then _ else _ : Reader Unit).Takes _ _ _
    rw [if_neg hplain]
    exact hunsigned
  | some isNegative =>
    have hsome : exponent.sign = [if isNegative then '-' else '+'] := by
      rw [Exponent.sign, hsign]
      cases isNegative <;> rfl
    rw [hsome]
    cases isNegative <;> exact (takes_advance _ _).bind hunsigned

theorem takes_skipPower (numeral : Numeral) (hrest : EndsValue rest) :
    (if (numeral.power ++ rest).head? = some 'e' ∨ (numeral.power ++ rest).head? = some 'E' then
      skipExponent else pure ()).Takes (numeral.power ++ rest) () rest := by
  cases hexponent : numeral.exponent with
  | none =>
    have hnone : numeral.power = [] := by rw [Numeral.power, hexponent]; rfl
    have hplain : ¬ (rest.head? = some 'e' ∨ rest.head? = some 'E') := by
      rintro (h | h) <;> rcases hrest _ h with h | h | h <;> exact absurd h (by decide)
    rw [hnone, List.nil_append, if_neg hplain]
    exact .pure _ _
  | some exponent =>
    have hsome : numeral.power = exponent.text := by rw [Numeral.power, hexponent]; rfl
    have hletter : some exponent.letter = some 'e' ∨ some exponent.letter = some 'E' := by
      rw [Exponent.letter]
      cases exponent.isCapital <;> decide
    rw [hsome]
    change (if some exponent.letter = some 'e' ∨ some exponent.letter = some 'E' then _
      else _ : Reader Unit).Takes _ _ _
    rw [if_pos hletter]
    exact takes_skipExponent exponent hrest.endsDigits

theorem head_power (numeral : Numeral) (hrest : EndsValue rest) :
    ∀ c ∈ (numeral.power ++ rest).head?, c.isDigit = false ∧ c ≠ '.' := by
  unfold Numeral.power
  cases numeral.exponent with
  | none =>
    intro c hc
    rcases hrest c hc with rfl | rfl | rfl <;> decide
  | some exponent =>
    rintro _ ⟨⟩
    rw [Exponent.letter]
    cases exponent.isCapital <;> decide

theorem takes_skipAfterInteger (numeral : Numeral) (hrest : EndsValue rest) :
    skipAfterInteger.Takes (numeral.tail ++ rest) () rest := by
  have hpower := takes_skipPower numeral hrest
  have hhead := head_power numeral hrest
  unfold Numeral.tail
  split
  · have hpoint : (numeral.power ++ rest).head? ≠ some '.' := fun h => (hhead _ h).2 rfl
    refine (takes_peek? _).bind ?_
    rw [if_neg hpoint]
    exact hpower
  · rename_i hfraction
    have hcount : (digitChars numeral.fraction).length ≠ 0 := by
      rw [digitChars, List.length_map]
      exact mt List.length_eq_zero_iff.mp hfraction
    obtain ⟨value, h⟩ := takes_digits (fun _ => isDigit_of_mem_digitChars)
      fun c hc => (hhead c hc).1
    rw [List.append_assoc]
    refine (takes_peek? _).bind ((takes_advance _ _).bind (h.bind ?_))
    change (if (digitChars numeral.fraction).length = 0 then _ else _ : Reader Unit).Takes _ _ _
    rw [if_neg hcount]
    exact (takes_peek? _).bind hpower

theorem endsDigits_tail (numeral : Numeral) (hrest : EndsValue rest) :
    EndsDigits (numeral.tail ++ rest) := by
  unfold Numeral.tail
  split
  · exact fun c hc => (head_power numeral hrest c hc).1
  · exact .cons (by decide) _

/-- Skips a number behind its sign. -/
def skipMagnitude : Reader Unit := do
  match ← peek? with
  | none => fault .invalidNumber
  | some '0' =>
    advance
    match ← peek? with
    | some c => if c.isDigit then faultAhead .invalidNumber else skipAfterInteger
    | none => skipAfterInteger
  | some c =>
    if c.isDigit then
      let _ ← Reader.digits
      skipAfterInteger
    else faultAhead .invalidNumber

theorem skipNumber_eq : skipNumber = (do
    let next ← peek?
    if next = some '-' then
      advance
      skipMagnitude
    else skipMagnitude) := rfl

theorem takes_skipMagnitude (numeral : Numeral) (hrest : EndsValue rest) :
    skipMagnitude.Takes (Nat.toDigits 10 numeral.whole ++ (numeral.tail ++ rest)) () rest := by
  have htail := takes_skipAfterInteger numeral hrest
  have hends := endsDigits_tail numeral hrest
  refine (takes_peek? _).bind ?_
  by_cases hzero : numeral.whole = 0
  · rw [hzero]
    refine (takes_advance '0' (numeral.tail ++ rest)).bind ((takes_peek? _).bind ?_)
    generalize numeral.tail ++ rest = after at htail hends
    cases after with
    | nil => exact htail
    | cons c after =>
      simp only [List.head?_cons, hends c rfl]
      exact htail
  · have hdigits : ∀ c ∈ Nat.toDigits 10 numeral.whole, c.isDigit = true :=
      fun _ => isDigit_of_mem_toDigits
    obtain ⟨value, h⟩ := takes_digits hdigits hends
    obtain ⟨c, cs, heq, hc, hdigit⟩ := exists_toDigits hzero
    have hhead : (Nat.toDigits 10 numeral.whole ++ (numeral.tail ++ rest)).head? = some c := by
      rw [heq]
      rfl
    rw [hhead]
    simp only [hdigit, if_true]
    exact h.bind htail

theorem takes_skipNumber (numeral : Numeral) (hrest : EndsValue rest) :
    skipNumber.Takes (numeral.text ++ rest) () rest := by
  have hmagnitude := takes_skipMagnitude numeral hrest
  rw [Numeral.text, List.append_assoc, List.append_assoc, skipNumber_eq]
  refine (takes_peek? _).bind ?_
  cases numeral.isNegative with
  | true => exact (takes_advance '-' _).bind hmagnitude
  | false =>
    have hplain : (Nat.toDigits 10 numeral.whole ++ (numeral.tail ++ rest)).head? ≠ some '-' := by
      obtain ⟨c, cs, heq⟩ := List.exists_cons_of_ne_nil (Nat.toDigits_ne_nil (n := numeral.whole))
      have hdigit : c.isDigit = true :=
        isDigit_of_mem_toDigits (heq ▸ List.mem_cons_self)
      rw [heq]
      rintro ⟨⟩
      exact absurd hdigit (by decide)
    change (if (Nat.toDigits 10 numeral.whole ++ (numeral.tail ++ rest)).head? = some '-' then _
      else _ : Reader Unit).Takes _ _ _
    rw [if_neg hplain]
    exact hmagnitude

end Reader

end NativeBindings.Json
