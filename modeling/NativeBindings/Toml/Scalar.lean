import NativeBindings.Decimal.Shortest
import NativeBindings.Toml.Node

/-!
# TOML strings, numbers and dates

Strings in double quotes know escapes, strings in single quotes do not. Between triple quotes a
string may run over several lines; each end of a line in it is one line feed. Integers have 64 bits
and four bases; underscores may stand between the digits of a number.
-/

namespace NativeBindings.Toml.Scan

def hexDigit? (c : Char) : Option Nat :=
  if c.isDigit then some (c.toNat - '0'.toNat)
  else if 'a' ≤ c ∧ c ≤ 'f' then some (c.toNat - 'a'.toNat + 10)
  else if 'A' ≤ c ∧ c ≤ 'F' then some (c.toNat - 'A'.toNat + 10)
  else none

/-- Reads a character by a code of so many digits. -/
def codedChar (count : Nat) : Scan Char := do
  let digits := (← rest).take count
  match digits.foldlM (fun value c => (hexDigit? c).map (16 * value + ·)) 0 with
  | none => failure
  | some code =>
    if digits.length = count ∧ code.isValidChar then
      drop count
      pure (Char.ofNat code)
    else failure

def escape : Scan Char := do
  match ← next with
  | 'b' => pure '\x08'
  | 't' => pure '\t'
  | 'n' => pure '\n'
  | 'f' => pure '\x0c'
  | 'r' => pure '\r'
  | '"' => pure '"'
  | '\\' => pure '\\'
  | 'u' => codedChar 4
  | 'U' => codedChar 8
  | _ => failure

/-- Reads a string in double quotes from behind its opening quote on. -/
def basicBody (before : List Char) : Nat → Scan String
  | 0 => failure
  | bound + 1 => do
    match ← next with
    | '"' => pure (String.ofList before.reverse)
    | '\\' => basicBody ((← escape) :: before) bound
    | c => if isCommentChar c then basicBody (c :: before) bound else failure

def literalBody (before : List Char) : Nat → Scan String
  | 0 => failure
  | bound + 1 => do
    match ← next with
    | '\'' => pure (String.ofList before.reverse)
    | c => if isCommentChar c then literalBody (c :: before) bound else failure

/-- Skips blanks and ends of lines, from the first end of a line on. -/
def foldedLines : Nat → Scan Unit
  | 0 => pure ()
  | bound + 1 => do
    blanks
    if ← skipNewline? then foldedLines bound

/-- Reads the quotes that close a string over several lines; up to two more belong to it. -/
def closingQuotes (quote : Char) (before : List Char) : Scan (Option (List Char)) := do
  let quotes := (← rest).takeWhile (· == quote)
  if quotes.length < 3 then pure none
  else
    let inside := min (quotes.length - 3) 2
    drop (inside + 3)
    pure (some (List.replicate inside quote ++ before))

/-- Reads a string over several lines from behind its opening quotes on; only between double quotes
are there escapes, and a backslash at the end of a line joins it with the next one. -/
def multilineBody (quote : Char) (before : List Char) : Nat → Scan String
  | 0 => failure
  | bound + 1 => do
    match ← closingQuotes quote before with
    | some whole => pure (String.ofList whole.reverse)
    | none =>
      if ← skipNewline? then multilineBody quote ('\n' :: before) bound
      else
        let c ← next
        if c = '\\' ∧ quote = '"' then
          let folded := (← rest).dropWhile isLineBlank
          if folded.head? = some '\n' ∨ ['\r', '\n'].isPrefixOf folded then
            foldedLines (← remaining)
            multilineBody quote before bound
          else multilineBody quote ((← escape) :: before) bound
        else if isCommentChar c then multilineBody quote (c :: before) bound
        else failure

def multiline (quote : Char) : Scan String := do
  drop 3
  let _ ← skipNewline?
  multilineBody quote [] ((← remaining) + 1)

def singleLine (quote : Char) : Scan String := do
  expect quote
  let bound := (← remaining) + 1
  if quote = '"' then basicBody [] bound else literalBody [] bound

def string (quote : Char) : Scan String := do
  if [quote, quote, quote].isPrefixOf (← rest) then multiline quote else singleLine quote

/-- May stand in a key without quotes. -/
def isBareKeyChar (c : Char) : Bool := c.isAlphanum || c == '-' || c == '_'

def keyName : Scan String := do
  match ← peek? with
  | some '"' => singleLine '"'
  | some '\'' => singleLine '\''
  | _ =>
    let cs ← takeWhile isBareKeyChar
    if cs.isEmpty then failure else pure (String.ofList cs)

def simpleKey : Scan Key := do
  let (name, span) ← spanned keyName
  return ⟨name, span⟩

/-- Parts that a key may have. -/
def keyLimit : Nat := 79

/-- Reads the parts of a key with dots between them, at most so many. -/
def keyParts : Nat → Scan (List Key)
  | 0 => failure
  | bound + 1 => do
    blanks
    let part ← simpleKey
    blanks
    if (← peek?) = some '.' then
      expect '.'
      return part :: (← keyParts bound)
    else pure [part]

def key : Scan (List Key) := keyParts keyLimit

/-- Reads digits with single underscores between them, behind those already read. The digits come
without the underscores. -/
def separatedDigits (isDigit : Char → Bool) (before : List Char) : Nat → Scan (List Char)
  | 0 => pure before.reverse
  | bound + 1 => do
    match ← rest with
    | '_' :: c :: _ =>
      if before.isEmpty || !isDigit c then failure
      else
        drop 2
        separatedDigits isDigit (c :: before) bound
    | c :: _ =>
      if isDigit c then
        drop 1
        separatedDigits isDigit (c :: before) bound
      else if c = '_' then failure
      else pure before.reverse
    | [] => pure before.reverse

def someDigits (isDigit : Char → Bool) : Scan (List Char) := do
  let digits ← separatedDigits isDigit [] (← remaining)
  if digits.isEmpty then failure else pure digits

def valueOf (base : Nat) (digits : List Char) : Nat :=
  digits.foldl (fun value c => base * value + (hexDigit? c).getD 0) 0

/-- An integer, if 64 bits are enough for it. -/
def integerForm (value : Int) : Scan (Form Node) :=
  if Int64.minValue.toInt ≤ value ∧ value ≤ Int64.maxValue.toInt then pure (.integer value)
  else failure

/-- Reads an integer in a base other than ten, behind its mark. -/
def basedInteger (base : Nat) : Scan (Form Node) := do
  drop 2
  let digits ← someDigits fun c => (hexDigit? c).any (· < base)
  integerForm (valueOf base digits)

/-- Reads decimal digits, of which a zero in front must be the only one. -/
def integralDigits : Scan (List Char) := do
  match ← peek? with
  | some '0' =>
    drop 1
    pure ['0']
  | _ => someDigits (·.isDigit)

def exponent? : Scan (Option Int) := do
  match ← peek? with
  | some c =>
    if c = 'e' ∨ c = 'E' then
      drop 1
      let sign ← peek?
      if sign = some '+' ∨ sign = some '-' then drop 1
      let power : Int := valueOf 10 (← someDigits (·.isDigit))
      pure (some (if sign = some '-' then -power else power))
    else pure none
  | none => pure none

/-- The floating point number of digits and an exponent. One that is too large is refused, unless it
is negative. -/
def floatingForm (isNegative : Bool) (digits : List Char) (exponent : Int) : Scan (Form Node) :=
  match Binary64.ofDecimal? (valueOf 10 digits) exponent with
  | some x => pure (.floating (x.plainText isNegative))
  | none => if isNegative then pure (.floating "-inf") else failure

/-- Reads an integer or a floating point number behind its sign. -/
def unsignedNumber (isNegative : Bool) : Scan (Form Node) := do
  let whole ← integralDigits
  if (← peek?) = some '.' then
    drop 1
    let fraction ← someDigits (·.isDigit)
    let power ← exponent?
    floatingForm isNegative (whole ++ fraction) (power.getD 0 - fraction.length)
  else
    match ← exponent? with
    | some power => floatingForm isNegative whole power
    | none =>
      let value : Int := valueOf 10 whole
      integerForm (if isNegative then -value else value)

def number : Scan (Form Node) := do
  match ← rest with
  | '0' :: 'x' :: _ => basedInteger 16
  | '0' :: 'o' :: _ => basedInteger 8
  | '0' :: 'b' :: _ => basedInteger 2
  | c :: _ =>
    let signed := c = '+' ∨ c = '-'
    if signed then drop 1
    if ← skipWord? "inf".toList then pure (.floating (if c = '-' then "-inf" else "inf"))
    else if ← skipWord? "nan".toList then pure (.floating "NaN")
    else unsignedNumber (c = '-')
  | [] => failure

def daysOfMonth (year month : Nat) : Nat :=
  if month = 2 then
    if (year % 4 = 0 ∧ year % 100 ≠ 0) ∨ year % 400 = 0 then 29 else 28
  else if month = 4 ∨ month = 6 ∨ month = 9 ∨ month = 11 then 30
  else 31

def padded (width value : Nat) : String :=
  let digits := Nat.toDigits 10 value
  String.ofList (List.replicate (width - digits.length) '0' ++ digits)

/-- Reads a number of two digits up to a limit. -/
def twoDigits (limit : Nat) : Scan Nat := do
  let value ← fixedDigits 2
  if value ≤ limit then pure value else failure

def date : Scan String := do
  let year ← fixedDigits 4
  expect '-'
  let month ← twoDigits 12
  expect '-'
  let day ← twoDigits 31
  if month = 0 ∨ day = 0 ∨ daysOfMonth year month < day then failure
  else pure (padded 4 year ++ "-" ++ padded 2 month ++ "-" ++ padded 2 day)

/-- Reads a fraction of a second if there is one. Nine places count, and zeros at the end do not. -/
def secondFraction : Scan String := do
  if (← peek?) = some '.' then
    drop 1
    let digits ← takeWhile (·.isDigit)
    if digits.isEmpty then failure
    else
      let counted := ((digits.take 9).reverse.dropWhile (· == '0')).reverse
      pure (if counted.isEmpty then "" else "." ++ String.ofList counted)
  else pure ""

def time : Scan String := do
  let hour ← twoDigits 23
  expect ':'
  let minute ← twoDigits 59
  expect ':'
  let second ← twoDigits 60
  let fraction ← secondFraction
  pure (padded 2 hour ++ ":" ++ padded 2 minute ++ ":" ++ padded 2 second ++ fraction)

/-- Reads a distance from universal time if there is one. -/
def offset : Scan String := do
  match ← peek? with
  | some 'Z' | some 'z' =>
    drop 1
    pure "Z"
  | some c =>
    if c = '+' ∨ c = '-' then
      drop 1
      let hour ← twoDigits 23
      expect ':'
      let minute ← twoDigits 59
      let sign := if c = '-' ∧ (hour ≠ 0 ∨ minute ≠ 0) then "-" else "+"
      pure (sign ++ padded 2 hour ++ ":" ++ padded 2 minute)
    else pure ""
  | none => pure ""

/-- The text starts with so many digits and a mark behind them. -/
def digitsBefore (count : Nat) (mark : Char) (cs : List Char) : Bool :=
  (cs.take count).length == count && (cs.take count).all (·.isDigit) &&
    (cs.drop count).head? == some mark

/-- Reads a date, and the time that follows it. -/
def dateTime : Scan (Form Node) := do
  let day ← date
  match ← rest with
  | c :: cs =>
    if (c = 'T' ∨ c = 't' ∨ c = ' ') ∧ digitsBefore 2 ':' cs then
      drop 1
      let clock ← time
      return .datetime (day ++ "T" ++ clock ++ (← offset))
    else pure (.datetime day)
  | [] => pure (.datetime day)

def numeric : Scan (Form Node) := do
  let cs ← rest
  if digitsBefore 4 '-' cs then dateTime
  else if digitsBefore 2 ':' cs then return .datetime (← time)
  else number

end NativeBindings.Toml.Scan
