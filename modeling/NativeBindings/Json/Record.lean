import NativeBindings.Json.Number
import NativeBindings.Json.String

/-!
# Reading typed JSON values

Readers for values of a known kind. A record is an object with named fields or a list of its fields
in order. Lists and objects may be nested only to a limited depth, which each reader is given as the
number of levels that are left. Values that nobody asks for are skipped. They must be well formed,
but they may be nested to any depth, and their numbers may have any size.
-/

namespace NativeBindings.Json.Reader

/-- Takes the colon between a key and its value. -/
def colon : Reader Unit := do
  match ← peekToken? with
  | some ':' => advance
  | some _ => faultAhead .expectedColon
  | none => faultAhead .endInObject

mutual

def skipValueWithin : Nat → Reader Unit
  | 0 => faultAhead .endInValue
  | bound + 1 => do
    match ← peekToken? with
    | none => faultAhead .endInValue
    | some 'n' => word "null".toList
    | some 't' => word "true".toList
    | some 'f' => word "false".toList
    | some '"' => skipString
    | some '[' =>
      advance
      skipElements true bound
    | some '{' =>
      advance
      skipMembers true bound
    | some c => if c = '-' ∨ c.isDigit then skipNumber else faultAhead .expectedValue

def skipElements (first : Bool) : Nat → Reader Unit
  | 0 => faultAhead .endInList
  | bound + 1 => do
    match ← peekToken? with
    | none => faultAhead .endInList
    | some ']' => advance
    | some c =>
      if first then
        skipValueWithin bound
        skipElements false bound
      else if c = ',' then
        advance
        skipValueWithin bound
        skipElements false bound
      else faultAhead .expectedCommaOrBracket

def skipMembers (first : Bool) : Nat → Reader Unit
  | 0 => faultAhead .endInObject
  | bound + 1 => do
    match ← peekToken? with
    | none => faultAhead .endInObject
    | some '}' => advance
    | some c =>
      if first then
        skipMember bound
        skipMembers false bound
      else if c = ',' then
        advance
        skipMember bound
        skipMembers false bound
      else faultAhead .expectedCommaOrBrace

def skipMember : Nat → Reader Unit
  | 0 => faultAhead .endInObject
  | bound + 1 => do
    match ← peekToken? with
    | none => faultAhead .endInObject
    | some '"' =>
      skipString
      colon
      skipValueWithin bound
    | some _ => faultAhead .keyNotString

end

/-- Skips one value; every step of the way takes at least one character off in three. -/
def skipValue : Reader Unit := do skipValueWithin (3 * (← remaining) + 3)

/-- Levels of lists and objects that a text may have. -/
def levelLimit : Nat := 127

/-- Reads a value of another kind than the one expected, and stops. Lists and objects are left where
they are. -/
def reject {α : Type} (expected : String) : Reader α := do
  let refuse (found : Shown) : Reader α := fault (.invalidType found expected)
  match ← peekToken? with
  | none => faultAhead .expectedValue
  | some 'n' =>
    word "null".toList
    refuse .null
  | some 't' =>
    word "true".toList
    refuse (.boolean true)
  | some 'f' =>
    word "false".toList
    refuse (.boolean false)
  | some '"' =>
    let value ← string
    refuse (.string value)
  | some '[' => refuse .sequence
  | some '{' => refuse .map
  | some c =>
    if c = '-' ∨ c.isDigit then
      let value ← number
      refuse value.shown
    else faultAhead .expectedValue

/-- Reads a value by its first character. -/
def valueFrom {α : Type} (expected : String) (starts : Char → Option (Reader α)) : Reader α := do
  match ← peekToken? with
  | none => faultAhead .endInValue
  | some c =>
    match starts c with
    | some reader => reader
    | none => reject expected

def stringValue (expected : String) : Reader String :=
  valueFrom expected fun c => if c = '"' then some string else none

def text : Reader String := stringValue "a string"

def boolean : Reader Bool :=
  valueFrom "a boolean" fun
    | 't' => some do
      word "true".toList
      pure true
    | 'f' => some do
      word "false".toList
      pure false
    | _ => none

def word32 : Reader UInt32 :=
  valueFrom "u32" fun c =>
    if c = '-' ∨ c.isDigit then
      some do
        match ← number with
        | .natural value =>
          if value < Nat.pow 2 32 then pure value.toUInt32 else fault (.invalidInteger value "u32")
        | .negative value => fault (.invalidInteger value "u32")
        | value => fault (.invalidType value.shown "u32")
    else none

def optional {α : Type} (value : Reader α) : Reader (Option α) := do
  match ← peekToken? with
  | some 'n' =>
    word "null".toList
    pure none
  | _ => some <$> value

/-- Takes an opening bracket and goes one level deeper. -/
def descend {α : Type} (levels : Nat) (inside : Nat → Reader α) : Reader α :=
  match levels with
  | 0 => faultAhead .recursionLimit
  | inner + 1 => do
    advance
    inside inner

def closeList : Reader Unit := do
  match ← peekToken? with
  | some ']' => advance
  | some ',' =>
    advance
    match ← peekToken? with
    | some ']' => faultAhead .trailingComma
    | _ => faultAhead .trailingCharacters
  | some _ => faultAhead .trailingCharacters
  | none => faultAhead .endInList

/-- Stops behind a closing bracket, if that comes next. -/
def faultBehind {α : Type} (closing : Char) (kind : FaultKind) : Reader α := do
  if (← peekToken?) = some closing then advance
  fault kind

/-- Goes to the next element of a list; `false` at its end. -/
def nextElement (first : Bool) : Reader Bool := do
  match ← peekToken? with
  | none => faultAhead .endInList
  | some ']' => pure false
  | some c =>
    if first then pure true
    else if c = ',' then
      advance
      match ← peekToken? with
      | some ']' => faultAhead .trailingComma
      | some _ => pure true
      | none => faultAhead .endInValue
    else faultAhead .expectedCommaOrBracket

def elements {α : Type} (element : Reader α) (first : Bool) : Nat → Reader (List α)
  | 0 => faultAhead .endInList
  | bound + 1 => do
    if ← nextElement first then
      let value ← element
      return value :: (← elements element false bound)
    else pure []

/-- Reads a list. The element reader is for one level further down. -/
def list {α : Type} (levels : Nat) (element : Reader α) : Reader (List α) :=
  valueFrom "a sequence" fun c =>
    if c = '[' then
      some <| descend levels fun _ => do
        let values ← elements element true ((← remaining) + 1)
        closeList
        pure values
    else none

/-- Goes to the next key of an object and reads it; nothing at its end. -/
def nextKey? (first : Bool) : Reader (Option String) := do
  match ← peekToken? with
  | none => faultAhead .endInObject
  | some '}' => pure none
  | some c =>
    if first then
      if c = '"' then some <$> string else faultAhead .keyNotString
    else if c = ',' then
      advance
      match ← peekToken? with
      | some '"' => some <$> string
      | some '}' => faultAhead .trailingComma
      | some _ => faultAhead .keyNotString
      | none => faultAhead .endInValue
    else faultAhead .expectedCommaOrBrace

/-- Reads the members of an object up to its end. `member` reads what follows a key into the fields
collected so far. -/
def members {σ : Type} (member : String → σ → Reader σ) (first : Bool) (fields : σ) :
    Nat → Reader σ
  | 0 => faultAhead .endInObject
  | bound + 1 => do
    match ← nextKey? first with
    | none => pure fields
    | some key => members member false (← member key fields) bound

/-- Reads the value of a field that must not have one yet. -/
def field {α : Type} (name : String) (earlier : Option α) (value : Reader α) :
    Reader (Option α) := do
  if earlier.isSome then faultBehind '}' (.duplicateField name)
  else
    colon
    some <$> value

def unknownField {σ : Type} (fields : σ) : Reader σ := do
  colon
  skipValue
  pure fields

def required {α : Type} (name : String) : Option α → Reader α
  | some value => pure value
  | none => faultBehind '}' (.missingField name)

def positional? {α : Type} (first : Bool) (value : Reader α) : Reader (Option α) := do
  if ← nextElement first then some <$> value else pure none

/-- The value of a field of a record given as a list that must be there, behind `length` others. -/
def requiredAt {α : Type} (length : Nat) (expected : String) : Option α → Reader α
  | some value => pure value
  | none => faultBehind ']' (.invalidLength length expected)

/-- Reads a record: `named` reads its fields from an object, `ordered` from a list. -/
def record {α : Type} (levels : Nat) (expected : String) (named ordered : Nat → Reader α) :
    Reader α :=
  valueFrom expected fun
    | '{' => some <| descend levels fun inner => do
      let value ← named inner
      advance
      pure value
    | '[' => some <| descend levels fun inner => do
      let value ← ordered inner
      closeList
      pure value
    | _ => none

/-- Goes to the only key of an object. -/
def onlyKey : Reader Unit := do
  match ← peekToken? with
  | some '"' => pure ()
  | some '}' => faultAhead .expectedValue
  | some _ => faultAhead .keyNotString
  | none => faultAhead .endInObject

/-- Reads one of several named choices: its name alone, or an object with the name and `null`. -/
def choice {α : Type} (levels : Nat) (expected : String) (choose? : String → Option α) :
    Reader α := do
  let named : Reader α := do
    let name ← string
    match choose? name with
    | some value => pure value
    | none => fault (.unknownVariant name expected)
  match ← peekToken? with
  | some '{' =>
    descend levels fun _ => do
      onlyKey
      let value ← named
      colon
      let () ← valueFrom "unit" fun c => if c = 'n' then some (word "null".toList) else none
      match ← peekToken? with
      | some '}' => advance
      | some _ => fault .expectedValue
      | none => fault .endInObject
      pure value
  | some '"' => named
  | some _ => faultAhead .expectedValue
  | none => faultAhead .endInValue

end NativeBindings.Json.Reader
