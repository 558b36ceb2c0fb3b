import NativeBindings.Text.Quoted

/-!
# Reading JSON text

A reader takes characters off a text and either returns what it read or stops at a fault: the text
is not JSON, or a value is not what its place asks for. Every fault has a position, the line,
counted from one, and the bytes of it that had been read. It is placed where reading stands, or one
byte further on when it is about the next character.
-/

namespace NativeBindings.Json

open Text

/-- A value as messages about its kind show it. -/
inductive Shown where
  | null
  | boolean (value : Bool)
  | integer (value : Int)
  /-- A number that is no integer, already written out. -/
  | floating (text : String)
  | string (value : String)
  | sequence
  | map
deriving DecidableEq, Repr

def Shown.text : Shown → String
  | null => "null"
  | boolean value => "boolean `" ++ toString value ++ "`"
  | integer value => "integer `" ++ toString value ++ "`"
  | floating text => "floating point `" ++ text ++ "`"
  | string value => "string " ++ quoted value
  | sequence => "sequence"
  | map => "map"

inductive FaultKind where
  | endInValue
  | endInObject
  | endInList
  | endInString
  | expectedValue
  | expectedIdent
  | expectedColon
  | expectedCommaOrBrace
  | expectedCommaOrBracket
  | keyNotString
  | trailingComma
  | trailingCharacters
  | invalidNumber
  | numberOutOfRange
  | invalidEscape
  | controlCharacter
  | loneSurrogate
  | endOfHexEscape
  | recursionLimit
  | missingField (field : String)
  | duplicateField (field : String)
  | invalidType (found : Shown) (expected : String)
  | invalidInteger (found : Int) (expected : String)
  | unknownVariant (found expected : String)
  | invalidLength (length : Nat) (expected : String)
deriving DecidableEq, Repr

def FaultKind.text : FaultKind → String
  | endInValue => "EOF while parsing a value"
  | endInObject => "EOF while parsing an object"
  | endInList => "EOF while parsing a list"
  | endInString => "EOF while parsing a string"
  | expectedValue => "expected value"
  | expectedIdent => "expected ident"
  | expectedColon => "expected `:`"
  | expectedCommaOrBrace => "expected `,` or `\x7d`"
  | expectedCommaOrBracket => "expected `,` or `]`"
  | keyNotString => "key must be a string"
  | trailingComma => "trailing comma"
  | trailingCharacters => "trailing characters"
  | invalidNumber => "invalid number"
  | numberOutOfRange => "number out of range"
  | invalidEscape => "invalid escape"
  | controlCharacter => "control character (\\u0000-\\u001F) found while parsing a string"
  | loneSurrogate => "lone leading surrogate in hex escape"
  | endOfHexEscape => "unexpected end of hex escape"
  | recursionLimit => "recursion limit exceeded"
  | missingField field => "missing field `" ++ field ++ "`"
  | duplicateField field => "duplicate field `" ++ field ++ "`"
  | invalidType found expected => "invalid type: " ++ found.text ++ ", expected " ++ expected
  | invalidInteger found expected =>
    "invalid value: integer `" ++ toString found ++ "`, expected " ++ expected
  | unknownVariant found expected =>
    "unknown variant `" ++ found ++ "`, expected " ++ expected
  | invalidLength length expected =>
    "invalid length " ++ toString length ++ ", expected " ++ expected

structure Position where
  line : Nat
  column : Nat
deriving DecidableEq, Repr, Inhabited

structure Fault where
  kind : FaultKind
  position : Position
deriving DecidableEq, Repr

def Fault.message (fault : Fault) : String :=
  fault.kind.text ++ " at line " ++ toString fault.position.line ++ " column " ++
    toString fault.position.column

/-- What is left of a text, and where it starts. -/
structure Cursor where
  rest : List Char
  position : Position
deriving Repr

/-- Takes characters off a text. -/
abbrev Reader := StateT Cursor (Except Fault)

namespace Position

def start : Position := ⟨1, 0⟩

/-- The position behind a character. Columns count bytes. -/
def after (position : Position) (c : Char) : Position :=
  if c = '\n' then ⟨position.line + 1, 0⟩ else ⟨position.line, position.column + c.utf8Size⟩

/-- The position some bytes into a text; it may lie inside a character. -/
def ahead (position : Position) (bytes : Nat) : List Char → Position
  | [] => position
  | c :: cs =>
    if bytes = 0 then position
    else if c.utf8Size ≤ bytes then (position.after c).ahead (bytes - c.utf8Size) cs
    else ⟨position.line, position.column + bytes⟩

end Position

/-- Blanks between the tokens of JSON. -/
def isJsonBlank (c : Char) : Bool := c == ' ' || c == '\n' || c == '\t' || c == '\r'

namespace Cursor

def ofText (text : String) : Cursor := ⟨text.toList, .start⟩

/-- The place some bytes further on. -/
def ahead (cursor : Cursor) (bytes : Nat) : Position := cursor.position.ahead bytes cursor.rest

def pastBlanks (position : Position) : List Char → Cursor
  | [] => ⟨[], position⟩
  | c :: cs => if isJsonBlank c then pastBlanks (position.after c) cs else ⟨c :: cs, position⟩

end Cursor

namespace Reader

def fault {α : Type} (kind : FaultKind) : Reader α :=
  fun cursor => .error ⟨kind, cursor.position⟩

/-- Stops a number of bytes further on. -/
def faultPast {α : Type} (bytes : Nat) (kind : FaultKind) : Reader α :=
  fun cursor => .error ⟨kind, cursor.ahead bytes⟩

def faultAhead {α : Type} (kind : FaultKind) : Reader α := faultPast 1 kind

/-- The next character, which stays. -/
def peek? : Reader (Option Char) := fun cursor => .ok (cursor.rest.head?, cursor)

def advance : Reader Unit := fun cursor =>
  match cursor.rest with
  | [] => .ok ((), cursor)
  | c :: cs => .ok ((), ⟨cs, cursor.position.after c⟩)

/-- The number of characters that are left; it bounds every loop of a reader. -/
def remaining : Reader Nat := fun cursor => .ok (cursor.rest.length, cursor)

/-- Skips blanks and looks at the character behind them. -/
def peekToken? : Reader (Option Char) := fun cursor =>
  let cursor := Cursor.pastBlanks cursor.position cursor.rest
  .ok (cursor.rest.head?, cursor)

def word : List Char → Reader Unit
  | [] => pure ()
  | w :: ws => do
    match ← peek? with
    | none => fault .endInValue
    | some c => if c = w then advance; word ws else faultAhead .expectedIdent

/-- Reads digits as a number, behind the digits already read. -/
def digitsFrom (value count : Nat) : Nat → Reader (Nat × Nat)
  | 0 => pure (value, count)
  | bound + 1 => do
    match ← peek? with
    | some c =>
      if c.isDigit then
        advance
        digitsFrom (10 * value + (c.toNat - '0'.toNat)) (count + 1) bound
      else pure (value, count)
    | none => pure (value, count)

def digits : Reader (Nat × Nat) := do digitsFrom 0 0 (← remaining)

/-- Runs a reader on a whole text, with only blanks behind what it reads. -/
def run {α : Type} (reader : Reader α) (text : String) : Except Fault α :=
  let whole : Reader α := do
    let value ← reader
    match ← peekToken? with
    | none => pure value
    | some _ => faultAhead .trailingCharacters
  (StateT.run whole (.ofText text)).map (·.1)

end Reader

end NativeBindings.Json
