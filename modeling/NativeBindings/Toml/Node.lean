import NativeBindings.Text.Pieces

/-!
# TOML values

Values and tables of a TOML document, with the stretches of text that they come from. Entries keep
the order in which they were made. A table remembers how it came about, since that decides what may
still be added to it.

A scanner takes characters off a text or fails. Failures need no position: a malformed document is
refused as a whole.
-/

namespace NativeBindings.Toml

open Text (Span)

/-- How a table came about. -/
inductive TableOrigin where
  /-- By its own header. -/
  | header
  /-- By a header of a table inside it. -/
  | implied
  /-- By a key with dots. -/
  | dotted
  /-- Written inline. -/
  | inline
  /-- By a key with dots in an inline table. -/
  | inlineDotted
deriving DecidableEq, Repr

/-- One part of a key. -/
structure Key where
  name : String
  span : Span
deriving DecidableEq, Repr

/-- A table of one kind of nodes, which has no stretch of its own if it came about by other
tables. -/
structure Member (ν : Type) where
  span : Option Span
  entries : List (Key × ν)
deriving Repr

/-- Forms of values over one kind of nodes. -/
inductive Form (ν : Type) where
  | string (value : String)
  | integer (value : Int)
  /-- A number that is no integer, as messages show it. -/
  | floating (text : String)
  | boolean (value : Bool)
  /-- A date, a time or both, in normal form. -/
  | datetime (text : String)
  | array (values : List ν)
  | table (origin : TableOrigin) (entries : List (Key × ν))
  /-- Tables with double brackets under one name. -/
  | tables (members : List (Member ν))
deriving Repr

/-- What stands under a key, and where it is written. Tables that came about by other tables or by
keys with dots are written nowhere. -/
inductive Node where
  | mk (span : Option Span) (form : Form Node)

instance : Inhabited Node := ⟨⟨none, .boolean false⟩⟩

abbrev Table := List (Key × Node)

namespace Node

def span : Node → Option Span
  | ⟨span, _⟩ => span

def form : Node → Form Node
  | ⟨_, form⟩ => form

/-- A table that is written nowhere. -/
def unwritten (origin : TableOrigin) (entries : Table) : Node := ⟨none, .table origin entries⟩

/-- What kind of value a node is, in words. -/
def kindName (node : Node) : String :=
  match node.form with
  | .string _ => "string"
  | .integer _ => "integer"
  | .floating _ => "float"
  | .boolean _ => "boolean"
  | .datetime _ => "datetime"
  | .array _ => "array"
  | .table .inline _ => "inline table"
  | .table .inlineDotted _ => "inline table"
  | .table _ _ => "table"
  | .tables _ => "array of tables"

end Node

namespace Table

def form? (name : String) (table : Table) : Option (Form Node) :=
  (List.find? (·.1.name == name) table).map (·.2.form)

/-- Changes what stands under a key, or makes an entry at the end. -/
def modify (key : Key) (change : Option Node → Option Node) : Table → Option Table
  | [] => (change none).map fun node => [(key, node)]
  | (made, node) :: rest =>
    if made.name = key.name then (change (some node)).map fun node => (made, node) :: rest
    else (modify key change rest).map ((made, node) :: ·)

/-- Makes an entry under a key that has none. -/
def insertNew (key : Key) (node : Node) (table : Table) : Option Table :=
  table.modify key fun
    | none => some node
    | some _ => none

def erase (name : String) (table : Table) : Table := List.filter (·.1.name ≠ name) table

end Table

abbrev Scan := StateT (List Char) Option

namespace Scan

def peek? : Scan (Option Char) := fun cs => some (cs.head?, cs)

def rest : Scan (List Char) := fun cs => some (cs, cs)

/-- The number of characters that are left; it bounds every loop. -/
def remaining : Scan Nat := fun cs => some (cs.length, cs)

/-- The stretch of text that a scanner takes off. -/
def spanned {α : Type} (scan : Scan α) : Scan (α × Span) := do
  let left ← remaining
  let value ← scan
  return (value, ⟨left, ← remaining⟩)

def next : Scan Char
  | [] => none
  | c :: cs => some (c, cs)

def drop (count : Nat) : Scan Unit := fun cs => some ((), cs.drop count)

/-- Takes the characters off that satisfy a condition. -/
def takeWhile (keep : Char → Bool) : Scan (List Char) := fun cs =>
  some (cs.takeWhile keep, cs.dropWhile keep)

def expect (c : Char) : Scan Unit := do
  if (← next) = c then pure () else failure

/-- Takes a known word off, if it comes next. -/
def skipWord? (word : List Char) : Scan Bool := do
  if word.isPrefixOf (← rest) then
    drop word.length
    pure true
  else pure false

def word (w : List Char) : Scan Unit := do
  if ← skipWord? w then pure () else failure

/-- A blank within a line. -/
def isLineBlank (c : Char) : Bool := c == ' ' || c == '\t'

def blanks : Scan Unit := do
  let _ ← takeWhile isLineBlank

/-- Takes the end of a line off, if it comes next. -/
def skipNewline? : Scan Bool := do
  if ← skipWord? ['\n'] then pure true else skipWord? ['\r', '\n']

/-- May stand in a comment: anything but control characters. -/
def isCommentChar (c : Char) : Bool := c == '\t' || (0x20 ≤ c.toNat && c.toNat ≠ 0x7F)

def comment : Scan Unit := do
  if (← peek?) = some '#' then
    let _ ← takeWhile isCommentChar

/-- Skips blanks and a comment, up to the end of the line or of the text. -/
def lineEnd : Scan Unit := do
  blanks
  comment
  if (← peek?).isSome then
    if ← skipNewline? then pure () else failure

/-- Skips blanks, comments and ends of lines. -/
def blankLines : Nat → Scan Unit
  | 0 => pure ()
  | bound + 1 => do
    blanks
    if (← peek?) = some '#' then
      comment
      if ← skipNewline? then blankLines bound
      else if (← peek?).isSome then failure
    else if ← skipNewline? then blankLines bound
    else pure ()

def fixedDigits (count : Nat) : Scan Nat := do
  let digits := (← rest).take count
  if digits.length = count ∧ digits.all (·.isDigit) then
    drop count
    pure (digits.foldl (fun value c => 10 * value + (c.toNat - '0'.toNat)) 0)
  else failure

end Scan

end NativeBindings.Toml
