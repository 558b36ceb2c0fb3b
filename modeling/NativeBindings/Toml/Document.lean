import NativeBindings.Toml.Scalar

/-!
# TOML documents

A document is a sequence of headers and entries. They are read one by one, and then put together
into one table. A table has at most one header of its own; it is entered once it is complete. Arrays
may run over several lines, inline tables may not, and both may be nested only to a limited depth.
-/

namespace NativeBindings.Toml

open Text (Span)

/-- Makes an entry of an inline table under a key with dots. Tables on the way must have come about
by such keys. -/
def Table.insertInline (node : Node) : List Key → Table → Option Table
  | [], _ => none
  | [key], table => table.insertNew key node
  | key :: inner, table =>
    table.modify key fun
      | none => (insertInline node inner []).map (.unwritten .inlineDotted ·)
      | some ⟨_, .table .inlineDotted entries⟩ =>
        (insertInline node inner entries).map (.unwritten .inlineDotted ·)
      | some _ => none

namespace Scan

def arrayValues (value : Scan Node) : Nat → Scan (List Node)
  | 0 => failure
  | bound + 1 => do
    blankLines (← remaining)
    if ← skipWord? [']'] then pure []
    else
      let first ← value
      blankLines (← remaining)
      if ← skipWord? [','] then return first :: (← arrayValues value bound)
      else
        expect ']'
        pure [first]

/-- Reads the entries of an inline table, at least one, up to its closing brace. -/
def inlineEntries (value : Scan Node) (table : Table) : Nat → Scan Table
  | 0 => failure
  | bound + 1 => do
    let path ← key
    expect '='
    blanks
    let node ← value
    blanks
    match table.insertInline node path with
    | none => failure
    | some table =>
      if ← skipWord? [','] then inlineEntries value table bound
      else
        expect '\x7d'
        pure table

/-- Levels of arrays and inline tables that a value may have. -/
def valueLimit : Nat := 79

def simpleForm : Scan (Form Node) := do
  match ← peek? with
  | some '"' => return .string (← string '"')
  | some '\'' => return .string (← string '\'')
  | some 't' =>
    word "true".toList
    pure (.boolean true)
  | some 'f' =>
    word "false".toList
    pure (.boolean false)
  | some 'i' =>
    word "inf".toList
    pure (.floating "inf")
  | some 'n' =>
    word "nan".toList
    pure (.floating "NaN")
  | some c => if c = '+' ∨ c = '-' ∨ c.isDigit then numeric else failure
  | none => failure

/-- Reads a value whose parts are read by `inner`. -/
def form (inner : Scan Node) : Scan (Form Node) := do
  match ← peek? with
  | some '[' =>
    drop 1
    return .array (← arrayValues inner ((← remaining) + 1))
  | some '{' =>
    drop 1
    blanks
    if ← skipWord? ['\x7d'] then pure (.table .inline [])
    else return .table .inline (← inlineEntries inner [] ((← remaining) + 1))
  | _ => simpleForm

def written (scan : Scan (Form Node)) : Scan Node := do
  let (form, span) ← spanned scan
  return ⟨some span, form⟩

/-- Reads a value with at most so many levels of arrays and inline tables. -/
def value : (levels : Nat) → Scan Node
  | 0 => written simpleForm
  | inner + 1 => written (form (value inner))

end Scan

/-- One line of a document that says something. A header has a stretch of text, brackets and all. -/
inductive Statement where
  | header (path : List Key) (span : Span)
  | arrayHeader (path : List Key) (span : Span)
  | entry (path : List Key) (value : Node)

namespace Scan

def bracketed (opening closing : List Char) : Scan (List Key) := do
  word opening
  let path ← key
  word closing
  pure path

def statement : Scan Statement := do
  let cs ← rest
  if ['[', '['].isPrefixOf cs then
    let (path, span) ← spanned (bracketed ['[', '['] [']', ']'])
    pure (.arrayHeader path span)
  else if ['['].isPrefixOf cs then
    let (path, span) ← spanned (bracketed ['['] [']'])
    pure (.header path span)
  else
    let path ← key
    expect '='
    blanks
    return .entry path (← value valueLimit)

def statements : Nat → Scan (List Statement)
  | 0 => failure
  | bound + 1 => do
    blankLines (← remaining)
    if (← peek?).isNone then pure []
    else
      let first ← statement
      lineEnd
      return first :: (← statements bound)

end Scan

namespace Table

/-- Follows a path through tables and changes the table at its end, which is also told whether it
came about by a key with dots. Missing tables are made. With `dotted` the path belongs to a key with
dots, which cannot reach into a table that has a header. -/
def modifyAt (dotted : Bool) (change : (isDotted : Bool) → Table → Option Table) :
    List Key → (isDotted : Bool) → Table → Option Table
  | [], isDotted, table => change isDotted table
  | key :: rest, _, table =>
    table.modify key fun
      | none =>
        (modifyAt dotted change rest dotted []).map
          (.unwritten (if dotted then .dotted else .implied) ·)
      | some ⟨span, .table origin entries⟩ =>
        if origin = .inline ∨ origin = .inlineDotted ∨ (dotted ∧ origin = .header) then none
        else
          (modifyAt dotted change rest (origin = .dotted) entries).map fun entries =>
            ⟨span, .table origin entries⟩
      | some ⟨span, .tables members⟩ =>
        match members.getLast? with
        | none => none
        | some last =>
          (modifyAt dotted change rest false last.entries).map fun entries =>
            ⟨span, .tables (members.dropLast ++ [{ last with entries }])⟩
      | some _ => none

end Table

/-- A document half put together: the finished part, and the table whose entries are being read. -/
structure Assembly where
  finished : Table
  current : Table
  path : List Key
  /-- From the header of the current table to its last value. -/
  span : Span
  /-- The current table is one of several under one name. -/
  isMember : Bool

namespace Assembly

def start : Assembly := ⟨[], [], [], ⟨0, 0⟩, false⟩

/-- Members of one name as a node, which reaches from the first to the last of them. -/
def memberNode (members : List (Member Node)) : Node :=
  let span := do
    let first ← (← members.head?).span
    let last ← (← members.getLast?).span
    return first.to last
  ⟨span, .tables members⟩

def finish (a : Assembly) : Option Table :=
  match a.path.getLast? with
  | none => some a.current
  | some key =>
    let enter (_ : Bool) (parent : Table) : Option Table :=
      if a.isMember then
        parent.modify key fun
          | none => some (memberNode [⟨some a.span, a.current⟩])
          | some ⟨_, .tables members⟩ =>
            some (memberNode (members ++ [⟨some a.span, a.current⟩]))
          | some _ => none
      else parent.insertNew key ⟨some a.span, .table .header a.current⟩
    a.finished.modifyAt false enter a.path.dropLast false

/-- The entries of the table at a path, of the last member where there are several. -/
def entriesAt : List Key → Table → Table
  | [], table => table
  | key :: inner, table =>
    match table.form? key.name with
    | some (.table _ entries) => entriesAt inner entries
    | some (.tables members) => entriesAt inner ((members.getLast?.map (·.entries)).getD [])
    | _ => []

/-- Starts a table by its header. Tables that headers have made inside it stay in it. -/
def startTable (path : List Key) (span : Span) (finished : Table) : Option Assembly := do
  let key ← path.getLast?
  let parent (_ : Bool) (table : Table) : Option Table :=
    match table.form? key.name with
    | none => some table
    | some (.table .implied _) => some (table.erase key.name)
    | some _ => none
  let made ← finished.modifyAt false (fun _ table => some table) path.dropLast false
  let rest ← made.modifyAt false parent path.dropLast false
  return ⟨rest, entriesAt path made, path, span, false⟩

/-- Starts one more table under a name with double brackets. -/
def startMember (path : List Key) (span : Span) (finished : Table) : Option Assembly := do
  let key ← path.getLast?
  let parent (_ : Bool) (table : Table) : Option Table :=
    table.modify key fun
      | none => some (memberNode [])
      | some ⟨span, .tables members⟩ => some ⟨span, .tables members⟩
      | some _ => none
  let finished ← finished.modifyAt false parent path.dropLast false
  return ⟨finished, [], path, span, true⟩

/-- Makes an entry of the current table. Tables on the way to it must have come about by keys with
dots, at least the last one. -/
def addEntry (path : List Key) (node : Node) (a : Assembly) : Option Assembly := do
  let key ← path.getLast?
  let enter (isDotted : Bool) (table : Table) : Option Table :=
    if path.length > 1 && !isDotted then none else table.insertNew key node
  let current ← a.current.modifyAt true enter path.dropLast false
  return { a with current, span := (node.span.map a.span.to).getD a.span }

def step (a : Assembly) : Statement → Option Assembly
  | .entry path node => a.addEntry path node
  | .header path span => do startTable path span (← a.finish)
  | .arrayHeader path span => do startMember path span (← a.finish)

end Assembly

def Table.ofStatements (statements : List Statement) : Option Table := do
  (← statements.foldlM Assembly.step .start).finish

/-- The table of a document; nothing if the document is malformed. -/
def Table.ofText? (text : String) : Option Table := do
  let cs := text.toList
  let cs := if cs.head? = some '\ufeff' then cs.drop 1 else cs
  let (statements, _) ← (Scan.statements (cs.length + 1)).run cs
  Table.ofStatements statements

end NativeBindings.Toml
