import NativeBindings.Json.Reader

/-!
# JSON strings

Strings with their escapes. A character beyond the first plane is escaped as a pair of surrogates,
and neither may stand alone.
-/

namespace NativeBindings.Json.Reader

def hexValue? (c : Char) : Option Nat :=
  if c.isDigit then some (c.toNat - '0'.toNat)
  else if 'a' ≤ c ∧ c ≤ 'f' then some (c.toNat - 'a'.toNat + 10)
  else if 'A' ≤ c ∧ c ≤ 'F' then some (c.toNat - 'A'.toNat + 10)
  else none

/-- Value of hexadecimal digits, the first one the highest. -/
def hexNumber? (cs : List Char) : Option Nat :=
  cs.foldlM (fun value c => (hexValue? c).map (16 * value + ·)) 0

def byteCount (cs : List Char) : Nat :=
  cs.foldr (fun c count => c.utf8Size + count) 0

/-- Reads the four digits of an escape. A fault in them is placed behind four bytes. -/
def hexEscape : Reader Nat := do
  let cursor ← get
  if byteCount cursor.rest < 4 then faultPast 4 .endInString
  else
    match hexNumber? (cursor.rest.take 4) with
    | none => faultPast 4 .invalidEscape
    | some value =>
      advance
      advance
      advance
      advance
      pure value

/-- Reads the second half of a pair of surrogates. -/
def trailingSurrogate (leading : Nat) : Reader Char := do
  match ← peek? with
  | none => fault .endInString
  | some '\\' =>
    advance
    match ← peek? with
    | none => fault .endInString
    | some 'u' =>
      advance
      let trailing ← hexEscape
      if 0xDC00 ≤ trailing ∧ trailing ≤ 0xDFFF then
        pure (Char.ofNat (0x10000 + (leading - 0xD800) * 0x400 + (trailing - 0xDC00)))
      else fault .loneSurrogate
    | some _ => faultAhead .endOfHexEscape
  | some _ => faultAhead .endOfHexEscape

/-- Reads a character by its code, in one escape or in two. -/
def unicodeEscape : Reader Char := do
  let code ← hexEscape
  if 0xDC00 ≤ code ∧ code ≤ 0xDFFF then fault .loneSurrogate
  else if 0xD800 ≤ code ∧ code ≤ 0xDBFF then trailingSurrogate code
  else pure (Char.ofNat code)

/-- What a short escape stands for. -/
def shortEscape? : Char → Option Char
  | '"' => some '"'
  | '\\' => some '\\'
  | '/' => some '/'
  | 'b' => some '\x08'
  | 'f' => some '\x0c'
  | 'n' => some '\n'
  | 'r' => some '\r'
  | 't' => some '\t'
  | _ => none

def escape : Reader Char := do
  match ← peek? with
  | none => fault .endInString
  | some 'u' =>
    advance
    unicodeEscape
  | some c =>
    match shortEscape? c with
    | some meant =>
      advance
      pure meant
    | none => faultAhead .invalidEscape

/-- Reads up to the closing quote, behind the characters already read, which are given backwards. -/
def stringBody (before : List Char) : Nat → Reader String
  | 0 => fault .endInString
  | bound + 1 => do
    match ← peek? with
    | none => fault .endInString
    | some '"' =>
      advance
      pure (String.ofList before.reverse)
    | some '\\' =>
      advance
      let c ← escape
      stringBody (c :: before) bound
    | some c =>
      if c.toNat < 0x20 then faultAhead .controlCharacter
      else
        advance
        stringBody (c :: before) bound

def string : Reader String := do
  advance
  stringBody [] ((← remaining) + 1)

/-- Skips an escape behind its backslash. Surrogates need no partner here. -/
def skipEscape : Reader Unit := do
  match ← peek? with
  | none => fault .endInString
  | some 'u' =>
    advance
    let _ ← hexEscape
  | some c => if (shortEscape? c).isSome then advance else faultAhead .invalidEscape

def skipStringBody : Nat → Reader Unit
  | 0 => fault .endInString
  | bound + 1 => do
    match ← peek? with
    | none => fault .endInString
    | some '"' => advance
    | some '\\' =>
      advance
      skipEscape
      skipStringBody bound
    | some c =>
      if c.toNat < 0x20 then fault .controlCharacter
      else
        advance
        skipStringBody bound

def skipString : Reader Unit := do
  advance
  skipStringBody ((← remaining) + 1)

end NativeBindings.Json.Reader
