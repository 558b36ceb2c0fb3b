import NativeBindings.Text.Pieces

/-!
# Native types

A native type is known by its spelling. Pointers and references are written at the end of it, so
most questions are answered by reading the spelling backwards.
-/

namespace NativeBindings

open Text

/-- A native type by its spelling, such as `const Node *` or `uint32_t`. -/
structure NativeType where
  spelling : String
deriving DecidableEq, Repr, Inhabited

namespace NativeType

def void : NativeType := ⟨"void"⟩

def pointerTo (type : NativeType) : NativeType := ⟨type.spelling ++ "*"⟩

def referenceTo (type : NativeType) : NativeType := ⟨type.spelling ++ "&"⟩

/-- The spelling backwards, from its last character that is not blank. -/
def backwards (type : NativeType) : List Char := trimStart type.spelling.toList.reverse

def isPointer (type : NativeType) : Bool := type.backwards.head? == some '*'

/-- Ends in two ampersands. -/
def isRvalueReference (type : NativeType) : Bool :=
  match type.backwards with
  | '&' :: '&' :: _ => true
  | _ => false

def isReference (type : NativeType) : Bool :=
  type.backwards.head? == some '&' && !type.isRvalueReference

/-- Is `void`, with blanks around it or not. -/
def isVoid (type : NativeType) : Bool := trim type.spelling.toList == "void".toList

/-- A star, an ampersand or a blank: what may stand between a name and its qualifiers. -/
def isMark (c : Char) : Bool := c == '*' || c == '&' || isBlank c

/-- What stands before a trailing `const`, read backwards. The word counts only after a mark:
`myconst` is a name. -/
def beforeConst? (backwards : List Char) : Option (List Char) :=
  match afterWord? "tsnoc".toList backwards with
  | some (c :: cs) => if isMark c then some (c :: cs) else none
  | _ => none

theorem length_lt_of_beforeConst? {cs front : List Char} (h : beforeConst? cs = some front) :
    front.length < cs.length := by
  unfold beforeConst? at h
  split at h
  · rename_i c r hr
    split at h
    · cases h
      rw [afterWord?_eq_some_iff.1 hr]
      simp
    · cases h
  · cases h

/-- Number of pointer levels at the end of the spelling, below a final reference and a trailing
`const`. -/
def pointerDepth (type : NativeType) : Nat :=
  let referenced :=
    match type.backwards with
    | '&' :: cs => trimStart cs
    | cs => cs
  let unqualified := (beforeConst? referenced).getD referenced
  (unqualified.takeWhile fun c => c == '*' || isBlank c).count '*'

/-- Removes all stars, ampersands, blanks and `const` qualifiers that stand at the end of a
spelling, which is given backwards. -/
def undecorated : List Char → List Char
  | [] => []
  | c :: cs =>
    if isMark c then undecorated cs
    else
      match _hb : beforeConst? (c :: cs) with
      | some front => undecorated front
      | none => c :: cs
termination_by cs => cs.length
decreasing_by
  · simp
  · exact length_lt_of_beforeConst? _hb

/-- The named type below all pointers, references and `const` qualifiers: `Node` for
`const Node *`. -/
def baseName (type : NativeType) : String :=
  let bare := (undecorated (trim type.spelling.toList).reverse).reverse
  String.ofList (trim ((afterWord? "const ".toList bare).getD bare))

end NativeType

end NativeBindings
