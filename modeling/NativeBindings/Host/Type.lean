import NativeBindings.Native.Type

/-!
# Host types

Native type spellings become C# type names: fixed-width integers become the C# keywords, pointers
keep their stars, references and `const` disappear, and configured aliases name wrapper classes.
-/

namespace NativeBindings

open Text

/-- C# integer types that native integer types become. -/
inductive HostPrimitive where
  | byte
  | ushort
  | uint
  | ulong
  | sbyte
  | short
  | int
  | long
  /-- Stands for an integer as wide as a pointer. -/
  | nativeInt
deriving DecidableEq, Repr

def nativeIntKeyword : String := "nint"

def HostPrimitive.keyword : HostPrimitive → String
  | .byte => "byte"
  | .ushort => "ushort"
  | .uint => "uint"
  | .ulong => "ulong"
  | .sbyte => "sbyte"
  | .short => "short"
  | .int => "int"
  | .long => "long"
  | .nativeInt => nativeIntKeyword

/-- The native spellings that become primitives. -/
def nativePrimitives : List (String × HostPrimitive) :=
  [("uint8_t", .byte), ("uint16_t", .ushort), ("uint32_t", .uint), ("uint64_t", .ulong),
    ("int8_t", .sbyte), ("int16_t", .short), ("int32_t", .int), ("int64_t", .long),
    ("size_t", .nativeInt), ("char", .sbyte), ("const char", .sbyte)]

/-- The primitive with exactly this native spelling. -/
def HostPrimitive.ofNative? (spelling : String) : Option HostPrimitive :=
  nativePrimitives.lookup spelling

/-- Host names of native names; each native name has at most one. -/
structure AliasTable where
  entries : List (String × String)
deriving Repr, Inhabited

namespace AliasTable

def empty : AliasTable := ⟨[]⟩

def find? (table : AliasTable) (native : String) : Option String := table.entries.lookup native

/-- Gives a native name a host name, in place of any it had. -/
def insert (table : AliasTable) (native host : String) : AliasTable :=
  ⟨(native, host) :: table.entries.filter (·.1 ≠ native)⟩

/-- The table with these aliases; a later one of the same native name wins. -/
def ofList (aliases : List (String × String)) : AliasTable :=
  aliases.foldl (fun table (native, host) => table.insert native host) empty

/-- The host name of a spelling without pointers, references and `const`: its primitive, else its
alias, else the name itself. -/
def resolve (table : AliasTable) (native : String) : String :=
  match HostPrimitive.ofNative? native with
  | some primitive => primitive.keyword
  | none => (table.find? native).getD native

/-- The host type of a native spelling, as characters. Stars are taken off one by one and put back
behind the host name; one reference and any leading `const` are dropped. -/
def hostSpelling (table : AliasTable) (native : List Char) : List Char :=
  match _hp : withoutLast? '*' (trim native) with
  | some pointee => table.hostSpelling pointee ++ ['*']
  | none =>
    let referenced := ((withoutLast? '&' (trim native)).map trimEnd).getD (trim native)
    match HostPrimitive.ofNative? (String.ofList referenced) with
    | some primitive => primitive.keyword.toList
    | none =>
      match _hc : afterWord? "const ".toList referenced with
      | some unqualified => table.hostSpelling unqualified
      | none => (table.resolve (String.ofList referenced)).toList
termination_by native.length
decreasing_by
  · exact Nat.lt_of_lt_of_le (length_lt_of_withoutLast? _hp) (length_trim_le native)
  · have hr : referenced.length ≤ (trim native).length := by
      simp only [referenced]
      cases h : withoutLast? '&' (trim native) with
      | none => simp
      | some front =>
        simpa using Nat.le_trans (length_trimEnd_le front)
          (Nat.le_of_lt (length_lt_of_withoutLast? h))
    have hl : referenced.length = "const ".toList.length + unqualified.length := by
      rw [afterWord?_eq_some_iff.1 _hc, List.length_append]
    have hw : "const ".toList.length = 6 := by decide
    have := length_trim_le native
    omega

def hostName (table : AliasTable) (native : String) : String :=
  String.ofList (table.hostSpelling native.toList)

def hostType (table : AliasTable) (type : NativeType) : String := table.hostName type.spelling

end AliasTable

def isNativeInt (host : String) : Bool := host == nativeIntKeyword

end NativeBindings
