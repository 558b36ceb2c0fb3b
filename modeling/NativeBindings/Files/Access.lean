/-!
# Access to files

A path is a text of pieces with separators between them. Empty pieces and single dots inside a path
mean nothing to it, so they are passed over when its last name or its parent is asked for. A path
with no separator in front starts from the working directory.

The operations on files are the ones that a build uses, for any kind of run that offers them. An
operation either succeeds or says why not; one that fails changes nothing.
-/

namespace NativeBindings

structure FilePath where
  text : String
deriving DecidableEq, Repr, Inhabited

namespace FilePath

def pieces (path : FilePath) : List String := (path.text.toList.splitOn '/').map String.ofList

def isAbsolute (path : FilePath) : Bool := path.text.toList.head? == some '/'

def endsInSeparator (path : FilePath) : Bool := path.text.toList.getLast? == some '/'

/-- Pieces, the last one first, from one that means something on. The very first piece of a path
always does. -/
def fromName : List String → List String
  | [] => []
  | [first] => [first]
  | piece :: before =>
    if piece = "" ∨ piece = "." then fromName before else piece :: before

/-- The path of pieces, the last one first. -/
def ofPieces : List String → FilePath
  | [""] => ⟨"/"⟩
  | pieces => ⟨"/".intercalate pieces.reverse⟩

/-- The last name in a path; none if it ends in a step upwards or has no names at all. -/
def fileName? (path : FilePath) : Option String :=
  match fromName path.pieces.reverse with
  | [] => none
  | piece :: _ => if piece = "" ∨ piece = "." ∨ piece = ".." then none else some piece

/-- The path without its last step; none if it has no steps. -/
def parent? (path : FilePath) : Option FilePath :=
  match fromName path.pieces.reverse with
  | [] => none
  | [piece] => if piece = "" then none else some ⟨""⟩
  | _ :: before => some (ofPieces (fromName before))

/-- The paths that pieces lead to, innermost first; the last piece comes first. -/
def leadingPaths : List String → List FilePath
  | [] => []
  | [first] => [ofPieces [first]]
  | piece :: before =>
    if piece = "" ∨ piece = "." then leadingPaths before
    else ofPieces (piece :: before) :: leadingPaths before

/-- The directories on the way to where a path leads, innermost first. -/
def directories (path : FilePath) : List FilePath :=
  leadingPaths (fromName path.pieces.reverse).tail

def join (path : FilePath) (name : String) : FilePath :=
  if path.text = "" ∨ path.endsInSeparator then ⟨path.text ++ name⟩
  else ⟨path.text ++ "/" ++ name⟩

/-- The path with another last name; a path without a last name gets one. -/
def withFileName (path : FilePath) (name : String) : FilePath :=
  match path.fileName? with
  | some _ => (path.parent?.getD ⟨""⟩).join name
  | none => path.join name

end FilePath

inductive FileFault where
  | notFound
  | busy
  | alreadyExists
  | notADirectory
  | isADirectory
  | nameTooLong
  | directoryNotEmpty
  /-- The content of the file is no text. -/
  | notText
  /-- A path with a character that no path may have. -/
  | nulInPath
  | other (text : String)
deriving DecidableEq, Repr

namespace FileFault

/-- The fault in the words and with the number that systems give it. -/
def message : FileFault → String
  | notFound => "No such file or directory (os error 2)"
  | busy => "Device or resource busy (os error 16)"
  | alreadyExists => "File exists (os error 17)"
  | notADirectory => "Not a directory (os error 20)"
  | isADirectory => "Is a directory (os error 21)"
  | nameTooLong => "File name too long (os error 36)"
  | directoryNotEmpty => "Directory not empty (os error 39)"
  | notText => "stream did not contain valid UTF-8"
  | nulInPath => "file name contained an unexpected NUL byte"
  | other text => text

end FileFault

class FileAccess (m : Type → Type) where
  readText : FilePath → ExceptT FileFault m String
  /-- Gives a file a new content; the file is made if there is none. -/
  writeText : FilePath → String → ExceptT FileFault m Unit
  makeDirectory : FilePath → ExceptT FileFault m Unit
  /-- Gives a file another path, in place of a file that is there. -/
  moveFile : (source destination : FilePath) → ExceptT FileFault m Unit
  removeFile : FilePath → ExceptT FileFault m Unit
  /-- Something is there, be it a file or a directory. -/
  isPresent : FilePath → m Bool
  isDirectory : FilePath → m Bool

namespace FileAccess

variable {m : Type → Type} [Monad m] [FileAccess m]

/-- A directory that could not be made is no fault if it is there. -/
def acceptDirectory (path : FilePath) (fault : FileFault) : ExceptT FileFault m Unit := do
  if ← (isDirectory path : m Bool) then pure () else throw fault

def ensureDirectory (path : FilePath) : ExceptT FileFault m Unit :=
  tryCatch (makeDirectory path) (acceptDirectory path)

/-- Makes a directory; if the one that is to hold it is missing, makes that one first, and so on
through `above`. -/
def ensureWithin (path : FilePath) : (above : List FilePath) → ExceptT FileFault m Unit
  | [] => ensureDirectory path
  | parent :: above =>
    tryCatch (makeDirectory path) fun fault =>
      if fault = .notFound then do
        ensureWithin parent above
        ensureDirectory path
      else acceptDirectory path fault

/-- Makes a directory with all directories on the way to it, as far as they are missing. -/
def ensureDirectories (path : FilePath) : ExceptT FileFault m Unit :=
  if path.text = "" then pure () else ensureWithin path path.directories

end FileAccess

end NativeBindings
