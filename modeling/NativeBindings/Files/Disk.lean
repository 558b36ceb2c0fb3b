import NativeBindings.Files.Access

/-!
# Disks

A disk is a tree of directories and files, kept as the list of its places. Paths are followed from
the root or from a working directory, step by step, and every step but the last has to lead into a
directory. File operations on a disk are functions to the disk that they leave.
-/

namespace NativeBindings

/-- The names on the way to a place, innermost first; the root has none. -/
abbrev Place := List String

inductive DiskEntry where
  | directory
  | file (content : ByteArray)

instance : DecidableEq DiskEntry
  | .directory, .directory => isTrue rfl
  | .directory, .file _ => isFalse DiskEntry.noConfusion
  | .file _, .directory => isFalse DiskEntry.noConfusion
  | .file content, .file content' =>
    decidable_of_iff (content.data = content'.data)
      (by rw [DiskEntry.file.injEq, ByteArray.ext_iff])

/-- What is where, and where relative paths start. -/
structure Disk where
  entries : List (Place × DiskEntry)
  workingDirectory : Place

namespace Disk

/-- What is at a place. The root is a directory always. -/
def lookup? (disk : Disk) : Place → Option DiskEntry
  | [] => some .directory
  | place => disk.entries.lookup place

def clear (disk : Disk) (place : Place) : Disk :=
  { disk with entries := disk.entries.filter (·.1 != place) }

def put (disk : Disk) (place : Place) (entry : DiskEntry) : Disk :=
  { disk with entries := (place, entry) :: (disk.clear place).entries }

def nameLimit : Nat := 255

def pathLimit : Nat := 4095

/-- Follows steps that all have to lead into directories. -/
def follow (disk : Disk) : Place → List String → Except FileFault Place
  | place, [] => .ok place
  | place, "." :: steps => disk.follow place steps
  | place, ".." :: steps => disk.follow place.tail steps
  | place, name :: steps =>
    if nameLimit < name.utf8ByteSize then .error .nameTooLong
    else
      match disk.lookup? (name :: place) with
      | none => .error .notFound
      | some (.file _) => .error .notADirectory
      | some .directory => disk.follow (name :: place) steps

/-- Where a path leads. -/
inductive Target where
  /-- To a directory that the path does not call by its name. -/
  | directory (place : Place)
  /-- To a name in a directory. There may be nothing of that name; with `slash` there is a separator
  behind it. -/
  | named (parent : Place) (name : String) (slash : Bool)
deriving DecidableEq

/-- Follows a path up to its last step. -/
def target (disk : Disk) (path : FilePath) : Except FileFault Target :=
  if path.text.toList.contains '\x00' then .error .nulInPath
  else if pathLimit < path.text.utf8ByteSize then .error .nameTooLong
  else if path.text = "" then .error .notFound
  else
    let steps := path.pieces.filter (· ≠ "")
    let start := if path.isAbsolute then [] else disk.workingDirectory
    match steps.getLast? with
    | none => .ok (.directory start)
    | some last =>
      match disk.follow start steps.dropLast with
      | .error fault => .error fault
      | .ok place =>
        if last = "." then .ok (.directory place)
        else if last = ".." then .ok (.directory place.tail)
        else if nameLimit < last.utf8ByteSize then .error .nameTooLong
        else .ok (.named place last path.endsInSeparator)

/-- What is at the end of a path. -/
def entryAt (disk : Disk) (path : FilePath) : Except FileFault DiskEntry :=
  match disk.target path with
  | .error fault => .error fault
  | .ok (.directory _) => .ok .directory
  | .ok (.named parent name slash) =>
    match disk.lookup? (name :: parent) with
    | none => .error .notFound
    | some .directory => .ok .directory
    | some (.file content) => if slash then .error .notADirectory else .ok (.file content)

def readText (disk : Disk) (path : FilePath) : Except FileFault String :=
  match disk.entryAt path with
  | .error fault => .error fault
  | .ok .directory => .error .isADirectory
  | .ok (.file content) =>
    match String.fromUTF8? content with
    | some text => .ok text
    | none => .error .notText

def writeFile (disk : Disk) (path : FilePath) (content : ByteArray) : Except FileFault Disk :=
  match disk.target path with
  | .error fault => .error fault
  | .ok (.directory _) => .error .isADirectory
  | .ok (.named parent name slash) =>
    if slash ∨ disk.lookup? (name :: parent) = some .directory then .error .isADirectory
    else .ok (disk.put (name :: parent) (.file content))

def makeDirectory (disk : Disk) (path : FilePath) : Except FileFault Disk :=
  match disk.target path with
  | .error fault => .error fault
  | .ok (.directory _) => .error .alreadyExists
  | .ok (.named parent name _) =>
    match disk.lookup? (name :: parent) with
    | some _ => .error .alreadyExists
    | none => .ok (disk.put (name :: parent) .directory)

/-- Moves a file, in place of a file that is there. Directories are not moved. -/
def moveFile (disk : Disk) (source destination : FilePath) : Except FileFault Disk := do
  match ← disk.target source, ← disk.target destination with
  | .named fromParent fromName fromSlash, .named toParent toName toSlash =>
    match disk.lookup? (fromName :: fromParent) with
    | none => .error .notFound
    | some .directory => .error .isADirectory
    | some (.file content) =>
      if fromSlash ∨ toSlash then .error .notADirectory
      else if (toName :: toParent).isSuffixOf fromParent then .error .directoryNotEmpty
      else if disk.lookup? (toName :: toParent) = some .directory then .error .isADirectory
      else .ok ((disk.clear (fromName :: fromParent)).put (toName :: toParent) (.file content))
  | _, _ => .error .busy

def removeFile (disk : Disk) (path : FilePath) : Except FileFault Disk :=
  match disk.target path with
  | .error fault => .error fault
  | .ok (.directory _) => .error .isADirectory
  | .ok (.named parent name slash) =>
    match disk.lookup? (name :: parent) with
    | none => .error .notFound
    | some .directory => .error .isADirectory
    | some (.file _) =>
      if slash then .error .notADirectory else .ok (disk.clear (name :: parent))

def isPresent (disk : Disk) (path : FilePath) : Bool := (disk.entryAt path).toBool

def isDirectory (disk : Disk) (path : FilePath) : Bool :=
  match disk.entryAt path with
  | .ok .directory => true
  | _ => false

end Disk

/-- A run on a disk. -/
abbrev DiskRun := StateM Disk

/-- Leaves the disk of an operation that succeeds, and the old one if it fails. -/
def DiskRun.change (operation : Disk → Except FileFault Disk) : ExceptT FileFault DiskRun Unit :=
  fun disk =>
    match operation disk with
    | .ok disk => (.ok (), disk)
    | .error fault => (.error fault, disk)

instance : FileAccess DiskRun where
  readText path := fun disk => (disk.readText path, disk)
  writeText path text := DiskRun.change (·.writeFile path text.toUTF8)
  makeDirectory path := DiskRun.change (·.makeDirectory path)
  moveFile source destination := DiskRun.change (·.moveFile source destination)
  removeFile path := DiskRun.change (·.removeFile path)
  isPresent path := fun disk => (disk.isPresent path, disk)
  isDirectory path := fun disk => (disk.isDirectory path, disk)

end NativeBindings
