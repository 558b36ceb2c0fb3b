import NativeBindings.CommandLine.Command

/-!
# Program

Runs commands on the files of the system.
-/

namespace NativeBindings

/-- The fault of a system's error number and words. The number may come with the other sign. -/
def FileFault.ofNumber (number : UInt32) (words : String) : FileFault :=
  let number := if number < 0x80000000 then number else 0 - number
  match number with
  | 2 => .notFound
  | 16 => .busy
  | 17 => .alreadyExists
  | 20 => .notADirectory
  | 21 => .isADirectory
  | 36 => .nameTooLong
  | 39 => .directoryNotEmpty
  | _ => .other (words ++ " (os error " ++ toString number ++ ")")

def FileFault.ofError : IO.Error → FileFault
  | .alreadyExists _ number words | .otherError number words | .resourceBusy number words
  | .resourceVanished number words | .unsupportedOperation number words
  | .hardwareFault number words | .unsatisfiedConstraints number words
  | .illegalOperation number words | .protocolError number words | .timeExpired number words
  | .interrupted _ number words | .noFileOrDirectory _ number words
  | .invalidArgument _ number words | .permissionDenied _ number words
  | .resourceExhausted _ number words | .inappropriateType _ number words
  | .noSuchThing _ number words => .ofNumber number words
  | .unexpectedEof => .other "unexpected end of file"
  | .userError words => .other words

def onFile {α : Type} (path : FilePath) (operation : IO α) : ExceptT FileFault IO α :=
  ExceptT.mk do
    if path.text.contains '\x00' then return .error .nulInPath
    try return .ok (← operation)
    catch error => return .error (.ofError error)

/-- Asks about a path of the system; nothing holds of a path that leads nowhere. -/
def askFile (question : IO Bool) : IO Bool := do
  try question
  catch _ => return false

instance : FileAccess IO where
  readText path := do
    let content ← onFile path (IO.FS.readBinFile ⟨path.text⟩)
    match String.fromUTF8? content with
    | some text => return text
    | none => throw .notText
  writeText path text := onFile path (IO.FS.writeFile ⟨path.text⟩ text)
  makeDirectory path := onFile path (IO.FS.createDir ⟨path.text⟩)
  moveFile source destination := do
    onFile source (pure ())
    onFile destination (IO.FS.rename ⟨source.text⟩ ⟨destination.text⟩)
  removeFile path := onFile path (IO.FS.removeFile ⟨path.text⟩)
  isPresent path := askFile do return ← (← IO.FS.realPath ⟨path.text⟩).pathExists
  isDirectory path := askFile do return ← (← IO.FS.realPath ⟨path.text⟩).isDir

end NativeBindings

/-- Runs a command and ends with one if it failed. -/
def main (arguments : List String) : IO UInt32 := do
  let result : NativeBindings.CommandResult ← NativeBindings.runCommand arguments
  IO.print result.output
  IO.eprint result.errors
  return if result.succeeded then 0 else 1
