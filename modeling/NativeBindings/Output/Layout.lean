import NativeBindings.Text.Pieces

/-!
# Layout of generated text

Generated text is described as a sequence of steps and written line by line. Only opening and
closing steps move the indentation.
-/

namespace NativeBindings

open Text

/-- One step in the layout of a text. -/
inductive LayoutStep where
  /-- One line at the current depth; an empty one is not indented. -/
  | line (text : String)
  | blank
  /-- Every line of a text at the current depth. -/
  | block (text : String)
  /-- A line, with all that follows one level deeper. -/
  | opening (text : String)
  /-- A line one level further out, with all that follows. -/
  | closing (text : String)
deriving DecidableEq, Repr

/-- Text written so far, and how deep the next line goes. -/
structure CodeWriter where
  written : String
  depth : Nat
deriving DecidableEq, Repr, Inhabited

namespace CodeWriter

/-- Nothing written, at the given depth. -/
def atDepth (depth : Nat) : CodeWriter := ⟨"", depth⟩

/-- Four blanks for each level. -/
def indentation (depth : Nat) : String := String.ofList (List.replicate (4 * depth) ' ')

def lineAt (depth : Nat) (text : String) : String :=
  if text.isEmpty then "\n" else indentation depth ++ text ++ "\n"

def writeLine (w : CodeWriter) (text : String) : CodeWriter :=
  { w with written := w.written ++ lineAt w.depth text }

/-- Takes one step. The depth never goes below zero. -/
def step (w : CodeWriter) : LayoutStep → CodeWriter
  | .line text => w.writeLine text
  | .blank => w.writeLine ""
  | .block text => (lines text.toList).foldl (fun w line => w.writeLine (String.ofList line)) w
  | .opening text =>
    let w := w.writeLine text
    { w with depth := w.depth + 1 }
  | .closing text => { w with depth := w.depth - 1 : CodeWriter }.writeLine text

def run (w : CodeWriter) (steps : List LayoutStep) : CodeWriter := steps.foldl step w

end CodeWriter

/-- The text that steps write from depth zero. -/
def layoutText (steps : List LayoutStep) : String := ((CodeWriter.atDepth 0).run steps).written

/-- First line of every generated file. -/
def autogeneratedBanner : String := "// THIS FILE IS AUTOGENERATED!"

end NativeBindings
