/-!
# Pieces of a text

What is left of a text without the blanks around it, without a known character at its end or a known
word in front; its lines; and an excerpt, which shows one line and marks a stretch of it. The
White_Space property of Unicode decides what is blank. A line ends at a line feed, which takes one
carriage return directly before it along.
-/

namespace NativeBindings.Text

/-- The code points with the White_Space property, as closed ranges. -/
def blankRanges : List (Nat × Nat) :=
  [(0x9, 0xD), (0x20, 0x20), (0x85, 0x85), (0xA0, 0xA0), (0x1680, 0x1680), (0x2000, 0x200A),
    (0x2028, 0x2029), (0x202F, 0x202F), (0x205F, 0x205F), (0x3000, 0x3000)]

def isBlank (c : Char) : Bool :=
  blankRanges.any fun range => range.1 ≤ c.toNat && c.toNat ≤ range.2

/-- Consists of blank characters only; the empty text does. -/
def isAllBlank (text : String) : Bool := text.toList.all isBlank

def trimStart (cs : List Char) : List Char := cs.dropWhile isBlank

def trimEnd (cs : List Char) : List Char := (trimStart cs.reverse).reverse

def trim (cs : List Char) : List Char := trimEnd (trimStart cs)

theorem length_trimStart_le (cs : List Char) : (trimStart cs).length ≤ cs.length :=
  (List.dropWhile_suffix isBlank).length_le

theorem length_trimEnd_le (cs : List Char) : (trimEnd cs).length ≤ cs.length := by
  simpa [trimEnd] using length_trimStart_le cs.reverse

theorem length_trim_le (cs : List Char) : (trim cs).length ≤ cs.length :=
  Nat.le_trans (length_trimEnd_le _) (length_trimStart_le cs)

/-- What is left of a text that ends in `last`, without it. -/
def withoutLast? (last : Char) (cs : List Char) : Option (List Char) :=
  match cs.reverse with
  | [] => none
  | c :: front => if c = last then some front.reverse else none

/-- What follows `word` in a text that starts with it. -/
def afterWord? : List Char → List Char → Option (List Char)
  | [], cs => some cs
  | _ :: _, [] => none
  | w :: word, c :: cs => if w = c then afterWord? word cs else none

/-- `word` occurs in the text as a contiguous piece. -/
def occursIn (word : List Char) : List Char → Bool
  | [] => word.isEmpty
  | c :: cs => word.isPrefixOf (c :: cs) || occursIn word cs

@[simp] theorem withoutLast?_append (last : Char) (cs : List Char) :
    withoutLast? last (cs ++ [last]) = some cs := by
  simp [withoutLast?]

theorem eq_append_of_withoutLast? {last : Char} {cs front : List Char}
    (h : withoutLast? last cs = some front) : cs = front ++ [last] := by
  unfold withoutLast? at h
  split at h
  · cases h
  · rename_i c r hr
    split at h
    · rename_i hc
      cases h
      have := congrArg List.reverse hr
      simpa [hc] using this
    · cases h

theorem length_lt_of_withoutLast? {last : Char} {cs front : List Char}
    (h : withoutLast? last cs = some front) : front.length < cs.length := by
  simp [eq_append_of_withoutLast? h]

theorem afterWord?_eq_some_iff {word cs rest : List Char} :
    afterWord? word cs = some rest ↔ cs = word ++ rest := by
  fun_induction afterWord? word cs with
  | case1 cs => simp
  | case2 => simp
  | case3 word c cs ih => simpa using ih
  | case4 w word c cs h => simpa using fun e : c = w => absurd e.symm h

theorem occursIn_iff {word cs : List Char} : occursIn word cs = true ↔ word <:+: cs := by
  induction cs with
  | nil => cases word <;> simp [occursIn, List.infix_nil]
  | cons c cs ih => simp [occursIn, ih, List.infix_cons_iff]

/-- The lines of a text, without their ends. -/
def lines : List Char → List (List Char)
  | [] => []
  | '\n' :: cs => [] :: lines cs
  | '\r' :: '\n' :: cs => [] :: lines cs
  | c :: cs =>
    match lines cs with
    | [] => [[c]]
    | line :: rest => (c :: line) :: rest

/-- A stretch of a text, by the number of characters that are left where it starts and where it
ends. -/
structure Span where
  left : Nat
  leftAfter : Nat
deriving DecidableEq, Repr, Inhabited

def Span.to (first last : Span) : Span := ⟨first.left, last.leftAfter⟩

structure Excerpt where
  /-- Counted from one. -/
  line : Nat
  /-- Characters in front of the mark. -/
  column : Nat
  content : String
  /-- Bytes that are marked, also beyond the end of the line. -/
  width : Nat
deriving DecidableEq, Repr

namespace Excerpt

/-- The line in which a stretch of a text starts. -/
def ofSpan (text : List Char) (span : Span) : Excerpt :=
  let before := text.take (text.length - span.left)
  let marked := (text.drop before.length).take (span.left - span.leftAfter)
  let opening := (before.reverse.takeWhile (· ≠ '\n')).reverse
  { line := before.count '\n' + 1
    column := opening.length
    content := String.ofList (opening ++ (text.drop before.length).takeWhile (· ≠ '\n'))
    width := marked.foldr (fun c count => c.utf8Size + count) 0 }

private def run (count : Nat) (c : Char) : String := String.ofList (List.replicate count c)

/-- The line with its number, and marks below the stretch. The marks end with the line, but there is
at least one. -/
def text (excerpt : Excerpt) : String :=
  let number := toString excerpt.line
  let margin := run (number.length + 1) ' ' ++ "|"
  let marks := max 1 (min excerpt.width (excerpt.content.utf8ByteSize - excerpt.column))
  margin ++ "\n" ++ number ++ " | " ++ excerpt.content ++ "\n" ++
    margin ++ run (excerpt.column + 1) ' ' ++ run marks '^' ++ "\n"

end Excerpt

end NativeBindings.Text
