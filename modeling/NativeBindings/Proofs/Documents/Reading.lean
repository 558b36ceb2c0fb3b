import NativeBindings.Binding.Document
import NativeBindings.Glue.Exports
import NativeBindings.Proofs.Output.Layout
import NativeBindings.Proofs.Text.Characters

/-!
# Reading documents

The names of exports and imports, read off the lines of a text without knowing how it was made. In a
document whose names and types stay on their lines, every line that is read this way was written for
an export or an import, whatever documentation says.
-/

namespace NativeBindings

open Text

namespace Text

/-- What follows the first occurrence of a word. -/
def afterFirst? (word : List Char) : List Char → Option (List Char)
  | [] => afterWord? word []
  | c :: cs => (afterWord? word (c :: cs)).or (afterFirst? word cs)

def beforeParenthesis? (cs : List Char) : Option (List Char) :=
  if '(' ∈ cs then some (cs.takeWhile (· ≠ '(')) else none

def lastWord (cs : List Char) : List Char := (cs.reverse.takeWhile (· ≠ ' ')).reverse

private theorem takeWhile_ne_append {c : Char} {front : List Char} (h : c ∉ front)
    (back : List Char) : (front ++ c :: back).takeWhile (· ≠ c) = front := by
  have hall : ∀ d ∈ front, decide (d ≠ c) = true := by
    intro d hd
    exact decide_eq_true fun heq => h (heq ▸ hd)
  rw [List.takeWhile_append_of_pos hall, List.takeWhile_cons_of_neg (by simp), List.append_nil]

theorem beforeParenthesis?_append {front : List Char} (h : '(' ∉ front) (back : List Char) :
    beforeParenthesis? (front ++ ("(".toList ++ back)) = some front := by
  have hopen : "(".toList ++ back = '(' :: back := rfl
  rw [beforeParenthesis?, hopen, if_pos (by simp), takeWhile_ne_append h]

theorem lastWord_append {word : List Char} (h : ' ' ∉ word) (front : List Char) :
    lastWord (front ++ (" ".toList ++ word)) = word := by
  have hspace : " ".toList ++ word = ' ' :: word := rfl
  have hr : ' ' ∉ word.reverse := fun hm => h (List.mem_reverse.mp hm)
  rw [lastWord, hspace, List.reverse_append, List.reverse_cons, List.append_assoc,
    List.singleton_append, takeWhile_ne_append hr, List.reverse_reverse]

theorem afterFirst?_append {c : Char} {word front : List Char} (hw : word.head? = some c)
    (h : c ∉ front) (back : List Char) :
    afterFirst? word (front ++ (word ++ back)) = some back := by
  obtain ⟨rest, rfl⟩ := List.head?_eq_some_iff.mp hw
  induction front with
  | nil =>
    have hafter : afterWord? (c :: rest) (c :: rest ++ back) = some back :=
      afterWord?_eq_some_iff.mpr rfl
    rw [List.nil_append]
    simp only [List.cons_append, afterFirst?] at hafter ⊢
    rw [hafter, Option.some_or]
  | cons d front ih =>
    have hd : c ≠ d := fun heq => h (heq ▸ List.mem_cons_self)
    have hfront : c ∉ front := fun hm => h (List.mem_cons_of_mem d hm)
    rw [List.cons_append, afterFirst?, afterWord?, if_neg hd, Option.none_or, ih hfront]

theorem not_isPrefix_of_isPrefix {start word text : List Char} (h : word <+: text)
    (hs : ¬ start <+: word) (hw : ¬ word <+: start) : ¬ start <+: text := fun hp =>
  (List.prefix_or_prefix_of_prefix hp h).elim hs hw

theorem isPrefix_toList_append (text other : String) : text.toList <+: (text ++ other).toList := by
  rw [String.toList_append]
  exact List.prefix_append _ _

end Text

/-- What a line of glue starts with that defines an export. -/
def exportMark : List Char := "EXPORTS(".toList

def exportOn? (line : List Char) : Option String :=
  if exportMark <+: line then
    ((afterFirst? ") ".toList line).bind beforeParenthesis?).map String.ofList
  else none

/-- What a line of bindings starts with that declares an import. -/
def importMark : List Char := "private static extern ".toList

def declaredOn? (line : List Char) : Option String :=
  ((afterWord? importMark line).bind beforeParenthesis?).map fun declared =>
    String.ofList (lastWord declared)

/-- The name on a line of bindings that declares an import, however deep it stands. -/
def importOn? (line : List Char) : Option String := declaredOn? (trim line)

/-- All names of exports in glue. -/
def exportsIn (glue : String) : List String := (lines glue.toList).filterMap exportOn?

/-- All names of imports in bindings. -/
def importsIn (bindings : String) : List String := (lines bindings.toList).filterMap importOn?

theorem exportOn?_withoutReturn_eq_none {line : List Char} (h : ¬ exportMark <+: line) :
    exportOn? (withoutReturn line) = none :=
  if_neg fun hp => h (hp.trans (withoutReturn_isPrefix line))

theorem declaredOn?_eq_none {line : List Char} (h : ¬ importMark <+: line) :
    declaredOn? line = none := by
  cases hafter : afterWord? importMark line with
  | none => rw [declaredOn?, hafter, Option.bind_none, Option.map_none]
  | some rest =>
    rw [afterWord?_eq_some_iff.mp hafter] at h
    exact absurd (List.prefix_append importMark rest) h

theorem importOn?_eq_none {word : List Char} (hw : word.any isBlank = false)
    (hs : ¬ importMark <+: word) (hs' : ¬ word <+: importMark) (rest : List Char) :
    importOn? (word ++ rest) = none := by
  have hsolid : ∀ c ∈ word, isBlank c = false := fun c hc =>
    Bool.eq_false_iff.mpr (List.any_eq_false.mp hw c hc)
  exact declaredOn?_eq_none (not_isPrefix_of_isPrefix (isPrefix_trim hsolid rest) hs hs')

theorem importOn?_eq_none_of_noSpace {line : List Char} (h : ' ' ∉ line) :
    importOn? line = none := by
  apply declaredOn?_eq_none
  intro hp
  have hspace : ' ' ∈ importMark := by decide
  exact h ((trim_isInfix line).subset (hp.subset hspace))

/-- A declaration is read up to its first parenthesis, with the name behind the last space. -/
theorem importOn?_declaration {line type name params : List Char}
    (hline : line = importMark ++ (type ++ (" ".toList ++ name) ++
      ("(".toList ++ (params ++ ");".toList))))
    (ht : '(' ∉ type) (hn : '(' ∉ name) (hs : ' ' ∉ name) :
    importOn? line = some (String.ofList name) := by
  have hmark : importMark = 'p' :: "rivate static extern ".toList := by decide
  have hclose : ");".toList.getLast? = some ';' := by decide
  have hdeclared : '(' ∉ type ++ (" ".toList ++ name) := by
    rw [List.mem_append, List.mem_append, not_or, not_or]
    exact ⟨ht, by decide, hn⟩
  have htrim : trim line = line := by
    apply trim_eq_self
    · rw [hline, hmark]
      intro c hc
      cases hc
      decide
    · rw [hline]
      simp only [List.getLast?_append, hclose, Option.some_or]
      intro c hc
      cases hc
      decide
  rw [importOn?, htrim, declaredOn?, afterWord?_eq_some_iff.mpr hline, Option.bind_some,
    beforeParenthesis?_append hdeclared, Option.map_some, lastWord_append hs]

def LayoutStep.imports (step : LayoutStep) : List String := step.contents.filterMap importOn?

theorem importsIn_layoutText {steps : List LayoutStep} (h : ∀ step ∈ steps, step.IsWhole) :
    importsIn (layoutText steps) = steps.flatMap (·.imports) := by
  have htrim := congrArg (List.filterMap declaredOn?) (trim_lines_layoutText h)
  rw [List.filterMap_map, List.filterMap_map, List.filterMap_flatMap] at htrim
  exact htrim

def LayoutStep.exports (step : LayoutStep) : List String :=
  step.contents.filterMap fun content => exportOn? (withoutReturn content)

theorem LayoutStep.exports_line_eq_nil {text : String} (h : ¬ exportMark <+: text.toList) :
    (line text).exports = [] :=
  List.filterMap_cons_none (exportOn?_withoutReturn_eq_none h)

theorem exportsIn_layoutText {steps : List LayoutStep} (h : ∀ step ∈ steps, step.IsWhole)
    (hflat : ∀ step ∈ steps, step.IsFlat) :
    exportsIn (layoutText steps) = steps.flatMap (·.exports) := by
  rw [exportsIn, lines_layoutText_of_flat h hflat, List.filterMap_map, List.filterMap_flatMap]
  rfl

end NativeBindings
