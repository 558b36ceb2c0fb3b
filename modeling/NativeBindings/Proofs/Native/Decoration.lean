import NativeBindings.Native.Type
import NativeBindings.Proofs.Text.Pieces

/-!
# Decorated types

C++ types over a name: `const` on either side of the name or behind any star, any number of stars,
and at most one reference at the end. The functions that read such a spelling backwards agree with
the way it was put together, except that a `const` between two stars hides the levels below it.
-/

namespace NativeBindings

open Text

namespace NativeType

theorem isMark_of_isBlank {c : Char} (h : isBlank c = true) : isMark c = true := by
  rw [isMark, h, Bool.or_true]

theorem isBlank_of_not_isMark {c : Char} (h : isMark c = false) : isBlank c = false := by
  rw [isMark, Bool.or_eq_false_iff] at h
  exact h.2

theorem noMark_of_all {word : List Char} (h : word.all (fun c => !isMark c) = true) :
    ∀ c ∈ word, isMark c = false := by
  intro c hc
  simpa using List.all_eq_true.mp h c hc

theorem trim_noMark {word : List Char} (h : ∀ c ∈ word, isMark c = false) : trim word = word :=
  trim_eq_self (fun c hc => isBlank_of_not_isMark (h c (List.mem_of_mem_head? hc)))
    fun c hc => isBlank_of_not_isMark (h c (List.mem_of_getLast? hc))

end NativeType

open NativeType

/-- The words of a text: what stands between marks. -/
def words (text : List Char) : List (List Char) := (text.splitOnP isMark).filter (· ≠ [])

@[simp] theorem words_nil : words [] = [] := by simp [words, List.splitOnP_nil]

/-- Everything about words follows from this one equation. -/
theorem words_append_cons {c : Char} (hc : isMark c = true) (front back : List Char) :
    words (front ++ c :: back) = words front ++ words back := by
  rw [words, List.splitOnP_append_cons _ _ hc, List.filter_append]
  rfl

theorem words_of_noMark {word : List Char} (hne : word ≠ []) (h : ∀ c ∈ word, isMark c = false) :
    words word = [word] := by
  rw [words, List.splitOnP_eq_singleton h]
  simp [hne]

theorem words_const : words "const".toList = ["const".toList] :=
  words_of_noMark (by decide) (noMark_of_all (by decide))

section

variable {marks : List Char} (hm : ∀ c ∈ marks, isMark c = true)

include hm

theorem words_marks_append (back : List Char) : words (marks ++ back) = words back := by
  induction marks with
  | nil => rfl
  | cons c marks ih =>
    have hrest := ih fun d hd => hm d (List.mem_cons_of_mem c hd)
    have hcons := words_append_cons (hm c List.mem_cons_self) [] (marks ++ back)
    rw [List.nil_append, words_nil, List.nil_append] at hcons
    rw [List.cons_append, hcons, hrest]

theorem words_append_marks_append (hne : marks ≠ []) (front back : List Char) :
    words (front ++ (marks ++ back)) = words front ++ words back := by
  cases marks with
  | nil => exact absurd rfl hne
  | cons c marks =>
    have hrest : ∀ d ∈ marks, isMark d = true := fun d hd => hm d (List.mem_cons_of_mem c hd)
    rw [List.cons_append, words_append_cons (hm c List.mem_cons_self), words_marks_append hrest]

theorem words_append_marks (front : List Char) : words (front ++ marks) = words front := by
  cases marks with
  | nil => rw [List.append_nil]
  | cons c marks =>
    have happend := words_append_marks_append hm (by simp) front []
    rwa [List.append_nil, words_nil, List.append_nil] at happend

end

theorem words_trimEnd (text : List Char) : words (trimEnd text) = words text := by
  obtain ⟨blanks, hb, htext⟩ := exists_eq_trimEnd_append text
  have hmarks : ∀ c ∈ blanks, isMark c = true := fun c hc => isMark_of_isBlank (hb c hc)
  calc words (trimEnd text) = words (trimEnd text ++ blanks) := (words_append_marks hmarks _).symm
    _ = words text := by rw [← htext]

theorem words_trimStart (text : List Char) : words (trimStart text) = words text := by
  obtain ⟨blanks, hb, htext⟩ := exists_eq_append_trimStart text
  have hmarks : ∀ c ∈ blanks, isMark c = true := fun c hc => isMark_of_isBlank (hb c hc)
  calc words (trimStart text) = words (blanks ++ trimStart text) :=
        (words_marks_append hmarks _).symm
    _ = words text := by rw [← htext]

theorem words_trim (text : List Char) : words (trim text) = words text := by
  rw [trim, words_trimEnd, words_trimStart]

/-- One word that is not the qualifier. -/
structure IsBareName (name : List Char) : Prop where
  ne_nil : name ≠ []
  noMark : ∀ c ∈ name, isMark c = false
  ne_const : name ≠ "const".toList

theorem IsBareName.noMark_reverse {name : List Char} (h : IsBareName name) :
    ∀ c ∈ name.reverse, isMark c = false :=
  fun c hc => h.noMark c (List.mem_reverse.mp hc)

theorem IsBareName.ampersand_notMem {name : List Char} (h : IsBareName name) : '&' ∉ name :=
  fun hc => absurd (h.noMark '&' hc) (by decide)

theorem IsBareName.noMark_getLast? {name : List Char} (h : IsBareName name) (front : List Char) :
    ∀ c ∈ (front ++ name).getLast?, isMark c = false := by
  intro c hc
  rw [List.getLast?_append_of_ne_nil _ h.ne_nil] at hc
  exact h.noMark c (List.mem_of_getLast? hc)

theorem IsBareName.exists_concat {name : List Char} (h : IsBareName name) (front : List Char) :
    ∃ before c, front ++ name = before ++ [c] ∧ isMark c = false := by
  refine ⟨front ++ name.dropLast, name.getLast h.ne_nil, ?_, h.noMark _ (List.getLast_mem _)⟩
  rw [List.append_assoc, List.dropLast_append_getLast h.ne_nil]

/-- The name of a type. `const` and `ref` have a meaning of their own in C++ or in C#. -/
structure IsTypeName (name : List Char) : Prop extends IsBareName name where
  ne_ref : name ≠ "ref".toList

def AreBlanks (cs : List Char) : Prop := ∀ c ∈ cs, isBlank c = true

/-- A name, or `const` and a name. -/
inductive NameSpelling (name : List Char) : List Char → Prop where
  | plain {lead : List Char} (hl : AreBlanks lead) : NameSpelling name (lead ++ name)
  | const {lead gap : List Char} (hl : AreBlanks lead) (hg : AreBlanks gap) (hne : gap ≠ []) :
    NameSpelling name (lead ++ ("const".toList ++ (gap ++ name)))

/-- Pointers over a name. The levels are listed from the outermost, which is written last; a level
is marked if `const` stands behind its star. -/
inductive PointerSpelling (name : List Char) : List Bool → List Char → Prop where
  | name {cs : List Char} (h : NameSpelling name cs) : PointerSpelling name [] cs
  | nameConst {cs gap : List Char} (h : NameSpelling name cs) (hg : AreBlanks gap)
      (hne : gap ≠ []) :
    PointerSpelling name [] (cs ++ (gap ++ "const".toList))
  | star {levels : List Bool} {cs gap : List Char} (h : PointerSpelling name levels cs)
      (hg : AreBlanks gap) :
    PointerSpelling name (false :: levels) (cs ++ (gap ++ ['*']))
  | constStar {levels : List Bool} {cs gap gap' : List Char} (h : PointerSpelling name levels cs)
      (hg : AreBlanks gap) (hg' : AreBlanks gap') :
    PointerSpelling name (true :: levels) (cs ++ ((gap ++ '*' :: gap') ++ "const".toList))

/-- What stands behind the pointers of a type. -/
inductive ReferenceMark where
  | none
  | lvalue
  | rvalue
deriving DecidableEq

def ReferenceMark.text : ReferenceMark → List Char
  | none => []
  | lvalue => ['&']
  | rvalue => ['&', '&']

theorem ReferenceMark.isMark_text (mark : ReferenceMark) : ∀ c ∈ mark.text, isMark c = true := by
  have hamp : isMark '&' = true := by decide
  cases mark <;> simp [text, hamp]

/-- The type is spelled as pointers over a name with a reference mark behind them. -/
def NativeType.SpelledOver (type : NativeType) (name : List Char) (levels : List Bool)
    (mark : ReferenceMark) : Prop :=
  ∃ cs gap tail, PointerSpelling name levels cs ∧ AreBlanks gap ∧ AreBlanks tail ∧
    type.spelling.toList = cs ++ (gap ++ (mark.text ++ tail))

theorem afterConst?_noMark {name : List Char} (h : ∀ c ∈ name, isMark c = false) :
    afterWord? "const ".toList name = none := by
  cases hafter : afterWord? "const ".toList name with
  | none => rfl
  | some rest =>
    have hspace := h ' ' (by rw [afterWord?_eq_some_iff.mp hafter]; simp)
    exact absurd hspace (by decide)

theorem trim_const_append {rest : List Char}
    (h : ∀ c ∈ ("const".toList ++ rest).getLast?, isMark c = false) :
    trim ("const".toList ++ rest) = "const".toList ++ rest := by
  apply trim_eq_self
  · intro c hc
    cases hc
    decide
  · exact fun c hc => isBlank_of_not_isMark (h c hc)

theorem afterConst?_ne_space {c : Char} (hc : c ≠ ' ') (rest : List Char) :
    afterWord? "const ".toList ("const".toList ++ c :: rest) = none := by
  simp [afterWord?, hc.symm]

theorem AreBlanks.nil : AreBlanks [] := fun _ hc => absurd hc List.not_mem_nil

theorem AreBlanks.space : AreBlanks [' '] := List.forall_mem_singleton.mpr (by decide)

theorem AreBlanks.marks {cs : List Char} (h : AreBlanks cs) :
    ∀ c ∈ cs, isMark c = true :=
  fun c hc => isMark_of_isBlank (h c hc)

theorem AreBlanks.reverse {cs : List Char} (h : AreBlanks cs) : AreBlanks cs.reverse :=
  fun c hc => h c (List.mem_reverse.mp hc)

theorem AreBlanks.marks_star {gap gap' : List Char} (h : AreBlanks gap)
    (h' : AreBlanks gap') : ∀ c ∈ gap ++ '*' :: gap', isMark c = true := by
  intro c hc
  rcases List.mem_append.mp hc with hc | hc
  · exact h.marks c hc
  · rcases List.mem_cons.mp hc with rfl | hc
    · decide
    · exact h'.marks c hc

theorem AreBlanks.count_star {cs : List Char} (h : AreBlanks cs) : cs.count '*' = 0 := by
  apply List.count_eq_zero.mpr
  intro hstar
  exact absurd (h '*' hstar) (by decide)

theorem AreBlanks.ampersand_notMem {cs : List Char} (h : AreBlanks cs) : '&' ∉ cs :=
  fun hc => absurd (h '&' hc) (by decide)

theorem isMark_head?_append {marks : List Char} (hm : ∀ c ∈ marks, isMark c = true)
    (hne : marks ≠ []) (rest : List Char) : ∀ c ∈ (marks ++ rest).head?, isMark c = true := by
  intro c hc
  rw [List.head?_append_of_ne_nil _ hne] at hc
  exact hm c (List.mem_of_mem_head? hc)

theorem takeWhile_word_append {word rest : List Char} (hw : ∀ c ∈ word, isMark c = false)
    (hr : ∀ c ∈ rest.head?, isMark c = true) :
    (word ++ rest).takeWhile (fun c => !isMark c) = word := by
  rw [List.takeWhile_append_of_pos (by simpa using hw)]
  cases rest with
  | nil => simp
  | cons c rest => simp [hr c rfl]

/-- Only the word `const` itself is taken for a qualifier. -/
theorem beforeConst?_word {word rest : List Char} (hw : ∀ c ∈ word, isMark c = false)
    (hconst : word ≠ "tsnoc".toList) (hr : ∀ c ∈ rest.head?, isMark c = true) :
    beforeConst? (word ++ rest) = none := by
  unfold beforeConst?
  split
  · rename_i c cs hafter
    split
    · rename_i hc
      have hcut := congrArg (List.takeWhile fun c => !isMark c) (afterWord?_eq_some_iff.mp hafter)
      have hmark : ∀ d ∈ (c :: cs).head?, isMark d = true := by simpa using hc
      rw [takeWhile_word_append hw hr, takeWhile_word_append (noMark_of_all (by decide)) hmark]
        at hcut
      exact absurd hcut hconst
    · rfl
  · rfl

theorem beforeConst?_const {rest : List Char} (hne : rest ≠ [])
    (hr : ∀ c ∈ rest.head?, isMark c = true) :
    beforeConst? ("tsnoc".toList ++ rest) = some rest := by
  cases rest with
  | nil => exact absurd rfl hne
  | cons c cs =>
    have hafter : afterWord? "tsnoc".toList ("tsnoc".toList ++ c :: cs) = some (c :: cs) :=
      afterWord?_eq_some_iff.mpr rfl
    simp only [beforeConst?, hafter, if_pos (hr c rfl)]

theorem beforeConst?_star (rest : List Char) : beforeConst? ('*' :: rest) = none := by
  have hafter : afterWord? "tsnoc".toList ('*' :: rest) = none := by
    simp [afterWord?]
  simp only [beforeConst?, hafter]

/-- The stars that a spelling starts with backwards, up to anything but blanks. -/
def starsBefore (backwards : List Char) : Nat :=
  (backwards.takeWhile fun c => c == '*' || isBlank c).count '*'

theorem starsBefore_blanks_append {blanks : List Char} (hb : AreBlanks blanks) (cs : List Char) :
    starsBefore (blanks ++ cs) = starsBefore cs := by
  have hpos : ∀ c ∈ blanks, (c == '*' || isBlank c) = true := by
    intro c hc
    rw [hb c hc, Bool.or_true]
  rw [starsBefore, List.takeWhile_append_of_pos hpos, List.count_append, hb.count_star,
    Nat.zero_add]
  rfl

theorem starsBefore_star (cs : List Char) : starsBefore ('*' :: cs) = starsBefore cs + 1 := by
  simp [starsBefore]

theorem starsBefore_word {word rest : List Char} (hw : ∀ c ∈ word, isMark c = false)
    (hne : word ≠ []) : starsBefore (word ++ rest) = 0 := by
  cases word with
  | nil => exact absurd rfl hne
  | cons c cs =>
    have hc := hw c List.mem_cons_self
    simp only [isMark, Bool.or_eq_false_iff] at hc
    simp [starsBefore, hc.1.1, hc.2]

theorem starsBefore_const (rest : List Char) : starsBefore ("tsnoc".toList ++ rest) = 0 :=
  starsBefore_word (noMark_of_all (by decide)) (by decide)

namespace NameSpelling

variable {name cs : List Char}

theorem exists_reverse (h : NameSpelling name cs) :
    ∃ rest, cs.reverse = name.reverse ++ rest ∧ ∀ c ∈ rest.head?, isMark c = true := by
  cases h with
  | @plain lead hl =>
    refine ⟨lead.reverse, List.reverse_append, ?_⟩
    intro c hc
    exact hl.reverse.marks c (List.mem_of_mem_head? hc)
  | @const lead gap hl hg hne =>
    refine ⟨gap.reverse ++ ("const".toList.reverse ++ lead.reverse), ?_, ?_⟩
    · simp only [List.reverse_append, List.append_assoc]
    · exact isMark_head?_append hg.reverse.marks (by simpa using hne) _

theorem count_star (hn : IsBareName name) (h : NameSpelling name cs) : cs.count '*' = 0 := by
  have hname : name.count '*' = 0 := by
    apply List.count_eq_zero.mpr
    intro hstar
    exact absurd (hn.noMark '*' hstar) (by decide)
  cases h with
  | plain hl => rw [List.count_append, hl.count_star, hname]
  | const hl hg =>
    simp [List.count_append, hl.count_star, hg.count_star, hname]

theorem eq_of_mem_words (hn : IsBareName name) (h : NameSpelling name cs) {word : List Char}
    (hword : word ∈ words cs) : word = "const".toList ∨ word = name := by
  have hname := words_of_noMark hn.ne_nil hn.noMark
  cases h with
  | plain hl =>
    rw [words_marks_append hl.marks, hname, List.mem_singleton] at hword
    exact .inr hword
  | const hl hg hne =>
    rw [words_marks_append hl.marks, words_append_marks_append hg.marks hne, words_const,
      hname] at hword
    simpa using hword

theorem name_mem_words (hn : IsBareName name) (h : NameSpelling name cs) : name ∈ words cs := by
  have hname := words_of_noMark hn.ne_nil hn.noMark
  cases h with
  | plain hl =>
    rw [words_marks_append hl.marks, hname]
    exact List.mem_singleton_self name
  | const hl hg hne =>
    rw [words_marks_append hl.marks, words_append_marks_append hg.marks hne, hname]
    exact List.mem_append_right _ (List.mem_singleton_self name)

theorem exists_concat (hn : IsBareName name) (h : NameSpelling name cs) :
    ∃ front c, cs = front ++ [c] ∧ isMark c = false := by
  cases h with
  | plain hl => exact hn.exists_concat _
  | @const lead gap hl hg hne =>
    obtain ⟨front, c, hcs, hc⟩ := hn.exists_concat (lead ++ ("const".toList ++ gap))
    exact ⟨front, c, by rw [← hcs]; simp only [List.append_assoc], hc⟩

theorem ampersand_notMem (hn : IsBareName name) (h : NameSpelling name cs) : '&' ∉ cs := by
  cases h with
  | plain hl =>
    rw [List.mem_append, not_or]
    exact ⟨hl.ampersand_notMem, hn.ampersand_notMem⟩
  | const hl hg =>
    simp only [List.mem_append, not_or]
    exact ⟨hl.ampersand_notMem, by decide, hg.ampersand_notMem, hn.ampersand_notMem⟩

theorem starsBefore_reverse (hn : IsBareName name) (h : NameSpelling name cs) :
    starsBefore cs.reverse = 0 := by
  obtain ⟨rest, hrest, -⟩ := h.exists_reverse
  rw [hrest, starsBefore_word hn.noMark_reverse (by simpa using hn.ne_nil)]

theorem beforeConst?_reverse (hn : IsBareName name) (h : NameSpelling name cs) :
    beforeConst? cs.reverse = none := by
  obtain ⟨rest, hrest, hmark⟩ := h.exists_reverse
  have hconst : name.reverse ≠ "tsnoc".toList := by
    intro heq
    have hname := congrArg List.reverse heq
    rw [List.reverse_reverse] at hname
    exact hn.ne_const (hname.trans (by decide))
  rw [hrest]
  exact beforeConst?_word hn.noMark_reverse hconst hmark

end NameSpelling

/-- The levels that are counted from the end of a spelling: one, and those below it down to the next
`const`. -/
def countedLevels : List Bool → Nat
  | [] => 0
  | _ :: inner => 1 + (inner.takeWhile (!·)).length

theorem countedLevels_eq_zero_iff {levels : List Bool} :
    countedLevels levels = 0 ↔ levels = [] := by
  cases levels with
  | nil => simp [countedLevels]
  | cons level inner => simp [countedLevels]

/-- All levels are counted unless a `const` stands behind an inner star. -/
theorem countedLevels_eq_length_iff {levels : List Bool} :
    countedLevels levels = levels.length ↔ true ∉ levels.tail := by
  cases levels with
  | nil => simp [countedLevels]
  | cons level inner =>
    have htake := List.takeWhile_prefix (l := inner) (!·)
    have hlength : countedLevels (level :: inner) = (level :: inner).length ↔
        (inner.takeWhile (!·)).length = inner.length := by
      rw [countedLevels, List.length_cons]
      omega
    have hall : (inner.takeWhile (!·)).length = inner.length ↔ inner.takeWhile (!·) = inner :=
      ⟨htake.eq_of_length, congrArg List.length⟩
    rw [hlength, hall, List.takeWhile_eq_self_iff, List.tail_cons]
    simp

namespace PointerSpelling

variable {name cs : List Char} {levels : List Bool}

theorem count_star (hn : IsBareName name) (h : PointerSpelling name levels cs) :
    cs.count '*' = levels.length := by
  induction h with
  | name h => exact h.count_star hn
  | nameConst h hg =>
    simp [List.count_append, h.count_star hn, hg.count_star]
  | star _ hg ih => simp [List.count_append, ih, hg.count_star]
  | constStar _ hg hg' ih => simp [List.count_append, ih, hg.count_star, hg'.count_star]

theorem eq_of_mem_words (hn : IsBareName name) (h : PointerSpelling name levels cs)
    {word : List Char} (hword : word ∈ words cs) : word = "const".toList ∨ word = name := by
  induction h with
  | name h => exact h.eq_of_mem_words hn hword
  | nameConst h hg hne =>
    rw [words_append_marks_append hg.marks hne, words_const, List.mem_append,
      List.mem_singleton] at hword
    exact hword.elim (h.eq_of_mem_words hn) .inl
  | star _ hg ih =>
    rw [words_append_marks (hg.marks_star AreBlanks.nil)] at hword
    exact ih hword
  | constStar _ hg hg' ih =>
    rw [words_append_marks_append (hg.marks_star hg') (by simp), words_const, List.mem_append,
      List.mem_singleton] at hword
    exact hword.elim ih .inl

theorem name_mem_words (hn : IsBareName name) (h : PointerSpelling name levels cs) :
    name ∈ words cs := by
  induction h with
  | name h => exact h.name_mem_words hn
  | nameConst h hg hne =>
    rw [words_append_marks_append hg.marks hne]
    exact List.mem_append_left _ (h.name_mem_words hn)
  | star _ hg ih =>
    rw [words_append_marks (hg.marks_star .nil)]
    exact ih
  | constStar _ hg hg' ih =>
    rw [words_append_marks_append (hg.marks_star hg') (by simp)]
    exact List.mem_append_left _ ih

theorem ampersand_notMem (hn : IsBareName name) (h : PointerSpelling name levels cs) :
    '&' ∉ cs := by
  induction h with
  | name h => exact h.ampersand_notMem hn
  | nameConst h hg =>
    simp only [List.mem_append, not_or]
    exact ⟨h.ampersand_notMem hn, hg.ampersand_notMem, by decide⟩
  | star _ hg ih =>
    simp only [List.mem_append, not_or]
    exact ⟨ih, hg.ampersand_notMem, by decide⟩
  | constStar _ hg hg' ih =>
    simp only [List.mem_append, List.mem_cons, not_or]
    exact ⟨ih, ⟨hg.ampersand_notMem, by decide, hg'.ampersand_notMem⟩, by decide⟩

theorem exists_concat (hn : IsBareName name) (h : PointerSpelling name [] cs) :
    ∃ front c, cs = front ++ [c] ∧ isMark c = false := by
  cases h with
  | name h => exact h.exists_concat hn
  | @nameConst cs gap =>
    exact ⟨cs ++ (gap ++ "cons".toList), 't', by simp only [List.append_assoc]; rfl, by decide⟩

theorem reverse_nameConst (cs gap : List Char) :
    (cs ++ (gap ++ "const".toList)).reverse = "tsnoc".toList ++ (gap.reverse ++ cs.reverse) := by
  simp

theorem reverse_star (cs gap : List Char) :
    (cs ++ (gap ++ ['*'])).reverse = '*' :: (gap.reverse ++ cs.reverse) := by
  simp

theorem reverse_constStar (cs gap gap' : List Char) :
    (cs ++ ((gap ++ '*' :: gap') ++ "const".toList)).reverse =
      "tsnoc".toList ++ (gap'.reverse ++ '*' :: (gap.reverse ++ cs.reverse)) := by
  simp

theorem starsBefore_reverse (hn : IsBareName name) (h : PointerSpelling name levels cs) :
    starsBefore cs.reverse = (levels.takeWhile (!·)).length := by
  induction h with
  | name h => exact h.starsBefore_reverse hn
  | nameConst =>
    rw [reverse_nameConst, starsBefore_const]
    rfl
  | star _ hg ih =>
    rw [reverse_star, starsBefore_star, starsBefore_blanks_append hg.reverse, ih]
    rfl
  | constStar =>
    rw [reverse_constStar, starsBefore_const]
    rfl

theorem depth_reverse (hn : IsBareName name) (h : PointerSpelling name levels cs) :
    starsBefore ((beforeConst? cs.reverse).getD cs.reverse) = countedLevels levels := by
  cases h with
  | name h =>
    rw [h.beforeConst?_reverse hn, Option.getD_none, h.starsBefore_reverse hn]
    rfl
  | @nameConst front gap h hg hne =>
    have hmark := isMark_head?_append hg.reverse.marks (by simpa using hne) front.reverse
    rw [reverse_nameConst, beforeConst?_const (by simp [hne]) hmark, Option.getD_some,
      starsBefore_blanks_append hg.reverse, h.starsBefore_reverse hn]
    rfl
  | @star inner front gap h hg =>
    rw [reverse_star, beforeConst?_star, Option.getD_none, starsBefore_star,
      starsBefore_blanks_append hg.reverse, h.starsBefore_reverse hn, countedLevels, Nat.add_comm]
  | @constStar inner front gap gap' h hg hg' =>
    have hmark : ∀ c ∈ (gap'.reverse ++ '*' :: (gap.reverse ++ front.reverse)).head?,
        isMark c = true := by
      rw [List.append_cons]
      exact isMark_head?_append (hg'.reverse.marks_star AreBlanks.nil) (by simp) _
    rw [reverse_constStar, beforeConst?_const (by simp) hmark, Option.getD_some,
      starsBefore_blanks_append hg'.reverse, starsBefore_star, starsBefore_blanks_append hg.reverse,
      h.starsBefore_reverse hn, countedLevels, Nat.add_comm]

theorem exists_last (hn : IsBareName name) (h : PointerSpelling name levels cs) :
    ∃ c rest, cs.reverse = c :: rest ∧ isBlank c = false ∧ c ≠ '&' := by
  cases h with
  | name h =>
    obtain ⟨rest, hrest, -⟩ := h.exists_reverse
    cases hname : name.reverse with
    | nil => exact absurd (List.reverse_eq_nil_iff.mp hname) hn.ne_nil
    | cons c front =>
      have hc := hn.noMark_reverse c (hname ▸ List.mem_cons_self)
      refine ⟨c, front ++ rest, ?_, isBlank_of_not_isMark hc, ?_⟩
      · rw [hrest, hname, List.cons_append]
      · rintro rfl
        exact absurd hc (by decide)
  | nameConst => exact ⟨'t', _, reverse_nameConst _ _, by decide, by decide⟩
  | star => exact ⟨'*', _, reverse_star _ _, by decide, by decide⟩
  | constStar => exact ⟨'t', _, reverse_constStar _ _ _, by decide, by decide⟩

end PointerSpelling

namespace NativeType.SpelledOver

variable {type : NativeType} {name : List Char} {levels : List Bool} {mark : ReferenceMark}

theorem count_star (hn : IsBareName name) (h : type.SpelledOver name levels mark) :
    type.spelling.toList.count '*' = levels.length := by
  obtain ⟨cs, gap, tail, hcs, hg, ht, heq⟩ := h
  have hmark : mark.text.count '*' = 0 := by cases mark <;> decide
  rw [heq]
  simp [List.count_append, hcs.count_star hn, hg.count_star, ht.count_star, hmark]

theorem eq_of_mem_words (hn : IsBareName name) (h : type.SpelledOver name levels mark)
    {word : List Char} (hword : word ∈ words type.spelling.toList) :
    word = "const".toList ∨ word = name := by
  obtain ⟨cs, gap, tail, hcs, hg, ht, heq⟩ := h
  have hmarks : ∀ c ∈ gap ++ (mark.text ++ tail), isMark c = true := by
    intro c hc
    rcases List.mem_append.mp hc with hc | hc
    · exact hg.marks c hc
    · rcases List.mem_append.mp hc with hc | hc
      · exact mark.isMark_text c hc
      · exact ht.marks c hc
  rw [heq, words_append_marks hmarks] at hword
  exact hcs.eq_of_mem_words hn hword

/-- The spelling backwards: the reference mark first, then the pointers. -/
theorem exists_backwards (hn : IsBareName name) (h : type.SpelledOver name levels mark) :
    ∃ cs gap, PointerSpelling name levels cs ∧ AreBlanks gap ∧
      type.backwards = mark.text ++ (gap ++ cs.reverse) ∧ (mark = .none → gap = []) := by
  obtain ⟨cs, gap, tail, hcs, hg, ht, heq⟩ := h
  obtain ⟨c, rest, hlast, hblank, -⟩ := hcs.exists_last hn
  have htext : mark.text.reverse = mark.text := by cases mark <;> rfl
  have hamp : isBlank '&' = false := by decide
  have hbackwards : type.backwards = trimStart (mark.text ++ (gap.reverse ++ cs.reverse)) := by
    rw [backwards, heq, List.reverse_append, List.reverse_append, List.reverse_append, htext,
      List.append_assoc, List.append_assoc, trimStart_append ht.reverse]
  cases mark with
  | none =>
    refine ⟨cs, [], hcs, AreBlanks.nil, ?_, fun _ => rfl⟩
    rw [hbackwards, ReferenceMark.text, List.nil_append, trimStart_append hg.reverse, hlast]
    exact trimStart_eq_self (by simpa using hblank)
  | lvalue =>
    refine ⟨cs, gap.reverse, hcs, hg.reverse, ?_, fun hm => absurd hm (by decide)⟩
    rw [hbackwards]
    exact trimStart_eq_self (by simpa [ReferenceMark.text] using hamp)
  | rvalue =>
    refine ⟨cs, gap.reverse, hcs, hg.reverse, ?_, fun hm => absurd hm (by decide)⟩
    rw [hbackwards]
    exact trimStart_eq_self (by simpa [ReferenceMark.text] using hamp)

private theorem exists_cons {cs gap : List Char} (hn : IsBareName name)
    (h : PointerSpelling name levels cs) (hg : AreBlanks gap) :
    ∃ c rest, gap ++ cs.reverse = c :: rest ∧ c ≠ '&' := by
  cases gap with
  | nil =>
    obtain ⟨c, rest, hlast, -, hc⟩ := h.exists_last hn
    exact ⟨c, rest, hlast, hc⟩
  | cons b gap =>
    refine ⟨b, gap ++ cs.reverse, rfl, ?_⟩
    rintro rfl
    exact absurd (hg '&' List.mem_cons_self) (by decide)

theorem isRvalueReference_eq (hn : IsBareName name) (h : type.SpelledOver name levels mark) :
    type.isRvalueReference = decide (mark = .rvalue) := by
  obtain ⟨cs, gap, hcs, hg, hbackwards, -⟩ := h.exists_backwards hn
  obtain ⟨c, rest, hrest, hc⟩ := exists_cons hn hcs hg
  rw [isRvalueReference, hbackwards, hrest]
  cases mark <;> simp [ReferenceMark.text, hc]

theorem isReference_eq (hn : IsBareName name) (h : type.SpelledOver name levels mark) :
    type.isReference = decide (mark = .lvalue) := by
  rw [isReference, h.isRvalueReference_eq hn]
  obtain ⟨cs, gap, hcs, hg, hbackwards, -⟩ := h.exists_backwards hn
  obtain ⟨c, rest, hrest, hc⟩ := exists_cons hn hcs hg
  rw [hbackwards, hrest]
  cases mark <;> simp [ReferenceMark.text, hc]

theorem pointerDepth_eq (hn : IsBareName name) (h : type.SpelledOver name levels mark)
    (hm : mark ≠ .rvalue) : type.pointerDepth = countedLevels levels := by
  obtain ⟨cs, gap, hcs, hg, hbackwards, hgap⟩ := h.exists_backwards hn
  obtain ⟨c, rest, hlast, hblank, hc⟩ := hcs.exists_last hn
  rw [← hcs.depth_reverse hn]
  unfold pointerDepth starsBefore
  cases mark with
  | none =>
    have hpointers : type.backwards = cs.reverse := by
      rw [hbackwards, hgap rfl]
      rfl
    rw [hpointers, hlast]
    split
    · rename_i heq
      exact absurd (List.cons.inj heq).1 hc
    · rfl
  | lvalue =>
    have htrim : trimStart (gap ++ cs.reverse) = cs.reverse := by
      rw [trimStart_append hg, hlast]
      exact trimStart_eq_self (by simpa using hblank)
    have hreference : type.backwards = '&' :: (gap ++ cs.reverse) := hbackwards
    rw [hreference]
    simp only [htrim]
  | rvalue => exact absurd rfl hm

theorem withoutLast?_eq_none_iff (hn : IsBareName name) (h : type.SpelledOver name levels mark) :
    withoutLast? '&' (trimEnd type.spelling.toList) = none ↔ mark = .none := by
  obtain ⟨cs, gap, hcs, hg, hbackwards, -⟩ := h.exists_backwards hn
  obtain ⟨c, rest, hrest, hc⟩ := exists_cons hn hcs hg
  have hreverse : (trimEnd type.spelling.toList).reverse = type.backwards := List.reverse_reverse _
  rw [withoutLast?, hreverse, hbackwards, hrest]
  cases mark <;> simp [ReferenceMark.text, hc]

end NativeType.SpelledOver

end NativeBindings
