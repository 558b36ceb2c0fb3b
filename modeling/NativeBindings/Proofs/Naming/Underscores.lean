import NativeBindings.Policy.Naming
import NativeBindings.Proofs.Naming.MemberName
import NativeBindings.Proofs.Text.Capitals
import NativeBindings.Settings.Project
import Mathlib.Logic.Relation

/-!
# Underscores in names

Pascal case reads a name one word after the other, and an underscore only ends a word. It makes no
difference at either end of a name or beside another one, and none is left in the result. What is in
Pascal case already stays as it is, so rules that rename members can be written for it.
-/

namespace NativeBindings

open Text

/-- The words of a name: what stands between underscores. -/
def nameWords (cs : List Char) : List (List Char) := (cs.splitOn '_').filter (· ≠ [])

@[simp] theorem nameWords_nil : nameWords [] = [] := by simp [nameWords]

/-- Everything about the words of names follows from this one equation. -/
theorem nameWords_append (front back : List Char) :
    nameWords (front ++ '_' :: back) = nameWords front ++ nameWords back := by
  rw [nameWords, List.splitOn_append_cons_self, List.filter_append, nameWords, nameWords]

theorem nameWords_cons (cs : List Char) : nameWords ('_' :: cs) = nameWords cs :=
  nameWords_append [] cs

theorem nameWords_concat (cs : List Char) : nameWords (cs ++ ['_']) = nameWords cs := by
  rw [nameWords_append, nameWords_nil, List.append_nil]

theorem pascalCase_eq (name : String) :
    pascalCase name = String.ofList ((nameWords name.toList).flatMap capitalized) := by
  have hwords (words : List (List Char)) :
      words.flatMap capitalized = (words.filter (· ≠ [])).flatMap capitalized := by
    induction words with
    | nil => rfl
    | cons word words ih =>
      cases word with
      | nil => exact ih
      | cons c cs =>
        rw [List.filter_cons_of_pos (by simp), List.flatMap_cons, List.flatMap_cons, ih]
  rw [pascalCase, hwords, nameWords]

theorem pascalCase_append (a b : String) :
    pascalCase (a ++ "_" ++ b) = pascalCase a ++ pascalCase b := by
  have hchars : (a ++ "_" ++ b).toList = a.toList ++ '_' :: b.toList := by
    simp [String.toList_append]
  rw [pascalCase_eq, hchars, nameWords_append, List.flatMap_append, String.ofList_append,
    ← pascalCase_eq, ← pascalCase_eq]

theorem underscore_notMem_pascalCase (name : String) : '_' ∉ (pascalCase name).toList := by
  have hall : ConsistsOf (· ≠ '_') (pascalCase name) := by
    apply consistsOf_pascalCase
    · intro c hc d hd heq
      exact underscore_notMem_uppercase hc (heq ▸ hd)
    · intro word hword c hc heq
      exact notMem_of_mem_splitOn hword (heq ▸ hc)
  exact fun hmem => hall '_' hmem rfl

theorem pascalCase_of_notMem {name : String} (h : '_' ∉ name.toList) :
    pascalCase name = String.ofList (capitalized name.toList) := by
  rw [pascalCase, List.splitOn_eq_singleton h, List.flatMap_singleton]

theorem capitalized_eq_self {word : List Char} (h : ∀ c ∈ word.head?, uppercase c = [c]) :
    capitalized word = word := by
  cases word with
  | nil => rfl
  | cons c cs =>
    rw [capitalized, h c rfl]
    rfl

/-- A name in Pascal case is one word and begins with a capital. -/
theorem pascalCase_pascalCase (name : String) : pascalCase (pascalCase name) = pascalCase name := by
  have hhead : ∀ d ∈ (pascalCase name).toList.head?, uppercase d = [d] := by
    rw [pascalCase, String.toList_ofList]
    intro d hd
    obtain ⟨c, hc⟩ := exists_uppercase_of_head _ d hd
    exact uppercase_of_mem_uppercase hc
  rw [pascalCase_of_notMem (underscore_notMem_pascalCase name), capitalized_eq_self hhead,
    String.ofList_toList]

/-- The second name has one underscore more, at an end of the name or beside another underscore. -/
inductive AddsUnderscore : List Char → List Char → Prop where
  | front (cs : List Char) : AddsUnderscore cs ('_' :: cs)
  | back (cs : List Char) : AddsUnderscore cs (cs ++ ['_'])
  | beside (front back : List Char) :
    AddsUnderscore (front ++ '_' :: back) (front ++ '_' :: '_' :: back)

theorem AddsUnderscore.nameWords_eq {cs ds : List Char} (h : AddsUnderscore cs ds) :
    nameWords cs = nameWords ds := by
  cases h with
  | front => exact (nameWords_cons cs).symm
  | back => exact (nameWords_concat cs).symm
  | beside front back => rw [nameWords_append, nameWords_append, nameWords_cons]

/-- One name becomes the other when such underscores are added and removed. -/
def DifferInUnderscores (a b : String) : Prop :=
  Relation.EqvGen AddsUnderscore a.toList b.toList

theorem nameWords_eq_of_eqvGen {cs ds : List Char} (h : Relation.EqvGen AddsUnderscore cs ds) :
    nameWords cs = nameWords ds := by
  induction h with
  | rel _ _ h => exact h.nameWords_eq
  | refl => rfl
  | symm _ _ _ ih => exact ih.symm
  | trans _ _ _ _ _ ih ih' => exact ih.trans ih'

/-- Of pieces that follow a text with an underscore before each, those that are no words can be left
out. -/
theorem eqvGen_filter (front : List Char) (pieces : List (List Char)) :
    Relation.EqvGen AddsUnderscore (front ++ pieces.flatMap ('_' :: ·))
      (front ++ (pieces.filter (· ≠ [])).flatMap ('_' :: ·)) := by
  induction pieces generalizing front with
  | nil => exact .refl _
  | cons piece pieces ih =>
    cases piece with
    | cons c cs =>
      have hrest := ih (front ++ '_' :: c :: cs)
      rwa [List.append_assoc, List.append_assoc] at hrest
    | nil =>
      refine .trans _ _ _ (.symm _ _ ?_) (ih front)
      -- What comes next decides where the underscore is one too many.
      cases pieces with
      | nil =>
        rw [List.flatMap_nil, List.append_nil]
        exact .rel _ _ (.back front)
      | cons next pieces => exact .rel _ _ (.beside front (next ++ pieces.flatMap ('_' :: ·)))

theorem flatMap_splitOn (cs : List Char) : (cs.splitOn '_').flatMap ('_' :: ·) = '_' :: cs := by
  induction cs with
  | nil => rfl
  | cons c cs ih =>
    rw [List.splitOn_cons_eq_if_modifyHead]
    by_cases hc : c = '_'
    · rw [if_pos (by simpa using hc), List.flatMap_cons, ih, hc]
      rfl
    · rw [if_neg (by simpa using hc)]
      obtain ⟨first, more, hsplit⟩ := List.exists_cons_of_ne_nil (List.splitOn_ne_nil '_' cs)
      rw [hsplit, List.flatMap_cons, List.cons_append] at ih
      rw [hsplit, List.modifyHead_cons, List.flatMap_cons, List.cons_append, List.cons_append,
        (List.cons.inj ih).2]

theorem eqvGen_nameWords (cs : List Char) :
    Relation.EqvGen AddsUnderscore cs ((nameWords cs).flatMap ('_' :: ·)) := by
  have hfront : Relation.EqvGen AddsUnderscore cs ((cs.splitOn '_').flatMap ('_' :: ·)) := by
    rw [flatMap_splitOn]
    exact .rel _ _ (.front cs)
  exact hfront.trans _ _ _ (eqvGen_filter [] (cs.splitOn '_'))

/-- Names differ in extra underscores exactly if their words are the same. -/
theorem differInUnderscores_iff {a b : String} :
    DifferInUnderscores a b ↔ nameWords a.toList = nameWords b.toList := by
  constructor
  · exact nameWords_eq_of_eqvGen
  · intro h
    have ha := eqvGen_nameWords a.toList
    rw [h] at ha
    exact ha.trans _ _ _ ((eqvGen_nameWords b.toList).symm _ _)

instance : DecidableRel DifferInUnderscores := fun _ _ =>
  decidable_of_iff _ differInUnderscores_iff.symm

theorem DifferInUnderscores.pascalCase_congr {a b : String} (h : DifferInUnderscores a b) :
    pascalCase a = pascalCase b := by
  rw [pascalCase_eq, differInUnderscores_iff.mp h, ← pascalCase_eq]

/-- Pascal case is a normal form that is read word by word. Names that differ only in extra
underscores have one, so the same rules rename them and they name the same member. -/
theorem pascalCase_reads_words :
    (∀ a b, pascalCase (a ++ "_" ++ b) = pascalCase a ++ pascalCase b) ∧
      (∀ name, '_' ∉ (pascalCase name).toList) ∧
      (∀ name, pascalCase (pascalCase name) = pascalCase name) ∧
      ∀ a b, DifferInUnderscores a b → pascalCase a = pascalCase b ∧ ∀ isStatic,
        (∀ rule : RenameRule,
          rule.applies (pascalCase a) isStatic = rule.applies (pascalCase b) isStatic) ∧
        ∀ naming : NamingPolicy, naming.memberName a isStatic = naming.memberName b isStatic := by
  refine ⟨pascalCase_append, underscore_notMem_pascalCase, pascalCase_pascalCase, ?_⟩
  intro a b h
  have hpascal := h.pascalCase_congr
  refine ⟨hpascal, fun isStatic => ⟨fun rule => ?_, fun naming => ?_⟩⟩
  · rw [hpascal]
  · rw [NamingPolicy.memberName, hpascal, NamingPolicy.memberName]

/-- A rule finds the predicate with underscores at both ends and a double one in it. -/
theorem pascalCase_reads_words_predicate :
    DifferInUnderscores "_is_object__or_array_" "is_object_or_array" ∧
      GeneratorSettings.default.naming.memberName "_is_object__or_array_" true =
        "IsObjectOrArrayStatic" := by
  have hdiffer : DifferInUnderscores "_is_object__or_array_" "is_object_or_array" := by
    decide +kernel
  refine ⟨hdiffer, ?_⟩
  rw [((pascalCase_reads_words.2.2.2 _ _ hdiffer).2 true).2]
  decide +kernel

end NativeBindings
