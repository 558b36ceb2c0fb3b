import NativeBindings.Policy.Admission
import NativeBindings.Proofs.Tables
import Mathlib.Data.Finset.Card
import Mathlib.Data.List.Induction
import Mathlib.Data.List.Infix

/-!
# Admitted functions and names in a wrapper index

A function is admitted if it is no operator, nothing speaks against any of its parameters, and
nothing speaks against its return type unless it is a constructor. So no denied name occurs in a
type that an admitted function takes or returns.

A class that is entered is found under its two names, and entering it changes nothing under any
other. Of classes that share a name, the last one counts that has it as its qualified name, or else
the first. If they have the same wrapper, the order in which they are entered does not show.
-/

namespace NativeBindings

open Text

namespace Denylist

variable {denylist : Denylist}

theorem matchesType_iff {spelling : String} :
    denylist.matchesType spelling = true ↔
      ∃ entry ∈ denylist.entries, entry.toList <:+: spelling.toList := by
  simp only [matchesType, firstMatch?, List.find?_isSome, occursIn_iff]

theorem matchesType_of_infix {part whole : String} (h : part.toList <:+: whole.toList)
    (hp : denylist.matchesType part = true) : denylist.matchesType whole = true := by
  obtain ⟨entry, he, hi⟩ := matchesType_iff.mp hp
  exact matchesType_iff.mpr ⟨entry, he, hi.trans h⟩

theorem firstMatch?_eq_none_iff {spelling : String} :
    denylist.firstMatch? spelling = none ↔ denylist.matchesType spelling = false := by
  rw [matchesType, Option.isSome_eq_false_iff, Option.isNone_iff_eq_none]

end Denylist

namespace Admission

variable {admission : Admission}

theorem parameterFault?_eq_none_iff {param : Parameter} :
    admission.parameterFault? param = none ↔
      admission.denylist.matchesType param.type.spelling = false ∧
        admission.isUnsupportedParameter param.type = false := by
  rw [← Denylist.firstMatch?_eq_none_iff, parameterFault?]
  cases admission.denylist.firstMatch? param.type.spelling with
  | some entry => simp
  | none => simp

theorem returnFault?_eq_none_iff {type : NativeType} :
    admission.returnFault? type = none ↔
      admission.denylist.matchesType type.spelling = false ∧
        admission.isUnsupportedReturn type = false := by
  rw [← Denylist.firstMatch?_eq_none_iff, returnFault?]
  cases admission.denylist.firstMatch? type.spelling with
  | some entry => simp
  | none => simp

theorem fault?_eq_none_iff {function : MemberFunction} :
    admission.fault? function = none ↔ function.isOperator = false ∧
      (∀ param ∈ function.params, admission.parameterFault? param = none) ∧
        (function.isConstructor = false → admission.returnFault? function.returnType = none) := by
  rw [← List.findSome?_eq_none_iff, fault?]
  cases function.isOperator with
  | true => simp
  | false =>
    cases function.params.findSome? admission.parameterFault? with
    | some reason => simp
    | none => cases function.isConstructor <;> simp

end Admission

/-- The name is one of the two under which the class is entered. -/
def ScopedClass.IsNamed (c : ScopedClass) (name : String) : Prop :=
  name = c.name ∨ name = c.qualifiedName

instance (c : ScopedClass) (name : String) : Decidable (c.IsNamed name) :=
  inferInstanceAs (Decidable (_ ∨ _))

namespace WrapperIndex

variable {index : WrapperIndex} {c : ScopedClass} {name wrapper : String}

theorem find?_put (index : WrapperIndex) (key wrapper name : String) :
    (index.put key wrapper).find? name = if name = key then some wrapper else index.find? name := by
  unfold find? put
  rw [List.lookup_cons]
  by_cases h : name = key
  · simp [h]
  · rw [if_neg h, beq_eq_false_iff_ne.mpr h]
    exact lookup_filter_of_forall fun _ => decide_eq_true h

theorem find?_putNew (index : WrapperIndex) (key wrapper name : String) :
    (index.putNew key wrapper).find? name =
      if name = key then some ((index.find? name).getD wrapper) else index.find? name := by
  unfold putNew
  cases hkey : index.find? key with
  | some found =>
    by_cases h : name = key
    · simp [h, hkey]
    · simp [h]
  | none =>
    rw [Option.isSome_none, if_neg Bool.false_ne_true, find?_put]
    by_cases h : name = key
    · simp [h, hkey]
    · simp [h]

/-- A class overwrites what is entered under its qualified name, and yields its bare name to an
earlier class. -/
theorem find?_insert (index : WrapperIndex) (c : ScopedClass) (wrapper name : String) :
    (index.insert c wrapper).find? name =
      if name = c.qualifiedName then some wrapper
      else if name = c.name then some ((index.find? name).getD wrapper)
      else index.find? name := by
  rw [insert, find?_put, find?_putNew]

theorem find?_insert_of_not_isNamed (h : ¬ c.IsNamed name) :
    (index.insert c wrapper).find? name = index.find? name := by
  obtain ⟨hname, hqualified⟩ := not_or.mp h
  rw [find?_insert, if_neg hqualified, if_neg hname]

theorem isSome_find?_insert :
    ((index.insert c wrapper).find? name).isSome = true ↔
      c.IsNamed name ∨ (index.find? name).isSome = true := by
  rw [find?_insert, ScopedClass.IsNamed]
  split
  · rename_i hqualified
    simp [hqualified]
  · rename_i hqualified
    split
    · rename_i hname
      simp [hname]
    · rename_i hname
      simp [hqualified, hname]

private theorem find?_foldl_of_not_isNamed {classes : List (ScopedClass × String)}
    (h : ∀ x ∈ classes, ¬ x.1.IsNamed name) (index : WrapperIndex) :
    (classes.foldl (fun index (c, wrapper) => index.insert c wrapper) index).find? name =
      index.find? name := by
  induction classes generalizing index with
  | nil => rfl
  | cons x rest ih =>
    obtain ⟨hx, hrest⟩ := List.forall_mem_cons.mp h
    rw [List.foldl_cons, ih hrest, find?_insert_of_not_isNamed hx]

theorem find?_ofList_append {classes more : List (ScopedClass × String)}
    (h : ∀ x ∈ more, ¬ x.1.IsNamed name) :
    (ofList (classes ++ more)).find? name = (ofList classes).find? name := by
  rw [ofList, List.foldl_append]
  exact find?_foldl_of_not_isNamed h _

private theorem isSome_find?_foldl {classes : List (ScopedClass × String)} {index : WrapperIndex} :
    ((classes.foldl (fun index (c, wrapper) => index.insert c wrapper) index).find? name).isSome =
        true ↔
      (index.find? name).isSome = true ∨ ∃ x ∈ classes, x.1.IsNamed name := by
  induction classes generalizing index with
  | nil => simp
  | cons x rest ih =>
    rw [List.foldl_cons, ih, isSome_find?_insert, List.exists_mem_cons_iff, or_assoc,
      or_left_comm]

theorem isSome_find?_ofList {classes : List (ScopedClass × String)} :
    ((ofList classes).find? name).isSome = true ↔ ∃ x ∈ classes, x.1.IsNamed name := by
  rw [ofList, isSome_find?_foldl]
  simp [find?, empty]

theorem find?_ofList_eq_some_iff {classes : List (ScopedClass × String)}
    (h : ∀ x ∈ classes, ∀ y ∈ classes, x.1.IsNamed name → y.1.IsNamed name → x.2 = y.2) :
    (ofList classes).find? name = some wrapper ↔
      ∃ x ∈ classes, x.1.IsNamed name ∧ x.2 = wrapper := by
  constructor
  · intro hfound
    obtain ⟨c, hc, hname⟩ := exists_of_find?_ofList hfound
    exact ⟨(c, wrapper), hc, hname, rfl⟩
  · rintro ⟨x, hx, hname, rfl⟩
    obtain ⟨found, hfound⟩ := Option.isSome_iff_exists.mp
      (isSome_find?_ofList.mpr ⟨x, hx, hname⟩)
    obtain ⟨c, hc, hnamed⟩ := exists_of_find?_ofList hfound
    have hsame : found = x.2 := h (c, found) hc x hx hnamed hname
    rw [hfound, hsame]

/-- The wrapper of the last of the classes with a qualified name. -/
def lastQualified? (classes : List (ScopedClass × String)) (name : String) : Option String :=
  (classes.reverse.find? (·.1.qualifiedName == name)).map (·.2)

/-- The wrapper of the first of the classes with a bare name. -/
def firstNamed? (classes : List (ScopedClass × String)) (name : String) : Option String :=
  (classes.find? (·.1.name == name)).map (·.2)

theorem ofList_concat (classes : List (ScopedClass × String)) (c : ScopedClass)
    (wrapper : String) :
    ofList (classes ++ [(c, wrapper)]) = (ofList classes).insert c wrapper := by
  rw [ofList, List.foldl_append]
  rfl

theorem lastQualified?_concat (classes : List (ScopedClass × String)) (c : ScopedClass)
    (wrapper name : String) :
    lastQualified? (classes ++ [(c, wrapper)]) name =
      if name = c.qualifiedName then some wrapper else lastQualified? classes name := by
  rw [lastQualified?, List.reverse_concat, List.find?_cons]
  by_cases h : name = c.qualifiedName
  · simp [h]
  · rw [beq_eq_false_iff_ne.mpr (Ne.symm h), if_neg h, lastQualified?]

theorem firstNamed?_concat (classes : List (ScopedClass × String)) (c : ScopedClass)
    (wrapper name : String) :
    firstNamed? (classes ++ [(c, wrapper)]) name =
      (firstNamed? classes name).or (if name = c.name then some wrapper else none) := by
  rw [firstNamed?, List.find?_append, Option.map_or, firstNamed?]
  congr 1
  by_cases h : name = c.name
  · simp [h]
  · simp [h, Ne.symm h]

/-- A qualified name stands for its last class, and any other name for the first class that has it
as its bare name. -/
theorem find?_ofList (classes : List (ScopedClass × String)) (name : String) :
    (ofList classes).find? name = (lastQualified? classes name).or (firstNamed? classes name) := by
  induction classes using List.reverseRecOn with
  | nil => rfl
  | append_singleton classes x ih =>
    obtain ⟨c, wrapper⟩ := x
    rw [ofList_concat, find?_insert, lastQualified?_concat, firstNamed?_concat, ih]
    by_cases hqualified : name = c.qualifiedName
    · rw [if_pos hqualified, if_pos hqualified, Option.some_or]
    · rw [if_neg hqualified, if_neg hqualified]
      by_cases hname : name = c.name
      · rw [if_pos hname, if_pos hname, ← Option.or_assoc, Option.or_some]
      · rw [if_neg hname, if_neg hname, Option.or_none]

def names (index : WrapperIndex) : List String := index.entries.map (·.1)

theorem names_put_nodup (h : index.names.Nodup) : (index.put name wrapper).names.Nodup := by
  refine List.nodup_cons.mpr ⟨?_, (List.filter_sublist.map _).nodup h⟩
  intro hmem
  obtain ⟨entry, hentry, hname⟩ := List.mem_map.mp hmem
  exact of_decide_eq_true (List.mem_filter.mp hentry).2 hname

theorem names_putNew_nodup (h : index.names.Nodup) : (index.putNew name wrapper).names.Nodup := by
  unfold putNew
  split
  · exact h
  · exact names_put_nodup h

theorem names_ofList_nodup (classes : List (ScopedClass × String)) :
    (ofList classes).names.Nodup := by
  induction classes using List.reverseRecOn with
  | nil => exact List.nodup_nil
  | append_singleton classes x ih =>
    rw [ofList_concat]
    exact names_put_nodup (names_putNew_nodup ih)

theorem mem_names_iff : name ∈ index.names ↔ (index.find? name).isSome = true := by
  rw [names, find?, List.lookup_isSome_iff, List.mem_map]
  constructor
  · rintro ⟨entry, hentry, rfl⟩
    exact ⟨entry, hentry, BEq.rfl⟩
  · rintro ⟨entry, hentry, hname⟩
    exact ⟨entry, hentry, (eq_of_beq hname).symm⟩

theorem size_ofList (classes : List (ScopedClass × String)) :
    (ofList classes).size =
      (classes.flatMap fun x => [x.1.name, x.1.qualifiedName]).toFinset.card := by
  have hnames : (ofList classes).names.toFinset =
      (classes.flatMap fun x => [x.1.name, x.1.qualifiedName]).toFinset := by
    ext name
    simp only [List.mem_toFinset, mem_names_iff, isSome_find?_ofList, List.mem_flatMap,
      ScopedClass.IsNamed, List.mem_cons, List.not_mem_nil, or_false]
  rw [← hnames, List.toFinset_card_of_nodup (names_ofList_nodup classes), names, List.length_map,
    size]

theorem isEmpty_ofList {classes : List (ScopedClass × String)} :
    (ofList classes).isEmpty = true ↔ classes = [] := by
  induction classes using List.reverseRecOn with
  | nil => simp [ofList, isEmpty, empty]
  | append_singleton classes x _ =>
    rw [ofList_concat]
    simp [insert, put, isEmpty]

/-- After any classes are entered, a type gets the wrapper of the last one whose qualified name is
its base name, else that of the first one whose bare name it is, else none. The index has as many
names as these classes have different ones, and it is empty if there are none. -/
theorem index_of_entered_classes (classes : List (ScopedClass × String)) :
    (∀ type : NativeType, (ofList classes).wrapperFor? type =
        (lastQualified? classes type.baseName).or (firstNamed? classes type.baseName)) ∧
      (ofList classes).size =
        (classes.flatMap fun x => [x.1.name, x.1.qualifiedName]).toFinset.card ∧
      ((ofList classes).isEmpty = true ↔ classes = []) :=
  ⟨fun type => find?_ofList classes type.baseName, size_ofList classes, isEmpty_ofList⟩

end WrapperIndex

end NativeBindings
