import NativeBindings.Native.FromJson
import NativeBindings.Proofs.Native.Limits
import NativeBindings.Proofs.Scope.PreOrder

/-!
# Writing and reading declarations

Declarations that are read from text are valid, and everything that a class lists as a constructor
is one, at every depth and whatever the text says of its kind.

Reading undoes writing, up to the normalization of constructors, whether fields with their default
are written or not. It is the same tree again that is read of what is written of it, as long as that
keeps to the limit of levels.
-/

namespace NativeBindings

namespace NativeClass

theorem normalized_eq (c : NativeClass) :
    c.normalized = { c with
      constructors := c.constructors.map (·.asConstructor)
      classes := c.classes.map (·.normalized) } := by
  cases c
  rw [normalized, normalizedAll_eq_map]

theorem isConstructor_of_normalized (c : NativeClass) {enclosing : List String} {x : ScopedClass}
    (hx : x ∈ c.normalized.inScope enclosing) {function : MemberFunction}
    (hf : function ∈ x.decl.constructors) : function.isConstructor = true := by
  induction c using NativeClass.nestedInduction generalizing enclosing with
  | step c ih =>
    rw [normalized_eq, inScope_eq, allInScope_eq_flatMap] at hx
    rcases List.mem_cons.mp hx with rfl | hx
    · obtain ⟨written, -, rfl⟩ := List.mem_map.mp hf
      rfl
    · obtain ⟨_, hmem, hx⟩ := List.mem_flatMap.mp hx
      obtain ⟨nested, hn, rfl⟩ := List.mem_map.mp hmem
      exact ih nested hn hx

end NativeClass

namespace Declarations

variable {text : String} {tree : Declarations}

theorem parse_eq_ok (h : Declarations.parse text = .ok tree) :
    tree.validate = .ok () ∧ ∃ written, ofText? text = .ok written ∧ written.normalized = tree := by
  unfold parse at h
  split at h
  · cases h
  · rename_i written htext
    split at h
    · cases h
    · rename_i hvalid
      cases h
      exact ⟨hvalid, written, htext, rfl⟩

theorem isConstructor_of_parse (h : Declarations.parse text = .ok tree) {c : ScopedClass}
    (hc : c ∈ tree.scopedClasses) {function : MemberFunction}
    (hf : function ∈ c.decl.constructors) : function.isConstructor = true := by
  obtain ⟨-, written, -, rfl⟩ := parse_eq_ok h
  rw [scopedClasses, normalized, NativeClass.normalizedAll_eq_map,
    NativeClass.allInScope_eq_flatMap] at hc
  obtain ⟨_, hmem, hc⟩ := List.mem_flatMap.mp hc
  obtain ⟨top, -, rfl⟩ := List.mem_map.mp hmem
  exact top.isConstructor_of_normalized hc hf

end Declarations

open Json (HasField ListForm ObjectForm OptionForm TextForm Value keysOf)
open Json.Reader

theorem NativeClass.normalized_normalized (c : NativeClass) :
    c.normalized.normalized = c.normalized := by
  induction c using NativeClass.nestedInduction with
  | step c ih =>
    have hnested : (c.classes.map normalized).map normalized = c.classes.map normalized := by
      rw [List.map_map]
      exact List.map_congr_left ih
    rw [normalized_eq c, normalized_eq]
    simp only [hnested, List.map_map]
    rfl

namespace Declarations

variable {tree : Declarations} {text : String}

theorem normalized_normalized (tree : Declarations) :
    tree.normalized.normalized = tree.normalized := by
  rw [normalized, normalized]
  simp only [NativeClass.normalizedAll_eq_map, List.map_map]
  congr 1
  exact List.map_congr_left fun c _ => c.normalized_normalized

/-- What comes of a text in which the tree stands. -/
def checked (tree : Declarations) : Except DeclarationTextFault Declarations :=
  match tree.normalized.validate with
  | .error fault => .error (.invalid fault)
  | .ok () => .ok tree.normalized

theorem parse_eq_checked (h : ofText? text = .ok tree) : parse text = tree.checked := by
  rw [parse, h]
  rfl

theorem parse_of_isWritten {v : Value} (h : tree.IsWritten levelLimit v) :
    parse (String.ofList v.text) = tree.checked :=
  parse_eq_checked (ofText?_of_isWritten h)

theorem parse_json (h : tree.value.depth ≤ levelLimit) :
    parse (String.ofList tree.json) = tree.checked := by
  rw [← text_value]
  exact parse_of_isWritten (tree.isWritten_value h)

theorem parse_json_of_deep (h : levelLimit < tree.value.depth) :
    ∃ place, parse (String.ofList tree.json) = .error (.malformed ⟨.recursionLimit, place⟩) := by
  -- Nothing stands behind the value in a whole text.
  have hoverflows := tree.exceeds h []
  rw [List.append_nil, text_value] at hoverflows
  obtain ⟨place, hrun⟩ := run_of_overflows hoverflows
  refine ⟨place, ?_⟩
  rw [parse, ofText?, hrun]

theorem checked_of_parse (h : parse text = .ok tree) : tree.checked = .ok tree := by
  obtain ⟨hvalid, written, -, rfl⟩ := parse_eq_ok h
  rw [checked, normalized_normalized, hvalid]

end Declarations

/-- A class with as many others around each other inside it. -/
def NativeClass.nest : Nat → NativeClass
  | 0 => .ofName "A"
  | n + 1 => { NativeClass.ofName "A" with classes := [nest n] }

def NativeClass.nestValue : Nat → Value
  | 0 => .object [("name", .string "A")]
  | n + 1 => .object [("name", .string "A"), ("classes", .list [nestValue n])]

namespace NativeClass

theorem isWritten_nest (n : Nat) : (nest n).IsWritten (2 * n + 1) (nestValue n) := by
  induction n with
  | zero =>
    refine isWritten_iff.mpr ⟨0, _, rfl, rfl, ?_⟩
    exact
      { name := .of_getElem? 0 rfl (by decide) rfl
        constructors := .of_absent (by decide) rfl
        functions := .of_absent (by decide) rfl
        classes := .of_absent (by decide) rfl
        doc := .of_absent (by decide) rfl
        location := .of_absent (by decide) rfl }
  | succ n ih =>
    refine isWritten_iff.mpr ⟨2 * n + 2, _, rfl, rfl, ?_⟩
    have hkeys : ["name", "classes"].Nodup := by decide
    exact
      { name := .of_getElem? 0 rfl hkeys rfl
        constructors := .of_absent (by simp [keysOf]) rfl
        functions := .of_absent (by simp [keysOf]) rfl
        classes := .of_getElem? 1 rfl hkeys ⟨2 * n + 1, _, rfl, rfl, _, [], ih, rfl, rfl⟩
        doc := .of_absent (by simp [keysOf]) rfl
        location := .of_absent (by simp [keysOf]) rfl }

theorem depth_nest (n : Nat) : (nest n).value.depth = 2 * n + 2 := by
  induction n with
  | zero => decide
  | succ n ih =>
    rw [value_eq, nest, fields, values, values]
    simp [ofName, Value.depth, Value.depthOfMembers, Value.depthOfAll, optionValue, ih]
    omega

theorem normalized_nest (n : Nat) : (nest n).normalized = nest n := by
  induction n with
  | zero => rfl
  | succ n ih => rw [nest, normalized_eq]; simp [ih, ofName]

theorem validate_nest (n : Nat) (scope : String) : (nest n).validate scope [] = .ok () := by
  have hblank : Text.isAllBlank "A" = false := by decide
  induction n generalizing scope with
  | zero =>
    refine validate_eq_ok_iff.mpr ⟨hblank, ?_, rfl, List.not_mem_nil⟩
    exact fun _ h => absurd h List.not_mem_nil
  | succ n ih =>
    refine validate_eq_ok_iff.mpr ⟨hblank, ?_, ?_, List.not_mem_nil⟩
    · exact fun _ h => absurd h List.not_mem_nil
    · exact validateSiblings_cons_eq_ok_iff.mpr ⟨ih _, rfl⟩

end NativeClass

namespace Declarations

def nest (n : Nat) : Declarations := ⟨none, [.nest n]⟩

def nestValue (n : Nat) : Value := .object [("classes", .list [NativeClass.nestValue n])]

theorem isWritten_nest (n : Nat) : (nest n).IsWritten (2 * n + 3) (nestValue n) := by
  have hkeys : ["classes"].Nodup := by decide
  exact ⟨2 * n + 2, _, rfl, rfl,
    { header := .of_absent (by simp [keysOf]) rfl
      classes := .of_getElem? 0 rfl hkeys
        ⟨2 * n + 1, _, rfl, rfl, _, [], NativeClass.isWritten_nest n, rfl, rfl⟩ }⟩

theorem depth_nest (n : Nat) : (nest n).value.depth = 2 * n + 4 := by
  have hclass := NativeClass.depth_nest n
  simp [nest, value, fields, NativeClass.values, Value.depth, Value.depthOfMembers,
    Value.depthOfAll, optionValue, hclass]

theorem checked_nest (n : Nat) : (nest n).checked = .ok (nest n) := by
  have hnormalized : (nest n).normalized = nest n := by
    rw [normalized, nest, NativeClass.normalizedAll_eq_map, List.map_singleton,
      NativeClass.normalized_nest]
  have hvalid : (nest n).validate = .ok () :=
    validateSiblings_cons_eq_ok_iff.mpr ⟨NativeClass.validate_nest n _, rfl⟩
  rw [checked, hnormalized, hvalid]

theorem parse_nestValue : parse (String.ofList (nestValue 62).text) = .ok (nest 62) :=
  (parse_of_isWritten (isWritten_nest 62)).trans (checked_nest 62)

theorem levelLimit_lt_depth_nest : levelLimit < (nest 62).value.depth := by
  rw [depth_nest]
  decide

/-- Reading undoes writing. What is written may lack fields that have their default, and have
others. A parsed tree is valid and normalized, and parsing what is written of it gives the same tree
if its levels do not exceed the limit. -/
theorem parse_undoes_json :
    (∀ tree : Declarations, tree.value.depth ≤ levelLimit →
      parse (String.ofList tree.json) = tree.checked ∧
      ∀ levels v, tree.IsWritten levels v → parse (String.ofList v.text) = tree.checked) ∧
    ∀ text tree, parse text = .ok tree →
      tree.validate = .ok () ∧
      (∃ written, ofText? text = .ok written ∧ written.normalized = tree) ∧
      (∀ c ∈ tree.scopedClasses, ∀ function ∈ c.decl.constructors,
        function.isConstructor = true) ∧
      (tree.value.depth ≤ levelLimit → parse (String.ofList tree.json) = .ok tree) ∧
      (levelLimit < tree.value.depth → ∃ place,
        parse (String.ofList tree.json) = .error (.malformed ⟨.recursionLimit, place⟩)) := by
  refine ⟨fun tree h => ⟨parse_json h, fun levels v hv => parse_of_isWritten (hv.within h)⟩, ?_⟩
  intro text tree h
  obtain ⟨hvalid, hwritten⟩ := parse_eq_ok h
  refine ⟨hvalid, hwritten,
    fun c hc function hf => isConstructor_of_parse h hc hf, fun hdepth => ?_, parse_json_of_deep⟩
  rw [parse_json hdepth, checked_of_parse h]

/-- A class with a constructor that is not marked as one. -/
def sketch : Declarations :=
  ⟨none, [{ NativeClass.ofName "A" with constructors := [.method "A" .void] }]⟩

/-- The class with its name behind the constructor, without defaults, and with fields that no
declaration has. -/
def sketchValue : Value :=
  .object [("version", .list [.number ⟨true, 1, [5], none⟩]),
    ("classes", .list [.object [("constructors", .list [.object [("name", .string "A")]]),
      ("name", .string "A"), ("note", .null)]])]

theorem isWritten_sketchValue : sketch.IsWritten 5 sketchValue := by
  have hfunction : (MemberFunction.method "A" .void).IsWritten 1
      (.object [("name", .string "A")]) :=
    ⟨0, _, rfl, rfl,
      { name := .of_getElem? 0 rfl (by decide) rfl
        returnType := .of_absent (by decide) rfl
        params := .of_absent (by decide) rfl
        kind := .of_absent (by decide) rfl
        isStatic := .of_absent (by decide) rfl
        doc := .of_absent (by decide) rfl
        markedOperator := .of_absent (by decide) rfl
        location := .of_absent (by decide) rfl }⟩
  have hclass : sketch.classes.head!.IsWritten 3 (.object
      [("constructors", .list [.object [("name", .string "A")]]), ("name", .string "A"),
        ("note", .null)]) := by
    refine NativeClass.isWritten_iff.mpr ⟨2, _, rfl, rfl, ?_⟩
    exact
      { name := .of_getElem? 1 rfl (by decide) rfl
        constructors := .of_getElem? 0 rfl (by decide)
          ⟨1, _, rfl, rfl, .cons hfunction .nil⟩
        functions := .of_absent (by decide) rfl
        classes := .of_absent (by decide) rfl
        doc := .of_absent (by decide) rfl
        location := .of_absent (by decide) rfl }
  exact ⟨4, _, rfl, rfl,
    { header := .of_absent (by decide) rfl
      classes := .of_getElem? 1 rfl (by decide) ⟨3, _, rfl, rfl, _, [], hclass, rfl, rfl⟩ }⟩

theorem parse_undoes_json_sketch :
    parse (String.ofList sketch.json) = .ok sketch.normalized ∧
      parse (String.ofList sketchValue.text) = .ok sketch.normalized ∧
      parse (String.ofList sketch.normalized.json) = .ok sketch.normalized ∧
      ∃ place,
        parse (String.ofList (nest 62).json) = .error (.malformed ⟨.recursionLimit, place⟩) := by
  have hchecked : sketch.checked = .ok sketch.normalized := rfl
  obtain ⟨hjson, hwritten⟩ := parse_undoes_json.1 sketch (by decide)
  have hvalue := (hwritten 5 sketchValue isWritten_sketchValue).trans hchecked
  obtain ⟨-, -, -, hagain, -⟩ := parse_undoes_json.2 _ _ hvalue
  obtain ⟨-, -, -, -, hdeep⟩ := parse_undoes_json.2 _ _ parse_nestValue
  exact ⟨hjson.trans hchecked, hvalue, hagain (by decide), hdeep levelLimit_lt_depth_nest⟩

/-- The tree is parsed from a text that leaves fields out, and not from the text with all fields. -/
theorem nest_parsed_once :
    parse (String.ofList (nestValue 62).text) = .ok (nest 62) ∧
      ∃ place,
        parse (String.ofList (nest 62).json) = .error (.malformed ⟨.recursionLimit, place⟩) :=
  ⟨parse_nestValue, parse_json_of_deep levelLimit_lt_depth_nest⟩

end Declarations

end NativeBindings
