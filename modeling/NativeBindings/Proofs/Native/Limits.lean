import NativeBindings.Proofs.Json.Limits
import NativeBindings.Proofs.Native.Values

/-!
# Declarations beyond the limit of levels

What is written of declarations is read only if it keeps to the limit of levels. Otherwise reading
stops at the first list or object beyond it.
-/

namespace NativeBindings

open Json (HasField ListForm ObjectForm OptionForm TextForm Value keysOf)
open Json.Reader

theorem optionValue_depth_text (text : Option String) :
    (optionValue Value.string text).depth = 0 := by
  cases text <;> rfl

theorem SourceLocation.exceeds {location : Option SourceLocation} {levels : Nat}
    (h : levels < (optionValue (·.value) location).depth) :
    (optional (readLocation levels)).Exceeds (optionValue (·.value) location) := by
  cases location with
  | none => exact absurd h (Nat.not_lt_zero levels)
  | some location =>
    have hdepth : location.value.depth = 1 := by
      simp [value, Value.depth, Value.depthOfMembers, optionValue_depth_text]
    obtain rfl : levels = 0 := Nat.lt_one_iff.mp (hdepth ▸ h)
    exact exceeds_optional (exceeds_record_zero _ _ _) (by rintro ⟨⟩)

theorem Parameter.keepsLimit (param : Parameter) : KeepsLimit readParameter param.value := by
  intro levels
  refine ⟨fun h => ⟨param, (param.isWritten_value h).reads⟩, fun h => ?_⟩
  have hdepth : param.value.depth = 1 := by simp [value, Value.depth, Value.depthOfMembers]
  obtain rfl : levels = 0 := Nat.lt_one_iff.mp (hdepth ▸ h)
  exact exceeds_record_zero _ _ _

namespace MemberFunction

variable (function : MemberFunction)

theorem exceedsMember_fields {m : String × Value} (hm : m ∈ function.fields) {inner : Nat}
    (hdeep : inner < m.2.depth) {keys : List String} (hkey : m.1 ∉ keys) (read : MemberFunction) :
    ExceedsMember (FunctionFields.read inner) (.of read keys) m := by
  intro rest
  simp only [fields, List.mem_cons, List.not_mem_nil, or_false] at hm
  rcases hm with rfl | rfl | rfl | rfl | rfl | rfl | rfl | rfl
  case inr.inr.inl =>
    have hparams := exceeds_list_of_depth
      (List.forall_mem_map.mpr fun param (_ : param ∈ function.params) => param.keepsLimit) hdeep
    simp only [FunctionFields.read]
    exact overflows_field hkey hparams _ rest
  case inr.inr.inr.inr.inr.inr.inr =>
    simp only [FunctionFields.read]
    exact overflows_field hkey (SourceLocation.exceeds hdeep) _ rest
  case inr.inr.inr.inr.inr.inl => exact absurd hdeep (by simp [optionValue_depth_text])
  all_goals exact absurd hdeep (Nat.not_lt_zero inner)

theorem exceeds {levels : Nat} (h : levels < function.value.depth) :
    (readFunction levels).Exceeds function.value := by
  cases levels with
  | zero => exact exceeds_record_zero _ _ _
  | succ inner =>
    refine exceeds_record rfl h fun k m hm hdeep hfits => ?_
    -- The first member is the name, which takes no level.
    have hk : 0 < k := by
      rw [Nat.pos_iff_ne_zero]
      rintro rfl
      cases hm
      exact absurd hdeep (Nat.not_lt_zero inner)
    have hread := FunctionFields.readsMembers (function.hasMembers_take hk hfits)
    exact ⟨_, rfl, hread, function.exceedsMember_fields (List.mem_of_getElem? hm) hdeep
      (notMem_keysOf function.nodup_fields hm) _⟩

theorem keepsLimit : KeepsLimit readFunction function.value :=
  fun _ => ⟨fun h => ⟨function, (function.isWritten_value h).reads⟩, function.exceeds⟩

end MemberFunction

theorem exceeds_functions {functions : List MemberFunction} {levels : Nat}
    (h : levels < (Value.list (functions.map (·.value))).depth) :
    (list levels (readFunction (levels - 1))).Exceeds (.list (functions.map (·.value))) :=
  exceeds_list_of_depth (List.forall_mem_map.mpr fun function _ => function.keepsLimit) h

namespace NativeClass

theorem exceeds_values {classes : List NativeClass}
    (hnested : ∀ nested ∈ classes, ∀ {levels}, levels < nested.value.depth →
      (readClass levels).Exceeds nested.value) {levels : Nat}
    (h : levels < (Value.list (values classes)).depth) :
    (list levels (readClass (levels - 1))).Exceeds (.list (values classes)) := by
  rw [values_eq_map] at h ⊢
  refine exceeds_list_of_depth (List.forall_mem_map.mpr fun nested hn levels => ?_) h
  exact ⟨fun h => ⟨nested, (nested.isWritten_value h).reads⟩, hnested nested hn⟩

theorem exceedsMember_fields {c : NativeClass}
    (hnested : ∀ nested ∈ c.classes, ∀ {levels}, levels < nested.value.depth →
      (readClass levels).Exceeds nested.value) {m : String × Value} (hm : m ∈ c.fields)
    {inner : Nat} (hdeep : inner < m.2.depth) {keys : List String} (hkey : m.1 ∉ keys)
    (read : NativeClass) :
    ExceedsMember (ClassFields.read inner (list inner (readClass (inner - 1)))) (.of read keys)
      m := by
  intro rest
  simp only [fields, List.mem_cons, List.not_mem_nil, or_false] at hm
  rcases hm with rfl | rfl | rfl | rfl | rfl | rfl
  case inr.inl =>
    simp only [ClassFields.read]
    exact overflows_field hkey (exceeds_functions hdeep) _ rest
  case inr.inr.inl =>
    simp only [ClassFields.read]
    exact overflows_field hkey (exceeds_functions hdeep) _ rest
  case inr.inr.inr.inl =>
    simp only [ClassFields.read]
    exact overflows_field hkey (exceeds_values hnested hdeep) _ rest
  case inr.inr.inr.inr.inr =>
    simp only [ClassFields.read]
    exact overflows_field hkey (SourceLocation.exceeds hdeep) _ rest
  case inr.inr.inr.inr.inl => exact absurd hdeep (by simp [optionValue_depth_text])
  case inl => exact absurd hdeep (Nat.not_lt_zero inner)

theorem exceeds (c : NativeClass) {levels : Nat} (h : levels < c.value.depth) :
    (readClass levels).Exceeds c.value := by
  induction c using NativeClass.nestedInduction generalizing levels with
  | step c ih =>
    rw [value_eq] at h ⊢
    cases levels with
    | zero => exact exceeds_record_zero _ _ _
    | succ inner =>
      rw [readClass_succ]
      refine exceeds_record rfl h fun k m hm hdeep hfits => ?_
      have hk : 0 < k := by
        rw [Nat.pos_iff_ne_zero]
        rintro rfl
        cases hm
        exact absurd hdeep (Nat.not_lt_zero inner)
      have hmembers := c.hasMembers_take hk (fun nested _ => nested.isWritten_value) hfits
      have hread := ClassFields.readsMembers hmembers fun v =>
        reads_nested fun _ _ => IsWritten.reads
      exact ⟨_, rfl, hread, exceedsMember_fields (fun nested hn => ih nested hn)
        (List.mem_of_getElem? hm) hdeep (notMem_keysOf c.nodup_fields hm) _⟩

end NativeClass

namespace Declarations

theorem exceeds (tree : Declarations) {levels : Nat} (h : levels < tree.value.depth) :
    (readDeclarations levels).Exceeds tree.value := by
  cases levels with
  | zero => exact exceeds_record_zero _ _ _
  | succ inner =>
    refine exceeds_record rfl h fun k m hm hdeep hfits => ?_
    have hkey := notMem_keysOf tree.nodup_fields hm
    have hmem : m ∈ tree.fields := List.mem_of_getElem? hm
    refine ⟨_, rfl, TreeFields.readsMembers (tree.hasMembers_take hfits), fun rest => ?_⟩
    simp only [fields, List.mem_cons, List.not_mem_nil, or_false] at hmem
    rcases hmem with rfl | rfl
    · exact absurd hdeep (by simp [optionValue_depth_text])
    · have hclasses := NativeClass.exceeds_values (fun c (_ : c ∈ tree.classes) => c.exceeds) hdeep
      simp only [TreeFields.read]
      exact overflows_field hkey hclasses _ rest

end Declarations

end NativeBindings
