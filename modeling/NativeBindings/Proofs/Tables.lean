import NativeBindings.Host.Type
import NativeBindings.Policy.Admission
import Mathlib.Data.List.Basic

/-!
# Tables

Aliases, wrappers and the places of a disk are kept as pairs under keys. Whatever is found under a
name was entered under it, so the wrapper that an index finds for a type belongs to one of its
classes.
-/

namespace NativeBindings

theorem mem_of_lookup {β : Type} {name : String} {value : β} {entries : List (String × β)}
    (h : entries.lookup name = some value) : (name, value) ∈ entries := by
  obtain ⟨front, back, heq, -⟩ := List.lookup_eq_some_iff.mp h
  rw [heq]
  exact List.mem_append_right front List.mem_cons_self

/-- What is under a key is still found if only entries under other keys are taken out. -/
theorem lookup_filter_of_forall {α β : Type} [BEq α] [LawfulBEq α] {entries : List (α × β)}
    {key : α} {keeps : α × β → Bool} (h : ∀ value, keeps (key, value) = true) :
    (entries.filter keeps).lookup key = entries.lookup key := by
  induction entries with
  | nil => rfl
  | cons entry rest ih =>
    obtain ⟨other, value⟩ := entry
    cases hkey : key == other with
    | true =>
      have hkept : keeps (other, value) = true := eq_of_beq hkey ▸ h value
      rw [List.filter_cons_of_pos hkept, List.lookup_cons, List.lookup_cons, hkey]
    | false =>
      rw [List.filter_cons, List.lookup_cons, hkey]
      split
      · rw [List.lookup_cons, hkey]
        exact ih
      · exact ih

theorem HostPrimitive.mem_of_ofNative? {native : String} {primitive : HostPrimitive}
    (h : ofNative? native = some primitive) : (native, primitive) ∈ nativePrimitives :=
  mem_of_lookup h

theorem AliasTable.mem_entries_of_find? {table : AliasTable} {native host : String}
    (h : table.find? native = some host) : (native, host) ∈ table.entries :=
  mem_of_lookup h

namespace WrapperIndex

variable {index : WrapperIndex} {name wrapper : String}

theorem mem_entries_put {entry : String × String} (h : entry ∈ (index.put name wrapper).entries) :
    entry = (name, wrapper) ∨ entry ∈ index.entries := by
  rcases List.mem_cons.mp h with h | h
  · exact .inl h
  · exact .inr (List.mem_filter.mp h).1

theorem mem_entries_putNew {entry : String × String}
    (h : entry ∈ (index.putNew name wrapper).entries) :
    entry = (name, wrapper) ∨ entry ∈ index.entries := by
  unfold putNew at h
  split at h
  · exact .inr h
  · exact mem_entries_put h

/-- Entering a class adds its wrapper under the two names of the class and under no other. -/
theorem mem_entries_insert {c : ScopedClass} {entry : String × String}
    (h : entry ∈ (index.insert c wrapper).entries) :
    (entry = (c.name, wrapper) ∨ entry = (c.qualifiedName, wrapper)) ∨ entry ∈ index.entries := by
  rcases mem_entries_put h with h | h
  · exact .inl (.inr h)
  · rcases mem_entries_putNew h with h | h
    · exact .inl (.inl h)
    · exact .inr h

private theorem mem_entries_foldl {classes : List (ScopedClass × String)}
    {entry : String × String}
    (h : entry ∈ (classes.foldl (fun index (c, wrapper) => index.insert c wrapper) index).entries) :
    entry ∈ index.entries ∨
      ∃ c, (c, entry.2) ∈ classes ∧ (entry.1 = c.name ∨ entry.1 = c.qualifiedName) := by
  induction classes generalizing index with
  | nil => exact .inl h
  | cons head rest ih =>
    obtain ⟨c, wrapper⟩ := head
    rcases ih h with hentry | ⟨d, hd, hname⟩
    · rcases mem_entries_insert hentry with (rfl | rfl) | hentry
      · exact .inr ⟨c, List.mem_cons_self, .inl rfl⟩
      · exact .inr ⟨c, List.mem_cons_self, .inr rfl⟩
      · exact .inl hentry
    · exact .inr ⟨d, List.mem_cons_of_mem _ hd, hname⟩

theorem exists_of_find?_ofList {classes : List (ScopedClass × String)}
    (h : (ofList classes).find? name = some wrapper) :
    ∃ c, (c, wrapper) ∈ classes ∧ (name = c.name ∨ name = c.qualifiedName) := by
  rcases mem_entries_foldl (mem_of_lookup h) with hentry | hclass
  · exact absurd hentry List.not_mem_nil
  · exact hclass

theorem exists_of_wrapperFor?_ofList {classes : List (ScopedClass × String)} {type : NativeType}
    (h : (ofList classes).wrapperFor? type = some wrapper) :
    ∃ c, (c, wrapper) ∈ classes ∧ (type.baseName = c.name ∨ type.baseName = c.qualifiedName) :=
  exists_of_find?_ofList h

end WrapperIndex

end NativeBindings
