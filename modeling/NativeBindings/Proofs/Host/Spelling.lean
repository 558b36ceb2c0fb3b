import NativeBindings.Policy.Naming
import NativeBindings.Proofs.Naming.MemberName
import NativeBindings.Proofs.Tables

/-!
# Characters of host names

Host types consist of characters of their native types, of aliases and of the names of primitives,
with stars behind. Names of members and parameters bring no line feed along.
-/

namespace NativeBindings

open Text

private theorem forall_mem_referenced {p : Char → Prop} {native : List Char}
    (h : ∀ c ∈ native, p c) :
    ∀ c ∈ ((withoutLast? '&' (trim native)).map trimEnd).getD (trim native), p c := by
  have htrim := consistsOf_trim h
  cases hreference : withoutLast? '&' (trim native) with
  | none => exact htrim
  | some referenced =>
    rw [eq_append_of_withoutLast? hreference] at htrim
    intro c hc
    exact htrim c (List.mem_append_left _ ((trimEnd_isPrefix referenced).subset hc))

namespace AliasTable

variable {table : AliasTable} {p : Char → Prop}
  (hprimitive : ∀ primitive : HostPrimitive, ConsistsOf p primitive.keyword)
  (halias : ∀ entry ∈ table.entries, ConsistsOf p entry.2)

include hprimitive halias

theorem consistsOf_resolve {native : String} (h : ConsistsOf p native) :
    ConsistsOf p (table.resolve native) := by
  rw [resolve]
  split
  · exact hprimitive _
  · cases hf : table.find? native with
    | none => exact h
    | some host => exact halias _ (mem_entries_of_find? hf)

theorem forall_mem_hostSpelling (hstar : p '*') {native : List Char} (h : ∀ c ∈ native, p c) :
    ∀ c ∈ table.hostSpelling native, p c := by
  fun_induction table.hostSpelling native with
  | case1 native pointee hp ih =>
    have htrim := consistsOf_trim h
    rw [eq_append_of_withoutLast? hp, List.forall_mem_append] at htrim
    rw [List.forall_mem_append]
    exact ⟨ih htrim.1, by simpa using hstar⟩
  | case2 native hp referenced primitive hof => exact hprimitive primitive
  | case3 native hp referenced hof unqualified hc ih =>
    have hreferenced : ∀ c ∈ referenced, p c := forall_mem_referenced h
    rw [afterWord?_eq_some_iff.mp hc, List.forall_mem_append] at hreferenced
    exact ih hreferenced.2
  | case4 native hp referenced hof hc =>
    apply consistsOf_resolve hprimitive halias
    rw [consistsOf_ofList]
    exact forall_mem_referenced h

theorem consistsOf_hostName (hstar : p '*') {native : String} (h : ConsistsOf p native) :
    ConsistsOf p (table.hostName native) := by
  rw [hostName, consistsOf_ofList]
  exact forall_mem_hostSpelling hprimitive halias hstar h

end AliasTable

theorem HostPrimitive.isPlain_keyword (primitive : HostPrimitive) :
    ConsistsOf IsPlain primitive.keyword := by
  cases primitive <;> decide

theorem isInLine_pascalCase {name : String} (h : ConsistsOf IsInLine name) :
    ConsistsOf IsInLine (pascalCase name) :=
  consistsOf_pascalCase (fun _ => isInLine_uppercase) (forall_mem_splitOn '_' h)

theorem NamingPolicy.isInLine_memberName {naming : NamingPolicy} {native : String}
    (hrenames : ∀ rule ∈ naming.renames, ConsistsOf IsInLine rule.target)
    (h : ConsistsOf IsInLine native) (isStatic : Bool) :
    ConsistsOf IsInLine (naming.memberName native isStatic) := by
  simp only [memberName]
  split
  · rename_i rule hfind
    exact hrenames rule (List.mem_of_find?_eq_some hfind)
  · exact isInLine_pascalCase h

theorem isInLine_parameterName {declared : String} (h : ConsistsOf IsInLine declared)
    (position : Nat) : ConsistsOf IsInLine (parameterName declared position) := by
  simp only [parameterName]
  split
  · rw [consistsOf_append]
    exact ⟨by decide, isInLine_toString position⟩
  · split
    · decide
    · rw [consistsOf_ofList]
      exact consistsOf_trim h

theorem isInLine_hostIdentifier {name : String} (h : ConsistsOf IsInLine name) :
    ConsistsOf IsInLine (hostIdentifier name) := by
  unfold hostIdentifier
  split
  · exact consistsOf_append.mpr ⟨by decide, h⟩
  · exact h

end NativeBindings
