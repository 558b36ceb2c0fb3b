import NativeBindings.Proofs.Native.Decoration
import NativeBindings.Proofs.Tables

/-!
# Levels of indirection

How often a value has to be followed, read off a type on either side of the boundary. The host type
of a native type has as many levels as the native one, as long as aliases are between names.
-/

namespace NativeBindings

open Text

def nativeLevels (type : String) : Nat := type.toList.count '*'

/-- Levels of a C# type; a reference is one more level. -/
def hostLevels (type : String) : Nat :=
  match afterWord? "ref ".toList type.toList with
  | some referenced => referenced.count '*' + 1
  | none => type.toList.count '*'

theorem hostLevels_reference (host : String) :
    hostLevels ("ref " ++ host) = host.toList.count '*' + 1 := by
  have hafter : afterWord? "ref ".toList ("ref " ++ host).toList = some host.toList := by
    rw [String.toList_append]
    exact afterWord?_eq_some_iff.mpr rfl
  simp only [hostLevels, hafter]

theorem hostLevels_of_not_reference {host : String} (h : ¬ "ref ".toList <+: host.toList) :
    hostLevels host = host.toList.count '*' := by
  unfold hostLevels
  split
  · rename_i referenced hafter
    exact absurd ⟨referenced, (afterWord?_eq_some_iff.mp hafter).symm⟩ h
  · rfl

namespace HostPrimitive

theorem keyword_noStar (primitive : HostPrimitive) : '*' ∉ primitive.keyword.toList := by
  cases primitive <;> decide

theorem keyword_not_reference (primitive : HostPrimitive) :
    ¬ "ref ".toList <+: primitive.keyword.toList := by
  cases primitive <;> decide

theorem noStar_of_ofNative? {native : List Char} {primitive : HostPrimitive}
    (h : ofNative? (String.ofList native) = some primitive) : '*' ∉ native := by
  have hall : ∀ entry ∈ nativePrimitives, '*' ∉ entry.1.toList := by decide
  have hentry := hall _ (mem_of_ofNative? h)
  rwa [String.toList_ofList] at hentry

end HostPrimitive

namespace AliasTable

/-- Native and host names of aliases are written without stars, and no host name reads as a
reference. -/
def BetweenNames (table : AliasTable) : Prop :=
  ∀ entry ∈ table.entries, '*' ∉ entry.1.toList ∧ '*' ∉ entry.2.toList ∧
    ¬ "ref ".toList <+: entry.2.toList

variable {table : AliasTable}

theorem count_resolve (ha : table.BetweenNames) {native : List Char}
    (hp : HostPrimitive.ofNative? (String.ofList native) = none) :
    (table.resolve (String.ofList native)).toList.count '*' = native.count '*' := by
  rw [resolve, hp]
  cases hf : table.find? (String.ofList native) with
  | none => simp
  | some host =>
    obtain ⟨hnative, hhost, -⟩ := ha _ (mem_entries_of_find? hf)
    rw [String.toList_ofList] at hnative
    simp only [Option.getD_some]
    rw [List.count_eq_zero_of_not_mem hhost, List.count_eq_zero_of_not_mem hnative]

private theorem count_referenced (native : List Char) :
    (((withoutLast? '&' (trim native)).map trimEnd).getD (trim native)).count '*' =
      native.count '*' := by
  rw [← count_trim isBlank_star native]
  cases h : withoutLast? '&' (trim native) with
  | none => rfl
  | some front =>
    rw [eq_append_of_withoutLast? h]
    simp [count_trimEnd isBlank_star]

/-- Every star of a native spelling is in its host type, and no other. -/
theorem count_hostSpelling (ha : table.BetweenNames) (native : List Char) :
    (table.hostSpelling native).count '*' = native.count '*' := by
  fun_induction table.hostSpelling native with
  | case1 native pointee hp ih =>
    rw [← count_trim isBlank_star native, eq_append_of_withoutLast? hp, List.count_append,
      List.count_append, ih]
  | case2 native hp referenced primitive hprimitive =>
    have href : referenced.count '*' = native.count '*' := count_referenced native
    rw [← href, List.count_eq_zero_of_not_mem primitive.keyword_noStar,
      List.count_eq_zero_of_not_mem (HostPrimitive.noStar_of_ofNative? hprimitive)]
  | case3 native hp referenced hprimitive unqualified hconst ih =>
    have href : referenced.count '*' = native.count '*' := count_referenced native
    have hword : "const ".toList.count '*' = 0 := by decide
    rw [ih, ← href, afterWord?_eq_some_iff.mp hconst, List.count_append, hword, Nat.zero_add]
  | case4 native hp referenced hprimitive =>
    have href : referenced.count '*' = native.count '*' := count_referenced native
    rw [count_resolve ha hprimitive, href]

theorem words_referenced (native : List Char) :
    words (((withoutLast? '&' (trim native)).map trimEnd).getD (trim native)) = words native := by
  rw [← words_trim native]
  cases h : withoutLast? '&' (trim native) with
  | none => rfl
  | some front =>
    rw [eq_append_of_withoutLast? h, words_append_marks (List.forall_mem_singleton.mpr (by decide))]
    exact words_trimEnd front

private theorem ref_mem_words {text : List Char} (h : "ref ".toList <+: text) :
    "ref".toList ∈ words text := by
  obtain ⟨rest, rfl⟩ := h
  have hwords := words_append_cons (c := ' ') (by decide) "ref".toList rest
  have href : words "ref".toList = ["ref".toList] :=
    words_of_noMark (by decide) (NativeType.noMark_of_all (by decide))
  change "ref".toList ∈ words ("ref".toList ++ ' ' :: rest)
  rw [hwords, href]
  exact List.mem_cons_self

theorem ref_mem_words_of_hostSpelling (ha : table.BetweenNames) (native : List Char)
    (h : "ref ".toList <+: table.hostSpelling native) : "ref".toList ∈ words native := by
  fun_induction table.hostSpelling native with
  | case1 native pointee hp ih =>
    have hpointee : "ref ".toList <+: table.hostSpelling pointee := by
      rcases List.prefix_concat_iff.mp h with heq | hpointee
      · have hlast := congrArg List.getLast? heq
        rw [List.getLast?_concat] at hlast
        exact absurd hlast (by decide)
      · exact hpointee
    rw [← words_trim, eq_append_of_withoutLast? hp,
      words_append_marks (List.forall_mem_singleton.mpr (by decide))]
    exact ih hpointee
  | case2 native hp referenced primitive hprimitive =>
    exact absurd h primitive.keyword_not_reference
  | case3 native hp referenced hprimitive unqualified hconst ih =>
    have hwords : words referenced = words native := words_referenced native
    have hreferenced : referenced = "const".toList ++ ' ' :: unqualified :=
      (afterWord?_eq_some_iff.mp hconst).trans rfl
    rw [← hwords, hreferenced, words_append_cons (by decide), List.mem_append]
    exact .inr (ih h)
  | case4 native hp referenced hprimitive hconst =>
    have hwords : words referenced = words native := words_referenced native
    rw [resolve, hprimitive] at h
    rw [← hwords]
    cases hf : table.find? (String.ofList referenced) with
    | none =>
      simp only [hf, Option.getD_none, String.toList_ofList] at h
      exact ref_mem_words h
    | some host =>
      simp only [hf, Option.getD_some] at h
      exact absurd h (ha _ (mem_entries_of_find? hf)).2.2

section

variable {type : NativeType} {name : List Char} {levels : List Bool} {mark : ReferenceMark}

theorem count_hostType (ha : table.BetweenNames) (hn : IsBareName name)
    (h : type.SpelledOver name levels mark) :
    (table.hostType type).toList.count '*' = levels.length := by
  rw [hostType, hostName, String.toList_ofList, count_hostSpelling ha, h.count_star hn]

theorem hostLevels_hostType (ha : table.BetweenNames) (hn : IsTypeName name)
    (h : type.SpelledOver name levels mark) : hostLevels (table.hostType type) = levels.length := by
  rw [← count_hostType ha hn.toIsBareName h]
  have hspelled : (table.hostType type).toList = table.hostSpelling type.spelling.toList := by
    rw [hostType, hostName, String.toList_ofList]
  apply hostLevels_of_not_reference
  intro href
  rw [hspelled] at href
  have hword := ref_mem_words_of_hostSpelling ha _ href
  rcases h.eq_of_mem_words hn.toIsBareName hword with hconst | hname
  · exact absurd hconst (by decide)
  · exact hn.ne_ref hname.symm

end

end AliasTable

end NativeBindings
