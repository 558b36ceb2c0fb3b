import NativeBindings.Proofs.Host.Levels
import NativeBindings.Proofs.Host.Mapping
import NativeBindings.Proofs.Host.Spelling
import NativeBindings.Proofs.Native.BaseName

/-!
# Qualifiers of host types

The mapping drops a qualifier in front of everything else if a space follows, and no other. The host
type of a decorated name is free of the qualifier exactly if all of them stand there.
-/

namespace NativeBindings

open Text NativeType

/-- The qualifier is one of the words. -/
def HasConst (text : List Char) : Prop := "const".toList ∈ words text

instance (text : List Char) : Decidable (HasConst text) :=
  inferInstanceAs (Decidable ("const".toList ∈ words text))

theorem hasConst_append_marks {marks : List Char} (hm : ∀ c ∈ marks, isMark c = true)
    (text : List Char) : HasConst (text ++ marks) ↔ HasConst text := by
  rw [HasConst, words_append_marks hm, HasConst]

theorem not_hasConst_of_noMark {name : List Char} (h : ∀ c ∈ name, isMark c = false)
    (hne : name ≠ "const".toList) : ¬ HasConst name := by
  cases name with
  | nil => simp [HasConst]
  | cons c name =>
    rw [HasConst, words_of_noMark (by simp) h, List.mem_singleton]
    exact hne.symm

theorem HostPrimitive.not_hasConst_keyword (primitive : HostPrimitive) :
    ¬ HasConst primitive.keyword.toList := by
  cases primitive <;> decide

namespace AliasTable

/-- No alias brings a qualifier or a reference along. -/
def HasPlainTargets (table : AliasTable) : Prop :=
  ∀ entry ∈ table.entries, ¬ HasConst entry.2.toList ∧ '&' ∉ entry.2.toList

/-- No alias is for a spelling with the qualifier. -/
def HasPlainKeys (table : AliasTable) : Prop := ∀ entry ∈ table.entries, ¬ HasConst entry.1.toList

variable {table : AliasTable} {native : List Char}

theorem not_hasConst_resolve (ha : table.HasPlainTargets) (h : ¬ HasConst native) :
    ¬ HasConst (table.resolve (String.ofList native)).toList := by
  rw [resolve]
  split
  · exact HostPrimitive.not_hasConst_keyword _
  · cases hf : table.find? (String.ofList native) with
    | none => simpa using h
    | some host => exact (ha _ (mem_entries_of_find? hf)).1

theorem hasConst_resolve (hk : table.HasPlainKeys)
    (hp : HostPrimitive.ofNative? (String.ofList native) = none) (h : HasConst native) :
    HasConst (table.resolve (String.ofList native)).toList := by
  rw [resolve, hp]
  cases hf : table.find? (String.ofList native) with
  | none => simpa using h
  | some host =>
    have hkey := hk _ (mem_entries_of_find? hf)
    rw [String.toList_ofList] at hkey
    exact absurd h hkey

theorem not_hasConst_of_mapped (ha : table.HasPlainTargets) {name : List Char}
    (hn : IsBareName name) {stars : Nat} (h : MappedSpelling name stars native) :
    ¬ HasConst (table.hostSpelling native) := by
  have hstars : ∀ c ∈ List.replicate stars '*', isMark c = true := by
    intro c hc
    rw [List.eq_of_mem_replicate hc]
    decide
  rw [hostSpelling_mapped hn h, hasConst_append_marks hstars]
  exact not_hasConst_resolve ha (not_hasConst_of_noMark hn.noMark hn.ne_const)

theorem ampersand_notMem_hostSpelling (ha : table.HasPlainTargets) (h : '&' ∉ native) :
    '&' ∉ table.hostSpelling native := by
  have hprimitive (primitive : HostPrimitive) : ConsistsOf (· ≠ '&') primitive.keyword := by
    cases primitive <;> decide
  have halias : ∀ entry ∈ table.entries, ConsistsOf (· ≠ '&') entry.2 := by
    rintro entry hentry _ hc rfl
    exact (ha entry hentry).2 hc
  have hnative : ∀ c ∈ native, c ≠ '&' := by
    rintro _ hc rfl
    exact h hc
  exact fun hc => forall_mem_hostSpelling hprimitive halias (by decide) hnative _ hc rfl

/-- A qualifier at the end stays if another word stands before it. -/
theorem hasConst_hostSpelling (hk : table.HasPlainKeys)
    (hlast : (words native).getLast? = some "const".toList)
    (hother : ∃ word ∈ words native, word ≠ "const".toList) :
    HasConst (table.hostSpelling native) := by
  fun_induction table.hostSpelling native with
  | case1 native pointee hp ih =>
    have hstar : ∀ c ∈ ['*'], isMark c = true := List.forall_mem_singleton.mpr (by decide)
    rw [← words_trim, eq_append_of_withoutLast? hp, words_append_marks hstar] at hlast hother
    rw [hasConst_append_marks hstar]
    exact ih hlast hother
  | case2 native hp referenced primitive hprimitive =>
    have hall : ∀ entry ∈ nativePrimitives,
        (words entry.1.toList).getLast? ≠ some "const".toList := by decide
    have hentry := hall _ (HostPrimitive.mem_of_ofNative? hprimitive)
    have hwords : words referenced = words native := words_referenced native
    simp only [String.toList_ofList] at hentry
    rw [hwords] at hentry
    exact absurd hlast hentry
  | case3 native hp referenced hprimitive unqualified hconst ih =>
    have hreferenced : referenced = "const".toList ++ ' ' :: unqualified :=
      (afterWord?_eq_some_iff.mp hconst).trans rfl
    have hwords : words native = "const".toList :: words unqualified := by
      rw [← words_referenced native]
      change words referenced = _
      rw [hreferenced, words_append_cons (by decide), words_const, List.singleton_append]
    rw [hwords] at hlast hother
    obtain ⟨word, hword, hne⟩ := hother
    have hword := (List.mem_cons.mp hword).resolve_left hne
    rw [List.getLast?_cons_of_ne_nil (List.ne_nil_of_mem hword)] at hlast
    exact ih hlast ⟨word, hword, hne⟩
  | case4 native hp referenced hprimitive hconst =>
    have hwords : words referenced = words native := words_referenced native
    apply hasConst_resolve hk hprimitive
    rw [HasConst, hwords]
    exact List.mem_of_getLast? hlast

theorem hasConst_hostSpelling_behind (hk : table.HasPlainKeys) {name front marks : List Char}
    (hn : IsBareName name) (hfront : name ∈ words front) (hm : ∀ c ∈ marks, isMark c = true)
    (hne : marks ≠ []) : HasConst (table.hostSpelling (front ++ (marks ++ "const".toList))) := by
  have hwords : words (front ++ (marks ++ "const".toList)) = words front ++ ["const".toList] := by
    rw [words_append_marks_append hm hne, words_const]
  apply hasConst_hostSpelling hk
  · rw [hwords, List.getLast?_concat]
  · refine ⟨name, ?_, hn.ne_const⟩
    rw [hwords]
    exact List.mem_append_left _ hfront

theorem hasConst_hostSpelling_front (hk : table.HasPlainKeys) {name lead gap : List Char} {c : Char}
    (hn : IsBareName name) (hl : AreBlanks lead) (hg : AreBlanks (c :: gap)) (hc : c ≠ ' ') :
    HasConst (table.hostSpelling (lead ++ ("const".toList ++ (c :: gap ++ name)))) := by
  have hend : ∀ d ∈ ("const".toList ++ (c :: gap ++ name)).getLast?, isMark d = false := by
    rw [← List.append_assoc]
    exact hn.noMark_getLast? _
  have htrim : trim (lead ++ ("const".toList ++ (c :: gap ++ name))) =
      "const".toList ++ (c :: gap ++ name) := by
    rw [trim_append_left hl, trim_const_append hend]
  have hafter : afterWord? "const ".toList ("const".toList ++ (c :: gap ++ name)) = none :=
    afterConst?_ne_space hc _
  have hprimitive : HostPrimitive.ofNative?
      (String.ofList ("const".toList ++ (c :: gap ++ name))) = none := by
    have hall : ∀ entry ∈ nativePrimitives, "const".toList <+: entry.1.toList →
        "const ".toList <+: entry.1.toList := by decide
    apply Option.eq_none_iff_forall_ne_some.mpr
    intro primitive hprimitive
    have hentry := hall _ (HostPrimitive.mem_of_ofNative? hprimitive)
    simp only [String.toList_ofList] at hentry
    obtain ⟨rest, hrest⟩ := hentry (List.prefix_append _ _)
    rw [afterWord?_eq_some_iff.mpr hrest.symm] at hafter
    cases hafter
  have hqualified : HasConst ("const".toList ++ (c :: gap ++ name)) := by
    rw [HasConst, words_append_marks_append hg.marks (by simp), words_const]
    exact List.mem_cons_self
  rw [hostSpelling_of_getLast? (by rwa [htrim]), htrim, hostUnreferenced, hprimitive, hafter]
  exact hasConst_resolve hk hprimitive hqualified

end AliasTable

namespace PointerSpelling

variable {table : AliasTable} {name cs : List Char} {levels : List Bool}

/-- Either all qualifiers stand in front of the name with a space behind, or one is kept. -/
theorem front_or_hasConst (hk : table.HasPlainKeys) (hn : IsBareName name)
    (h : PointerSpelling name levels cs) :
    FrontPointers name levels.length cs ∨ HasConst (table.hostSpelling cs) := by
  induction h with
  | name h =>
    cases h with
    | plain hl => exact .inl (.name (.name hl))
    | @const lead gap hl hg hne =>
      obtain ⟨c, gap, rfl⟩ := List.exists_cons_of_ne_nil hne
      by_cases hc : c = ' '
      · subst hc
        have hgap : AreBlanks gap := fun d hd => hg d (List.mem_cons_of_mem _ hd)
        exact .inl (.name (.const hl (.name hgap)))
      · exact .inr (AliasTable.hasConst_hostSpelling_front hk hn hl hg hc)
  | nameConst h hg hne =>
    exact .inr (AliasTable.hasConst_hostSpelling_behind hk hn (h.name_mem_words hn) hg.marks hne)
  | @star levels cs gap h hg ih =>
    rcases ih with hfront | hconst
    · exact .inl (hfront.star hg)
    · have hstar : ∀ c ∈ ['*'], isMark c = true := List.forall_mem_singleton.mpr (by decide)
      rw [← List.append_assoc, AliasTable.hostSpelling_star, hasConst_append_marks hstar,
        AliasTable.hostSpelling_congr (trim_append_right hg cs)]
      exact .inr hconst
  | constStar h hg hg' =>
    exact .inr (AliasTable.hasConst_hostSpelling_behind hk hn (h.name_mem_words hn)
      (hg.marks_star hg') (by simp))

end PointerSpelling

namespace NativeType.SpelledOver

variable {type : NativeType} {name : List Char} {levels : List Bool} {mark : ReferenceMark}

theorem exists_pointers (hn : IsBareName name) (h : type.SpelledOver name levels mark)
    (hm : mark ≠ .rvalue) (hl : mark = .lvalue → levels = []) :
    ∃ cs, PointerSpelling name levels cs ∧
      (∀ table : AliasTable, (table.hostType type).toList = table.hostSpelling cs) ∧
      (FrontPointers name levels.length cs →
        MappedSpelling name levels.length type.spelling.toList) := by
  obtain ⟨cs, gap, tail, hcs, hg, ht, heq⟩ := h
  refine ⟨cs, hcs, ?_, ?_⟩
  · intro table
    rw [AliasTable.hostType, AliasTable.hostName, String.toList_ofList, heq]
    cases mark with
    | none =>
      have hblanks : AreBlanks (gap ++ tail) := List.forall_mem_append.mpr ⟨hg, ht⟩
      exact AliasTable.hostSpelling_congr (trim_append_right hblanks cs)
    | lvalue =>
      obtain rfl := hl rfl
      obtain ⟨front, c, rfl, hc⟩ := hcs.exists_concat hn
      exact AliasTable.hostSpelling_reference hc hg ht
    | rvalue => exact absurd rfl hm
  · intro hfront
    rw [heq]
    cases mark with
    | none => exact .pointers hfront (List.forall_mem_append.mpr ⟨hg, ht⟩)
    | lvalue =>
      obtain rfl := hl rfl
      exact .reference hfront hg ht
    | rvalue => exact absurd rfl hm

theorem mapped_or_hasConst {table : AliasTable} (hk : table.HasPlainKeys) (hn : IsBareName name)
    (h : type.SpelledOver name levels mark) (hm : mark ≠ .rvalue)
    (hl : mark = .lvalue → levels = []) :
    MappedSpelling name levels.length type.spelling.toList ∨
      HasConst (table.hostType type).toList := by
  obtain ⟨cs, hcs, hhost, hmapped⟩ := h.exists_pointers hn hm hl
  rw [hhost]
  exact (hcs.front_or_hasConst hk hn).imp_left hmapped

theorem ampersand_notMem_hostType {table : AliasTable} (ha : table.HasPlainTargets)
    (hn : IsBareName name) (h : type.SpelledOver name levels mark) (hm : mark ≠ .rvalue)
    (hl : mark = .lvalue → levels = []) : '&' ∉ (table.hostType type).toList := by
  obtain ⟨cs, hcs, hhost, -⟩ := h.exists_pointers hn hm hl
  rw [hhost]
  exact AliasTable.ampersand_notMem_hostSpelling ha (hcs.ampersand_notMem hn)

theorem baseName_of_mapped (hn : IsBareName name) (h : type.SpelledOver name levels mark)
    {stars : Nat} (hmapped : MappedSpelling name stars type.spelling.toList) :
    type.baseName = String.ofList name := by
  rcases h.baseName_cases hn with hbase | ⟨c, gap, hg, hc, ⟨back, hprefix⟩, -⟩
  · exact hbase
  · -- The text cannot start with a qualifier that no space follows.
    obtain ⟨front, marks, hfront, hmarks, heq⟩ := hmapped.exists_marks
    rw [heq] at hprefix
    cases hfront with
    | @name lead hl =>
      have hhead : ∀ d ∈ (name ++ marks).head?, isBlank d = false := by
        intro d hd
        rw [List.head?_append_of_ne_nil _ hn.ne_nil] at hd
        exact isBlank_of_not_isMark (hn.noMark d (List.mem_of_mem_head? hd))
      rw [List.append_assoc lead, trimStart_append hl, trimStart_eq_self hhead,
        List.append_assoc] at hprefix
      have hcut := congrArg (List.takeWhile fun d => !isMark d) hprefix
      have hgap : ∀ d ∈ (c :: gap ++ name ++ back).head?, isMark d = true :=
        fun d hd => hg.marks d (by cases hd; exact List.mem_cons_self)
      rw [takeWhile_word_append (noMark_of_all (by decide)) hgap,
        takeWhile_word_append hn.noMark fun d hd => hmarks d (List.mem_of_mem_head? hd)] at hcut
      exact absurd hcut.symm hn.ne_const
    | @const lead rest hl hrest =>
      have hstart : trimStart (lead ++ ("const ".toList ++ rest) ++ marks) =
          "const".toList ++ (' ' :: rest ++ marks) := by
        rw [List.append_assoc lead, trimStart_append hl]
        rfl
      rw [hstart, List.append_assoc] at hprefix
      exact absurd (List.cons.inj (List.append_cancel_left hprefix)).1 hc

end NativeType.SpelledOver

end NativeBindings
