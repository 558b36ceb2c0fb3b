import NativeBindings.Proofs.Native.Decoration

/-!
# Base names

All that decorates a name behind it is taken off before the base name is read, and so is a qualifier
in front that ends in a space. One that is set off by another blank passes for a part of the name.
-/

namespace NativeBindings

open Text NativeType

theorem undecorated_marks_append {marks : List Char} (hm : ∀ c ∈ marks, isMark c = true)
    (cs : List Char) : undecorated (marks ++ cs) = undecorated cs := by
  induction marks with
  | nil => rfl
  | cons c marks ih =>
    rw [List.cons_append, undecorated, if_pos (hm c List.mem_cons_self)]
    exact ih fun d hd => hm d (List.mem_cons_of_mem c hd)

theorem undecorated_const {rest : List Char} (hne : rest ≠ [])
    (hr : ∀ c ∈ rest.head?, isMark c = true) :
    undecorated ("tsnoc".toList ++ rest) = undecorated rest := by
  have hbefore : beforeConst? ('t' :: ("snoc".toList ++ rest)) = some rest :=
    beforeConst?_const hne hr
  change undecorated ('t' :: ("snoc".toList ++ rest)) = undecorated rest
  rw [undecorated, if_neg (by decide)]
  split
  · rename_i front hfront
    rw [hbefore] at hfront
    rw [Option.some.inj hfront]
  · rename_i hnone
    rw [hbefore] at hnone
    cases hnone

theorem undecorated_eq_self {c : Char} {cs : List Char} (hc : isMark c = false)
    (h : beforeConst? (c :: cs) = none) : undecorated (c :: cs) = c :: cs := by
  rw [undecorated, if_neg (by simp [hc])]
  split
  · rename_i front hfront
    rw [h] at hfront
    cases hfront
  · rfl

theorem NameSpelling.undecorated_reverse {name cs : List Char} (hn : IsBareName name)
    (h : NameSpelling name cs) : undecorated cs.reverse = cs.reverse := by
  obtain ⟨rest, hrest, -⟩ := h.exists_reverse
  have hbefore := h.beforeConst?_reverse hn
  cases hname : name.reverse with
  | nil => exact absurd (List.reverse_eq_nil_iff.mp hname) hn.ne_nil
  | cons c front =>
    have hc := hn.noMark_reverse c (hname ▸ List.mem_cons_self)
    rw [hrest, hname, List.cons_append] at hbefore ⊢
    exact undecorated_eq_self hc hbefore

theorem eq_append_of_beforeConst? {backwards front : List Char}
    (h : beforeConst? backwards = some front) :
    backwards = "tsnoc".toList ++ front ∧ front ≠ [] ∧ ∀ c ∈ front.head?, isMark c = true := by
  unfold beforeConst? at h
  split at h
  · rename_i c rest hafter
    split at h
    · rename_i hc
      cases h
      exact ⟨afterWord?_eq_some_iff.mp hafter, List.cons_ne_nil c rest, by simpa using hc⟩
    · cases h
  · cases h

theorem undecorated_isSuffix (backwards : List Char) : undecorated backwards <:+ backwards := by
  fun_induction undecorated backwards with
  | case1 => exact List.suffix_refl []
  | case2 c cs _ ih => exact ih.trans (List.suffix_cons c cs)
  | case3 c cs _ front hfront ih =>
    rw [(eq_append_of_beforeConst? hfront).1]
    exact ih.trans (List.suffix_append _ front)
  | case4 c cs => exact List.suffix_refl (c :: cs)

theorem undecorated_concat {c : Char} (hc : isMark c = true) (cs : List Char) :
    undecorated (cs ++ [c]).reverse = undecorated cs.reverse := by
  rw [List.reverse_append]
  exact undecorated_marks_append (List.forall_mem_singleton.mpr hc) _

theorem undecorated_trimEnd (cs : List Char) :
    undecorated (trimEnd cs).reverse = undecorated cs.reverse := by
  obtain ⟨blanks, hb, hcs⟩ := exists_eq_trimEnd_append cs
  have hmarks : ∀ c ∈ blanks.reverse, isMark c = true := AreBlanks.marks (AreBlanks.reverse hb)
  calc undecorated (trimEnd cs).reverse
      = undecorated (blanks.reverse ++ (trimEnd cs).reverse) :=
        (undecorated_marks_append hmarks _).symm
    _ = undecorated cs.reverse := by rw [← List.reverse_append, ← hcs]

/-- What is left of a text without blanks in front and decoration behind. -/
def bareSpelling (cs : List Char) : List Char := (undecorated (trim cs).reverse).reverse

theorem bareSpelling_eq (cs : List Char) :
    bareSpelling cs = (undecorated (trimStart cs).reverse).reverse := by
  rw [bareSpelling, trim, undecorated_trimEnd]

theorem bareSpelling_isPrefix (cs : List Char) : bareSpelling cs <+: trimStart cs := by
  rw [bareSpelling_eq, ← List.reverse_suffix, List.reverse_reverse]
  exact undecorated_isSuffix _

theorem bareSpelling_append_mark {c : Char} (hc : isMark c = true) (cs : List Char) :
    bareSpelling (cs ++ [c]) = bareSpelling cs := by
  cases hblank : isBlank c with
  | true =>
    rw [bareSpelling, trim_append_right (List.forall_mem_singleton.mpr hblank), bareSpelling]
  | false => rw [bareSpelling, trim_concat hblank, undecorated_concat hc, bareSpelling_eq]

theorem bareSpelling_append_marks {marks : List Char} (hm : ∀ c ∈ marks, isMark c = true)
    (cs : List Char) : bareSpelling (cs ++ marks) = bareSpelling cs := by
  induction marks generalizing cs with
  | nil => rw [List.append_nil]
  | cons c marks ih =>
    obtain ⟨hc, hmarks⟩ := List.forall_mem_cons.mp hm
    rw [← List.singleton_append, ← List.append_assoc, ih hmarks, bareSpelling_append_mark hc]

theorem bareSpelling_append_const {marks cs : List Char} (hm : ∀ c ∈ marks, isMark c = true)
    (hne : marks ≠ []) (hbare : bareSpelling cs ≠ []) :
    bareSpelling (cs ++ (marks ++ "const".toList)) = bareSpelling cs := by
  have hstart : trimStart cs ≠ [] := by
    intro hnil
    have hprefix := bareSpelling_isPrefix cs
    rw [hnil] at hprefix
    exact hbare (List.prefix_nil.mp hprefix)
  have hfront : trimStart (cs ++ (marks ++ "const".toList)) =
      trimStart cs ++ (marks ++ "const".toList) := by
    have hsplit : trimStart (cs ++ (marks ++ "const".toList)) =
        if (trimStart cs).isEmpty then trimStart (marks ++ "const".toList)
        else trimStart cs ++ (marks ++ "const".toList) :=
      List.dropWhile_append
    rw [hsplit, if_neg (by simpa using hstart)]
  have hback : (trimStart cs ++ (marks ++ "const".toList)).reverse =
      "tsnoc".toList ++ (marks.reverse ++ (trimStart cs).reverse) := by
    rw [List.reverse_append, List.reverse_append, List.append_assoc]
    rfl
  have hmarks : ∀ c ∈ marks.reverse, isMark c = true := fun c hc => hm c (List.mem_reverse.mp hc)
  have hmark := isMark_head?_append hmarks (by simpa using hne) (trimStart cs).reverse
  rw [bareSpelling_eq, hfront, hback, undecorated_const (by simp [hne]) hmark,
    undecorated_marks_append hmarks, ← bareSpelling_eq]

section

variable {name cs lead gap : List Char} {levels : List Bool}

theorem bareSpelling_name (hn : IsBareName name) (hl : AreBlanks lead) :
    bareSpelling (lead ++ name) = name := by
  have hplain : NameSpelling name name := .plain .nil
  rw [bareSpelling, trim_append_left hl, trim_noMark hn.noMark, hplain.undecorated_reverse hn,
    List.reverse_reverse]

theorem trim_const_name (hn : IsBareName name) (gap : List Char) :
    trim ("const".toList ++ (gap ++ name)) = "const".toList ++ (gap ++ name) := by
  apply trim_const_append
  rw [← List.append_assoc]
  exact hn.noMark_getLast? _

theorem bareSpelling_const_name (hn : IsBareName name) (hl : AreBlanks lead) (hg : AreBlanks gap)
    (hne : gap ≠ []) :
    bareSpelling (lead ++ ("const".toList ++ (gap ++ name))) = "const".toList ++ (gap ++ name) := by
  have hconst : NameSpelling name ("const".toList ++ (gap ++ name)) := .const .nil hg hne
  rw [bareSpelling, trim_append_left hl, trim_const_name hn, hconst.undecorated_reverse hn,
    List.reverse_reverse]

theorem NameSpelling.bareSpelling_cases (hn : IsBareName name) (h : NameSpelling name cs) :
    bareSpelling cs = name ∨ ∃ gap, AreBlanks gap ∧ gap ≠ [] ∧
      bareSpelling cs = "const".toList ++ (gap ++ name) := by
  cases h with
  | plain hl => exact .inl (bareSpelling_name hn hl)
  | @const lead gap hl hg hne =>
    exact .inr ⟨gap, hg, hne, bareSpelling_const_name hn hl hg hne⟩

theorem NameSpelling.bareSpelling_ne_nil (hn : IsBareName name) (h : NameSpelling name cs) :
    bareSpelling cs ≠ [] := by
  rcases h.bareSpelling_cases hn with hname | ⟨gap, -, -, hconst⟩
  · rw [hname]
    exact hn.ne_nil
  · rw [hconst]
    exact List.append_ne_nil_of_left_ne_nil (by decide) _

theorem PointerSpelling.exists_bareSpelling (hn : IsBareName name)
    (h : PointerSpelling name levels cs) :
    ∃ front, NameSpelling name front ∧ bareSpelling cs = bareSpelling front := by
  induction h with
  | @name cs h => exact ⟨cs, h, rfl⟩
  | @nameConst cs gap h hg hne =>
    exact ⟨cs, h, bareSpelling_append_const hg.marks hne (h.bareSpelling_ne_nil hn)⟩
  | star _ hg ih =>
    obtain ⟨front, hfront, hcs⟩ := ih
    exact ⟨front, hfront, (bareSpelling_append_marks (hg.marks_star .nil) _).trans hcs⟩
  | constStar _ hg hg' ih =>
    obtain ⟨front, hfront, hcs⟩ := ih
    have hne := hcs ▸ hfront.bareSpelling_ne_nil hn
    exact ⟨front, hfront,
      (bareSpelling_append_const (hg.marks_star hg') (by simp) hne).trans hcs⟩

end

/-- A bare spelling without the qualifier in front, if a space follows that. -/
def unqualified (bare : List Char) : List Char := trim ((afterWord? "const ".toList bare).getD bare)

theorem NativeType.baseName_eq (type : NativeType) :
    type.baseName = String.ofList (unqualified (bareSpelling type.spelling.toList)) := rfl

theorem unqualified_isInfix (bare : List Char) : unqualified bare <:+: bare := by
  refine (trim_isInfix _).trans ?_
  cases hafter : afterWord? "const ".toList bare with
  | none => exact List.infix_rfl
  | some rest =>
    rw [Option.getD_some, afterWord?_eq_some_iff.mp hafter]
    exact (List.suffix_append _ rest).isInfix

theorem NativeType.baseName_isInfix (type : NativeType) :
    type.baseName.toList <:+: type.spelling.toList := by
  rw [baseName_eq, String.toList_ofList]
  have hbare := (bareSpelling_isPrefix type.spelling.toList).isInfix
  exact (unqualified_isInfix _).trans (hbare.trans (trimStart_isSuffix _).isInfix)

theorem unqualified_name {name : List Char} (hn : IsBareName name) : unqualified name = name := by
  rw [unqualified, afterConst?_noMark hn.noMark, Option.getD_none, trim_noMark hn.noMark]

theorem unqualified_const_name {name gap : List Char} (hn : IsBareName name) (hg : AreBlanks gap) :
    unqualified ("const ".toList ++ (gap ++ name)) = name := by
  have hafter : afterWord? "const ".toList ("const ".toList ++ (gap ++ name)) =
      some (gap ++ name) :=
    afterWord?_eq_some_iff.mpr rfl
  rw [unqualified, hafter, Option.getD_some, trim_append_left hg, trim_noMark hn.noMark]

/-- The base name is the name, or a qualifier in front that no space follows is a part of it. -/
theorem NativeType.SpelledOver.baseName_cases {type : NativeType} {name : List Char}
    {levels : List Bool} {mark : ReferenceMark} (hn : IsBareName name)
    (h : type.SpelledOver name levels mark) :
    type.baseName = String.ofList name ∨ ∃ c gap, AreBlanks (c :: gap) ∧ c ≠ ' ' ∧
      "const".toList ++ (c :: gap ++ name) <+: trimStart type.spelling.toList ∧
        type.baseName = String.ofList ("const".toList ++ (c :: gap ++ name)) := by
  obtain ⟨cs, gap, tail, hcs, hg, ht, heq⟩ := h
  obtain ⟨front, hfront, hbare⟩ := hcs.exists_bareSpelling hn
  have hmarks : ∀ c ∈ gap ++ (mark.text ++ tail), isMark c = true :=
    List.forall_mem_append.mpr ⟨hg.marks, List.forall_mem_append.mpr ⟨mark.isMark_text, ht.marks⟩⟩
  have hspelling : bareSpelling type.spelling.toList = bareSpelling front := by
    rw [heq, bareSpelling_append_marks hmarks, hbare]
  rw [baseName_eq, hspelling]
  rcases hfront.bareSpelling_cases hn with hname | ⟨blanks, hb, hne, hconst⟩
  · rw [hname, unqualified_name hn]
    exact .inl rfl
  · obtain ⟨c, blanks, rfl⟩ := List.exists_cons_of_ne_nil hne
    rw [hconst]
    by_cases hc : c = ' '
    · subst hc
      have hgap : AreBlanks blanks := fun d hd => hb d (List.mem_cons_of_mem _ hd)
      exact .inl (congrArg String.ofList (unqualified_const_name hn hgap))
    · refine .inr ⟨c, blanks, hb, hc, ?_, ?_⟩
      · rw [← hconst, ← hspelling]
        exact bareSpelling_isPrefix _
      · rw [unqualified, List.cons_append, afterConst?_ne_space hc, Option.getD_none,
          ← List.cons_append, trim_const_name hn]

end NativeBindings
