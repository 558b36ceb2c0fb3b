import NativeBindings.Proofs.Native.BaseName

/-!
# Taking decoration off

What decorates a name behind it is taken off in passes, one piece in each, until a pass finds none.
Every pass leaves a shorter text, so there is a last one, and what it leaves is the name with the
qualifier in front of it, whatever was written behind.
-/

namespace NativeBindings

open Text NativeType

/-- What stands before the last piece of decoration: a star, an ampersand, or `const` behind a
mark. -/
def beforeDecoration? (cs : List Char) : Option (List Char) :=
  (withoutLast? '*' cs).or ((withoutLast? '&' cs).or
    ((beforeConst? cs.reverse).map fun front => trimEnd front.reverse))

/-- The text is peeled in that many passes, each of which takes the last piece of decoration off
what the one before has left, without the blanks at its end. The last pass finds no decoration. -/
inductive PeelsTo : Nat → List Char → List Char → Prop where
  | last {cs : List Char} (h : beforeDecoration? (trimEnd cs) = none) : PeelsTo 1 cs (trimEnd cs)
  | next {passes : Nat} {cs front bare : List Char}
      (h : beforeDecoration? (trimEnd cs) = some front) (hrest : PeelsTo passes front bare) :
    PeelsTo (passes + 1) cs bare

theorem PeelsTo.unique {n m : Nat} {cs bare other : List Char} (h : PeelsTo n cs bare)
    (ho : PeelsTo m cs other) : n = m ∧ bare = other := by
  induction h generalizing m other with
  | last h =>
    cases ho with
    | last _ => exact ⟨rfl, rfl⟩
    | next ho _ =>
      rw [h] at ho
      cases ho
  | next h _ ih =>
    cases ho with
    | last ho =>
      rw [h] at ho
      cases ho
    | next ho hrest =>
      rw [h] at ho
      cases ho
      obtain ⟨rfl, rfl⟩ := ih hrest
      exact ⟨rfl, rfl⟩

section

variable {cs front : List Char}

theorem ne_of_withoutLast?_eq_none {last c : Char} {back : List Char}
    (h : withoutLast? last cs = none) (hcs : cs.reverse = c :: back) : c ≠ last := by
  simpa [withoutLast?, hcs] using h

theorem length_lt_of_beforeDecoration? (h : beforeDecoration? cs = some front) :
    front.length < cs.length := by
  simp only [beforeDecoration?, Option.or_eq_some_iff] at h
  rcases h with hstar | ⟨-, hamp | ⟨-, hconst⟩⟩
  · exact length_lt_of_withoutLast? hstar
  · exact length_lt_of_withoutLast? hamp
  · obtain ⟨before, hbefore, rfl⟩ := Option.map_eq_some_iff.mp hconst
    have htrim := length_trimEnd_le before.reverse
    have hlt := length_lt_of_beforeConst? hbefore
    rw [List.length_reverse] at htrim hlt
    exact Nat.lt_of_le_of_lt htrim hlt

theorem undecorated_of_beforeDecoration? (h : beforeDecoration? cs = some front) :
    undecorated cs.reverse = undecorated front.reverse := by
  simp only [beforeDecoration?, Option.or_eq_some_iff] at h
  rcases h with hstar | ⟨-, hamp | ⟨-, hconst⟩⟩
  · rw [eq_append_of_withoutLast? hstar, undecorated_concat (by decide)]
  · rw [eq_append_of_withoutLast? hamp, undecorated_concat (by decide)]
  · obtain ⟨before, hbefore, rfl⟩ := Option.map_eq_some_iff.mp hconst
    obtain ⟨hword, hne, hmark⟩ := eq_append_of_beforeConst? hbefore
    rw [hword, undecorated_const hne hmark, undecorated_trimEnd, List.reverse_reverse]

theorem undecorated_of_beforeDecoration?_none (hlast : ∀ c ∈ cs.getLast?, isBlank c = false)
    (h : beforeDecoration? cs = none) : undecorated cs.reverse = cs.reverse := by
  simp only [beforeDecoration?, Option.or_eq_none_iff, Option.map_eq_none_iff] at h
  obtain ⟨hstar, hamp, hconst⟩ := h
  cases hcs : cs.reverse with
  | nil => rw [undecorated]
  | cons c back =>
    have hblank : isBlank c = false := by
      apply hlast
      rw [List.getLast?_eq_head?_reverse, hcs]
      rfl
    have hc : isMark c = false := by
      simp [isMark, hblank, ne_of_withoutLast?_eq_none hstar hcs,
        ne_of_withoutLast?_eq_none hamp hcs]
    rw [hcs] at hconst
    exact undecorated_eq_self hc hconst

end

/-- Every text is peeled, in no more passes than it has characters and one. -/
theorem exists_peelsTo (cs : List Char) :
    ∃ passes ≤ cs.length + 1, PeelsTo passes cs (undecorated cs.reverse).reverse := by
  induction hlength : cs.length using Nat.strong_induction_on generalizing cs with
  | h length ih =>
    subst hlength
    cases hpass : beforeDecoration? (trimEnd cs) with
    | none =>
      have hbare := undecorated_of_beforeDecoration?_none isBlank_getLast_trimEnd hpass
      rw [undecorated_trimEnd] at hbare
      rw [hbare, List.reverse_reverse]
      exact ⟨1, Nat.le_add_left 1 _, .last hpass⟩
    | some front =>
      have hlt : front.length < cs.length :=
        Nat.lt_of_lt_of_le (length_lt_of_beforeDecoration? hpass) (length_trimEnd_le cs)
      -- The pass has left a shorter text, which is peeled in fewer passes.
      obtain ⟨passes, hle, hpeels⟩ := ih front.length hlt front rfl
      have hsame := undecorated_of_beforeDecoration? hpass
      rw [undecorated_trimEnd] at hsame
      rw [hsame]
      exact ⟨passes + 1, Nat.succ_le_succ (Nat.le_trans hle hlt), .next hpass hpeels⟩

/-- A name with all that may stand around it: blanks, a `const ` in front, and behind it marks and
`const` in any order, each `const` behind a mark. -/
inductive DecoratedName (name : List Char) : List Char → Prop where
  | name {lead : List Char} (hl : AreBlanks lead) : DecoratedName name (lead ++ name)
  | const {lead gap : List Char} (hl : AreBlanks lead) (hg : AreBlanks gap) :
    DecoratedName name (lead ++ ("const ".toList ++ (gap ++ name)))
  | mark {cs : List Char} {c : Char} (h : DecoratedName name cs) (hc : isMark c = true) :
    DecoratedName name (cs ++ [c])
  | markConst {cs : List Char} {c : Char} (h : DecoratedName name cs) (hc : isMark c = true) :
    DecoratedName name (cs ++ c :: "const".toList)

section

variable {name cs : List Char}

theorem DecoratedName.bareSpelling_cases (hn : IsBareName name) (h : DecoratedName name cs) :
    bareSpelling cs = name ∨
      ∃ gap, AreBlanks gap ∧ bareSpelling cs = "const ".toList ++ (gap ++ name) := by
  induction h with
  | name hl => exact .inl (bareSpelling_name hn hl)
  | @const lead gap hl hg =>
    have hspace : AreBlanks (' ' :: gap) := List.forall_mem_cons.mpr ⟨by decide, hg⟩
    have hword : "const ".toList ++ (gap ++ name) = "const".toList ++ (' ' :: gap ++ name) := rfl
    rw [hword]
    exact .inr ⟨gap, hg, bareSpelling_const_name hn hl hspace (List.cons_ne_nil _ _)⟩
  | mark _ hc ih => rwa [bareSpelling_append_mark hc]
  | @markConst cs c _ hc ih =>
    -- The name is left, so this is not the `const` that a spelling begins with.
    have hne : bareSpelling cs ≠ [] := by
      rcases ih with hname | ⟨gap, -, hconst⟩
      · rw [hname]
        exact hn.ne_nil
      · rw [hconst]
        exact List.append_ne_nil_of_left_ne_nil (by decide) _
    have hsplit : c :: "const".toList = [c] ++ "const".toList := rfl
    rwa [hsplit, bareSpelling_append_const (List.forall_mem_singleton.mpr hc) (by simp) hne]

theorem DecoratedName.unqualified_eq (hn : IsBareName name) (h : DecoratedName name cs) :
    unqualified (bareSpelling cs) = name := by
  rcases h.bareSpelling_cases hn with hname | ⟨gap, hg, hconst⟩
  · rw [hname, unqualified_name hn]
  · rw [hconst, unqualified_const_name hn hg]

end

/-- The base name is found in finitely many passes, is not changed by a pointer or a reference to
the type, and is the name whatever decorates it. -/
theorem NativeType.baseName_undecorated :
    (∀ type : NativeType, ∃ passes bare, passes ≤ (trim type.spelling.toList).length + 1 ∧
      (∀ n cs, PeelsTo n (trim type.spelling.toList) cs ↔ n = passes ∧ cs = bare) ∧
        type.baseName = String.ofList (unqualified bare)) ∧
      (∀ type : NativeType, type.pointerTo.baseName = type.baseName ∧
        type.referenceTo.baseName = type.baseName) ∧
      ∀ (type : NativeType) (name : String), IsBareName name.toList →
        DecoratedName name.toList type.spelling.toList → type.baseName = name := by
  refine ⟨fun type => ?_, fun type => ⟨?_, ?_⟩, fun type name hn h => ?_⟩
  · obtain ⟨passes, hle, hpeels⟩ := exists_peelsTo (trim type.spelling.toList)
    refine ⟨passes, bareSpelling type.spelling.toList, hle, fun n cs => ⟨fun h => ?_, ?_⟩, rfl⟩
    · exact h.unique hpeels
    · rintro ⟨rfl, rfl⟩
      exact hpeels
  · rw [baseName_eq, pointerTo, String.toList_append]
    exact congrArg (String.ofList ∘ unqualified) (bareSpelling_append_mark (by decide) _)
  · rw [baseName_eq, referenceTo, String.toList_append]
    exact congrArg (String.ofList ∘ unqualified) (bareSpelling_append_mark (by decide) _)
  · rw [baseName_eq, h.unqualified_eq hn, String.ofList_toList]

/-- The name ends in the letters of the qualifier, which stands in front of it and twice behind. -/
theorem NativeType.baseName_undecorated_myconst :
    IsBareName "myconst".toList ∧
      DecoratedName "myconst".toList "\tconst  myconst * const&\nconst ".toList ∧
      (⟨"\tconst  myconst * const&\nconst "⟩ : NativeType).baseName = "myconst" := by
  have hn : IsBareName "myconst".toList := ⟨by decide, noMark_of_all (by decide), by decide⟩
  have htab : AreBlanks ['\t'] := List.forall_mem_singleton.mpr (by decide)
  have hname : DecoratedName "myconst".toList "\tconst  myconst".toList := .const htab .space
  have hstar : DecoratedName "myconst".toList "\tconst  myconst *".toList :=
    (hname.mark (c := ' ') (by decide)).mark (c := '*') (by decide)
  have hreference : DecoratedName "myconst".toList "\tconst  myconst * const&".toList :=
    (hstar.markConst (c := ' ') (by decide)).mark (c := '&') (by decide)
  have hconst : DecoratedName "myconst".toList "\tconst  myconst * const&\nconst ".toList :=
    (hreference.markConst (c := '\n') (by decide)).mark (c := ' ') (by decide)
  exact ⟨hn, hconst, NativeType.baseName_undecorated.2.2 _ _ hn hconst⟩

end NativeBindings
