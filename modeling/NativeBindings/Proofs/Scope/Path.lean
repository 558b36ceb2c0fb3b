import NativeBindings.Native.Declaration
import Mathlib.Data.List.Infix
import Mathlib.Data.List.TakeWhile

/-!
# Paths of scopes

A written path can be read back in one way only, as long as no name holds a colon. The chains that
are cut from a path at either end are its suffixes and prefixes.
-/

namespace NativeBindings

/-- No colon occurs in the name, so that it cannot pass for a path. -/
def IsUnqualified (name : String) : Prop := ':' ∉ name.toList

instance (name : String) : Decidable (IsUnqualified name) :=
  inferInstanceAs (Decidable (':' ∉ name.toList))

theorem scopePath_cons_cons (name next : String) (rest : List String) :
    scopePath (name :: next :: rest) = name ++ "::" ++ scopePath (next :: rest) :=
  String.intercalate_cons_cons

theorem scopePath_concat {names : List String} (h : names ≠ []) (name : String) :
    scopePath (names ++ [name]) = scopePath names ++ "::" ++ name := by
  induction names with
  | nil => exact absurd rfl h
  | cons first rest ih =>
    cases rest with
    | nil => rfl
    | cons next rest =>
      have hrest : scopePath (next :: (rest ++ [name])) = _ := ih (List.cons_ne_nil next rest)
      rw [List.cons_append, List.cons_append, scopePath_cons_cons, hrest, scopePath_cons_cons]
      simp only [String.append_assoc]

/-- What a written path goes on with behind its first name. -/
private def pathTail : List String → List Char
  | [] => []
  | name :: rest => ':' :: ':' :: name.toList ++ pathTail rest

private theorem toList_scopePath_cons (name : String) (rest : List String) :
    (scopePath (name :: rest)).toList = name.toList ++ pathTail rest := by
  induction rest generalizing name with
  | nil => simp [scopePath, pathTail]
  | cons next rest ih =>
    rw [scopePath_cons_cons, String.toList_append, String.toList_append, ih, pathTail,
      List.append_assoc]
    rfl

private theorem takeWhile_name_append {name : String} (hn : IsUnqualified name)
    (rest : List String) :
    (name.toList ++ pathTail rest).takeWhile (· ≠ ':') = name.toList := by
  have hall : ∀ c ∈ name.toList, decide (c ≠ ':') = true := by
    intro c hc
    exact decide_eq_true fun h => hn (h ▸ hc)
  rw [List.takeWhile_append_of_pos hall]
  cases rest <;> simp [pathTail]

private theorem pathTail_injective {xs ys : List String} (hx : ∀ x ∈ xs, IsUnqualified x)
    (hy : ∀ y ∈ ys, IsUnqualified y) (h : pathTail xs = pathTail ys) : xs = ys := by
  induction xs generalizing ys with
  | nil =>
    cases ys with
    | nil => rfl
    | cons y ys => simp [pathTail] at h
  | cons x xs ih =>
    cases ys with
    | nil => simp [pathTail] at h
    | cons y ys =>
      obtain ⟨hxn, hxs⟩ := List.forall_mem_cons.mp hx
      obtain ⟨hyn, hys⟩ := List.forall_mem_cons.mp hy
      have htext : x.toList ++ pathTail xs = y.toList ++ pathTail ys := by
        simpa [pathTail] using h
      have hname : x.toList = y.toList := by
        rw [← takeWhile_name_append hxn xs, htext, takeWhile_name_append hyn ys]
      rw [hname] at htext
      rw [String.toList_inj.mp hname, ih hxs hys (List.append_cancel_left htext)]

/-- Different paths of unqualified names are written differently. -/
theorem scopePath_injective {xs ys : List String} (hxs : xs ≠ []) (hys : ys ≠ [])
    (hx : ∀ x ∈ xs, IsUnqualified x) (hy : ∀ y ∈ ys, IsUnqualified y)
    (h : scopePath xs = scopePath ys) : xs = ys := by
  obtain ⟨x, xs, rfl⟩ := List.exists_cons_of_ne_nil hxs
  obtain ⟨y, ys, rfl⟩ := List.exists_cons_of_ne_nil hys
  apply pathTail_injective hx hy
  have htext := congrArg String.toList h
  rw [toList_scopePath_cons, toList_scopePath_cons] at htext
  simp [pathTail, htext]

private theorem pathTail_append (xs ys : List String) :
    pathTail (xs ++ ys) = pathTail xs ++ pathTail ys := by
  induction xs with
  | nil => rfl
  | cons x xs ih => simp only [List.cons_append, pathTail, ih, List.append_assoc]

theorem scopePath_isInfix {piece names : List String} (h : piece <:+: names) :
    (scopePath piece).toList <:+: (scopePath names).toList := by
  obtain ⟨front, back, rfl⟩ := h
  cases piece with
  | nil => exact List.nil_infix
  | cons name rest =>
    rw [toList_scopePath_cons]
    cases front with
    | nil =>
      refine ⟨[], pathTail back, ?_⟩
      rw [List.nil_append, List.nil_append, List.cons_append, toList_scopePath_cons,
        pathTail_append, List.append_assoc]
    | cons outer front =>
      refine ⟨outer.toList ++ pathTail front ++ [':', ':'], pathTail back, ?_⟩
      rw [List.cons_append, List.cons_append, toList_scopePath_cons, pathTail_append,
        pathTail_append, pathTail]
      simp only [List.append_assoc, List.cons_append, List.nil_append]

theorem mem_innerChains {piece names : List String} :
    piece ∈ innerChains names ↔ piece ≠ [] ∧ piece <:+ names := by
  induction names with
  | nil => simp [innerChains]
  | cons name rest ih =>
    rw [innerChains, List.mem_cons, ih, List.suffix_cons_iff]
    constructor
    · rintro (rfl | ⟨hne, hs⟩)
      · exact ⟨List.cons_ne_nil _ _, Or.inl rfl⟩
      · exact ⟨hne, Or.inr hs⟩
    · rintro ⟨hne, rfl | hs⟩
      · exact Or.inl rfl
      · exact Or.inr ⟨hne, hs⟩

theorem mem_outerChains {piece names : List String} :
    piece ∈ outerChains names ↔ piece ≠ [] ∧ piece <+: names := by
  induction names generalizing piece with
  | nil => simp [outerChains]
  | cons name rest ih =>
    cases piece with
    | nil => simp [outerChains]
    | cons first piece =>
      rw [outerChains, List.mem_cons, List.mem_map, List.cons_prefix_cons]
      constructor
      · rintro (h | ⟨front, hf, h⟩)
        · obtain ⟨rfl, rfl⟩ := List.cons.inj h
          exact ⟨List.cons_ne_nil _ _, rfl, List.nil_prefix⟩
        · obtain ⟨rfl, rfl⟩ := List.cons.inj h
          exact ⟨List.cons_ne_nil _ _, rfl, (ih.mp hf).2⟩
      · rintro ⟨-, rfl, hp⟩
        rcases eq_or_ne piece [] with rfl | hne
        · exact Or.inl rfl
        · exact Or.inr ⟨piece, ih.mpr ⟨hne, hp⟩, rfl⟩

end NativeBindings
