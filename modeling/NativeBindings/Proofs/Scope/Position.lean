import NativeBindings.Proofs.Scope.PreOrder
import Mathlib.Data.List.Lex
import Mathlib.Data.List.Sort

/-!
# Positions of classes

A class is reached from the root by an index in each scope on the way. The list of all classes goes
through these positions in lexicographic order, so that a class is followed at once by all that is
nested in it, and the classes around it are found before it.
-/

namespace NativeBindings

/-- A class of a tree with its position: an index for each scope on the way from the root, the last
one among its own siblings. -/
structure PlacedClass where
  position : List Nat
  entry : ScopedClass

/-- The same class seen from the scope around, where an index leads to the former scope. -/
def PlacedClass.under (index : Nat) (x : PlacedClass) : PlacedClass :=
  { x with position := index :: x.position }

namespace NativeClass

def reach? : List Nat → NativeClass → Option NativeClass
  | [], c => some c
  | i :: inner, c => c.classes[i]?.bind (reach? inner)

mutual

/-- The class and everything nested in it, each at its position inside the class. -/
def placed (enclosing : List String) : NativeClass → List PlacedClass
  | ⟨name, constructors, functions, classes, doc, location⟩ =>
    ⟨[], ⟨name, constructors, functions, classes, doc, location⟩, enclosing⟩ ::
      placedFrom 0 (enclosing ++ [name]) classes

def placedFrom (index : Nat) (enclosing : List String) : List NativeClass → List PlacedClass
  | [] => []
  | c :: rest =>
    (c.placed enclosing).map (·.under index) ++ placedFrom (index + 1) enclosing rest

end

theorem placed_eq (enclosing : List String) (c : NativeClass) :
    c.placed enclosing = ⟨[], c, enclosing⟩ :: placedFrom 0 (enclosing ++ [c.name]) c.classes := by
  cases c
  rfl

theorem placedFrom_eq_flatMap (index : Nat) (enclosing : List String)
    (classes : List NativeClass) :
    placedFrom index enclosing classes =
      (classes.zipIdx index).flatMap fun (c, i) => (c.placed enclosing).map (·.under i) := by
  induction classes generalizing index with
  | nil => rfl
  | cons c rest ih => rw [placedFrom, ih, List.zipIdx_cons, List.flatMap_cons]

theorem mem_placedFrom {enclosing : List String} {classes : List NativeClass} {x : PlacedClass} :
    x ∈ placedFrom 0 enclosing classes ↔
      ∃ (i : Nat) (c : NativeClass), classes[i]? = some c ∧
        ∃ y ∈ c.placed enclosing, y.under i = x := by
  simp only [placedFrom_eq_flatMap, List.mem_flatMap, List.mem_map, Prod.exists,
    List.mem_zipIdx_iff_getElem?]
  exact exists_comm

private theorem entry_placedFrom {enclosing : List String} {classes : List NativeClass}
    (h : ∀ c ∈ classes, (c.placed enclosing).map (·.entry) = c.inScope enclosing) (index : Nat) :
    (placedFrom index enclosing classes).map (·.entry) = allInScope enclosing classes := by
  induction classes generalizing index with
  | nil => rfl
  | cons c rest ih =>
    obtain ⟨hhead, htail⟩ := List.forall_mem_cons.mp h
    rw [placedFrom, allInScope, List.map_append, List.map_map, ih htail, ← hhead]
    rfl

theorem entry_placed (c : NativeClass) (enclosing : List String) :
    (c.placed enclosing).map (·.entry) = c.inScope enclosing := by
  induction c using NativeClass.nestedInduction generalizing enclosing with
  | step c ih =>
    rw [placed_eq, inScope_eq, List.map_cons, entry_placedFrom fun nested hn => ih nested hn _]

private theorem pairwise_zipIdx (classes : List NativeClass) (index : Nat) :
    (classes.zipIdx index).Pairwise fun a b => a.2 < b.2 := by
  have hindices : ((classes.zipIdx index).map Prod.snd).Pairwise (· < ·) := by
    rw [List.zipIdx_map_snd]
    exact List.pairwise_lt_range'
  exact List.pairwise_map.mp hindices

private theorem positions_placedFrom_increasing {enclosing : List String}
    {classes : List NativeClass}
    (h : ∀ c ∈ classes, (c.placed enclosing).Pairwise fun x y => x.position < y.position)
    (index : Nat) :
    (placedFrom index enclosing classes).Pairwise fun x y => x.position < y.position := by
  rw [placedFrom_eq_flatMap, List.pairwise_flatMap]
  constructor
  · rintro ⟨c, i⟩ hc
    rw [List.pairwise_map]
    have hclass := h c (List.fst_mem_of_mem_zipIdx hc)
    exact hclass.imp fun hxy => List.cons_lt_cons_iff.mpr (.inr ⟨rfl, hxy⟩)
  · refine (pairwise_zipIdx classes index).imp ?_
    rintro ⟨c, i⟩ ⟨d, j⟩ hij x hx y hy
    obtain ⟨x, -, rfl⟩ := List.mem_map.mp hx
    obtain ⟨y, -, rfl⟩ := List.mem_map.mp hy
    exact List.cons_lt_cons_iff.mpr (.inl hij)

theorem positions_placed_increasing (c : NativeClass) (enclosing : List String) :
    (c.placed enclosing).Pairwise fun x y => x.position < y.position := by
  induction c using NativeClass.nestedInduction generalizing enclosing with
  | step c ih =>
    rw [placed_eq, List.pairwise_cons]
    refine ⟨?_, positions_placedFrom_increasing (fun nested hn => ih nested hn _) 0⟩
    intro x hx
    obtain ⟨i, d, -, y, -, rfl⟩ := mem_placedFrom.mp hx
    exact List.nil_lt_cons i y.position

/-- Indices lead to a class, and the names on the way are the path to it. -/
theorem reach?_of_mem_placed {c : NativeClass} {enclosing : List String} {x : PlacedClass}
    (hx : x ∈ c.placed enclosing) :
    c.reach? x.position = some x.entry.decl ∧
      x.entry.path.map some = enclosing.map some ++
        x.position.inits.map fun p => (c.reach? p).map (·.name) := by
  induction c using NativeClass.nestedInduction generalizing enclosing x with
  | step c ih =>
    rw [placed_eq, List.mem_cons] at hx
    rcases hx with rfl | hx
    · exact ⟨rfl, by simp [ScopedClass.path, ScopedClass.name, reach?]⟩
    · obtain ⟨i, d, hd, y, hy, rfl⟩ := mem_placedFrom.mp hx
      obtain ⟨hdecl, hpath⟩ := ih d (List.mem_of_getElem? hd) hy
      have hreach : ∀ p, c.reach? (i :: p) = d.reach? p := by
        intro p
        rw [reach?, hd, Option.bind_some]
      refine ⟨(hreach y.position).trans hdecl, ?_⟩
      rw [PlacedClass.under, hpath, List.inits_cons, List.map_cons, List.map_map, List.map_append,
        List.append_assoc]
      simp only [Function.comp_def, hreach]
      rfl

theorem exists_placed_of_reach? {position : List Nat} {c d : NativeClass}
    (h : c.reach? position = some d) (enclosing : List String) :
    ∃ x ∈ c.placed enclosing, x.position = position := by
  induction position generalizing c enclosing with
  | nil => exact ⟨_, placed_eq enclosing c ▸ List.mem_cons_self, rfl⟩
  | cons i inner ih =>
    obtain ⟨nested, hn, hd⟩ := Option.bind_eq_some_iff.mp h
    obtain ⟨x, hx, rfl⟩ := ih hd (enclosing ++ [c.name])
    refine ⟨x.under i, ?_, rfl⟩
    rw [placed_eq]
    exact List.mem_cons_of_mem _ (mem_placedFrom.mpr ⟨i, nested, hn, x, hx, rfl⟩)

theorem reach?_isSome_of_append {p rest : List Nat} {c : NativeClass}
    (h : (c.reach? (p ++ rest)).isSome = true) : (c.reach? p).isSome = true := by
  induction p generalizing c with
  | nil => rfl
  | cons i p ih =>
    obtain ⟨d, hd⟩ := Option.isSome_iff_exists.mp h
    obtain ⟨nested, hn, hreach⟩ := Option.bind_eq_some_iff.mp hd
    rw [reach?, hn, Option.bind_some]
    exact ih (Option.isSome_of_mem hreach)

end NativeClass

section

variable {α : Type}

theorem tail_inits_concat (l : List α) (a : α) :
    (l ++ [a]).inits.tail = l.inits.tail ++ [l ++ [a]] := by
  have hconcat : (l ++ [a]).inits = l.inits ++ [l ++ [a]] := List.inits_append l [a]
  rw [hconcat, List.tail_append_of_ne_nil (by cases l <;> simp)]

theorem mem_tail_inits {p l : List α} : p ∈ l.inits.tail ↔ p ≠ [] ∧ p <+: l := by
  cases l with
  | nil => simp
  | cons a l =>
    rw [← List.mem_inits, List.inits_cons, List.tail_cons, List.mem_cons, List.mem_map]
    constructor
    · rintro ⟨q, hq, rfl⟩
      exact ⟨List.cons_ne_nil a q, .inr ⟨q, hq, rfl⟩⟩
    · rintro ⟨hne, heq | hmem⟩
      · exact absurd heq hne
      · exact hmem

theorem tail_inits_map_tail_inits {β : Type} (f : List α → β) (l : List α) :
    (l.inits.tail.map f).inits.tail = l.inits.tail.map fun p => p.inits.tail.map f := by
  induction l using List.reverseRecOn with
  | nil => rfl
  | append_singleton l a ih =>
    rw [tail_inits_concat, List.map_append, List.map_append, List.map_singleton,
      List.map_singleton, tail_inits_concat, ih, tail_inits_concat, List.map_append,
      List.map_singleton]

theorem getLast?_tail_inits (l : List α) :
    l.inits.tail.map List.getLast? = l.map some := by
  induction l using List.reverseRecOn with
  | nil => rfl
  | append_singleton l a ih =>
    rw [tail_inits_concat, List.map_append, List.map_append, ih, List.map_singleton,
      List.map_singleton, List.getLast?_concat]

/-- What passes a test stands in front if it passes as soon as something behind it does. -/
theorem filter_eq_takeWhile {p : α → Bool} {l : List α}
    (h : l.Pairwise fun a b => p b = true → p a = true) : l.filter p = l.takeWhile p := by
  induction l with
  | nil => rfl
  | cons a l ih =>
    obtain ⟨hhead, htail⟩ := List.pairwise_cons.mp h
    cases ha : p a with
    | true => rw [List.filter_cons_of_pos ha, List.takeWhile_cons_of_pos ha, ih htail]
    | false =>
      have hnone : ∀ b ∈ l, ¬ p b = true := fun b hb hpb => by simp [hhead b hb hpb] at ha
      rw [List.filter_cons_of_neg (by simp [ha]), List.takeWhile_cons_of_neg (by simp [ha]),
        List.filter_eq_nil_iff.mpr hnone]

end

theorem outerChains_eq_inits (names : List String) : outerChains names = names.inits.tail := by
  induction names with
  | nil => rfl
  | cons name rest ih =>
    rw [outerChains, ih, List.inits_cons, List.tail_cons]
    cases rest <;> simp

theorem innerChains_eq_tails (names : List String) : innerChains names = names.tails.dropLast := by
  induction names with
  | nil => rfl
  | cons name rest ih =>
    rw [innerChains, ih, List.tails_cons, List.dropLast_cons_of_ne_nil (by cases rest <;> simp)]

theorem pairwise_inits (l : List Nat) : l.inits.Pairwise (· < ·) := by
  induction l with
  | nil => exact List.pairwise_singleton _ _
  | cons a l ih =>
    rw [List.inits_cons, List.pairwise_cons, List.pairwise_map]
    refine ⟨?_, ih.imp fun hpq => List.cons_lt_cons_iff.mpr (.inr ⟨rfl, hpq⟩)⟩
    intro p hp
    obtain ⟨q, -, rfl⟩ := List.mem_map.mp hp
    exact List.nil_lt_cons a q

theorem append_lt_of_not_prefix {p q : List Nat} (h : p < q) (hq : ¬ p <+: q) (inner : List Nat) :
    p ++ inner < q := by
  induction p generalizing q with
  | nil => exact absurd List.nil_prefix hq
  | cons i p ih =>
    cases q with
    | nil => exact absurd h (List.not_lt_nil _)
    | cons j q =>
      rw [List.cons_append, List.cons_lt_cons_iff]
      rcases List.cons_lt_cons_iff.mp h with hij | ⟨rfl, hpq⟩
      · exact .inl hij
      · exact .inr ⟨rfl, ih hpq fun hpre => hq (List.cons_prefix_cons.mpr ⟨rfl, hpre⟩)⟩

theorem lt_of_prefix_of_ne {p q : List Nat} (h : p <+: q) (hne : p ≠ q) : p < q := by
  induction p generalizing q with
  | nil =>
    cases q with
    | nil => exact absurd rfl hne
    | cons j q => exact List.nil_lt_cons j q
  | cons i p ih =>
    obtain ⟨rest, rfl⟩ := h
    rw [List.cons_append, List.cons_lt_cons_iff]
    refine .inr ⟨rfl, ih (List.prefix_append p rest) fun heq => hne ?_⟩
    rw [List.cons_append, ← heq]

namespace Declarations

def placed (tree : Declarations) : List PlacedClass := NativeClass.placedFrom 0 [] tree.classes

def reach? (tree : Declarations) : List Nat → Option NativeClass
  | [] => none
  | i :: inner => tree.classes[i]?.bind (NativeClass.reach? inner)

variable {tree : Declarations} {x : PlacedClass}

theorem entry_placed (tree : Declarations) : tree.placed.map (·.entry) = tree.scopedClasses :=
  NativeClass.entry_placedFrom (fun c _ => c.entry_placed []) 0

theorem positions_placed_increasing (tree : Declarations) :
    tree.placed.Pairwise fun x y => x.position < y.position :=
  NativeClass.positions_placedFrom_increasing (fun c _ => c.positions_placed_increasing []) 0

theorem reach?_of_mem_placed (hx : x ∈ tree.placed) :
    tree.reach? x.position = some x.entry.decl ∧
      x.entry.path.map some =
        x.position.inits.tail.map fun p => (tree.reach? p).map (·.name) := by
  obtain ⟨i, c, hc, y, hy, rfl⟩ := NativeClass.mem_placedFrom.mp hx
  obtain ⟨hdecl, hpath⟩ := NativeClass.reach?_of_mem_placed hy
  have hreach : ∀ p, tree.reach? (i :: p) = c.reach? p := by
    intro p
    rw [reach?, hc, Option.bind_some]
  refine ⟨(hreach y.position).trans hdecl, ?_⟩
  rw [PlacedClass.under, hpath, List.inits_cons, List.tail_cons, List.map_map]
  simp only [Function.comp_def, hreach, List.map_nil, List.nil_append]

theorem position_ne_nil (hx : x ∈ tree.placed) : x.position ≠ [] := by
  obtain ⟨i, c, -, y, -, rfl⟩ := NativeClass.mem_placedFrom.mp hx
  exact List.cons_ne_nil i y.position

theorem mem_positions_iff {position : List Nat} :
    position ∈ tree.placed.map (·.position) ↔ (tree.reach? position).isSome = true := by
  rw [List.mem_map]
  constructor
  · rintro ⟨x, hx, rfl⟩
    rw [(reach?_of_mem_placed hx).1]
    rfl
  · intro h
    cases position with
    | nil => cases h
    | cons i inner =>
      obtain ⟨d, hd⟩ := Option.isSome_iff_exists.mp h
      obtain ⟨c, hc, hreach⟩ := Option.bind_eq_some_iff.mp hd
      obtain ⟨x, hx, rfl⟩ := NativeClass.exists_placed_of_reach? hreach []
      exact ⟨x.under i, NativeClass.mem_placedFrom.mpr ⟨i, c, hc, x, hx, rfl⟩, rfl⟩

theorem reach?_isSome_of_prefix {p q : List Nat} (hp : p ≠ []) (hpq : p <+: q)
    (hq : (tree.reach? q).isSome = true) : (tree.reach? p).isSome = true := by
  obtain ⟨i, p, rfl⟩ := List.exists_cons_of_ne_nil hp
  obtain ⟨rest, rfl⟩ := hpq
  obtain ⟨d, hd⟩ := Option.isSome_iff_exists.mp hq
  obtain ⟨c, hc, hreach⟩ := Option.bind_eq_some_iff.mp hd
  rw [reach?, hc, Option.bind_some]
  exact NativeClass.reach?_isSome_of_append (Option.isSome_of_mem hreach)

end Declarations

/-- What a class of the tree has to do with the classes listed before and after it. -/
structure PlacedClass.StandsBetween (tree : Declarations) (x : PlacedClass)
    (before after : List PlacedClass) : Prop where
  decl : tree.reach? x.position = some x.entry.decl
  /-- The names of the classes on the way from the root. -/
  path : x.entry.path.map some =
    x.position.inits.tail.map fun p => (tree.reach? p).map (·.name)
  /-- What is nested in the class, at any depth, is one block directly behind it. -/
  nested : after.filter (x.position <+: ·.position) = after.takeWhile (x.position <+: ·.position)
  outerFirst : ∀ y ∈ before, ¬ x.position <+: y.position
  enclosing : x.entry.enclosing =
    (before.filter (·.position <+: x.position)).map (·.entry.name)
  ancestors : x.entry.ancestors =
    (before.filter (·.position <+: x.position)).map (·.entry.qualifiedName)
  /-- The suffixes of the path, the longest first. -/
  scopedNames : x.entry.scopedNames = x.entry.path.tails.dropLast.map scopePath

namespace Declarations

variable {tree : Declarations} {before after : List PlacedClass} {x : PlacedClass}

section

variable (h : tree.placed = before ++ x :: after)

include h

private theorem position_lt_of_mem_before {y : PlacedClass} (hy : y ∈ before) :
    y.position < x.position := by
  have hplaced := tree.positions_placed_increasing
  rw [h, List.pairwise_append] at hplaced
  exact hplaced.2.2 y hy x List.mem_cons_self

private theorem position_lt_of_mem_after {y : PlacedClass} (hy : y ∈ after) :
    x.position < y.position := by
  have hplaced := tree.positions_placed_increasing
  rw [h, List.pairwise_append, List.pairwise_cons] at hplaced
  exact hplaced.2.1.1 y hy

private theorem nested_block :
    after.filter (x.position <+: ·.position) = after.takeWhile (x.position <+: ·.position) := by
  have hplaced := tree.positions_placed_increasing
  rw [h, List.pairwise_append, List.pairwise_cons] at hplaced
  apply filter_eq_takeWhile
  refine hplaced.2.1.2.imp_of_mem ?_
  intro y z hy _ hyz hz
  simp only [decide_eq_true_eq] at hz ⊢
  -- A position in between that is not nested would have all nested ones before it.
  by_contra hnot
  obtain ⟨inner, hinner⟩ := hz
  have hlt := append_lt_of_not_prefix (position_lt_of_mem_after h hy) hnot inner
  rw [hinner] at hlt
  exact absurd hyz (lt_asymm hlt)

/-- The classes around a class are listed before it, from the outside in. -/
private theorem positions_around {outer : List Nat} {last : Nat}
    (hx : x.position = outer ++ [last]) :
    (before.filter (·.position <+: x.position)).map (·.position) = outer.inits.tail := by
  have hplaced := tree.positions_placed_increasing
  rw [h, List.pairwise_append] at hplaced
  have hbefore : ((before.filter (·.position <+: x.position)).map (·.position)).Pairwise
      (· < ·) := List.pairwise_map.mpr (hplaced.1.filter _)
  refine hbefore.eq_of_mem_iff (pairwise_inits outer).tail fun p => ?_
  simp only [List.mem_map, List.mem_filter, decide_eq_true_eq, mem_tail_inits]
  constructor
  · rintro ⟨y, ⟨hy, hprefix⟩, rfl⟩
    have hmem : y ∈ tree.placed := h ▸ List.mem_append_left _ hy
    refine ⟨position_ne_nil hmem, ?_⟩
    rw [hx] at hprefix
    rcases List.prefix_concat_iff.mp hprefix with heq | hprefix
    · have hlt := position_lt_of_mem_before h hy
      rw [hx, heq] at hlt
      exact absurd hlt (lt_irrefl _)
    · exact hprefix
  · rintro ⟨hne, hprefix⟩
    have hwhole : p <+: x.position := hx ▸ hprefix.trans (List.prefix_append _ _)
    have hmem : x ∈ tree.placed := h ▸ List.mem_append_right _ List.mem_cons_self
    have hreach := reach?_isSome_of_prefix hne hwhole
      (Option.isSome_of_mem (reach?_of_mem_placed hmem).1)
    obtain ⟨y, hy, rfl⟩ := List.mem_map.mp (mem_positions_iff.mpr hreach)
    have hlt : y.position < x.position := by
      apply lt_of_prefix_of_ne hwhole
      intro heq
      have hlength := hprefix.length_le
      rw [heq, hx, List.length_append, List.length_singleton] at hlength
      omega
    rw [h, List.mem_append, List.mem_cons] at hy
    rcases hy with hy | rfl | hy
    · exact ⟨y, ⟨hy, hwhole⟩, rfl⟩
    · exact absurd hlt (lt_irrefl _)
    · exact absurd (position_lt_of_mem_after h hy) (lt_asymm hlt)

private theorem paths_around :
    (before.filter (·.position <+: x.position)).map (·.entry.path) =
      x.entry.enclosing.inits.tail := by
  have hmem : x ∈ tree.placed := h ▸ List.mem_append_right _ List.mem_cons_self
  obtain ⟨outer, last, hx⟩ :=
    (List.eq_nil_or_concat' x.position).resolve_left (position_ne_nil hmem)
  -- Both sides are read off the indices on the way.
  let onWay : List Nat → List (Option String) := fun p =>
    p.inits.tail.map fun q => (tree.reach? q).map (·.name)
  have hpath : ∀ y ∈ tree.placed, y.entry.path.map some = onWay y.position :=
    fun y hy => (reach?_of_mem_placed hy).2
  have henclosing : x.entry.enclosing.map some = onWay outer := by
    have hwhole := hpath x hmem
    rw [hx] at hwhole
    simp only [onWay, tail_inits_concat, ScopedClass.path, List.map_append, List.map_cons,
      List.map_nil] at hwhole
    exact (List.append_inj' hwhole rfl).1
  apply List.map_injective_iff.mpr (List.map_injective_iff.mpr (Option.some_injective String))
  calc ((before.filter (·.position <+: x.position)).map (·.entry.path)).map (List.map some)
      = (before.filter (·.position <+: x.position)).map fun y => onWay y.position := by
        rw [List.map_map]
        apply List.map_congr_left
        intro y hy
        exact hpath y (h ▸ List.mem_append_left _ (List.mem_filter.mp hy).1)
    _ = outer.inits.tail.map onWay := by
        rw [← positions_around h hx, List.map_map]
        rfl
    _ = (onWay outer).inits.tail := (tail_inits_map_tail_inits _ outer).symm
    _ = x.entry.enclosing.inits.tail.map (List.map some) := by
        rw [← henclosing, List.map_inits, List.map_tail]

end

theorem standsBetween_of_placed_eq (h : tree.placed = before ++ x :: after) :
    x.StandsBetween tree before after := by
  have hmem : x ∈ tree.placed := h ▸ List.mem_append_right _ List.mem_cons_self
  obtain ⟨hdecl, hpath⟩ := reach?_of_mem_placed hmem
  have haround := paths_around h
  refine ⟨hdecl, hpath, nested_block h, ?_, ?_, ?_, ?_⟩
  · intro y hy hprefix
    rcases eq_or_ne x.position y.position with heq | hne
    · exact absurd (heq ▸ position_lt_of_mem_before h hy) (lt_irrefl _)
    · exact absurd (lt_of_prefix_of_ne hprefix hne) (lt_asymm (position_lt_of_mem_before h hy))
  · apply List.map_injective_iff.mpr (Option.some_injective String)
    rw [← getLast?_tail_inits, ← haround, List.map_map, List.map_map]
    apply List.map_congr_left
    intro y _
    exact List.getLast?_concat
  · rw [ScopedClass.ancestors, outerChains_eq_inits, ← haround, List.map_map]
    rfl
  · rw [ScopedClass.scopedNames, innerChains_eq_tails]

/-- The list of all classes has one entry for each position of the tree, in lexicographic order: a
class before what is nested in it, and siblings in declaration order. In a valid tree with
unqualified names, the entries have different qualified names. -/
theorem scopedClasses_in_preOrder (tree : Declarations) :
    tree.placed.map (·.entry) = tree.scopedClasses ∧
      (tree.placed.map (·.position)).Pairwise (· < ·) ∧
      (∀ position, position ∈ tree.placed.map (·.position) ↔
        (tree.reach? position).isSome = true) ∧
      (∀ before x after, tree.placed = before ++ x :: after → x.StandsBetween tree before after) ∧
      (tree.validate = .ok () → tree.HasUnqualifiedNames →
        (tree.scopedClasses.map (·.qualifiedName)).Nodup) :=
  ⟨tree.entry_placed, List.pairwise_map.mpr tree.positions_placed_increasing,
    fun _ => mem_positions_iff, fun _ _ _ => standsBetween_of_placed_eq, qualifiedNames_nodup⟩

def journal : Declarations :=
  let cursor := (NativeClass.ofName "Cursor").addClass (.ofName "Mark")
  let log := ((NativeClass.ofName "Log").addClass cursor).addClass (.ofName "Line")
  ⟨none, [log, .ofName "Mark"]⟩

theorem scopedClasses_in_preOrder_journal :
    journal.placed.map (·.position) = [[0], [0, 0], [0, 0, 0], [0, 1], [1]] ∧
      ∃ before x after, journal.placed = before ++ x :: after ∧
        x.entry.qualifiedName = "Log::Cursor::Mark" ∧ x.StandsBetween journal before after ∧
          journal.validate = .ok () ∧ journal.HasUnqualifiedNames ∧
            (journal.scopedClasses.map (·.qualifiedName)).Nodup := by
  obtain ⟨-, -, -, hstands, hnodup⟩ := journal.scopedClasses_in_preOrder
  have hsplit : journal.placed = journal.placed.take 2 ++ journal.placed[2] ::
      journal.placed.drop 3 := rfl
  have hvalid : journal.validate = .ok () := rfl
  have hnames : journal.HasUnqualifiedNames := by decide
  exact ⟨rfl, _, _, _, hsplit, by decide, hstands _ _ _ hsplit, hvalid, hnames,
    hnodup hvalid hnames⟩

end Declarations

end NativeBindings
