import NativeBindings.Policy.Admission
import Mathlib.Data.List.Nodup

/-!
# Claims to export names

Classes and functions claim export names one after another. A claimant with a fault of its own gets
nothing and takes nothing from others; otherwise a name goes to the first that claims it. Deciding
with a list of the names taken so far comes to the same as looking back at all claimants before.
-/

namespace NativeBindings

/-- What claimants of one kind claim, and what speaks against them from the start. -/
structure Claims (α : Type) where
  fault? : α → Option SkipReason
  name : α → String

namespace Claims

variable {α : Type} (claims : Claims α)

/-- Decides about claimants in order; nothing speaks against one that gets its name. -/
def verdicts (taken : List String) : List α → List (α × Option SkipReason)
  | [] => []
  | x :: rest =>
    match claims.fault? x with
    | some reason => (x, some reason) :: verdicts taken rest
    | none =>
      if claims.name x ∈ taken then
        (x, some (.duplicateExport (claims.name x))) :: verdicts taken rest
      else (x, none) :: verdicts (claims.name x :: taken) rest

def granted? : α × Option SkipReason → Option α
  | (x, none) => some x
  | (_, some _) => none

def granted (decided : List (α × Option SkipReason)) : List α := decided.filterMap granted?

/-- The name was never free, or an earlier claimant without a fault has claimed it. -/
def IsGone (taken : List String) (earlier : List α) (name : String) : Prop :=
  name ∈ taken ∨ ∃ y ∈ earlier, claims.fault? y = none ∧ claims.name y = name

instance (taken : List String) (earlier : List α) (name : String) :
    Decidable (claims.IsGone taken earlier name) :=
  inferInstanceAs (Decidable (_ ∨ _))

/-- The decision about a claimant from all claimants before it. -/
def verdict (taken : List String) (earlier : List α) (x : α) : Option SkipReason :=
  match claims.fault? x with
  | some reason => some reason
  | none =>
    if claims.IsGone taken earlier (claims.name x) then some (.duplicateExport (claims.name x))
    else none

theorem verdict_eq_none_iff (taken : List String) (earlier : List α) (x : α) :
    claims.verdict taken earlier x = none ↔
      claims.fault? x = none ∧ ¬ claims.IsGone taken earlier (claims.name x) := by
  unfold verdict
  cases claims.fault? x with
  | some reason => simp
  | none => simp

theorem verdict_eq_some_iff (taken : List String) (earlier : List α) (x : α) (reason : SkipReason) :
    claims.verdict taken earlier x = some reason ↔
      claims.fault? x = some reason ∨ claims.fault? x = none ∧
        claims.IsGone taken earlier (claims.name x) ∧
          reason = .duplicateExport (claims.name x) := by
  unfold verdict
  cases claims.fault? x with
  | some fault => simp
  | none => simp [eq_comm]

@[simp] theorem granted_nil : granted ([] : List (α × Option SkipReason)) = [] := rfl

@[simp] theorem granted_cons_none (x : α) (decided : List (α × Option SkipReason)) :
    granted ((x, none) :: decided) = x :: granted decided := rfl

@[simp] theorem granted_cons_some (x : α) (reason : SkipReason)
    (decided : List (α × Option SkipReason)) :
    granted ((x, some reason) :: decided) = granted decided := rfl

theorem granted_append (decided more : List (α × Option SkipReason)) :
    granted (decided ++ more) = granted decided ++ granted more :=
  List.filterMap_append

theorem mem_granted {decided : List (α × Option SkipReason)} {x : α} :
    x ∈ granted decided ↔ (x, none) ∈ decided := by
  rw [granted, List.mem_filterMap]
  constructor
  · rintro ⟨⟨y, _ | reason⟩, hy, h⟩
    · cases h
      exact hy
    · cases h
  · exact fun h => ⟨(x, none), h, rfl⟩

theorem verdicts_congr {taken taken' : List String} (h : ∀ name, name ∈ taken ↔ name ∈ taken')
    (xs : List α) : claims.verdicts taken xs = claims.verdicts taken' xs := by
  induction xs generalizing taken taken' with
  | nil => rfl
  | cons x rest ih =>
    have hcons : ∀ name, name ∈ claims.name x :: taken ↔ name ∈ claims.name x :: taken' := by
      intro name
      simp only [List.mem_cons, h]
    simp only [verdicts, h, ih h, ih hcons]

/-- The names that are taken once a claimant is decided. -/
def takenAfter (taken : List String) (x : α) : List String :=
  if claims.fault? x = none then claims.name x :: taken else taken

theorem verdicts_cons (taken : List String) (x : α) (rest : List α) :
    claims.verdicts taken (x :: rest) =
      (x, claims.verdict taken [] x) :: claims.verdicts (claims.takenAfter taken x) rest := by
  rw [verdicts, verdict, takenAfter]
  cases hf : claims.fault? x with
  | some reason => simp
  | none =>
    by_cases ht : claims.name x ∈ taken
    · -- The name is taken already, so that taking it again changes nothing.
      have hsame : ∀ name, name ∈ taken ↔ name ∈ claims.name x :: taken := by
        intro name
        simp only [List.mem_cons, iff_or_self]
        exact fun h => h ▸ ht
      simp [ht, IsGone, claims.verdicts_congr hsame]
    · simp [ht, IsGone]

theorem isGone_takenAfter (taken : List String) (x : α) (earlier : List α) (name : String) :
    claims.IsGone (claims.takenAfter taken x) earlier name ↔
      claims.IsGone taken (x :: earlier) name := by
  unfold IsGone takenAfter
  by_cases hf : claims.fault? x = none
  · simp only [hf, if_true, List.mem_cons, exists_eq_or_imp, true_and, eq_comm (a := name)]
    exact or_assoc.trans or_left_comm
  · simp [hf]

theorem verdict_takenAfter (taken : List String) (x : α) (earlier : List α) (y : α) :
    claims.verdict (claims.takenAfter taken x) earlier y =
      claims.verdict taken (x :: earlier) y := by
  unfold verdict
  simp only [isGone_takenAfter]

@[simp] theorem verdicts_fst (taken : List String) (xs : List α) :
    (claims.verdicts taken xs).map (·.1) = xs := by
  induction xs generalizing taken with
  | nil => rfl
  | cons x rest ih =>
    rw [verdicts_cons, List.map_cons, ih]

theorem mem_verdicts_of_split (taken : List String) (earlier : List α) (x : α) (later : List α) :
    (x, claims.verdict taken earlier x) ∈ claims.verdicts taken (earlier ++ x :: later) := by
  induction earlier generalizing taken with
  | nil =>
    rw [List.nil_append, verdicts_cons]
    exact List.mem_cons_self
  | cons head earlier ih =>
    rw [List.cons_append, verdicts_cons, ← verdict_takenAfter]
    exact List.mem_cons_of_mem _ (ih _)

/-- The loop decides what looking back decides. -/
theorem verdict_of_verdicts {taken : List String} {xs : List α}
    {earlier later : List (α × Option SkipReason)} {x : α} {reason? : Option SkipReason}
    (h : claims.verdicts taken xs = earlier ++ (x, reason?) :: later) :
    reason? = claims.verdict taken (earlier.map (·.1)) x := by
  induction xs generalizing taken earlier with
  | nil => simp [verdicts] at h
  | cons head rest ih =>
    rw [verdicts_cons] at h
    cases earlier with
    | nil =>
      obtain ⟨hx, -⟩ := List.cons.inj h
      obtain ⟨rfl, rfl⟩ := Prod.mk.inj hx
      rfl
    | cons first earlier =>
      obtain ⟨rfl, hrest⟩ := List.cons.inj h
      rw [ih hrest, verdict_takenAfter]
      rfl

theorem verdicts_append (taken : List String) (xs ys : List α) :
    claims.verdicts taken (xs ++ ys) = claims.verdicts taken xs ++
      claims.verdicts ((granted (claims.verdicts taken xs)).map claims.name ++ taken) ys := by
  induction xs generalizing taken with
  | nil => rfl
  | cons x rest ih =>
    rw [List.cons_append, verdicts, verdicts]
    cases claims.fault? x with
    | some reason => simp [ih]
    | none =>
      by_cases ht : claims.name x ∈ taken
      · simp [ht, ih]
      · simp only [ht, if_false, granted_cons_none, List.map_cons, List.cons_append, ih]
        congr 2
        apply claims.verdicts_congr
        intro name
        simp only [List.mem_append, List.mem_cons]
        exact or_left_comm

theorem verdicts_map (f : α → α) (hfault : ∀ x, claims.fault? (f x) = claims.fault? x)
    (hname : ∀ x, claims.name (f x) = claims.name x) (taken : List String) (xs : List α) :
    claims.verdicts taken (xs.map f) = (claims.verdicts taken xs).map fun v => (f v.1, v.2) := by
  induction xs generalizing taken with
  | nil => rfl
  | cons x rest ih =>
    rw [List.map_cons, verdicts, verdicts, hfault, hname]
    cases claims.fault? x with
    | some reason => simp only [ih, List.map_cons]
    | none =>
      by_cases ht : claims.name x ∈ taken
      · simp only [ht, if_true, ih, List.map_cons]
      · simp only [ht, if_false, ih, List.map_cons]

/-- What all others get does not depend on who it is that claims a name. -/
theorem exists_verdicts_middle (taken : List String) (before : List α) (x : α) (after : List α) :
    ∃ decided reason? more, ∀ y, claims.fault? y = claims.fault? x →
      claims.name y = claims.name x →
        claims.verdicts taken (before ++ y :: after) = decided ++ (y, reason?) :: more := by
  let gone := (granted (claims.verdicts taken before)).map claims.name ++ taken
  refine ⟨claims.verdicts taken before, claims.verdict gone [] x,
    claims.verdicts (claims.takenAfter gone x) after, ?_⟩
  intro y hfault hname
  have hverdict : claims.verdict gone [] y = claims.verdict gone [] x := by
    unfold verdict
    rw [hfault, hname]
  have htaken : claims.takenAfter gone y = claims.takenAfter gone x := by
    unfold takenAfter
    rw [hfault, hname]
  rw [verdicts_append, verdicts_cons, hverdict, htaken]

/-- Claimants with faults take nothing from others. -/
theorem verdicts_append_of_fault {reason : SkipReason} {xs : List α}
    (h : ∀ x ∈ xs, claims.fault? x = some reason) (taken : List String) (ys : List α) :
    claims.verdicts taken (xs ++ ys) =
      xs.map (fun x => (x, some reason)) ++ claims.verdicts taken ys := by
  induction xs with
  | nil => rfl
  | cons x rest ih =>
    obtain ⟨hhead, hrest⟩ := List.forall_mem_cons.mp h
    rw [List.cons_append, verdicts, hhead, List.map_cons, List.cons_append, ih hrest]

theorem granted_sublist (taken : List String) (xs : List α) :
    (granted (claims.verdicts taken xs)).Sublist xs := by
  induction xs generalizing taken with
  | nil => exact List.Sublist.slnil
  | cons x rest ih =>
    rw [verdicts_cons]
    cases claims.verdict taken [] x with
    | none => exact (ih _).cons_cons x
    | some reason => exact (ih _).cons x

theorem name_of_granted_notMem {taken : List String} {xs : List α} {x : α}
    (hx : x ∈ granted (claims.verdicts taken xs)) : claims.name x ∉ taken := by
  obtain ⟨earlier, later, h⟩ := List.append_of_mem (mem_granted.mp hx)
  have hv := (claims.verdict_of_verdicts h).symm
  exact fun ht => ((claims.verdict_eq_none_iff _ _ _).mp hv).2 (Or.inl ht)

theorem fault?_eq_none_of_granted {taken : List String} {xs : List α} {x : α}
    (hx : x ∈ granted (claims.verdicts taken xs)) : claims.fault? x = none := by
  obtain ⟨earlier, later, h⟩ := List.append_of_mem (mem_granted.mp hx)
  have hv := (claims.verdict_of_verdicts h).symm
  exact ((claims.verdict_eq_none_iff _ _ _).mp hv).1

/-- No name is granted twice. -/
theorem names_of_granted_nodup (taken : List String) (xs : List α) :
    ((granted (claims.verdicts taken xs)).map claims.name).Nodup := by
  induction xs generalizing taken with
  | nil => simp [verdicts]
  | cons x rest ih =>
    rw [verdicts]
    cases claims.fault? x with
    | some reason => exact ih taken
    | none =>
      by_cases ht : claims.name x ∈ taken
      · simp only [ht, if_true, granted_cons_some]
        exact ih taken
      · simp only [ht, if_false, granted_cons_none, List.map_cons, List.nodup_cons]
        refine ⟨fun hx => ?_, ih _⟩
        obtain ⟨y, hy, hn⟩ := List.mem_map.mp hx
        exact claims.name_of_granted_notMem hy (hn ▸ List.mem_cons_self)

end Claims

end NativeBindings
