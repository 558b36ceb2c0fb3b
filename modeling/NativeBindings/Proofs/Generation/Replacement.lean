import NativeBindings.Proofs.Generation.Members
import Mathlib.Data.List.InsertIdx

/-!
# Bindings without what is left out

A function that is left out of a class takes no export name. Without it, the class has the same
bindings, all other classes are bound as before, and the report has one record less. The same goes
for constructors that the policy drops, and for denied classes.
-/

namespace NativeBindings

private theorem exists_split_eraseIdx {α : Type} {xs : List α} {i : Nat} {x : α}
    (h : xs[i]? = some x) :
    ∃ front back, xs = front ++ x :: back ∧ xs.eraseIdx i = front ++ back := by
  obtain ⟨hi, rfl⟩ := List.getElem?_eq_some_iff.mp h
  refine ⟨xs.take i, xs.drop (i + 1), ?_, List.eraseIdx_eq_take_drop_succ xs i⟩
  rw [List.getElem_cons_drop, List.take_append_drop]

namespace ConstructorPolicy

variable (policy : ConstructorPolicy) (constructors : List MemberFunction) (i : Nat)

/-- A position behind that of the bound constructor, which comes first if there is one. -/
def behindBound : Nat := (policy.bound? constructors).toList.length + i

theorem bound?_eraseIdx :
    policy.bound? (constructors.eraseIdx (policy.behindBound constructors i)) =
      policy.bound? constructors := by
  cases policy with
  | noConstructor => rfl
  | firstDeclared =>
    cases constructors with
    | nil => rfl
    | cons first rest => simp [bound?, behindBound, Nat.add_comm 1 i]

theorem dropped_eraseIdx :
    policy.dropped (constructors.eraseIdx (policy.behindBound constructors i)) =
      (policy.dropped constructors).eraseIdx i := by
  cases policy with
  | noConstructor => simp [bound?, dropped, behindBound]
  | firstDeclared =>
    cases constructors with
    | nil => rfl
    | cons first rest => simp [bound?, dropped, behindBound, Nat.add_comm 1 i]

end ConstructorPolicy

namespace ClassBindings

/-- The second class has the same bindings, and all records but one. -/
structure Lacks (b b' : ClassBindings) (record : SkipRecord) : Prop where
  glue : b'.glue = b.glue
  binding : b'.binding = b.binding
  skipped : ∃ before after, b.skipped = before ++ record :: after ∧ b'.skipped = before ++ after

theorem Lacks.report {b b' : ClassBindings} {record : SkipRecord}
    (h : b.Lacks b' record) : b'.report = b.report := by
  have hreport : ∀ b : ClassBindings,
      b.report = ⟨b.glue.qualifiedName, b.binding.wrapperName, b.glue.exportNames⟩ := fun _ => rfl
  rw [hreport b', h.glue, h.binding, hreport b]

variable {b : ClassBindings} {constructors functions : List MemberFunction}
  {front back : List FunctionOutcome} {name : String} {reason : SkipReason}

theorem lacks_outcome (h : b.outcomes = front ++ .skipped name reason :: back) :
    b.Lacks
      { b with owner := b.owner.withMembers constructors functions, outcomes := front ++ back }
      ⟨b.owner.qualifiedName, some name, reason⟩ where
  glue := by
    rw [ClassBindings.glue, ClassBindings.glue, h, List.filterMap_append, List.filterMap_append,
      List.filterMap_cons_none rfl]
    rfl
  binding := by
    rw [ClassBindings.binding, ClassBindings.binding, h, List.filterMap_append,
      List.filterMap_append, List.filterMap_cons_none rfl]
    rfl
  skipped := by
    have hrecord : FunctionOutcome.record? b.owner.qualifiedName (.skipped name reason) =
        some ⟨b.owner.qualifiedName, some name, reason⟩ := rfl
    refine ⟨(b.dropped ++ front).filterMap (·.record? b.owner.qualifiedName),
      back.filterMap (·.record? b.owner.qualifiedName), ?_, ?_⟩
    · rw [ClassBindings.skipped, h, ← List.append_assoc, List.filterMap_append,
        List.filterMap_cons_some hrecord]
    · rw [← List.filterMap_append, List.append_assoc]
      rfl

theorem lacks_dropped (h : b.dropped = front ++ .skipped name reason :: back) :
    b.Lacks { b with owner := b.owner.withMembers constructors functions, dropped := front ++ back }
      ⟨b.owner.qualifiedName, some name, reason⟩ where
  glue := rfl
  binding := rfl
  skipped := by
    have hrecord : FunctionOutcome.record? b.owner.qualifiedName (.skipped name reason) =
        some ⟨b.owner.qualifiedName, some name, reason⟩ := rfl
    refine ⟨front.filterMap (·.record? b.owner.qualifiedName),
      (back ++ b.outcomes).filterMap (·.record? b.owner.qualifiedName), ?_, ?_⟩
    · rw [ClassBindings.skipped, h, List.append_assoc, List.filterMap_append, List.cons_append,
        List.filterMap_cons_some hrecord]
    · rw [← List.filterMap_append, ← List.append_assoc]
      rfl

end ClassBindings

namespace GenerationRules

variable (rules : GenerationRules) {taken : List String} {c : ScopedClass} {i : Nat} {name : String}
  {reason : SkipReason}

private theorem exists_outcomes_cons (c : ScopedClass) (taken : List String)
    (function : MemberFunction) :
    ∃ outcome gone,
      (∀ rest, rules.outcomes c taken (function :: rest) = outcome :: rules.outcomes c gone rest) ∧
        ∀ name reason, outcome = .skipped name reason → gone = taken := by
  cases hfault : rules.admission.fault? function with
  | some fault =>
    refine ⟨.skipped function.name fault, taken, fun rest => ?_, fun _ _ _ => rfl⟩
    rw [outcomes, hfault]
  | none =>
    by_cases htaken : taken.contains (c.exportName function)
    · refine ⟨.skipped function.name (.duplicateExport (c.exportName function)), taken,
        fun rest => ?_, fun _ _ _ => rfl⟩
      simp only [outcomes, hfault, htaken, if_true]
    · refine ⟨rules.bind c function, c.exportName function :: taken, fun rest => ?_, ?_⟩
      · simp only [outcomes, hfault, htaken, Bool.false_eq_true, if_false]
      · intro name reason h
        cases h

/-- Without a function that is left out, nothing changes for the others. -/
theorem outcomes_eraseIdx {functions : List MemberFunction}
    (h : (rules.outcomes c taken functions)[i]? = some (.skipped name reason)) :
    rules.outcomes c taken (functions.eraseIdx i) =
      (rules.outcomes c taken functions).eraseIdx i := by
  induction functions generalizing taken i with
  | nil => rfl
  | cons function rest ih =>
    obtain ⟨outcome, gone, hcons, hskipped⟩ := rules.exists_outcomes_cons c taken function
    rw [hcons] at h ⊢
    cases i with
    | zero =>
      have houtcome : outcome = .skipped name reason := by simpa using h
      rw [List.eraseIdx_cons_zero, List.eraseIdx_cons_zero, hskipped name reason houtcome]
    | succ i =>
      rw [List.getElem?_cons_succ] at h
      rw [List.eraseIdx_cons_succ, List.eraseIdx_cons_succ, hcons, ih h]

theorem lacks_function
    (h : (rules.bindClass taken c).outcomes[rules.constructors.behindBound c.decl.constructors i]? =
      some (.skipped name reason)) :
    (rules.bindClass taken c).Lacks
      (rules.bindClass taken (c.withMembers c.decl.constructors (c.decl.functions.eraseIdx i)))
      ⟨c.qualifiedName, some name, reason⟩ := by
  obtain ⟨front, back, hsplit, herase⟩ := exists_split_eraseIdx h
  have hadmitted : (rules.constructors.bound? c.decl.constructors).toList ++
      c.decl.functions.eraseIdx i = (rules.admitted c).eraseIdx
        (rules.constructors.behindBound c.decl.constructors i) := by
    rw [admitted, ConstructorPolicy.behindBound,
      List.eraseIdx_append_of_length_le (Nat.le_add_right _ _), Nat.add_sub_cancel_left]
  have houtcomes := rules.outcomes_eraseIdx h
  rw [← hadmitted] at houtcomes
  rw [bindClass_withMembers, houtcomes.trans herase]
  exact ClassBindings.lacks_outcome hsplit

theorem lacks_constructor
    (h : (rules.bindClass taken c).dropped[i]? = some (.skipped name reason)) :
    (rules.bindClass taken c).Lacks
      (rules.bindClass taken (c.withMembers (c.decl.constructors.eraseIdx
        (rules.constructors.behindBound c.decl.constructors i)) c.decl.functions))
      ⟨c.qualifiedName, some name, reason⟩ := by
  obtain ⟨front, back, hsplit, herase⟩ := exists_split_eraseIdx h
  have hdropped : ((rules.constructors.dropped c.decl.constructors).map fun function =>
      FunctionOutcome.skipped function.name rules.constructors.reason).eraseIdx i =
        front ++ back := herase
  rw [bindClass_withMembers, ConstructorPolicy.bound?_eraseIdx, ConstructorPolicy.dropped_eraseIdx,
    ← List.eraseIdx_map, hdropped]
  exact ClassBindings.lacks_dropped hsplit

theorem eq_of_owner_notMem {b b' : ClassBindings} {front back : List ScopedClass}
    {gone : List String}
    (hb : b ∈ rules.bindClasses taken front ++ b' :: rules.bindClasses gone back)
    (hfront : b.owner ∉ front) (hback : b.owner ∉ back) : b = b' := by
  have howner : ∀ {taken classes}, b ∈ rules.bindClasses taken classes → b.owner ∈ classes := by
    intro taken classes hmem
    rw [← rules.bindClasses_owner taken classes]
    exact List.mem_map_of_mem hmem
  rcases List.mem_append.mp hb with hb | hb
  · exact absurd (howner hb) hfront
  · rcases List.mem_cons.mp hb with hb | hb
    · exact hb
    · exact absurd (howner hb) hback

end GenerationRules

/-- Wherever the bindings of the class come from, with these members it lacks a record. -/
def ClassBindings.LacksWith (b : ClassBindings) (policy : ConstructorPolicy)
    (constructors functions : List MemberFunction) (record : SkipRecord) : Prop :=
  ∀ (rules : GenerationRules) (taken : List String), rules.constructors = policy →
    b = rules.bindClass taken b.owner →
      b.Lacks (rules.bindClass taken (b.owner.withMembers constructors functions)) record

namespace ClassBindings

variable {b : ClassBindings} {policy : ConstructorPolicy} {i : Nat} {name : String}
  {reason : SkipReason}

theorem lacksWith_function
    (h : b.outcomes[policy.behindBound b.owner.decl.constructors i]? =
      some (.skipped name reason)) :
    b.LacksWith policy b.owner.decl.constructors (b.owner.decl.functions.eraseIdx i)
      ⟨b.owner.qualifiedName, some name, reason⟩ := by
  rintro rules taken rfl hb
  rw [congrArg ClassBindings.outcomes hb] at h
  have hlacks := rules.lacks_function h
  rwa [← hb] at hlacks

theorem lacksWith_constructor (h : b.dropped[i]? = some (.skipped name reason)) :
    b.LacksWith policy
      (b.owner.decl.constructors.eraseIdx (policy.behindBound b.owner.decl.constructors i))
      b.owner.decl.functions ⟨b.owner.qualifiedName, some name, reason⟩ := by
  rintro rules taken rfl hb
  rw [congrArg ClassBindings.dropped hb] at h
  have hlacks := rules.lacks_constructor h
  rwa [← hb] at hlacks

end ClassBindings

def ScopedClass.deniedRecord (c : ScopedClass) : SkipRecord := ⟨c.qualifiedName, none, .ignored⟩

/-- The second run has the same documents and the same entries, and all records but these. -/
structure Generated.AgreesBut (records : List SkipRecord) (result result' : Generated) : Prop where
  glue : result'.glue = result.glue
  bindings : result'.bindings = result.bindings
  classes : result'.report.classes = result.report.classes
  skipped : ∃ before after, result.report.skipped = before ++ (records ++ after) ∧
    result'.report.skipped = before ++ after

namespace GeneratorSettings

variable {settings : GeneratorSettings}

/-- Other members of one class, with which it lacks a record, change nothing for the others. -/
theorem exists_bindSelected_replace {front back : List ScopedClass} {b : ClassBindings}
    (hb : b ∈ settings.bindSelected (front ++ b.owner :: back)) (hfront : b.owner ∉ front)
    (hback : b.owner ∉ back) {constructors functions : List MemberFunction} {record : SkipRecord}
    (h : b.LacksWith settings.constructors constructors functions record) :
    ∃ first b' last, b.Lacks b' record ∧
      settings.bindSelected (front ++ b.owner :: back) = first ++ b :: last ∧
        settings.bindSelected (front ++ b.owner.withMembers constructors functions :: back) =
          first ++ b' :: last := by
  let rules := GenerationRules.ofSelected settings (front ++ b.owner :: back)
  let names := (front ++ b.owner :: back).map (·.disposeName)
  obtain ⟨gone, hgone⟩ := rules.exists_bindClasses_append names front
  have hsplit : settings.bindSelected (front ++ b.owner :: back) =
      rules.bindClasses names front ++ rules.bindClass gone b.owner ::
        rules.bindClasses ((rules.bindClass gone b.owner).functionExports ++ gone) back :=
    hgone (b.owner :: back)
  have hclass : b = rules.bindClass gone b.owner := by
    rw [hsplit] at hb
    exact rules.eq_of_owner_notMem hb hfront hback
  have hlacks := h rules gone rfl hclass
  have hrules : GenerationRules.ofSelected settings
      (front ++ b.owner.withMembers constructors functions :: back) = rules := by
    apply GenerationRules.ofSelected_congr
    simp only [List.map_append, List.map_cons]
    rfl
  have hnames : (front ++ b.owner.withMembers constructors functions :: back).map
      (·.disposeName) = names := by
    simp only [names, List.map_append, List.map_cons]
    rfl
  have hexports : (rules.bindClass gone
      (b.owner.withMembers constructors functions)).functionExports = b.functionExports := by
    rw [ClassBindings.functionExports, hlacks.glue, ClassBindings.functionExports]
  refine ⟨rules.bindClasses names front, rules.bindClass gone _,
    rules.bindClasses (b.functionExports ++ gone) back, hlacks, ?_, ?_⟩
  · rw [hsplit, ← hclass]
  · rw [bindSelected, hrules, hnames, hgone, GenerationRules.bindClasses, hexports]

theorem agreesBut_replace {earlier later : List ClassVerdict} {b : ClassBindings}
    (hb : b ∈ settings.bindSelected ((earlier ++ (b.owner, none) :: later).filterMap (·.selected?)))
    (hearlier : b.owner ∉ earlier.map (·.1)) (hlater : b.owner ∉ later.map (·.1))
    {constructors functions : List MemberFunction} {record : SkipRecord}
    (h : b.LacksWith settings.constructors constructors functions record) :
    (settings.assembleDecided (earlier ++ (b.owner, none) :: later)).AgreesBut [record]
      (settings.assembleDecided
        (earlier ++ (b.owner.withMembers constructors functions, none) :: later)) := by
  have hselected : ∀ c : ScopedClass, (earlier ++ (c, none) :: later).filterMap (·.selected?) =
      earlier.filterMap (·.selected?) ++ c :: later.filterMap (·.selected?) := by
    intro c
    have hhead : ClassVerdict.selected? (c, none) = some c := rfl
    rw [List.filterMap_append, List.filterMap_cons_some hhead]
  have hrecords : ∀ c : ScopedClass, (earlier ++ (c, none) :: later).filterMap (·.record?) =
      earlier.filterMap (·.record?) ++ later.filterMap (·.record?) := by
    intro c
    have hhead : ClassVerdict.record? (c, none) = none := rfl
    rw [List.filterMap_append, List.filterMap_cons_none hhead]
  have hnot : ∀ {decided : List ClassVerdict}, b.owner ∉ decided.map (·.1) →
      b.owner ∉ decided.filterMap (·.selected?) := by
    intro decided hd hs
    exact hd ((ClassVerdict.selected_sublist decided).subset hs)
  rw [hselected] at hb
  obtain ⟨first, b', last, hlacks, hold, hnew⟩ :=
    exists_bindSelected_replace hb (hnot hearlier) (hnot hlater) h
  obtain ⟨before, after, hbefore, hafter⟩ := hlacks.skipped
  simp only [assembleDecided, hselected, hrecords, hold, hnew]
  constructor
  case glue => simp only [List.map_append, List.map_cons, hlacks.glue]
  case bindings => simp only [List.map_append, List.map_cons, hlacks.binding]
  case classes => simp only [List.map_append, List.map_cons, hlacks.report]
  case skipped =>
    refine ⟨earlier.filterMap (·.record?) ++ later.filterMap (·.record?) ++
      (first.flatMap (·.skipped) ++ before), after ++ last.flatMap (·.skipped), ?_, ?_⟩
    · simp only [List.flatMap_append, List.flatMap_cons, hbefore, List.append_assoc,
        List.cons_append, List.nil_append]
    · simp only [List.flatMap_append, List.flatMap_cons, hafter, List.append_assoc]

theorem agreesBut_remove (earlier : List ClassVerdict) (denied : List ScopedClass)
    (later : List ClassVerdict) :
    (settings.assembleDecided
      (earlier ++ (denied.map (fun c => (c, some .ignored)) ++ later))).AgreesBut
      (denied.map (·.deniedRecord)) (settings.assembleDecided (earlier ++ later)) := by
  have hselected : (denied.map fun c => (c, some .ignored)).filterMap ClassVerdict.selected? =
      [] := by
    simp [ClassVerdict.selected?]
  have hrecords : (denied.map fun c => (c, some .ignored)).filterMap ClassVerdict.record? =
      denied.map (·.deniedRecord) := by
    rw [List.filterMap_map, ← List.filterMap_eq_map]
    rfl
  simp only [assembleDecided, List.filterMap_append, hselected, hrecords, List.nil_append]
  constructor
  case glue => rfl
  case bindings => rfl
  case classes => rfl
  case skipped =>
    simp only [List.append_assoc]
    exact ⟨_, _, rfl, rfl⟩

end GeneratorSettings

end NativeBindings
