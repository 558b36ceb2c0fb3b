import NativeBindings.Proofs.Boundary.Arguments
import Mathlib.Data.List.Nodup

/-!
# Names of parameters

An unnamed parameter, one with the name of the handle and one with a keyword of C# take other names
than they are declared with, and nothing keeps these apart from declared ones. If the declared names
differ, two parameters end up with one name exactly if one takes a name that is declared.
-/

namespace NativeBindings

open Text

namespace Parameter

/-- The name that a parameter is declared with, without blanks around it. -/
def givenName (param : Parameter) : String := String.ofList (trim param.name.toList)

/-- The name that a parameter at a position takes in place of its own. -/
inductive Takes (param : Parameter) (position : Nat) : String → Prop where
  | number (h : param.givenName = "") : Takes param position ("arg" ++ toString position)
  | beside (h : param.givenName = handleParameter) : Takes param position (handleParameter ++ "_")

end Parameter

section

variable {param : Parameter} {position : Nat} {name : String}

theorem parameterName_of_unnamed (h : param.givenName = "") (position : Nat) :
    parameterName param.name position = "arg" ++ toString position := by
  rw [parameterName]
  exact if_pos (String.isEmpty_iff.mpr h)

theorem parameterName_of_handle (h : param.givenName = handleParameter) (position : Nat) :
    parameterName param.name position = handleParameter ++ "_" := by
  have hnamed : param.givenName ≠ "" := by
    rw [h]
    decide
  rw [parameterName]
  exact (if_neg (mt String.isEmpty_iff.mp hnamed)).trans (if_pos h)

theorem parameterName_of_named (h : param.givenName ≠ "") (hh : param.givenName ≠ handleParameter)
    (position : Nat) : parameterName param.name position = param.givenName := by
  rw [parameterName]
  exact (if_neg (mt String.isEmpty_iff.mp h)).trans (if_neg hh)

theorem Parameter.Takes.parameterName_eq (h : param.Takes position name) :
    parameterName param.name position = name := by
  cases h with
  | number h => exact parameterName_of_unnamed h position
  | beside h => exact parameterName_of_handle h position

namespace Parameter.Takes

theorem ne_empty (h : param.Takes position name) : name ≠ "" := by
  cases h with
  | number _ => exact fun h => absurd (String.append_eq_empty_iff.mp h).1 (by decide)
  | beside _ => decide

theorem ne_handleParameter (h : param.Takes position name) : name ≠ handleParameter := by
  rw [← h.parameterName_eq]
  exact parameterName_ne_handleParameter _ _

theorem ne_given (h : param.Takes position name) : name ≠ param.givenName := by
  cases h with
  | number hempty =>
    rw [hempty]
    exact (Takes.number hempty : param.Takes position _).ne_empty
  | beside hhandle =>
    rw [hhandle]
    exact (Takes.beside hhandle : param.Takes position _).ne_handleParameter

end Parameter.Takes

theorem parameterName_cases (param : Parameter) (position : Nat) :
    param.Takes position (parameterName param.name position) ∨
      (parameterName param.name position = param.givenName ∧ param.givenName ≠ "" ∧
        param.givenName ≠ handleParameter) := by
  by_cases hempty : param.givenName = ""
  · left
    rw [parameterName_of_unnamed hempty]
    exact .number hempty
  · by_cases hhandle : param.givenName = handleParameter
    · left
      rw [parameterName_of_handle hhandle]
      exact .beside hhandle
    · exact .inr ⟨parameterName_of_named hempty hhandle position, hempty, hhandle⟩

end

namespace MemberFunction

def parameterNames (function : MemberFunction) : List String :=
  function.params.mapIdx fun position param => parameterName param.name position

/-- Parameters that have a name have different ones. -/
def HasDistinctNames (function : MemberFunction) : Prop :=
  function.params.Pairwise fun p q => p.givenName = q.givenName → p.givenName = ""

instance (function : MemberFunction) : Decidable function.HasDistinctNames :=
  inferInstanceAs (Decidable (List.Pairwise _ _))

/-- A parameter takes a name that is declared for another. -/
def TakesDeclaredName (function : MemberFunction) : Prop :=
  ∃ (position : Nat) (param : Parameter), function.params[position]? = some param ∧
    ∃ other ∈ function.params, param.Takes position other.givenName

/-- A keyword of C# is declared, and also what is written for it. -/
def EscapesToDeclaredName (function : MemberFunction) : Prop :=
  ∃ param ∈ function.params, param.givenName ∈ hostKeywords ∧
    ∃ other ∈ function.params, other.givenName = "@" ++ param.givenName

variable {function : MemberFunction}

theorem getElem?_parameterNames (function : MemberFunction) (i : Nat) :
    function.parameterNames[i]? = function.params[i]?.map fun param => parameterName param.name i :=
  List.getElem?_mapIdx

@[simp] theorem length_parameterNames (function : MemberFunction) :
    function.parameterNames.length = function.params.length :=
  List.length_mapIdx

theorem HasDistinctNames.eq_empty (h : function.HasDistinctNames) {i j : Nat} {p q : Parameter}
    (hp : function.params[i]? = some p) (hq : function.params[j]? = some q) (hij : i ≠ j)
    (hname : p.givenName = q.givenName) : p.givenName = "" := by
  obtain ⟨hi, rfl⟩ := List.getElem?_eq_some_iff.mp hp
  obtain ⟨hj, rfl⟩ := List.getElem?_eq_some_iff.mp hq
  have hpairs := List.pairwise_iff_getElem.mp h
  rcases Nat.lt_or_gt_of_ne hij with hlt | hgt
  · exact hpairs i j hi hj hlt hname
  · rw [hname]
    exact hpairs j i hj hi hgt hname.symm

end MemberFunction

theorem toString_nat_injective {m n : Nat} (h : toString m = toString n) : m = n := by
  have hdigits : Nat.toDigits 10 m = Nat.toDigits 10 n := by
    rw [← Nat.toList_repr, ← Nat.toList_repr]
    exact congrArg String.toList h
  have hvalues := congrArg (Nat.ofDigitChars 10 · 0) hdigits
  simpa using hvalues

theorem number_ne_beside (position : Nat) :
    "arg" ++ toString position ≠ handleParameter ++ "_" := by
  intro h
  have hhead := congrArg (fun s : String => s.toList.head?) h
  simp [handleParameter] at hhead

namespace MemberFunction

variable {function : MemberFunction}

theorem HasDistinctNames.taken_ne (h : function.HasDistinctNames) {i j : Nat} {p q : Parameter}
    (hp : function.params[i]? = some p) (hq : function.params[j]? = some q) (hij : i ≠ j)
    {name other : String} (hn : p.Takes i name) (ho : q.Takes j other) : name ≠ other := by
  cases hn with
  | number _ =>
    cases ho with
    | number _ =>
      exact fun heq => hij (toString_nat_injective (String.append_right_inj _ |>.mp heq))
    | beside _ => exact number_ne_beside i
  | beside hnamed =>
    cases ho with
    | number _ => exact (number_ne_beside j).symm
    | beside hother =>
      have hempty := h.eq_empty hp hq hij (hnamed.trans hother.symm)
      rw [hnamed] at hempty
      exact absurd hempty (by decide)

theorem parameterNames_nodup_iff (h : function.HasDistinctNames) :
    function.parameterNames.Nodup ↔ ¬ function.TakesDeclaredName := by
  rw [List.nodup_iff_getElem?_ne_getElem?]
  constructor
  · rintro hnames ⟨i, p, hp, q, hq, htakes⟩
    obtain ⟨j, hj⟩ := List.getElem?_of_mem hq
    have hsame : function.parameterNames[i]? = function.parameterNames[j]? := by
      rw [getElem?_parameterNames, getElem?_parameterNames, hp, hj, Option.map_some,
        Option.map_some, htakes.parameterName_eq,
        parameterName_of_named htakes.ne_empty htakes.ne_handleParameter]
    have hij : i ≠ j := by
      rintro rfl
      obtain rfl := Option.some.inj (hp.symm.trans hj)
      exact htakes.ne_given rfl
    have hlength {k : Nat} {r : Parameter} (hr : function.params[k]? = some r) :
        k < function.parameterNames.length := by
      rw [length_parameterNames]
      exact (List.getElem?_eq_some_iff.mp hr).1
    rcases Nat.lt_or_gt_of_ne hij with hlt | hgt
    · exact hnames i j hlt (hlength hj) hsame
    · exact hnames j i hgt (hlength hp) hsame.symm
  · intro hnone i j hij hj hsame
    rw [length_parameterNames] at hj
    obtain ⟨q, hq⟩ : ∃ q, function.params[j]? = some q := ⟨_, List.getElem?_eq_getElem hj⟩
    obtain ⟨p, hp⟩ : ∃ p, function.params[i]? = some p :=
      ⟨_, List.getElem?_eq_getElem (Nat.lt_trans hij hj)⟩
    rw [getElem?_parameterNames, getElem?_parameterNames, hp, hq, Option.map_some, Option.map_some,
      Option.some_inj] at hsame
    obtain hpt | ⟨hpn, hpe, -⟩ := parameterName_cases p i
    · obtain hqt | ⟨hqn, -, -⟩ := parameterName_cases q j
      · exact h.taken_ne hp hq (Nat.ne_of_lt hij) hpt hqt hsame
      · rw [hsame, hqn] at hpt
        exact hnone ⟨i, p, hp, q, List.mem_of_getElem? hq, hpt⟩
    · obtain hqt | ⟨hqn, -, -⟩ := parameterName_cases q j
      · rw [← hsame, hpn] at hqt
        exact hnone ⟨j, q, hq, p, List.mem_of_getElem? hp, hqt⟩
      · rw [hpn, hqn] at hsame
        exact hpe (h.eq_empty hp hq (Nat.ne_of_lt hij) hsame)

end MemberFunction

theorem hostIdentifier_of_keyword {name : String} (h : name ∈ hostKeywords) :
    hostIdentifier name = "@" ++ name :=
  if_pos (List.contains_iff_mem.mpr h)

theorem hostIdentifier_of_not_keyword {name : String} (h : name ∉ hostKeywords) :
    hostIdentifier name = name :=
  if_neg (mt List.contains_iff_mem.mp h)

theorem escape_notMem_hostKeywords (name : String) : "@" ++ name ∉ hostKeywords := by
  have hheads : ∀ keyword ∈ hostKeywords, keyword.toList.head? ≠ some '@' := by decide +kernel
  intro h
  exact hheads _ h (by rw [String.toList_append]; rfl)

/-- Two names are written alike if one is a keyword and the other is what is written for it. -/
theorem hostIdentifier_eq_iff {a b : String} (h : a ≠ b) :
    hostIdentifier a = hostIdentifier b ↔
      (a ∈ hostKeywords ∧ b = "@" ++ a) ∨ (b ∈ hostKeywords ∧ a = "@" ++ b) := by
  constructor
  · intro heq
    by_cases ha : a ∈ hostKeywords
    · by_cases hb : b ∈ hostKeywords
      · rw [hostIdentifier_of_keyword ha, hostIdentifier_of_keyword hb] at heq
        exact absurd ((String.append_right_inj _).mp heq) h
      · rw [hostIdentifier_of_keyword ha, hostIdentifier_of_not_keyword hb] at heq
        exact .inl ⟨ha, heq.symm⟩
    · by_cases hb : b ∈ hostKeywords
      · rw [hostIdentifier_of_not_keyword ha, hostIdentifier_of_keyword hb] at heq
        exact .inr ⟨hb, heq⟩
      · rw [hostIdentifier_of_not_keyword ha, hostIdentifier_of_not_keyword hb] at heq
        exact absurd heq h
  · rintro (⟨ha, rfl⟩ | ⟨hb, rfl⟩)
    · rw [hostIdentifier_of_keyword ha,
        hostIdentifier_of_not_keyword (escape_notMem_hostKeywords a)]
    · rw [hostIdentifier_of_keyword hb,
        hostIdentifier_of_not_keyword (escape_notMem_hostKeywords b)]

theorem nodup_map_hostIdentifier_iff {names : List String} :
    (names.map hostIdentifier).Nodup ↔
      names.Nodup ∧ ∀ name ∈ names, name ∈ hostKeywords → "@" ++ name ∉ names := by
  constructor
  · intro h
    have hnodup : names.Nodup := List.Nodup.of_map _ h
    refine ⟨hnodup, ?_⟩
    intro name hname hkeyword hescaped
    have hne : name ≠ "@" ++ name := by
      intro heq
      have hlength := congrArg String.length heq
      rw [String.length_append] at hlength
      exact absurd hlength (by simp)
    apply hne
    apply (List.nodup_map_iff_inj_on hnodup).mp h name hname _ hescaped
    exact (hostIdentifier_eq_iff hne).mpr (.inl ⟨hkeyword, rfl⟩)
  · rintro ⟨hnodup, hescapes⟩
    rw [List.nodup_map_iff_inj_on hnodup]
    intro a ha b hb heq
    by_contra hne
    rcases (hostIdentifier_eq_iff hne).mp heq with ⟨hkeyword, rfl⟩ | ⟨hkeyword, rfl⟩
    · exact hescapes a ha hkeyword hb
    · exact hescapes b hb hkeyword ha

theorem Parameter.Takes.not_escape {param : Parameter} {position : Nat} {name : String}
    (h : param.Takes position name) : name ∉ hostKeywords ∧ ∀ keyword, name ≠ "@" ++ keyword := by
  cases h with
  | number _ =>
    constructor
    · intro hkeyword
      have hprefix : ∀ keyword ∈ hostKeywords, ¬ "arg".toList <+: keyword.toList := by
        decide +kernel
      apply hprefix _ hkeyword
      rw [String.toList_append]
      exact List.prefix_append _ _
    · intro keyword heq
      have hhead := congrArg (fun s : String => s.toList.head?) heq
      simp at hhead
  | beside _ =>
    constructor
    · decide
    · intro keyword heq
      have hhead := congrArg (fun s : String => s.toList.head?) heq
      simp [handleParameter] at hhead

namespace MemberFunction

variable {function : MemberFunction}

theorem mem_parameterNames_iff {name : String} (hne : name ≠ "") (hhandle : name ≠ handleParameter)
    (htaken : ∀ (param : Parameter) (position : Nat), ¬ param.Takes position name) :
    name ∈ function.parameterNames ↔ ∃ param ∈ function.params, param.givenName = name := by
  constructor
  · intro h
    obtain ⟨i, hi⟩ := List.getElem?_of_mem h
    rw [getElem?_parameterNames] at hi
    obtain ⟨param, hparam, rfl⟩ := Option.map_eq_some_iff.mp hi
    obtain ht | ⟨hname, -⟩ := parameterName_cases param i
    · exact absurd ht (htaken param i)
    · exact ⟨param, List.mem_of_getElem? hparam, hname.symm⟩
  · rintro ⟨param, hparam, rfl⟩
    obtain ⟨i, hi⟩ := List.getElem?_of_mem hparam
    apply List.mem_of_getElem? (i := i)
    rw [getElem?_parameterNames, hi, Option.map_some, parameterName_of_named hne hhandle]

theorem mem_parameterNames_of_keyword {name : String} (h : name ∈ hostKeywords) :
    name ∈ function.parameterNames ↔ ∃ param ∈ function.params, param.givenName = name := by
  have hkeywords : ∀ keyword ∈ hostKeywords, keyword ≠ "" ∧ keyword ≠ handleParameter := by
    decide +kernel
  exact mem_parameterNames_iff (hkeywords name h).1 (hkeywords name h).2
    fun param position ht => ht.not_escape.1 h

theorem mem_parameterNames_of_escape {name : String} :
    "@" ++ name ∈ function.parameterNames ↔
      ∃ param ∈ function.params, param.givenName = "@" ++ name := by
  apply mem_parameterNames_iff
  · exact fun h => absurd (String.append_eq_empty_iff.mp h).1 (by decide)
  · intro h
    have hhead := congrArg (fun s : String => s.toList.head?) h
    simp [handleParameter] at hhead
  · exact fun param position ht => ht.not_escape.2 name rfl

theorem hostNames_nodup_iff (h : function.HasDistinctNames) :
    (function.parameterNames.map hostIdentifier).Nodup ↔
      ¬ function.TakesDeclaredName ∧ ¬ function.EscapesToDeclaredName := by
  rw [nodup_map_hostIdentifier_iff, parameterNames_nodup_iff h]
  apply and_congr_right
  intro _
  constructor
  · rintro hall ⟨param, hparam, hkeyword, hother⟩
    exact hall _ ((mem_parameterNames_of_keyword hkeyword).mpr ⟨param, hparam, rfl⟩) hkeyword
      (mem_parameterNames_of_escape.mpr hother)
  · intro hnone name hname hkeyword hescape
    obtain ⟨param, hparam, rfl⟩ := (mem_parameterNames_of_keyword hkeyword).mp hname
    exact hnone ⟨param, hparam, hkeyword, mem_parameterNames_of_escape.mp hescape⟩

end MemberFunction

end NativeBindings
