import NativeBindings.Proofs.Naming.MemberName
import NativeBindings.Proofs.Naming.Parameter

/-!
# Names that C# takes

A native identifier becomes a parameter that C# takes, since keywords are escaped. In Pascal case no
name is a keyword, but the underscores are gone that a name without letters, or with a digit as its
first, needs to be one.
-/

namespace NativeBindings

open Text

def StartsWith (p : Char → Prop) : List Char → Prop
  | [] => False
  | c :: _ => p c

instance (p : Char → Prop) [DecidablePred p] : DecidablePred (StartsWith p)
  | [] => inferInstanceAs (Decidable False)
  | c :: _ => inferInstanceAs (Decidable (p c))

theorem startsWith_iff {p : Char → Prop} {cs : List Char} :
    StartsWith p cs ↔ ∃ c, cs.head? = some c ∧ p c := by
  cases cs <;> simp [StartsWith]

def IsLetter (c : Char) : Prop := IsSmall c ∨ IsCapital c

instance : DecidablePred IsLetter := fun _ => inferInstanceAs (Decidable (_ ∨ _))

def IsNameStart (c : Char) : Prop := IsLetter c ∨ c = '_'

instance : DecidablePred IsNameStart := fun _ => inferInstanceAs (Decidable (_ ∨ _))

def IsNameCharacter (c : Char) : Prop := IsNameStart c ∨ '0' ≤ c ∧ c ≤ '9'

instance : DecidablePred IsNameCharacter := fun _ => inferInstanceAs (Decidable (_ ∨ _))

/-- The name is a native identifier in ASCII. -/
structure IsIdentifier (name : String) : Prop where
  start : StartsWith IsNameStart name.toList
  characters : ConsistsOf IsNameCharacter name

instance (name : String) : Decidable (IsIdentifier name) :=
  decidable_of_iff (StartsWith IsNameStart name.toList ∧ ConsistsOf IsNameCharacter name)
    ⟨fun ⟨h, h'⟩ => ⟨h, h'⟩, fun ⟨h, h'⟩ => ⟨h, h'⟩⟩

/-- A name without the mark that keeps C# from taking it as a keyword. -/
def withoutEscape : List Char → List Char
  | '@' :: cs => cs
  | cs => cs

/-- C# takes the name for what it introduces: it begins with a letter or an underscore, after an `@`
at most, and is no keyword as it stands. -/
structure IsUsable (name : String) : Prop where
  start : StartsWith IsNameStart (withoutEscape name.toList)
  reserved : name ∉ hostKeywords

instance (name : String) : Decidable (IsUsable name) :=
  decidable_of_iff
    (StartsWith IsNameStart (withoutEscape name.toList) ∧ name ∉ hostKeywords)
    ⟨fun ⟨h, h'⟩ => ⟨h, h'⟩, fun ⟨h, h'⟩ => ⟨h, h'⟩⟩

/-- There is a letter in the name, and no digit before it. -/
def LeadsWithLetter (name : String) : Prop :=
  StartsWith IsLetter (name.toList.dropWhile (· == '_'))

instance (name : String) : Decidable (LeadsWithLetter name) :=
  inferInstanceAs (Decidable (StartsWith _ _))

section

variable {name : String}

theorem withoutEscape_of_head {cs : List Char} (h : cs.head? ≠ some '@') :
    withoutEscape cs = cs := by
  rw [withoutEscape.eq_2]
  rintro rest rfl
  exact h rfl

namespace IsNameCharacter

theorem lt {c : Char} (h : IsNameCharacter c) : c.toNat < 128 := by
  rcases h with ((h | h) | rfl) | h
  · have hsmall := isSmall_iff_toNat.mp h
    omega
  · have hcapital : c.toNat ≤ 'Z'.toNat := h.2
    exact Nat.lt_of_le_of_lt hcapital (by decide)
  · decide
  · have hdigit : c.toNat ≤ '9'.toNat := h.2
    exact Nat.lt_of_le_of_lt hdigit (by decide)

/-- What holds for the few characters of names can be checked for each. -/
theorem of_forall_lt {p : Char → Prop}
    (hall : ∀ code < 128, IsNameCharacter (Char.ofNat code) → p (Char.ofNat code)) {c : Char}
    (h : IsNameCharacter c) : p c := by
  rw [← Char.ofNat_toNat c]
  apply hall c.toNat h.lt
  rwa [Char.ofNat_toNat]

end IsNameCharacter

theorem IsNameStart.ne_escape {c : Char} (h : IsNameStart c) : c ≠ '@' := by
  rintro rfl
  exact absurd h (by decide)

namespace IsIdentifier

theorem ne_empty (h : IsIdentifier name) : name ≠ "" := by
  rintro rfl
  exact absurd h.start (by decide)

theorem withoutEscape_eq (h : IsIdentifier name) : withoutEscape name.toList = name.toList := by
  obtain ⟨c, hc, hstart⟩ := startsWith_iff.mp h.start
  apply withoutEscape_of_head
  rw [hc]
  exact fun heq => hstart.ne_escape (Option.some.inj heq)

theorem isUsable_iff (h : IsIdentifier name) : IsUsable name ↔ name ∉ hostKeywords := by
  refine ⟨IsUsable.reserved, fun hname => ⟨?_, hname⟩⟩
  rw [h.withoutEscape_eq]
  exact h.start

theorem isUsable_hostIdentifier (h : IsIdentifier name) : IsUsable (hostIdentifier name) := by
  by_cases hkeyword : name ∈ hostKeywords
  · rw [hostIdentifier_of_keyword hkeyword]
    refine ⟨?_, escape_notMem_hostKeywords name⟩
    rw [String.toList_append]
    exact h.start
  · rw [hostIdentifier_of_not_keyword hkeyword]
    exact h.isUsable_iff.mpr hkeyword

theorem isBlank_eq_false (h : IsIdentifier name) : ∀ c ∈ name.toList, isBlank c = false := by
  intro c hc
  exact IsNameCharacter.of_forall_lt (p := fun c => isBlank c = false) (by decide +kernel)
    (h.characters c hc)

end IsIdentifier

end

section

variable {param : Parameter}

theorem Parameter.givenName_eq (h : IsIdentifier param.name) : param.givenName = param.name := by
  have hblank := h.isBlank_eq_false
  rw [givenName, trim_eq_self (fun c hc => hblank c (List.mem_of_mem_head? hc))
    fun c hc => hblank c (List.mem_of_getLast? hc), String.ofList_toList]

theorem Parameter.Takes.isUsable {position : Nat} {name : String}
    (h : param.Takes position name) : IsUsable (hostIdentifier name) := by
  rw [hostIdentifier_of_not_keyword h.not_escape.1]
  refine ⟨?_, h.not_escape.1⟩
  cases h with
  | number _ =>
    rw [String.toList_append]
    exact startsWith_iff.mpr ⟨'a', rfl, by decide⟩
  | beside _ => decide

theorem isUsable_parameterName (h : param.name ≠ "" → IsIdentifier param.name) (position : Nat) :
    IsUsable (hostIdentifier (parameterName param.name position)) := by
  rcases parameterName_cases param position with htaken | ⟨heq, hne, -⟩
  · exact htaken.isUsable
  · have hname : IsIdentifier param.name := by
      apply h
      intro hempty
      apply hne
      rw [Parameter.givenName, hempty]
      rfl
    rw [heq, Parameter.givenName_eq hname]
    exact hname.isUsable_hostIdentifier

theorem MemberFunction.isUsable_parameterNames {function : MemberFunction}
    (h : ∀ param ∈ function.params, param.name ≠ "" → IsIdentifier param.name) :
    ∀ name ∈ function.parameterNames.map hostIdentifier, IsUsable name := by
  rw [List.forall_mem_map]
  intro name hname
  obtain ⟨i, hi⟩ := List.getElem?_of_mem hname
  rw [getElem?_parameterNames] at hi
  obtain ⟨param, hparam, rfl⟩ := Option.map_eq_some_iff.mp hi
  exact isUsable_parameterName (h param (List.mem_of_getElem? hparam)) i

end

/-- The words begin with the capital of the first character that is no underscore. -/
theorem head?_flatMap_capitalized (cs : List Char) :
    ((cs.splitOn '_').flatMap capitalized).head? =
      (cs.dropWhile (· == '_')).head?.bind fun c => (uppercase c).head? := by
  induction cs with
  | nil => rfl
  | cons c cs ih =>
    rw [List.splitOn, List.splitOnP_cons_eq_if_modifyHead]
    by_cases hc : c = '_'
    · rw [if_pos (by simpa using hc), List.dropWhile_cons_of_pos (by simpa using hc), ← ih]
      rfl
    · rw [if_neg (by simpa using hc), List.dropWhile_cons_of_neg (by simpa using hc)]
      cases hwords : cs.splitOnP (· == '_') with
      | nil => exact absurd hwords (List.splitOnP_ne_nil _ _)
      | cons word words =>
        rw [List.modifyHead_cons, List.flatMap_cons, capitalized, List.append_assoc,
          List.head?_append_of_ne_nil _ (uppercase_ne_nil c)]
        rfl

theorem IsNameCharacter.head_uppercase {c : Char} (h : IsNameCharacter c) (hc : c ≠ '_') :
    StartsWith (fun d => d ≠ '@' ∧ (IsNameStart d ↔ IsLetter c)) (uppercase c) := by
  refine IsNameCharacter.of_forall_lt (p := fun c => c ≠ '_' →
    StartsWith (fun d => d ≠ '@' ∧ (IsNameStart d ↔ IsLetter c)) (uppercase c)) ?_ h hc
  decide +kernel

theorem pascalCase_notMem_hostKeywords (name : String) : pascalCase name ∉ hostKeywords := by
  have hheads : ∀ keyword ∈ hostKeywords, StartsWith IsSmall keyword.toList := by
    decide +kernel
  intro hkeyword
  obtain ⟨d, hd, hsmall⟩ := startsWith_iff.mp (hheads _ hkeyword)
  exact head_pascalCase name d hd hsmall

theorem isUsable_pascalCase_iff {name : String} (h : ConsistsOf IsNameCharacter name) :
    IsUsable (pascalCase name) ↔ LeadsWithLetter name := by
  have hstart : IsUsable (pascalCase name) ↔
      StartsWith IsNameStart (withoutEscape (pascalCase name).toList) :=
    ⟨IsUsable.start, fun hs => ⟨hs, pascalCase_notMem_hostKeywords name⟩⟩
  have hhead : (pascalCase name).toList.head? =
      (name.toList.dropWhile (· == '_')).head?.bind fun c => (uppercase c).head? := by
    rw [pascalCase, String.toList_ofList, head?_flatMap_capitalized]
  rw [hstart, LeadsWithLetter, startsWith_iff, startsWith_iff]
  cases hfirst : (name.toList.dropWhile (· == '_')).head? with
  | none =>
    -- Of underscores alone, nothing is left.
    rw [hfirst, Option.bind_none] at hhead
    rw [List.head?_eq_none_iff.mp hhead]
    simp [withoutEscape]
  | some c =>
    have hc : c ≠ '_' := by
      have hnot := List.head?_dropWhile_not (· == '_') name.toList
      rw [hfirst] at hnot
      simpa using hnot
    have hmem : c ∈ name.toList :=
      (List.dropWhile_suffix _).subset (List.mem_of_head? hfirst)
    obtain ⟨d, hd, hescape, hletter⟩ := startsWith_iff.mp ((h c hmem).head_uppercase hc)
    rw [hfirst, Option.bind_some, hd] at hhead
    have hplain : (pascalCase name).toList.head? ≠ some '@' := by
      rw [hhead]
      exact fun heq => hescape (Option.some.inj heq)
    rw [withoutEscape_of_head hplain, hhead]
    simpa using hletter

/-- By default, C# takes the name of a member if a letter comes first in that of the function. -/
theorem GeneratorSettings.isUsable_memberName_iff {native : String}
    (h : ConsistsOf IsNameCharacter native) (isStatic : Bool) :
    IsUsable (default.naming.memberName native isStatic) ↔ LeadsWithLetter native := by
  -- The rules replace names that C# takes by others that it takes.
  have hrenamed : ∀ {source target : String}, IsUsable source → IsUsable target →
      pascalCase native = source → (IsUsable target ↔ LeadsWithLetter native) := by
    rintro _ target hsource htarget rfl
    exact iff_of_true htarget ((isUsable_pascalCase_iff h).mp hsource)
  rw [memberName_default]
  split
  · rename_i hpredicate
    exact hrenamed (by decide +kernel) (by decide +kernel) hpredicate.2
  · split
    · rename_i htype
      exact hrenamed (by decide +kernel) (by decide +kernel) htype
    · exact isUsable_pascalCase_iff h

end NativeBindings
