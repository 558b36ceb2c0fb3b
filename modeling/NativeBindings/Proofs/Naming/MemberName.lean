import NativeBindings.Policy.Naming
import NativeBindings.Proofs.Text.Characters
import NativeBindings.Settings.Project
import Mathlib.Tactic.MkIffOfInductiveProp

/-!
# Names of members

The case of a name loses where its words begin and whether they began with a capital, so different
names can come out as one. Names in snake case can be read back: a word begins at every capital.

By default, two rules rename members: one tells a static predicate from its counterpart on objects,
one avoids the name of a method that every object has. All other names are those of the functions in
Pascal case, so functions can still share one, and a rule can bring one to the name of another.
-/

namespace NativeBindings

open Text

theorem exists_uppercase_of_head (words : List (List Char)) :
    ∀ d ∈ (words.flatMap capitalized).head?, ∃ c, d ∈ uppercase c := by
  induction words with
  | nil => exact fun d hd => absurd hd (by simp)
  | cons word rest ih =>
    cases word with
    | nil => exact ih
    | cons c cs =>
      intro d hd
      rw [List.flatMap_cons, capitalized, List.append_assoc,
        List.head?_append_of_ne_nil _ (uppercase_ne_nil c)] at hd
      exact ⟨c, List.mem_of_head? hd⟩

theorem head_pascalCase (name : String) : ∀ d ∈ (pascalCase name).toList.head?, ¬ IsSmall d := by
  rw [pascalCase, String.toList_ofList]
  intro d hd
  obtain ⟨c, hc⟩ := exists_uppercase_of_head _ d hd
  exact not_isSmall_uppercase d hc

/-- What holds of the words of a name, and of the capitals of all characters of which it holds,
holds of the name in Pascal case. -/
theorem consistsOf_pascalCase {p : Char → Prop} {name : String}
    (hcapital : ∀ c, p c → ∀ d ∈ uppercase c, p d)
    (h : ∀ word ∈ name.toList.splitOn '_', ∀ c ∈ word, p c) : ConsistsOf p (pascalCase name) := by
  rw [pascalCase, consistsOf_ofList]
  intro d hd
  obtain ⟨word, hword, hd⟩ := List.mem_flatMap.mp hd
  have hall := h word hword
  cases word with
  | nil => exact absurd hd List.not_mem_nil
  | cons first rest =>
    rcases List.mem_append.mp hd with hd | hd
    · exact hcapital first (hall first List.mem_cons_self) d hd
    · exact hall d (List.mem_cons_of_mem first hd)

def IsCapital (c : Char) : Prop := 'A' ≤ c ∧ c ≤ 'Z'

instance : DecidablePred IsCapital := fun c => inferInstanceAs (Decidable ('A' ≤ c ∧ c ≤ 'Z'))

/-- A small letter with no capital behind it. -/
inductive IsSnakeWord : List Char → Prop where
  | mk {c : Char} {cs : List Char} (hc : IsSmall c) (hcs : ∀ d ∈ cs, ¬ IsCapital d) :
    IsSnakeWord (c :: cs)

/-- Words that begin with a small letter and hold no capital, with an underscore between them. -/
def IsSnakeCase (name : String) : Prop := ∀ word ∈ name.toList.splitOn '_', IsSnakeWord word

theorem exists_uppercase_of_isSmall {c : Char} (h : IsSmall c) :
    ∃ capital, uppercase c = [capital] ∧ IsCapital capital ∧
      Char.ofNat (capital.toNat + 0x20) = c := by
  have hcodes : ∀ k < 26, capitalCodes (0x61 + k) = [0x41 + k] := by decide +kernel
  have hletters : ∀ k < 26, IsCapital (Char.ofNat (0x41 + k)) ∧
      (Char.ofNat (0x41 + k)).toNat + 0x20 = 0x61 + k := by
    decide +kernel
  obtain ⟨hlow, hhigh⟩ := isSmall_iff_toNat.mp h
  obtain ⟨k, hk⟩ := Nat.exists_eq_add_of_le hlow
  have hlt : k < 26 := by omega
  refine ⟨Char.ofNat (0x41 + k), ?_, (hletters k hlt).1, ?_⟩
  · rw [uppercase, hk, hcodes k hlt]
    rfl
  · rw [(hletters k hlt).2, ← hk, Char.ofNat_toNat]

theorem IsSnakeWord.exists_capitalized {word : List Char} (h : IsSnakeWord word) :
    ∃ capital cs, capitalized word = capital :: cs ∧ IsCapital capital ∧
      (∀ d ∈ cs, ¬ IsCapital d) ∧ word = Char.ofNat (capital.toNat + 0x20) :: cs := by
  obtain @⟨c, cs, hc, hcs⟩ := h
  obtain ⟨capital, hcapital, hletter, hback⟩ := exists_uppercase_of_isSmall hc
  refine ⟨capital, cs, ?_, hletter, hcs, by rw [hback]⟩
  rw [capitalized, hcapital]
  rfl

theorem flatMap_capitalized_head_of_snake {words : List (List Char)}
    (h : ∀ word ∈ words, IsSnakeWord word) :
    ∀ d ∈ (words.flatMap capitalized).head?, IsCapital d := by
  cases words with
  | nil => exact fun d hd => absurd hd (by simp)
  | cons word rest =>
    obtain ⟨capital, cs, hword, hletter, -⟩ := (h word List.mem_cons_self).exists_capitalized
    intro d hd
    rw [List.flatMap_cons, hword] at hd
    cases hd
    exact hletter

theorem takeWhile_append_of_capital {cs back : List Char} (hcs : ∀ d ∈ cs, ¬ IsCapital d)
    (hback : ∀ d ∈ back.head?, IsCapital d) :
    (cs ++ back).takeWhile (fun d => decide (¬ IsCapital d)) = cs := by
  rw [List.takeWhile_append_of_pos (by simpa using hcs)]
  cases back with
  | nil => simp
  | cons d rest =>
    have hd : IsCapital d := hback d rfl
    rw [List.takeWhile_cons_of_neg (by simpa using hd), List.append_nil]

/-- Words in snake case that are written together can be read back. -/
theorem flatMap_capitalized_inj {words others : List (List Char)}
    (h : ∀ word ∈ words, IsSnakeWord word) (ho : ∀ word ∈ others, IsSnakeWord word)
    (heq : words.flatMap capitalized = others.flatMap capitalized) : words = others := by
  induction words generalizing others with
  | nil =>
    cases others with
    | nil => rfl
    | cons other orest =>
      obtain ⟨capital, cs, hother, -⟩ := (ho other List.mem_cons_self).exists_capitalized
      rw [List.flatMap_cons, hother] at heq
      cases heq
  | cons word rest ih =>
    obtain ⟨hword, hrest⟩ := List.forall_mem_cons.mp h
    obtain ⟨capital, cs, hcapital, -, hcs, rfl⟩ := hword.exists_capitalized
    rw [List.flatMap_cons, hcapital, List.cons_append] at heq
    cases others with
    | nil => cases heq
    | cons other orest =>
      obtain ⟨hother, horest⟩ := List.forall_mem_cons.mp ho
      obtain ⟨capital', cs', hcapital', -, hcs', rfl⟩ := hother.exists_capitalized
      rw [List.flatMap_cons, hcapital', List.cons_append] at heq
      obtain ⟨rfl, htail⟩ := List.cons.inj heq
      -- The rest of the first word ends where the next capital stands, on both sides.
      have hread := congrArg (List.takeWhile fun d => decide (¬ IsCapital d)) htail
      rw [takeWhile_append_of_capital hcs (flatMap_capitalized_head_of_snake hrest),
        takeWhile_append_of_capital hcs' (flatMap_capitalized_head_of_snake horest)] at hread
      subst hread
      rw [ih hrest horest (List.append_cancel_left htail)]

/-- Different names in snake case stay different in Pascal case. -/
theorem pascalCase_inj_of_isSnakeCase {a b : String} (ha : IsSnakeCase a) (hb : IsSnakeCase b)
    (h : pascalCase a = pascalCase b) : a = b := by
  have hwords : a.toList.splitOn '_' = b.toList.splitOn '_' :=
    flatMap_capitalized_inj ha hb (String.ofList_inj.mp h)
  have hjoined := congrArg (['_'].intercalate ·) hwords
  simp only [List.intercalate_splitOn] at hjoined
  exact String.toList_inj.mp hjoined

/-- Beyond snake case, they need not. -/
example : pascalCase "read_all" = pascalCase "readAll" := by decide +kernel

/-- By default, the first function is renamed to the name of the second. -/
@[mk_iff]
inductive MemberFunction.TakesNameOf (f g : MemberFunction) : Prop where
  | staticPredicate (hs : f.isStatic = true) (hf : pascalCase f.name = "IsObjectOrArray")
    (hg : pascalCase g.name = "IsObjectOrArrayStatic")
  | tokenType (hf : pascalCase f.name = "GetType") (hg : pascalCase g.name = "GetTokenType")

/-- Two functions that are not declared alike are named alike by default: their names agree in
Pascal case, they are the static and the other function of one name, or a rule brings one of them to
the name of the other. -/
@[mk_iff]
inductive MemberFunction.SharesName (f g : MemberFunction) : Prop where
  | spelling (hname : f.name ≠ g.name) (h : pascalCase f.name = pascalCase g.name)
    (hs : f.isStatic = g.isStatic ∨ pascalCase f.name ≠ "IsObjectOrArray")
  | staticAndInstance (hname : f.name = g.name) (hs : f.isStatic ≠ g.isStatic)
    (hpredicate : pascalCase f.name ≠ "IsObjectOrArray")
  | takes (h : f.TakesNameOf g)
  | gives (h : g.TakesNameOf f)

/-- In snake case, a static function and another of its name, and the two rules, are all there is.
-/
theorem MemberFunction.SharesName.of_isSnakeCase {f g : MemberFunction} (hf : IsSnakeCase f.name)
    (hg : IsSnakeCase g.name) (h : f.SharesName g) :
    (f.name = g.name ∧ f.isStatic ≠ g.isStatic) ∨ f.TakesNameOf g ∨ g.TakesNameOf f := by
  cases h with
  | spelling hname h => exact absurd (pascalCase_inj_of_isSnakeCase hf hg h) hname
  | staticAndInstance hname hs => exact .inl ⟨hname, hs⟩
  | takes h => exact .inr (.inl h)
  | gives h => exact .inr (.inr h)

namespace GeneratorSettings

variable {native host : String} {isStatic : Bool} {f g : MemberFunction}

theorem memberName_default (native : String) (isStatic : Bool) :
    default.naming.memberName native isStatic =
      if isStatic = true ∧ pascalCase native = "IsObjectOrArray" then "IsObjectOrArrayStatic"
      else if pascalCase native = "GetType" then "GetTokenType" else pascalCase native := by
  have hrules : default.naming.renames = RenameRule.defaults := rfl
  simp only [NamingPolicy.memberName, hrules]
  generalize pascalCase native = name
  by_cases hpredicate : isStatic = true ∧ name = "IsObjectOrArray"
  · obtain ⟨rfl, rfl⟩ := hpredicate
    rfl
  · rw [if_neg hpredicate]
    by_cases htype : name = "GetType"
    · subst htype
      cases isStatic <;> rfl
    · have hnone : RenameRule.defaults.find? (·.applies name isStatic) = none := by
        simp only [RenameRule.defaults, RenameRule.applies, RenameScope.admits,
          List.find?_eq_none, List.forall_mem_cons, Bool.and_eq_true, beq_iff_eq]
        exact ⟨fun h => hpredicate ⟨h.1, h.2.symm⟩, fun h => htype h.2.symm, by simp⟩
      rw [hnone, if_neg htype]

theorem memberName_default_eq_iff (hpredicate : host ≠ "IsObjectOrArray")
    (hstatic : host ≠ "IsObjectOrArrayStatic") (htype : host ≠ "GetType")
    (htoken : host ≠ "GetTokenType") :
    default.naming.memberName native isStatic = host ↔ pascalCase native = host := by
  rw [memberName_default]
  grind

private theorem not_isSmall_head {text : String} {c : Char} (h : text.toList.head? = some c)
    (hc : ¬ IsSmall c) : ∀ d ∈ text.toList.head?, ¬ IsSmall d := by
  intro d hd
  cases h.symm.trans hd
  exact hc

theorem head_memberName_default (native : String) (isStatic : Bool) :
    ∀ d ∈ (default.naming.memberName native isStatic).toList.head?, ¬ IsSmall d := by
  rw [memberName_default]
  split
  · exact not_isSmall_head (c := 'I') (by decide) (by decide)
  · split
    · exact not_isSmall_head (c := 'G') (by decide) (by decide)
    · exact head_pascalCase native

theorem memberName_default_congr_iff (h : f.name ≠ g.name ∨ f.isStatic ≠ g.isStatic) :
    default.naming.memberName f.name f.isStatic = default.naming.memberName g.name g.isStatic ↔
      f.SharesName g := by
  have hpascal : f.name = g.name → pascalCase f.name = pascalCase g.name := congrArg pascalCase
  rw [memberName_default, memberName_default, MemberFunction.sharesName_iff,
    MemberFunction.takesNameOf_iff, MemberFunction.takesNameOf_iff]
  grind

end GeneratorSettings

end NativeBindings
