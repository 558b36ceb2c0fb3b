import NativeBindings.Proofs.Native.Decoration
import NativeBindings.Proofs.Tables

/-!
# Mapped spellings

A spelling that has all its qualifiers in front of the name, and stars or one reference behind it,
becomes the host name of the name with as many stars. Nothing else of the spelling matters.
-/

namespace NativeBindings

open Text NativeType

/-- A name behind any number of qualifiers, each followed by a space. -/
inductive FrontSpelling (name : List Char) : List Char → Prop where
  | name {lead : List Char} (hl : AreBlanks lead) : FrontSpelling name (lead ++ name)
  | const {lead rest : List Char} (hl : AreBlanks lead) (h : FrontSpelling name rest) :
    FrontSpelling name (lead ++ ("const ".toList ++ rest))

/-- Stars behind such a name, with blanks before each. -/
inductive FrontPointers (name : List Char) : Nat → List Char → Prop where
  | name {cs : List Char} (h : FrontSpelling name cs) : FrontPointers name 0 cs
  | star {stars : Nat} {cs gap : List Char} (h : FrontPointers name stars cs)
      (hg : AreBlanks gap) : FrontPointers name (stars + 1) (cs ++ (gap ++ ['*']))

/-- The stars end the spelling, or there are none and a reference ends it. -/
inductive MappedSpelling (name : List Char) : Nat → List Char → Prop where
  | pointers {stars : Nat} {cs tail : List Char} (h : FrontPointers name stars cs)
      (ht : AreBlanks tail) : MappedSpelling name stars (cs ++ tail)
  | reference {cs gap tail : List Char} (h : FrontPointers name 0 cs) (hg : AreBlanks gap)
      (ht : AreBlanks tail) : MappedSpelling name 0 (cs ++ (gap ++ '&' :: tail))

namespace FrontSpelling

variable {name cs : List Char}

theorem exists_concat (hn : IsBareName name) (h : FrontSpelling name cs) :
    ∃ front c, cs = front ++ [c] ∧ isMark c = false := by
  induction h with
  | name hl => exact hn.exists_concat _
  | @const lead rest hl h ih =>
    obtain ⟨front, c, rfl, hc⟩ := ih
    exact ⟨lead ++ ("const ".toList ++ front), c, by simp only [List.append_assoc], hc⟩

theorem name_mem_words (hn : IsBareName name) (h : FrontSpelling name cs) : name ∈ words cs := by
  induction h with
  | name hl =>
    rw [words_marks_append hl.marks, words_of_noMark hn.ne_nil hn.noMark]
    exact List.mem_singleton_self name
  | @const lead rest hl h ih =>
    have hconst : "const ".toList ++ rest = "const".toList ++ ' ' :: rest := rfl
    rw [words_marks_append hl.marks, hconst, words_append_cons (by decide)]
    exact List.mem_append_right _ ih

end FrontSpelling

theorem MappedSpelling.exists_marks {name native : List Char} {stars : Nat}
    (h : MappedSpelling name stars native) :
    ∃ front marks, FrontSpelling name front ∧ (∀ c ∈ marks, isMark c = true) ∧
      native = front ++ marks := by
  have hpointers {stars : Nat} {cs : List Char} (h : FrontPointers name stars cs) :
      ∃ front marks, FrontSpelling name front ∧ (∀ c ∈ marks, isMark c = true) ∧
        cs = front ++ marks := by
    induction h with
    | @name cs h => exact ⟨cs, [], h, by simp, (List.append_nil cs).symm⟩
    | @star stars cs gap _ hg ih =>
      obtain ⟨front, marks, hfront, hm, rfl⟩ := ih
      exact ⟨front, marks ++ (gap ++ ['*']), hfront,
        List.forall_mem_append.mpr ⟨hm, hg.marks_star .nil⟩, List.append_assoc _ _ _⟩
  cases h with
  | @pointers stars cs tail h ht =>
    obtain ⟨front, marks, hfront, hm, rfl⟩ := hpointers h
    exact ⟨front, marks ++ tail, hfront, List.forall_mem_append.mpr ⟨hm, ht.marks⟩,
      List.append_assoc _ _ _⟩
  | @reference cs gap tail h hg ht =>
    obtain ⟨front, marks, hfront, hm, rfl⟩ := hpointers h
    have hreference : ∀ c ∈ '&' :: tail, isMark c = true :=
      List.forall_mem_cons.mpr ⟨by decide, ht.marks⟩
    exact ⟨front, marks ++ (gap ++ '&' :: tail), hfront,
      List.forall_mem_append.mpr ⟨hm, List.forall_mem_append.mpr ⟨hg.marks, hreference⟩⟩,
      List.append_assoc _ _ _⟩

theorem HostPrimitive.ofNative?_const {rest : List Char} {primitive : HostPrimitive}
    (h : ofNative? (String.ofList ("const ".toList ++ rest)) = some primitive) :
    rest = "char".toList ∧ primitive = .sbyte := by
  have hall : ∀ entry ∈ nativePrimitives, "const ".toList <+: entry.1.toList →
      entry.1.toList = "const ".toList ++ "char".toList ∧ entry.2 = .sbyte := by decide
  have hentry := hall _ (mem_of_ofNative? h)
  simp only [String.toList_ofList] at hentry
  obtain ⟨hrest, hprimitive⟩ := hentry ⟨rest, rfl⟩
  exact ⟨List.append_cancel_left hrest, hprimitive⟩

namespace AliasTable

variable {table : AliasTable} {native : List Char}

/-- The host type of a spelling without stars and references behind it. -/
def hostUnreferenced (table : AliasTable) (referenced : List Char) : List Char :=
  match HostPrimitive.ofNative? (String.ofList referenced) with
  | some primitive => primitive.keyword.toList
  | none =>
    match afterWord? "const ".toList referenced with
    | some unqualified => table.hostSpelling unqualified
    | none => (table.resolve (String.ofList referenced)).toList

theorem hostSpelling_of_star {pointee : List Char}
    (h : withoutLast? '*' (trim native) = some pointee) :
    table.hostSpelling native = table.hostSpelling pointee ++ ['*'] := by
  rw [hostSpelling]
  split
  · rename_i front hfront
    rw [h] at hfront
    rw [Option.some.inj hfront]
  · rename_i hnone
    rw [h] at hnone
    cases hnone

theorem hostSpelling_of_not_star (h : withoutLast? '*' (trim native) = none) :
    table.hostSpelling native = table.hostUnreferenced
      (((withoutLast? '&' (trim native)).map trimEnd).getD (trim native)) := by
  rw [hostSpelling, hostUnreferenced]
  split
  · rename_i front hfront
    rw [h] at hfront
    cases hfront
  · dsimp only
    generalize ((withoutLast? '&' (trim native)).map trimEnd).getD (trim native) = referenced
    cases HostPrimitive.ofNative? (String.ofList referenced) with
    | some primitive => rfl
    | none =>
      cases afterWord? "const ".toList referenced with
      | some unqualified => rfl
      | none => rfl

theorem hostSpelling_congr {other : List Char} (h : trim native = trim other) :
    table.hostSpelling native = table.hostSpelling other := by
  cases hstar : withoutLast? '*' (trim native) with
  | some pointee =>
    have hother : withoutLast? '*' (trim other) = some pointee := h ▸ hstar
    rw [hostSpelling_of_star hstar, hostSpelling_of_star hother]
  | none =>
    have hother : withoutLast? '*' (trim other) = none := h ▸ hstar
    rw [hostSpelling_of_not_star hstar, hostSpelling_of_not_star hother, h]

theorem hostSpelling_star (native : List Char) :
    table.hostSpelling (native ++ ['*']) = table.hostSpelling native ++ ['*'] := by
  have hstar : withoutLast? '*' (trim (native ++ ['*'])) = some (trimStart native) := by
    rw [trim_concat isBlank_star, withoutLast?_append]
  rw [hostSpelling_of_star hstar, hostSpelling_congr (trim_trimStart native)]

theorem hostSpelling_of_getLast? (h : ∀ c ∈ (trim native).getLast?, isMark c = false) :
    table.hostSpelling native = table.hostUnreferenced (trim native) := by
  have hnone {mark : Char} (hm : isMark mark = true) : withoutLast? mark (trim native) = none := by
    cases hlast : withoutLast? mark (trim native) with
    | none => rfl
    | some front =>
      have hmark := h mark (by rw [eq_append_of_withoutLast? hlast, List.getLast?_concat]; rfl)
      rw [hm] at hmark
      cases hmark
  rw [hostSpelling_of_not_star (hnone (by decide)), hnone (by decide), Option.map_none,
    Option.getD_none]

theorem hostSpelling_reference {front gap tail : List Char} {c : Char} (hc : isMark c = false)
    (hg : AreBlanks gap) (ht : AreBlanks tail) :
    table.hostSpelling (front ++ [c] ++ (gap ++ '&' :: tail)) =
      table.hostSpelling (front ++ [c]) := by
  generalize htext : front ++ [c] ++ (gap ++ '&' :: tail) = text
  have hsplit : text = (front ++ [c] ++ gap ++ ['&']) ++ tail := by
    rw [← htext]
    simp
  have htrim : trim text = trimStart (front ++ [c] ++ gap) ++ ['&'] := by
    rw [hsplit, trim_append_right ht, trim_concat (by decide)]
  have hstar : withoutLast? '*' (trim text) = none := by
    simp [htrim, withoutLast?]
  have hreferenced : trimEnd (trimStart (front ++ [c] ++ gap)) = trim (front ++ [c]) :=
    trim_append_right hg _
  have hlast : ∀ d ∈ (trim (front ++ [c])).getLast?, isMark d = false := by
    intro d hd
    rw [trim_concat (isBlank_of_not_isMark hc), List.getLast?_concat] at hd
    cases hd
    exact hc
  rw [hostSpelling_of_not_star hstar, htrim, withoutLast?_append, Option.map_some,
    Option.getD_some, hreferenced, hostSpelling_of_getLast? hlast]

theorem hostSpelling_noMark {name : List Char} (h : ∀ c ∈ name, isMark c = false) :
    table.hostSpelling name = (table.resolve (String.ofList name)).toList := by
  have hname : trim name = name := trim_noMark h
  have hlast : ∀ c ∈ (trim name).getLast?, isMark c = false := by
    rw [hname]
    exact fun c hc => h c (List.mem_of_getLast? hc)
  rw [hostSpelling_of_getLast? hlast, hname, hostUnreferenced]
  cases hp : HostPrimitive.ofNative? (String.ofList name) with
  | some primitive => rw [resolve, hp]
  | none => rw [afterConst?_noMark h]

section

variable {name cs : List Char} {stars : Nat}

theorem hostSpelling_front (hn : IsBareName name) (h : FrontSpelling name cs) :
    table.hostSpelling cs = (table.resolve (String.ofList name)).toList := by
  induction h with
  | name hl => rw [hostSpelling_congr (trim_append_left hl name), hostSpelling_noMark hn.noMark]
  | @const lead rest hl h ih =>
    have hend : ∀ c ∈ ("const ".toList ++ rest).getLast?, isMark c = false := by
      obtain ⟨front, c, rfl, hc⟩ := h.exists_concat hn
      intro d hd
      rw [← List.append_assoc, List.getLast?_concat] at hd
      cases hd
      exact hc
    have htrim : trim (lead ++ ("const ".toList ++ rest)) = "const ".toList ++ rest := by
      rw [trim_append_left hl]
      exact trim_const_append hend
    have hlast : ∀ c ∈ (trim (lead ++ ("const ".toList ++ rest))).getLast?, isMark c = false := by
      rwa [htrim]
    rw [hostSpelling_of_getLast? hlast, htrim, hostUnreferenced]
    cases hp : HostPrimitive.ofNative? (String.ofList ("const ".toList ++ rest)) with
    | some primitive =>
      obtain ⟨rfl, rfl⟩ := HostPrimitive.ofNative?_const hp
      have hname := h.name_mem_words hn
      have hwords : words "char".toList = ["char".toList] :=
        words_of_noMark (by decide) (noMark_of_all (by decide))
      rw [hwords, List.mem_singleton] at hname
      subst hname
      rfl
    | none =>
      have hafter : afterWord? "const ".toList ("const ".toList ++ rest) = some rest :=
        afterWord?_eq_some_iff.mpr rfl
      simp only [hafter]
      exact ih

theorem hostSpelling_pointers (hn : IsBareName name) (h : FrontPointers name stars cs) :
    table.hostSpelling cs =
      (table.resolve (String.ofList name)).toList ++ List.replicate stars '*' := by
  induction h with
  | name h => rw [hostSpelling_front hn h, List.replicate_zero, List.append_nil]
  | @star stars cs gap h hg ih =>
    rw [← List.append_assoc, hostSpelling_star, hostSpelling_congr (trim_append_right hg cs), ih,
      List.append_assoc, List.replicate_succ']

theorem hostSpelling_mapped (hn : IsBareName name) (h : MappedSpelling name stars native) :
    table.hostSpelling native =
      (table.resolve (String.ofList name)).toList ++ List.replicate stars '*' := by
  cases h with
  | pointers h ht => rw [hostSpelling_congr (trim_append_right ht _), hostSpelling_pointers hn h]
  | @reference cs gap tail h hg ht =>
    have hlast : ∃ front c, cs = front ++ [c] ∧ isMark c = false := by
      cases h with
      | name h => exact h.exists_concat hn
    obtain ⟨front, c, rfl, hc⟩ := hlast
    rw [hostSpelling_reference hc hg ht, hostSpelling_pointers hn h]

end

/-- A star behind any spelling stays behind its host type. A decorated name becomes what the name
alone is resolved to, with as many stars; for a primitive the aliases do not matter. -/
theorem hostName_decorated (table : AliasTable) :
    (∀ native, table.hostName (native ++ "*") = table.hostName native ++ "*") ∧
      ∀ (name : String) (stars : Nat) (native : String), IsBareName name.toList →
        MappedSpelling name.toList stars native.toList →
          table.hostName native = table.resolve name ++ String.ofList (List.replicate stars '*') ∧
            ∀ primitive, HostPrimitive.ofNative? name = some primitive →
              table.hostName native =
                primitive.keyword ++ String.ofList (List.replicate stars '*') := by
  constructor
  · intro native
    have hstar : (native ++ "*").toList = native.toList ++ ['*'] := String.toList_append
    rw [hostName, hstar, hostSpelling_star, String.ofList_append, hostName]
  · intro name stars native hn h
    have hhost : table.hostName native =
        table.resolve name ++ String.ofList (List.replicate stars '*') := by
      rw [hostName, hostSpelling_mapped hn h, String.ofList_append, String.ofList_toList,
        String.ofList_toList]
    refine ⟨hhost, ?_⟩
    intro primitive hprimitive
    rw [hhost, resolve, hprimitive]

theorem hostName_decorated_char :
    IsBareName "char".toList ∧
      MappedSpelling "char".toList 2 " const const char\t* *".toList ∧
      hostName ⟨[("char", "Letter")]⟩ " const const char\t* *" = "sbyte**" := by
  have hn : IsBareName "char".toList := ⟨by decide, noMark_of_all (by decide), by decide⟩
  have hfront : FrontSpelling "char".toList " const const char".toList :=
    .const .space (.const .nil (.name .nil))
  have htab : AreBlanks ['\t'] := List.forall_mem_singleton.mpr (by decide)
  have hmapped : MappedSpelling "char".toList 2 " const const char\t* *".toList :=
    .pointers (((FrontPointers.name hfront).star htab).star .space) .nil
  exact ⟨hn, hmapped, ((hostName_decorated ⟨[("char", "Letter")]⟩).2 _ _ _ hn hmapped).2 .sbyte rfl⟩

end AliasTable

end NativeBindings
