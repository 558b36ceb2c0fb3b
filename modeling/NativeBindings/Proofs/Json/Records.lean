import NativeBindings.Proofs.Json.Values

/-!
# Reading values

Which values the readers of typed values read, and as what. The members of an object may come in
any order, fields may be left out, and members that nobody asks for may stand between them.
-/

namespace NativeBindings.Json

/-- The reader takes the text of a value off any text that goes on behind a value. -/
def Reader.Reads {α : Type} (reader : Reader α) (v : Value) (a : α) : Prop :=
  ∀ rest, EndsValue rest → reader.Takes (v.text ++ rest) a rest

theorem Value.exists_text {v : Value} (h : v ≠ .null) :
    ∃ c cs, v.text = c :: cs ∧ isJsonBlank c = false ∧ c ≠ 'n' := by
  obtain ⟨c, cs, heq, hblank, -⟩ := v.beginsValue
  refine ⟨c, cs, heq, hblank, ?_⟩
  rintro rfl
  cases v with
  | null => exact h rfl
  | boolean value => cases value <;> exact absurd heq (by simp [text, Print.boolean])
  | number numeral =>
    obtain ⟨d, ds, hd, hc⟩ := numeral.exists_text
    obtain ⟨rfl, -⟩ := List.cons.inj (heq.symm.trans hd)
    exact absurd hc (by decide)
  | string value => exact absurd heq (by simp [text, Print.string])
  | list values => exact absurd heq (by simp [text])
  | object members => exact absurd heq (by simp [text, Print.object])

namespace Reader

variable {α : Type}

theorem reads_text (value : String) : text.Reads (.string value) value :=
  fun rest _ => takes_valueFrom (by decide) rfl (takes_string value rest)

theorem reads_boolean (value : Bool) : boolean.Reads (.boolean value) value := by
  intro rest _
  cases value with
  | true => exact takes_valueFrom (by decide) rfl ((takes_word "true".toList rest).bind (.pure _ _))
  | false =>
    exact takes_valueFrom (by decide) rfl ((takes_word "false".toList rest).bind (.pure _ _))

theorem reads_word32 (value : UInt32) :
    word32.Reads (.number (.natural value.toNat)) value := by
  intro rest hrest
  have hlt : value.toNat < Nat.pow 2 32 := value.toNat_lt
  have hfits : value.toNat ≤ wordLimit := Nat.le_trans (Nat.le_of_lt hlt) (by decide)
  have hnumber := takes_number hfits hrest
  obtain ⟨c, cs, heq, hblank, -⟩ := (Value.number (.natural value.toNat)).beginsValue
  obtain ⟨d, ds, hd, hc⟩ := (Numeral.natural value.toNat).exists_text
  obtain ⟨rfl, rfl⟩ := List.cons.inj (heq.symm.trans hd)
  rw [Numeral.text_natural] at hd
  rw [hd] at hnumber
  rw [heq]
  refine takes_valueFrom hblank (if_pos hc) (hnumber.bind ?_)
  change (if value.toNat < Nat.pow 2 32 then Pure.pure value.toNat.toUInt32
    else _ : Reader UInt32).Takes _ _ _
  rw [if_pos hlt, Nat.toUInt32_eq, UInt32.ofNat_toNat]
  exact .pure _ _

theorem reads_optional_null (reader : Reader α) : (optional reader).Reads .null none :=
  fun rest _ => (takes_peekToken? (by decide) _).bind
    ((takes_word "null".toList rest).bind (.pure _ _))

theorem reads_optional {reader : Reader α} {v : Value} {a : α} (hv : v ≠ .null)
    (h : reader.Reads v a) : (optional reader).Reads v (some a) := by
  intro rest hrest
  have hread : (some <$> reader).Takes (v.text ++ rest) (some a) rest := (h rest hrest).map
  obtain ⟨c, cs, heq, hblank, hc⟩ := Value.exists_text hv
  rw [heq] at hread ⊢
  refine (takes_peekToken? hblank _).bind ?_
  split
  · rename_i hnull
    exact absurd (Option.some.inj hnull) hc
  · exact hread

theorem takes_nextElement_starts {text : List Char} (h : BeginsValue text) :
    (nextElement true).Takes text true text := by
  obtain ⟨c, cs, rfl, hblank, hc, -⟩ := h
  refine (takes_peekToken? hblank _).bind ?_
  split
  · contradiction
  · rename_i hclose
    exact absurd (Option.some.inj hclose) hc
  · exact .pure _ _

theorem takes_nextElement_continues {text : List Char} (h : BeginsValue text) :
    (nextElement false).Takes (',' :: text) true text := by
  obtain ⟨c, cs, rfl, hblank, hc, -⟩ := h
  refine (takes_peekToken? (by decide) _).bind ((takes_advance _ _).bind
    ((takes_peekToken? hblank _).bind ?_))
  split
  · rename_i hclose
    exact absurd (Option.some.inj hclose) hc
  · exact .pure _ _
  · contradiction

theorem takes_nextElement_closes (first : Bool) (rest : List Char) :
    (nextElement first).Takes (']' :: rest) false (']' :: rest) :=
  (takes_peekToken? (by decide) _).bind (.pure _ _)

section

variable {element : Reader α} {values : List Value} {as : List α}

theorem takes_elements_following (h : List.Forall₂ element.Reads values as) (rest : List Char)
    {bound : Nat} (hbound : values.length < bound) :
    (elements element false bound).Takes (following ']' rest (values.map Value.text)) as
      (']' :: rest) := by
  induction h generalizing bound with
  | nil =>
    obtain ⟨bound, rfl⟩ := Nat.exists_eq_add_one_of_ne_zero (Nat.ne_zero_of_lt hbound)
    exact (takes_nextElement_closes false rest).bind (.pure _ _)
  | @cons v a values as hfirst _ ih =>
    obtain ⟨bound, rfl⟩ := Nat.exists_eq_add_one_of_ne_zero (Nat.ne_zero_of_lt hbound)
    exact (takes_nextElement_continues (v.beginsValue.append _)).bind
      ((hfirst _ (endsValue_following (.inl rfl) _ _)).bind
        ((ih (Nat.lt_of_succ_lt_succ hbound)).bind (.pure _ _)))

theorem takes_elements (h : List.Forall₂ element.Reads values as) (rest : List Char) {bound : Nat}
    (hbound : values.length < bound) :
    (elements element true bound).Takes
      (Print.commaSeparated (values.map Value.text) ++ ']' :: rest) as (']' :: rest) := by
  obtain ⟨bound, rfl⟩ := Nat.exists_eq_add_one_of_ne_zero (Nat.ne_zero_of_lt hbound)
  cases h with
  | nil => exact (takes_nextElement_closes true rest).bind (.pure _ _)
  | @cons v a values as hfirst hothers =>
    have hrest := takes_elements_following hothers rest (Nat.lt_of_succ_lt_succ hbound)
    rw [List.map_cons, commaSeparated_append]
    exact (takes_nextElement_starts (v.beginsValue.append _)).bind
      ((hfirst _ (endsValue_following (.inl rfl) _ _)).bind (hrest.bind (.pure _ _)))

theorem reads_list (levels : Nat) (h : List.Forall₂ element.Reads values as) :
    (list (levels + 1) element).Reads (.list values) as := by
  intro rest hrest
  have hlength : values.length <
      (Print.commaSeparated (values.map Value.text) ++ ']' :: rest).length + 1 := by
    have := length_le_commaSeparated ']' rest (values.map Value.text)
    rw [List.length_map] at this
    omega
  have hclose : closeList.Takes (']' :: rest) () rest :=
    (takes_peekToken? (by decide) _).bind (takes_advance _ _)
  rw [Value.text_list_append]
  refine takes_valueFrom (by decide) rfl ((takes_advance _ _).bind ((takes_remaining _).bind ?_))
  exact (takes_elements h rest hlength).bind (hclose.bind (.pure _ _))

end

theorem takes_nextKey?_starts {m : String × Value} {rest : List Char} :
    (nextKey? true).Takes (Value.memberText m ++ rest) (some m.1) (':' :: (m.2.text ++ rest)) := by
  have hkey : (some <$> string).Takes _ (some m.1) (':' :: (m.2.text ++ rest)) :=
    (takes_string m.1 _).map
  rw [string_append] at hkey
  rw [Value.memberText_append]
  exact (takes_peekToken? (by decide) _).bind hkey

theorem takes_nextKey?_continues {m : String × Value} {rest : List Char} :
    (nextKey? false).Takes (',' :: (Value.memberText m ++ rest)) (some m.1)
      (':' :: (m.2.text ++ rest)) := by
  have hkey : (some <$> string).Takes _ (some m.1) (':' :: (m.2.text ++ rest)) :=
    (takes_string m.1 _).map
  rw [string_append] at hkey
  rw [Value.memberText_append]
  exact (takes_peekToken? (by decide) _).bind ((takes_advance _ _).bind
    ((takes_peekToken? (by decide) _).bind hkey))

theorem takes_nextKey?_closes (first : Bool) (rest : List Char) :
    (nextKey? first).Takes ('}' :: rest) none ('}' :: rest) :=
  (takes_peekToken? (by decide) _).bind (.pure _ _)

section

variable {σ : Type} {member : String → σ → Reader σ} {members : List (String × Value)}

/-- What follows a key is read into the fields, which go with the members read so far. -/
def ReadsMembers (member : String → σ → Reader σ) (fields : List (String × Value) → σ)
    (members : List (String × Value)) : Prop :=
  ∀ done m todo, members = done ++ m :: todo → ∀ rest, EndsValue rest →
    (member m.1 (fields done)).Takes (':' :: (m.2.text ++ rest)) (fields (done ++ [m])) rest

variable {fields : List (String × Value) → σ}

theorem takes_members_following (h : ReadsMembers member fields members)
    {done todo : List (String × Value)} (hsplit : members = done ++ todo) (rest : List Char)
    {bound : Nat} (hbound : todo.length < bound) :
    (Reader.members member false (fields done) bound).Takes
      (following '}' rest (todo.map Value.memberText)) (fields members) ('}' :: rest) := by
  -- Whether a key is read again depends on all members before, so they are kept as `done`.
  induction todo generalizing done bound with
  | nil =>
    obtain ⟨bound, rfl⟩ := Nat.exists_eq_add_one_of_ne_zero (Nat.ne_zero_of_lt hbound)
    rw [hsplit, List.append_nil]
    exact (takes_nextKey?_closes false rest).bind (.pure _ _)
  | cons m todo ih =>
    obtain ⟨bound, rfl⟩ := Nat.exists_eq_add_one_of_ne_zero (Nat.ne_zero_of_lt hbound)
    have hothers := ih (hsplit.trans (List.append_cons done m todo)) (Nat.lt_of_succ_lt_succ hbound)
    exact takes_nextKey?_continues.bind
      ((h done m todo hsplit _ (endsValue_following (.inr rfl) _ _)).bind hothers)

theorem takes_members (h : ReadsMembers member fields members) (rest : List Char) :
    (Reader.members member true (fields [])
      ((Print.commaSeparated (members.map Value.memberText) ++ '}' :: rest).length + 1)).Takes
      (Print.commaSeparated (members.map Value.memberText) ++ '}' :: rest) (fields members)
      ('}' :: rest) := by
  have hbound := length_le_commaSeparated '}' rest (members.map Value.memberText)
  rw [List.length_map] at hbound
  cases members with
  | nil => exact (takes_nextKey?_closes true rest).bind (.pure _ _)
  | cons m todo =>
    have hothers := takes_members_following h (rfl : _ = [m] ++ todo) rest hbound
    rw [List.map_cons, commaSeparated_append] at hothers ⊢
    exact takes_nextKey?_starts.bind
      ((h [] m todo rfl _ (endsValue_following (.inr rfl) _ _)).bind hothers)

/-- An object is read as a record by reading its members, if the record can be made of them. -/
theorem reads_record {levels : Nat} {expected : String} {named ordered : Nat → Reader α} {a : α}
    {next : σ → Reader α} (h : ReadsMembers member fields members)
    (hnamed : named levels = remaining >>= fun left =>
      Reader.members member true (fields []) (left + 1) >>= next)
    (hnext : next (fields members) = Pure.pure a) :
    (record (levels + 1) expected named ordered).Reads (.object members) a := by
  intro rest _
  have hrecord : (next (fields members)).Takes ('}' :: rest) a ('}' :: rest) := by
    rw [hnext]
    exact .pure _ _
  have hinside : (named levels).Takes
      (Print.commaSeparated (members.map Value.memberText) ++ '}' :: rest) a ('}' :: rest) := by
    rw [hnamed]
    exact (takes_remaining _).bind ((takes_members h rest).bind hrecord)
  rw [Value.text_object_append]
  exact takes_valueFrom (by decide) rfl ((takes_advance _ _).bind
    (hinside.bind ((takes_advance _ _).bind (.pure _ _))))

end

end Reader

def keysOf (members : List (String × Value)) : List String := members.map (·.1)

@[simp] theorem keysOf_concat (members : List (String × Value)) (m : String × Value) :
    keysOf (members ++ [m]) = keysOf members ++ [m.1] := List.map_append

/-- An object has a field once at most, in the right form, and lacks it only if it may. -/
structure HasField (members : List (String × Value)) (key : String) (isForm : Value → Prop)
    (isOmissible : Prop) : Prop where
  form (v : Value) (h : (key, v) ∈ members) : isForm v
  once : (keysOf members).count key ≤ 1
  present : key ∈ keysOf members ∨ isOmissible

/-- A value that has been read if its key is among the keys so far. -/
def given {α : Type} (keys : List String) (key : String) (a : α) : Option α :=
  if key ∈ keys then some a else none

/-- A value whose place is before a bound; behind it the default. -/
def kept {α : Type} (i k : Nat) (a default : α) : α := if i < k then a else default

section

variable {α σ : Type} {members done todo : List (String × Value)} {key : String} {v : Value}
  {isForm : Value → Prop} {isOmissible : Prop}

namespace HasField

theorem imp {isForm' : Value → Prop} (h : HasField members key isForm isOmissible)
    (himp : ∀ v, isForm v → isForm' v) : HasField members key isForm' isOmissible :=
  ⟨fun v hv => himp v (h.form v hv), h.once, h.present⟩

theorem of_absent (hkey : key ∉ keysOf members) (h : isOmissible) :
    HasField members key isForm isOmissible := by
  refine ⟨fun v hv => absurd (List.mem_map.mpr ⟨_, hv, rfl⟩) hkey, ?_, .inr h⟩
  rw [List.count_eq_zero.mpr hkey]
  exact Nat.zero_le 1

theorem of_getElem? (i : Nat) (hmember : members[i]? = some (key, v))
    (hkeys : (keysOf members).Nodup) (hform : isForm v) :
    HasField members key isForm isOmissible := by
  have hmem : (key, v) ∈ members := List.mem_of_getElem? hmember
  have hkey : key ∈ keysOf members := List.mem_map.mpr ⟨_, hmem, rfl⟩
  refine ⟨fun v' hv' => ?_, List.nodup_iff_count_le_one.mp hkeys key, .inl hkey⟩
  obtain rfl : v' = v := by
    have := List.inj_on_of_nodup_map hkeys hv' hmem rfl
    exact (Prod.ext_iff.mp this).2
  exact hform

theorem of_take {i k : Nat} (hi : i < k) (hmember : members[i]? = some (key, v))
    (hkeys : (keysOf members).Nodup) (hform : isForm v) :
    HasField (members.take k) key isForm isOmissible := by
  have hsub : (keysOf (members.take k)).Sublist (keysOf members) :=
    (List.take_sublist k members).map _
  exact of_getElem? i ((List.getElem?_take_of_lt hi).trans hmember) (hkeys.sublist hsub) hform

theorem of_kept (isForm : α → Value → Prop) (i : Nat) {k : Nat} {a default : α}
    (hmember : members[i]? = some (key, v)) (hkeys : (keysOf members).Nodup)
    (hform : i < k → isForm a v) :
    HasField (members.take k) key (isForm (kept i k a default)) (kept i k a default = default) := by
  unfold kept
  split
  · rename_i hi
    exact of_take hi hmember hkeys (hform hi)
  · -- The key stands behind the bound, so it cannot stand before it too.
    rename_i hi
    have hbehind : (key, v) ∈ members.drop k := by
      rw [← Nat.add_sub_cancel' (Nat.le_of_not_lt hi), ← List.getElem?_drop] at hmember
      exact List.mem_of_getElem? hmember
    have hdisjoint : (keysOf (members.take k)).Disjoint (keysOf (members.drop k)) := by
      apply List.disjoint_of_nodup_append
      rwa [keysOf, keysOf, ← List.map_append, List.take_append_drop]
    exact of_absent (fun hkey => hdisjoint hkey (List.mem_map.mpr ⟨_, hbehind, rfl⟩)) rfl

theorem given_unread (h : HasField members key isForm isOmissible)
    (hsplit : members = done ++ (key, v) :: todo) (a : α) : given (keysOf done) key a = none := by
  have honce := h.once
  rw [hsplit, keysOf, List.map_append, List.map_cons, List.count_append, List.count_cons_self]
    at honce
  -- The member at hand is the one that is allowed.
  have hnot : key ∉ keysOf done := List.count_eq_zero.mp (by rw [keysOf]; omega)
  rw [given, if_neg hnot]

theorem getD_given {a : α} {default : α} (h : HasField members key isForm (a = default)) :
    (given (keysOf members) key a).getD default = a := by
  by_cases hkey : key ∈ keysOf members
  · rw [given, if_pos hkey]
    rfl
  · rw [given, if_neg hkey]
    exact (h.present.resolve_left hkey).symm

theorem given_required (h : HasField members key isForm False) (a : α) :
    given (keysOf members) key a = some a := by
  rw [given, if_pos (h.present.resolve_right id)]

/-- A field that is asked for is read into its place among the fields. -/
theorem takes_field (h : HasField members key isForm isOmissible)
    (hsplit : members = done ++ (key, v) :: todo) {reader : Reader α} {a : α}
    (hread : ∀ v, isForm v → reader.Reads v a) {update : Option α → σ} {fields : σ}
    (hfields : update (some a) = fields) {rest : List Char} (hrest : EndsValue rest) :
    (do return update (← Reader.field key (given (keysOf done) key a) reader)).Takes
      (':' :: (v.text ++ rest)) fields rest := by
  have hform : isForm v := h.form v (by rw [hsplit]; simp)
  have hfield : (Reader.field key (given (keysOf done) key a) reader).Takes
      (':' :: (v.text ++ rest)) (some a) rest := by
    rw [h.given_unread hsplit, Reader.field, if_neg (by simp)]
    exact (Reader.takes_colon _).bind (hread v hform rest hrest).map
  exact hfield.bind (hfields ▸ .pure _ _)

end HasField

theorem Reader.takes_unknownField (fields : σ) (v : Value) {rest : List Char}
    (hrest : EndsValue rest) : (unknownField fields).Takes (':' :: (v.text ++ rest)) fields rest :=
  (takes_colon _).bind ((takes_skipValue v hrest).bind (.pure _ _))

end

/-- The form of a value that may be missing. -/
def OptionForm {α : Type} (isForm : α → Value → Prop) : Option α → Value → Prop
  | none, v => v = .null
  | some a, v => isForm a v

/-- A list that takes a level, with elements that take what is left of the levels. -/
def ListForm (levels : Nat) (areForm : Nat → List Value → Prop) (v : Value) : Prop :=
  ∃ inner values, levels = inner + 1 ∧ v = .list values ∧ areForm inner values

/-- An object that takes a level, with members that take what is left of the levels. -/
def ObjectForm (levels : Nat) (areForm : Nat → List (String × Value) → Prop) (v : Value) : Prop :=
  ∃ inner members, levels = inner + 1 ∧ v = .object members ∧ areForm inner members

theorem ObjectForm.ne_null {levels : Nat} {areForm : Nat → List (String × Value) → Prop}
    {v : Value} (h : ObjectForm levels areForm v) : v ≠ .null := by
  obtain ⟨_, _, _, rfl, _⟩ := h
  rintro ⟨⟩

theorem OptionForm.reads {α : Type} {isForm : α → Value → Prop} {reader : Reader α} {a : Option α}
    {v : Value} (h : OptionForm isForm a v) (hnull : ∀ {a v}, isForm a v → v ≠ .null)
    (hread : ∀ {a v}, isForm a v → reader.Reads v a) : (Reader.optional reader).Reads v a := by
  cases a with
  | none =>
    obtain rfl := h
    exact Reader.reads_optional_null reader
  | some a => exact Reader.reads_optional (hnull h) (hread h)

theorem ListForm.of_depth {levels : Nat} {areForm : Nat → List Value → Prop} {values : List Value}
    (hdepth : (Value.list values).depth ≤ levels)
    (h : ∀ inner, (∀ v ∈ values, v.depth ≤ inner) → areForm inner values) :
    ListForm levels areForm (.list values) := by
  rw [Value.depth] at hdepth
  obtain ⟨inner, rfl⟩ := Nat.exists_eq_add_one_of_ne_zero (by omega : levels ≠ 0)
  refine ⟨inner, values, rfl, rfl, h inner fun v hv => ?_⟩
  exact Nat.le_trans (Value.depth_le_of_mem hv) (Nat.le_of_succ_le_succ hdepth)

theorem ListForm.within {levels levels' : Nat} {areForm : Nat → List Value → Prop} {v : Value}
    {values : List Value} (h : ListForm levels areForm v)
    (hdepth : (Value.list values).depth ≤ levels')
    (himp : ∀ inner inner' others, (∀ v ∈ values, v.depth ≤ inner') → areForm inner others →
      areForm inner' others) : ListForm levels' areForm v := by
  obtain ⟨inner, others, rfl, rfl, hothers⟩ := h
  obtain ⟨inner', _, rfl, -, hvalues⟩ : ListForm levels' (fun inner' _ =>
      ∀ v ∈ values, v.depth ≤ inner') (.list values) := .of_depth hdepth fun _ h => h
  exact ⟨inner', others, rfl, rfl, himp inner inner' others hvalues hothers⟩

theorem ObjectForm.of_depth {levels : Nat} {areForm : Nat → List (String × Value) → Prop}
    {members : List (String × Value)} (hdepth : (Value.object members).depth ≤ levels)
    (h : ∀ inner, (∀ m ∈ members, m.2.depth ≤ inner) → areForm inner members) :
    ObjectForm levels areForm (.object members) := by
  rw [Value.depth] at hdepth
  obtain ⟨inner, rfl⟩ := Nat.exists_eq_add_one_of_ne_zero (by omega : levels ≠ 0)
  refine ⟨inner, members, rfl, rfl, h inner fun m hm => ?_⟩
  exact Nat.le_trans (Value.depth_le_of_mem_members hm) (Nat.le_of_succ_le_succ hdepth)

theorem ObjectForm.within {levels levels' : Nat}
    {areForm : Nat → List (String × Value) → Prop} {v : Value} {members : List (String × Value)}
    (h : ObjectForm levels areForm v) (hdepth : (Value.object members).depth ≤ levels')
    (himp : ∀ inner inner' others, (∀ m ∈ members, m.2.depth ≤ inner') → areForm inner others →
      areForm inner' others) : ObjectForm levels' areForm v := by
  obtain ⟨inner, others, rfl, rfl, hothers⟩ := h
  obtain ⟨inner', _, rfl, -, hmembers⟩ : ObjectForm levels' (fun inner' _ =>
      ∀ m ∈ members, m.2.depth ≤ inner') (.object members) := .of_depth hdepth fun _ h => h
  exact ⟨inner', others, rfl, rfl, himp inner inner' others hmembers hothers⟩

def TextForm (text : String) (v : Value) : Prop := v = .string text

theorem TextForm.reads {text : String} {v : Value} (h : TextForm text v) :
    Reader.text.Reads v text := by
  obtain rfl := h
  exact Reader.reads_text text

theorem OptionForm.reads_text {text : Option String} {v : Value} (h : OptionForm TextForm text v) :
    (Reader.optional Reader.text).Reads v text := by
  refine h.reads ?_ TextForm.reads
  rintro _ _ rfl ⟨⟩

end NativeBindings.Json
