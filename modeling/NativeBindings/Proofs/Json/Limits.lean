import NativeBindings.Proofs.Json.Records

/-!
# The limit of levels

A reader stops at the first list or object that it has no level left for, however well the text
goes on. What stands before it is read.
-/

namespace NativeBindings.Json

namespace Reader

/-- The reader stops since there is no level left. -/
def Overflows {α : Type} (reader : Reader α) (text : List Char) : Prop :=
  ∀ position, ∃ place, reader ⟨text, position⟩ = .error ⟨.recursionLimit, place⟩

/-- The reader stops in the text of the value. -/
def Exceeds {α : Type} (reader : Reader α) (v : Value) : Prop :=
  ∀ rest, reader.Overflows (v.text ++ rest)

variable {α β σ : Type} {reader : Reader α} {text middle : List Char} {value : α}

theorem Overflows.bind (h : reader.Overflows text) (next : α → Reader β) :
    (reader >>= next).Overflows text := by
  intro position
  obtain ⟨place, hreader⟩ := h position
  refine ⟨place, ?_⟩
  change (reader ⟨text, position⟩ >>= fun taken => next taken.1 taken.2) = _
  rw [hreader]
  rfl

theorem Takes.bind_overflows {next : α → Reader β} (h : reader.Takes text value middle)
    (hnext : (next value).Overflows middle) : (reader >>= next).Overflows text := by
  intro position
  obtain ⟨between, hreader⟩ := h position
  obtain ⟨place, hfault⟩ := hnext between
  refine ⟨place, ?_⟩
  change (reader ⟨text, position⟩ >>= fun taken => next taken.1 taken.2) = _
  rw [hreader]
  exact hfault

theorem Overflows.map (h : reader.Overflows text) (f : α → β) : (f <$> reader).Overflows text := by
  rw [map_eq_pure_bind]
  exact h.bind _

theorem overflows_valueFrom {expected : String} {starts : Char → Option (Reader α)} {c : Char}
    (hc : isJsonBlank c = false) (hstarts : starts c = some reader)
    (h : reader.Overflows (c :: text)) : (valueFrom expected starts).Overflows (c :: text) := by
  refine (takes_peekToken? hc _).bind_overflows ?_
  simp only [hstarts]
  exact h

theorem overflows_descend (inside : Nat → Reader α) (text : List Char) :
    (descend 0 inside).Overflows text :=
  fun position => ⟨Cursor.ahead ⟨text, position⟩ 1, rfl⟩

theorem exceeds_optional {v : Value} (h : reader.Exceeds v) (hv : v ≠ .null) :
    (optional reader).Exceeds v := by
  intro rest
  have hread := (h rest).map some
  obtain ⟨c, cs, heq, hblank, hc⟩ := Value.exists_text hv
  rw [heq] at hread ⊢
  refine (takes_peekToken? hblank _).bind_overflows ?_
  split
  · rename_i hnull
    exact absurd (Option.some.inj hnull) hc
  · exact hread

theorem exceeds_list_zero (element : Reader α) (values : List Value) :
    (list 0 element).Exceeds (.list values) := by
  intro rest
  rw [Value.text_list_append]
  exact overflows_valueFrom (by decide) rfl (overflows_descend _ _)

section

variable {element : Reader α} {done todo : List Value} {v : Value} {as : List α}

theorem overflows_elements_following (hdone : List.Forall₂ element.Reads done as)
    (h : element.Exceeds v) (rest : List Char) {bound : Nat} (hbound : done.length < bound) :
    (elements element false bound).Overflows
      (following ']' rest ((done ++ v :: todo).map Value.text)) := by
  induction hdone generalizing bound with
  | nil =>
    obtain ⟨bound, rfl⟩ := Nat.exists_eq_add_one_of_ne_zero (Nat.ne_zero_of_lt hbound)
    exact (takes_nextElement_continues (v.beginsValue.append _)).bind_overflows ((h _).bind _)
  | @cons w a done as hfirst _ ih =>
    obtain ⟨bound, rfl⟩ := Nat.exists_eq_add_one_of_ne_zero (Nat.ne_zero_of_lt hbound)
    exact (takes_nextElement_continues (w.beginsValue.append _)).bind_overflows
      ((hfirst _ (endsValue_following (.inl rfl) _ _)).bind_overflows
        ((ih (Nat.lt_of_succ_lt_succ hbound)).bind _))

theorem overflows_elements (hdone : List.Forall₂ element.Reads done as) (h : element.Exceeds v)
    (rest : List Char) {bound : Nat} (hbound : done.length < bound) :
    (elements element true bound).Overflows
      (Print.commaSeparated ((done ++ v :: todo).map Value.text) ++ ']' :: rest) := by
  obtain ⟨bound, rfl⟩ := Nat.exists_eq_add_one_of_ne_zero (Nat.ne_zero_of_lt hbound)
  cases hdone with
  | nil =>
    rw [List.nil_append, List.map_cons, commaSeparated_append]
    exact (takes_nextElement_starts (v.beginsValue.append _)).bind_overflows ((h _).bind _)
  | @cons w a done as hfirst hothers =>
    have hrest : (elements element false bound).Overflows
        (following ']' rest ((done ++ v :: todo).map Value.text)) :=
      overflows_elements_following hothers h rest (Nat.lt_of_succ_lt_succ hbound)
    rw [List.cons_append, List.map_cons, commaSeparated_append]
    exact (takes_nextElement_starts (w.beginsValue.append _)).bind_overflows
      ((hfirst _ (endsValue_following (.inl rfl) _ _)).bind_overflows (hrest.bind _))

theorem exceeds_list (levels : Nat) (hdone : List.Forall₂ element.Reads done as)
    (h : element.Exceeds v) : (list (levels + 1) element).Exceeds (.list (done ++ v :: todo)) := by
  intro rest
  have hlength := length_le_commaSeparated ']' rest ((done ++ v :: todo).map Value.text)
  rw [List.length_map, List.length_append] at hlength
  rw [Value.text_list_append]
  exact overflows_valueFrom (by decide) rfl ((takes_advance _ _).bind_overflows
    ((takes_remaining _).bind_overflows
      ((overflows_elements hdone h rest (by omega)).bind _)))

/-- Reads the value within its depth, and exceeds the limit of levels otherwise. -/
def KeepsLimit (reader : Nat → Reader α) (v : Value) : Prop :=
  ∀ levels, (v.depth ≤ levels → ∃ a, (reader levels).Reads v a) ∧
    (levels < v.depth → (reader levels).Exceeds v)

theorem exists_first_exceeding {reader : Nat → Reader α} {values : List Value} {levels : Nat}
    (h : ∀ v ∈ values, KeepsLimit reader v) (hdeep : ∃ v ∈ values, levels < v.depth) :
    ∃ done v todo as, values = done ++ v :: todo ∧ List.Forall₂ (reader levels).Reads done as ∧
      (reader levels).Exceeds v := by
  induction values with
  | nil =>
    obtain ⟨v, hv, -⟩ := hdeep
    exact absurd hv List.not_mem_nil
  | cons head values ih =>
    rw [List.forall_mem_cons] at h
    by_cases hhead : levels < head.depth
    · exact ⟨[], head, values, [], rfl, .nil, (h.1 levels).2 hhead⟩
    · obtain ⟨v, hv, hdepth⟩ := hdeep
      have hrest : v ∈ values := by
        rcases List.mem_cons.mp hv with rfl | hv
        · exact absurd hdepth hhead
        · exact hv
      obtain ⟨done, v, todo, as, rfl, hdone, hexceeds⟩ := ih h.2 ⟨v, hrest, hdepth⟩
      obtain ⟨a, ha⟩ := (h.1 levels).1 (Nat.le_of_not_lt hhead)
      exact ⟨head :: done, v, todo, a :: as, rfl, .cons ha hdone, hexceeds⟩

theorem exceeds_list_of_depth {reader : Nat → Reader α} {values : List Value} {levels : Nat}
    (h : ∀ v ∈ values, KeepsLimit reader v) (hdepth : levels < (Value.list values).depth) :
    (list levels (reader (levels - 1))).Exceeds (.list values) := by
  cases levels with
  | zero => exact exceeds_list_zero _ _
  | succ inner =>
    rw [Value.depth] at hdepth
    obtain ⟨done, v, todo, as, rfl, hdone, hexceeds⟩ :=
      exists_first_exceeding h (Value.exists_mem_of_lt_depth (Nat.lt_of_succ_lt_succ hdepth))
    exact exceeds_list inner hdone hexceeds

end

theorem exists_first_deep {members : List (String × Value)} {levels : Nat}
    (h : levels < Value.depthOfMembers members) :
    ∃ k m, members[k]? = some m ∧ levels < m.2.depth ∧
      ∀ m ∈ members.take k, m.2.depth ≤ levels := by
  induction members with
  | nil => exact absurd h (Nat.not_lt_zero levels)
  | cons head members ih =>
    by_cases hhead : levels < head.2.depth
    · exact ⟨0, head, rfl, hhead, fun _ hm => absurd hm List.not_mem_nil⟩
    · rw [Value.depthOfMembers, lt_max_iff] at h
      obtain ⟨k, m, hm, hdeep, hfits⟩ := ih (h.resolve_left hhead)
      refine ⟨k + 1, m, hm, hdeep, ?_⟩
      rw [List.take_succ_cons, List.forall_mem_cons]
      exact ⟨Nat.le_of_not_lt hhead, hfits⟩

theorem eq_take_append {members : List (String × Value)} {k : Nat} {m : String × Value}
    (hm : members[k]? = some m) : members = members.take k ++ m :: members.drop (k + 1) := by
  obtain ⟨hk, rfl⟩ := List.getElem?_eq_some_iff.mp hm
  rw [← List.drop_eq_getElem_cons hk, List.take_append_drop]

theorem notMem_keysOf {members : List (String × Value)} {k : Nat} {m : String × Value}
    (hkeys : (keysOf members).Nodup) (hm : members[k]? = some m) :
    m.1 ∉ keysOf (members.take k) := by
  rw [eq_take_append hm, keysOf, List.map_append, List.map_cons] at hkeys
  exact fun hkey => (List.disjoint_of_nodup_append hkeys) hkey List.mem_cons_self

theorem exceeds_record_zero {expected : String} (named ordered : Nat → Reader α)
    (members : List (String × Value)) :
    (record 0 expected named ordered).Exceeds (.object members) := by
  intro rest
  rw [Value.text_object_append]
  exact overflows_valueFrom (by decide) rfl (overflows_descend _ _)

section

variable {member : String → σ → Reader σ} {fields : List (String × Value) → σ}
  {done : List (String × Value)} {m : String × Value}

/-- What follows the key of a member overflows. -/
def ExceedsMember (member : String → σ → Reader σ) (fields : σ) (m : String × Value) : Prop :=
  ∀ rest, (member m.1 fields).Overflows (':' :: (m.2.text ++ rest))

theorem overflows_members_following (hdone : ReadsMembers member fields done)
    (h : ExceedsMember member (fields done) m) (todo : List (String × Value)) (rest : List Char)
    {before after : List (String × Value)} (hsplit : done = before ++ after) {bound : Nat}
    (hbound : after.length < bound) :
    (members member false (fields before) bound).Overflows
      (following '}' rest ((after ++ m :: todo).map Value.memberText)) := by
  induction after generalizing before bound with
  | nil =>
    obtain ⟨bound, rfl⟩ := Nat.exists_eq_add_one_of_ne_zero (Nat.ne_zero_of_lt hbound)
    rw [List.append_nil] at hsplit
    exact takes_nextKey?_continues.bind_overflows ((hsplit ▸ h _).bind _)
  | cons head after ih =>
    obtain ⟨bound, rfl⟩ := Nat.exists_eq_add_one_of_ne_zero (Nat.ne_zero_of_lt hbound)
    have hothers := ih (hsplit.trans (List.append_cons before head after))
      (Nat.lt_of_succ_lt_succ hbound)
    exact takes_nextKey?_continues.bind_overflows
      ((hdone before head after hsplit _ (endsValue_following (.inr rfl) _ _)).bind_overflows
        hothers)

theorem overflows_members (hdone : ReadsMembers member fields done)
    (h : ExceedsMember member (fields done) m) (todo : List (String × Value)) (rest : List Char) :
    (members member true (fields []) ((Print.commaSeparated
        ((done ++ m :: todo).map Value.memberText) ++ '}' :: rest).length + 1)).Overflows
      (Print.commaSeparated ((done ++ m :: todo).map Value.memberText) ++ '}' :: rest) := by
  have hbound := length_le_commaSeparated '}' rest ((done ++ m :: todo).map Value.memberText)
  rw [List.length_map, List.length_append, List.length_cons] at hbound
  cases done with
  | nil =>
    rw [List.nil_append, List.map_cons, commaSeparated_append]
    exact takes_nextKey?_starts.bind_overflows ((h _).bind _)
  | cons head after =>
    have hlength : after.length < (Print.commaSeparated
        ((head :: after ++ m :: todo).map Value.memberText) ++ '}' :: rest).length := by
      rw [List.length_cons] at hbound
      omega
    have hothers := overflows_members_following hdone h todo rest (rfl : _ = [head] ++ after)
      hlength
    rw [List.cons_append, List.map_cons, commaSeparated_append] at hothers ⊢
    exact takes_nextKey?_starts.bind_overflows
      ((hdone [] head after rfl _ (endsValue_following (.inr rfl) _ _)).bind_overflows hothers)

/-- The members of a record are read up to the first that takes too many levels. -/
theorem exceeds_record {levels : Nat} {expected : String} {named ordered : Nat → Reader α}
    {members : List (String × Value)} {next : σ → Reader α} {empty : σ}
    (hnamed : named levels = remaining >>= fun left =>
      Reader.members member true empty (left + 1) >>= next)
    (hdepth : levels + 1 < (Value.object members).depth)
    (h : ∀ k m, members[k]? = some m → levels < m.2.depth →
      (∀ m ∈ members.take k, m.2.depth ≤ levels) → ∃ fields : List (String × Value) → σ,
        fields [] = empty ∧ ReadsMembers member fields (members.take k) ∧
          ExceedsMember member (fields (members.take k)) m) :
    (record (levels + 1) expected named ordered).Exceeds (.object members) := by
  intro rest
  -- All members before the first that is too deep are read, so the reader comes to it.
  obtain ⟨k, m, hm, hdeep, hfits⟩ := exists_first_deep (Nat.lt_of_succ_lt_succ hdepth)
  obtain ⟨fields, rfl, hread, hmember⟩ := h k m hm hdeep hfits
  have hmembers := overflows_members hread hmember (members.drop (k + 1)) rest
  rw [← eq_take_append hm] at hmembers
  have hoverflows : (named levels).Overflows
      (Print.commaSeparated (members.map Value.memberText) ++ '}' :: rest) := by
    rw [hnamed]
    exact (takes_remaining _).bind_overflows (hmembers.bind _)
  rw [Value.text_object_append]
  exact overflows_valueFrom (by decide) rfl
    ((takes_advance _ _).bind_overflows (hoverflows.bind _))

end

theorem overflows_field {key : String} {keys : List String} {v : Value} {update : Option α → σ}
    (hkey : key ∉ keys) (h : reader.Exceeds v) (a : α) (rest : List Char) :
    (do return update (← field key (given keys key a) reader)).Overflows
      (':' :: (v.text ++ rest)) := by
  have hfield : (field key (given keys key a) reader).Overflows (':' :: (v.text ++ rest)) := by
    rw [given, if_neg hkey, field, if_neg (by simp)]
    exact (takes_colon _).bind_overflows ((h rest).map _)
  exact hfield.bind _

theorem run_of_overflows (h : reader.Overflows text) :
    ∃ place, reader.run (String.ofList text) = .error ⟨.recursionLimit, place⟩ := by
  have hwhole : reader.whole.Overflows text := h.bind _
  obtain ⟨place, heq⟩ := hwhole .start
  refine ⟨place, ?_⟩
  rw [run_ofList, heq]
  rfl

end Reader

end NativeBindings.Json
