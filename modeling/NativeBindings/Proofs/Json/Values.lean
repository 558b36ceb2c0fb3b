import NativeBindings.Proofs.Json.Numbers
import NativeBindings.Proofs.Json.Strings

/-!
# Values

JSON values and their compact text. Every value can be skipped, however deep it is nested.
-/

namespace NativeBindings.Json

/-- A JSON value. An object may have several members of one key. -/
inductive Value where
  | null
  | boolean (value : Bool)
  | number (numeral : Numeral)
  | string (value : String)
  | list (values : List Value)
  | object (members : List (String × Value))

namespace Value

/-- Induction over a value and everything in it. -/
theorem nestedInduction {motive : Value → Prop} (null : motive null)
    (boolean : ∀ value, motive (boolean value)) (number : ∀ numeral, motive (number numeral))
    (string : ∀ value, motive (string value))
    (list : ∀ values, (∀ v ∈ values, motive v) → motive (list values))
    (object : ∀ members, (∀ m ∈ members, motive m.2) → motive (object members)) (v : Value) :
    motive v := by
  refine @Value.rec motive (fun values => ∀ v ∈ values, motive v)
    (fun members => ∀ m ∈ members, motive m.2) (fun m => motive m.2) null boolean number string
    list object ?_ ?_ ?_ ?_ ?_ v
  · intro v hv
    exact absurd hv List.not_mem_nil
  · intro head tail hh ht
    exact List.forall_mem_cons.mpr ⟨hh, ht⟩
  · intro m hm
    exact absurd hm List.not_mem_nil
  · intro head tail hh ht
    exact List.forall_mem_cons.mpr ⟨hh, ht⟩
  · intro key v hv
    exact hv

mutual

def text : Value → List Char
  | null => "null".toList
  | boolean value => Print.boolean value
  | number numeral => numeral.text
  | string value => Print.string value
  | list values => '[' :: Print.commaSeparated (texts values) ++ [']']
  | object members => Print.object (memberTexts members)

def texts : List Value → List (List Char)
  | [] => []
  | v :: values => v.text :: texts values

def memberTexts : List (String × Value) → List (List Char)
  | [] => []
  | (key, v) :: members => Print.field key v.text :: memberTexts members

end

def memberText (m : String × Value) : List Char := Print.field m.1 m.2.text

theorem texts_eq_map (values : List Value) : texts values = values.map text := by
  induction values with
  | nil => rfl
  | cons v values ih => rw [texts, ih, List.map_cons]

theorem memberTexts_eq_map (members : List (String × Value)) :
    memberTexts members = members.map memberText := by
  induction members with
  | nil => rfl
  | cons m members ih => rw [memberTexts, ih, List.map_cons]; rfl

theorem text_list (values : List Value) : (list values).text = Print.list text values := by
  rw [text, texts_eq_map, Print.list]

theorem text_object (members : List (String × Value)) :
    (object members).text = Print.object (members.map memberText) := by
  rw [text, memberTexts_eq_map]

theorem text_list_append (values : List Value) (rest : List Char) :
    (list values).text ++ rest =
      '[' :: (Print.commaSeparated (values.map text) ++ ']' :: rest) := by
  simp [text_list, Print.list]

theorem text_object_append (members : List (String × Value)) (rest : List Char) :
    (object members).text ++ rest =
      '{' :: (Print.commaSeparated (members.map memberText) ++ '}' :: rest) := by
  simp [text_object, Print.object]

theorem memberText_append (m : String × Value) (rest : List Char) :
    memberText m ++ rest =
      '"' :: (m.1.toList.flatMap Print.stringChar ++ '"' :: ':' :: (m.2.text ++ rest)) := by
  simp [memberText, Print.field, Print.string]

mutual

/-- Levels of lists and objects in a value. -/
def depth : Value → Nat
  | list values => depthOfAll values + 1
  | object members => depthOfMembers members + 1
  | _ => 0

def depthOfAll : List Value → Nat
  | [] => 0
  | v :: values => max v.depth (depthOfAll values)

def depthOfMembers : List (String × Value) → Nat
  | [] => 0
  | (_, v) :: members => max v.depth (depthOfMembers members)

end

theorem depth_le_of_mem {values : List Value} {v : Value} (hv : v ∈ values) :
    v.depth ≤ depthOfAll values := by
  induction values with
  | nil => exact absurd hv List.not_mem_nil
  | cons head values ih =>
    rw [depthOfAll]
    rcases List.mem_cons.mp hv with rfl | hv
    · exact Nat.le_max_left _ _
    · exact Nat.le_trans (ih hv) (Nat.le_max_right _ _)

theorem exists_mem_of_lt_depth {values : List Value} {levels : Nat}
    (h : levels < depthOfAll values) : ∃ v ∈ values, levels < v.depth := by
  induction values with
  | nil => exact absurd h (Nat.not_lt_zero levels)
  | cons head values ih =>
    rw [depthOfAll, lt_max_iff] at h
    rcases h with h | h
    · exact ⟨head, List.mem_cons_self, h⟩
    · obtain ⟨v, hv, h⟩ := ih h
      exact ⟨v, List.mem_cons_of_mem _ hv, h⟩

theorem depth_le_of_mem_members {members : List (String × Value)} {m : String × Value}
    (hm : m ∈ members) : m.2.depth ≤ depthOfMembers members := by
  induction members with
  | nil => exact absurd hm List.not_mem_nil
  | cons head members ih =>
    rw [depthOfMembers]
    rcases List.mem_cons.mp hm with rfl | hm
    · exact Nat.le_max_left _ _
    · exact Nat.le_trans (ih hm) (Nat.le_max_right _ _)

end Value

def BeginsValue (text : List Char) : Prop :=
  ∃ c cs, text = c :: cs ∧ isJsonBlank c = false ∧ c ≠ ']' ∧ c ≠ '}'

theorem BeginsValue.append {text : List Char} (h : BeginsValue text) (rest : List Char) :
    BeginsValue (text ++ rest) := by
  obtain ⟨c, cs, rfl, hc⟩ := h
  exact ⟨c, cs ++ rest, rfl, hc⟩

theorem Numeral.exists_text (numeral : Numeral) :
    ∃ c cs, numeral.text = c :: cs ∧ (c = '-' ∨ c.isDigit = true) := by
  obtain ⟨c, cs, heq⟩ := List.exists_cons_of_ne_nil (Nat.toDigits_ne_nil (n := numeral.whole))
  have hdigit : c.isDigit = true := isDigit_of_mem_toDigits (heq ▸ List.mem_cons_self)
  rw [text, heq]
  cases numeral.isNegative with
  | true => exact ⟨'-', _, rfl, .inl rfl⟩
  | false => exact ⟨c, _, rfl, .inr hdigit⟩

theorem Value.beginsValue (v : Value) : BeginsValue v.text := by
  cases v with
  | null => exact ⟨'n', "ull".toList, by decide, by decide⟩
  | boolean value =>
    cases value with
    | true => exact ⟨'t', "rue".toList, by decide, by decide⟩
    | false => exact ⟨'f', "alse".toList, by decide, by decide⟩
  | number numeral =>
    obtain ⟨c, cs, heq, hc⟩ := numeral.exists_text
    refine ⟨c, cs, heq, ?_⟩
    rcases hc with rfl | hc
    · decide
    · have hblank : isJsonBlank c = false := by
        rw [Bool.eq_false_iff]
        intro h
        simp only [isJsonBlank, Bool.or_eq_true, beq_iff_eq] at h
        rcases h with ((rfl | rfl) | rfl) | rfl <;> exact absurd hc (by decide)
      refine ⟨hblank, ?_, ?_⟩ <;> rintro rfl <;> exact absurd hc (by decide)
  | string value => exact ⟨'"', _, rfl, by decide⟩
  | list values => exact ⟨'[', _, rfl, by decide⟩
  | object members => exact ⟨'{', _, rfl, by decide⟩

theorem beginsValue_memberText (m : String × Value) : BeginsValue (Value.memberText m) :=
  ⟨'"', _, rfl, by decide⟩

/-- What follows an element of a list or a member of an object. -/
def following (closing : Char) (rest : List Char) : List (List Char) → List Char
  | [] => closing :: rest
  | piece :: pieces => ',' :: (piece ++ following closing rest pieces)

theorem commaSeparated_append (piece : List Char) (pieces : List (List Char)) (closing : Char)
    (rest : List Char) : Print.commaSeparated (piece :: pieces) ++ closing :: rest =
      piece ++ following closing rest pieces := by
  unfold Print.commaSeparated
  induction pieces generalizing piece with
  | nil => simp [following]
  | cons next pieces ih =>
    rw [List.intercalate_cons_cons, List.append_assoc, ih, List.append_assoc]
    rfl

theorem length_lt_following (closing : Char) (rest : List Char) (pieces : List (List Char)) :
    pieces.length < (following closing rest pieces).length := by
  induction pieces with
  | nil => simp [following]
  | cons piece pieces ih =>
    simp only [following, List.length_cons, List.length_append]
    omega

theorem length_le_commaSeparated (closing : Char) (rest : List Char) (pieces : List (List Char)) :
    pieces.length ≤ (Print.commaSeparated pieces ++ closing :: rest).length := by
  cases pieces with
  | nil => exact Nat.zero_le _
  | cons piece pieces =>
    have := length_lt_following closing rest pieces
    rw [commaSeparated_append, List.length_append, List.length_cons]
    omega

theorem endsValue_following {closing : Char} (hclosing : closing = ']' ∨ closing = '}')
    (rest : List Char) (pieces : List (List Char)) : EndsValue (following closing rest pieces) := by
  cases pieces with
  | nil =>
    rintro _ ⟨⟩
    exact .inr hclosing
  | cons piece pieces =>
    rintro _ ⟨⟩
    exact .inl rfl

namespace Reader

/-- With a bound of three for each character that is left, the text is skipped. -/
def Skips (skip : Nat → Reader Unit) (text : List Char) : Prop :=
  ∀ (bound : Nat) (rest : List Char), 3 * (text ++ rest).length ≤ bound → EndsValue rest →
    (skip bound).Takes (text ++ rest) () rest

/-- The loop skips items with commas between them, and a closing bracket. -/
structure SkipsItems (loop : Bool → Nat → Reader Unit) (item : Nat → Reader Unit)
    (closing : Char) : Prop where
  closes (first : Bool) (bound : Nat) (rest : List Char) :
    (loop first (bound + 1)).Takes (closing :: rest) () rest
  starts {bound : Nat} {text middle rest : List Char} (hbegins : BeginsValue text)
    (hitem : (item bound).Takes text () middle) (hloop : (loop false bound).Takes middle () rest) :
    (loop true (bound + 1)).Takes text () rest
  continues {bound : Nat} {text middle rest : List Char} (hitem : (item bound).Takes text () middle)
    (hloop : (loop false bound).Takes middle () rest) :
    (loop false (bound + 1)).Takes (',' :: text) () rest

theorem skipsItems_elements : SkipsItems skipElements skipValueWithin ']' where
  closes first bound rest := by
    rw [skipElements]
    exact (takes_peekToken? (by decide) _).bind (takes_advance _ _)
  starts hbegins hitem hloop := by
    obtain ⟨c, cs, rfl, hblank, hc, -⟩ := hbegins
    rw [skipElements]
    refine (takes_peekToken? hblank _).bind ?_
    simp only [if_true]
    exact hitem.bind hloop
  continues hitem hloop := by
    rw [skipElements]
    exact (takes_peekToken? (by decide) _).bind ((takes_advance _ _).bind (hitem.bind hloop))

theorem skipsItems_members : SkipsItems skipMembers skipMember '}' where
  closes first bound rest := by
    rw [skipMembers]
    exact (takes_peekToken? (by decide) _).bind (takes_advance _ _)
  starts hbegins hitem hloop := by
    obtain ⟨c, cs, rfl, hblank, -, hc⟩ := hbegins
    rw [skipMembers]
    refine (takes_peekToken? hblank _).bind ?_
    simp only [if_true]
    exact hitem.bind hloop
  continues hitem hloop := by
    rw [skipMembers]
    exact (takes_peekToken? (by decide) _).bind ((takes_advance _ _).bind (hitem.bind hloop))

namespace SkipsItems

variable {loop : Bool → Nat → Reader Unit} {item : Nat → Reader Unit} {closing : Char}
  {pieces : List (List Char)} {bound : Nat}

theorem takes_following (skips : SkipsItems loop item closing)
    (hclosing : closing = ']' ∨ closing = '}') (rest : List Char)
    (h : ∀ piece ∈ pieces, Skips item piece)
    (hbound : 3 * (following closing rest pieces).length ≤ bound) :
    (loop false bound).Takes (following closing rest pieces) () rest := by
  -- Each piece has a comma before it, which gives the loop its step.
  induction pieces generalizing bound with
  | nil =>
    simp only [following, List.length_cons] at hbound
    obtain ⟨bound, rfl⟩ := Nat.exists_eq_add_one_of_ne_zero (by omega : bound ≠ 0)
    exact skips.closes false bound rest
  | cons piece pieces ih =>
    rw [List.forall_mem_cons] at h
    simp only [following, List.length_cons] at hbound
    obtain ⟨bound, rfl⟩ := Nat.exists_eq_add_one_of_ne_zero (by omega : bound ≠ 0)
    have hfirst := h.1 bound _ (by omega) (endsValue_following hclosing rest pieces)
    rw [List.length_append] at hbound
    exact skips.continues hfirst (ih h.2 (by omega))

theorem takes_commaSeparated (skips : SkipsItems loop item closing)
    (hclosing : closing = ']' ∨ closing = '}') (rest : List Char)
    (hbegins : ∀ piece ∈ pieces, BeginsValue piece) (h : ∀ piece ∈ pieces, Skips item piece)
    (hbound : 3 * (Print.commaSeparated pieces ++ closing :: rest).length < bound) :
    (loop true bound).Takes (Print.commaSeparated pieces ++ closing :: rest) () rest := by
  obtain ⟨bound, rfl⟩ := Nat.exists_eq_add_one_of_ne_zero (by omega : bound ≠ 0)
  cases pieces with
  | nil => exact skips.closes true bound rest
  | cons piece pieces =>
    rw [commaSeparated_append] at hbound ⊢
    rw [List.forall_mem_cons] at h hbegins
    have hfirst := h.1 bound _ (by omega) (endsValue_following hclosing rest pieces)
    have hothers : 3 * (following closing rest pieces).length ≤ bound := by
      rw [List.length_append] at hbound
      omega
    exact skips.starts (hbegins.1.append _) hfirst
      (skips.takes_following hclosing rest h.2 hothers)

end SkipsItems

theorem skips_memberText {m : String × Value} (h : Skips skipValueWithin m.2.text) :
    Skips skipMember (Value.memberText m) := by
  intro bound rest hbound hrest
  -- Two quotes and a colon stand before the value.
  have hvalue : 3 * (m.2.text ++ rest).length + 9 ≤ bound := by
    rw [Value.memberText_append] at hbound
    simp only [List.length_cons, List.length_append] at hbound ⊢
    omega
  obtain ⟨bound, rfl⟩ := Nat.exists_eq_add_one_of_ne_zero (by omega : bound ≠ 0)
  have hkey := takes_skipString m.1 (':' :: (m.2.text ++ rest))
  rw [string_append] at hkey
  rw [Value.memberText_append, skipMember]
  exact (takes_peekToken? (by decide) _).bind (hkey.bind ((takes_colon _).bind
    (h bound rest (by omega) hrest)))

theorem skips_of_succ {text : List Char} (hbegins : BeginsValue text)
    (h : ∀ (bound : Nat) (rest : List Char), 3 * (text ++ rest).length ≤ bound + 1 →
      EndsValue rest → (skipValueWithin (bound + 1)).Takes (text ++ rest) () rest) :
    Skips skipValueWithin text := by
  intro bound rest hbound hrest
  obtain ⟨c, cs, rfl, -⟩ := hbegins
  obtain ⟨bound, rfl⟩ := Nat.exists_eq_add_one_of_ne_zero
    (by simp only [List.cons_append, List.length_cons] at hbound; omega : bound ≠ 0)
  exact h bound rest hbound hrest

theorem skips_list {values : List Value} (h : ∀ v ∈ values, Skips skipValueWithin v.text) :
    Skips skipValueWithin (Value.list values).text := by
  refine skips_of_succ (Value.beginsValue _) fun bound rest hbound _ => ?_
  rw [Value.text_list_append, List.length_cons] at hbound
  have hitems := skipsItems_elements.takes_commaSeparated (.inl rfl) rest
    (List.forall_mem_map.mpr fun v _ => v.beginsValue) (List.forall_mem_map.mpr h)
    (by omega : _ < bound)
  rw [Value.text_list_append, skipValueWithin]
  exact (takes_peekToken? (by decide) _).bind ((takes_advance _ _).bind hitems)

theorem skips_object {members : List (String × Value)}
    (h : ∀ m ∈ members, Skips skipValueWithin m.2.text) :
    Skips skipValueWithin (Value.object members).text := by
  refine skips_of_succ (Value.beginsValue _) fun bound rest hbound _ => ?_
  rw [Value.text_object_append, List.length_cons] at hbound
  have hitems := skipsItems_members.takes_commaSeparated (.inr rfl) rest
    (List.forall_mem_map.mpr fun m _ => beginsValue_memberText m)
    (List.forall_mem_map.mpr fun m hm => skips_memberText (h m hm)) (by omega : _ < bound)
  rw [Value.text_object_append, skipValueWithin]
  exact (takes_peekToken? (by decide) _).bind ((takes_advance _ _).bind hitems)

theorem skips_number (numeral : Numeral) : Skips skipValueWithin numeral.text := by
  refine skips_of_succ (Value.number numeral).beginsValue fun bound rest _ hrest => ?_
  have hskip := takes_skipNumber numeral hrest
  obtain ⟨c, cs, heq, hblank, -⟩ := (Value.number numeral).beginsValue
  obtain ⟨d, ds, hd, hc⟩ := numeral.exists_text
  obtain ⟨rfl, rfl⟩ := List.cons.inj (heq.symm.trans hd)
  rw [hd] at hskip ⊢
  rw [skipValueWithin]
  refine (takes_peekToken? hblank _).bind ?_
  -- Of all that a value can begin with, only a sign or a digit begins a number.
  split
  case h_1 heq => cases heq
  case h_8 heq =>
    cases heq
    rw [if_pos hc]
    exact hskip
  all_goals
    rename_i heq
    cases heq
    exact absurd hc (by decide)

theorem takes_skipValue (v : Value) {rest : List Char} (hrest : EndsValue rest) :
    skipValue.Takes (v.text ++ rest) () rest := by
  have hskips : Skips skipValueWithin v.text := by
    induction v using Value.nestedInduction with
    | null =>
      refine skips_of_succ (Value.beginsValue _) fun bound rest _ _ => ?_
      rw [skipValueWithin]
      exact (takes_peekToken? (by decide) _).bind (takes_word _ _)
    | boolean value =>
      refine skips_of_succ (Value.beginsValue _) fun bound rest _ _ => ?_
      rw [skipValueWithin]
      cases value <;> exact (takes_peekToken? (by decide) _).bind (takes_word _ _)
    | number numeral => exact skips_number numeral
    | string value =>
      refine skips_of_succ (Value.beginsValue _) fun bound rest _ _ => ?_
      rw [skipValueWithin]
      exact (takes_peekToken? (by decide) _).bind (takes_skipString _ _)
    | list values ih => exact skips_list ih
    | object members ih => exact skips_object ih
  exact (takes_remaining _).bind (hskips _ rest (Nat.le_add_right _ 3) hrest)

end Reader

end NativeBindings.Json
