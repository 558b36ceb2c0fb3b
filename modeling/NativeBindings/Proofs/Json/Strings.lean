import NativeBindings.Native.ToJson
import NativeBindings.Proofs.Json.Takes

/-!
# Printed strings

A printed string is read as the string that it prints, and it can be skipped.
-/

namespace NativeBindings.Json

namespace Reader

theorem byteCount_ge (cs : List Char) : cs.length ≤ byteCount cs := by
  induction cs with
  | nil => exact Nat.le_refl 0
  | cons c cs ih =>
    have hc := c.utf8Size_pos
    change cs.length + 1 ≤ c.utf8Size + byteCount cs
    omega

theorem takes_hexEscape {a b c d : Char} {code : Nat} (h : hexNumber? [a, b, c, d] = some code)
    (rest : List Char) : hexEscape.Takes (a :: b :: c :: d :: rest) code rest := by
  intro position
  refine ⟨(((position.after a).after b).after c).after d, ?_⟩
  -- The reader counts bytes, of which every character has one at least.
  have hbytes : ¬ byteCount (a :: b :: c :: d :: rest) < 4 := by
    have := byteCount_ge (a :: b :: c :: d :: rest)
    simp only [List.length_cons] at this
    omega
  change (if byteCount (a :: b :: c :: d :: rest) < 4 then _ else _ : Reader Nat) _ = _
  simp only [if_neg hbytes, List.take_succ_cons, List.take_zero, h]
  rfl

theorem hexNumber?_control : ∀ code < 0x20, hexNumber?
    ['0', '0', Nat.digitChar (code / 16), Nat.digitChar (code % 16)] = some code := by
  decide

theorem takes_escape_short {e c : Char} (h : shortEscape? e = some c) (rest : List Char) :
    escape.Takes (e :: rest) c rest ∧ skipEscape.Takes (e :: rest) () rest := by
  have hu : e ≠ 'u' := by
    rintro rfl
    cases h
  constructor
  · refine (takes_peek? _).bind ?_
    simp only [List.head?_cons, h]
    exact (takes_advance _ _).bind (.pure _ _)
  · refine (takes_peek? _).bind ?_
    simp only [List.head?_cons, h, Option.isSome_some, if_true]
    exact takes_advance _ _

theorem takes_escape_control {c : Char} (h : c.toNat < 0x20) (rest : List Char) :
    escape.Takes ((Print.controlEscape c).tail ++ rest) c rest ∧
      skipEscape.Takes ((Print.controlEscape c).tail ++ rest) () rest := by
  have hcode := takes_hexEscape (hexNumber?_control c.toNat h) rest
  have hescape : (Print.controlEscape c).tail ++ rest =
      'u' :: '0' :: '0' :: Nat.digitChar (c.toNat / 16) :: Nat.digitChar (c.toNat % 16) :: rest :=
    rfl
  have hc : Char.ofNat c.toNat = c := c.ofNat_toNat
  rw [hescape]
  constructor
  · refine (takes_peek? _).bind ((takes_advance _ _).bind (hcode.bind ?_))
    rw [if_neg (by omega), if_neg (by omega), hc]
    exact .pure _ _
  · exact (takes_peek? _).bind ((takes_advance _ _).bind (hcode.bind (.pure _ _)))

theorem stringChar_cases (c : Char) :
    (∃ code, Print.stringChar c = '\\' :: code ∧ ∀ rest,
      escape.Takes (code ++ rest) c rest ∧ skipEscape.Takes (code ++ rest) () rest) ∨
    (Print.stringChar c = [c] ∧ c ≠ '"' ∧ c ≠ '\\' ∧ ¬ c.toNat < 0x20) := by
  have hshort : ∀ e meant, shortEscape? e = some meant → ∃ code, ['\\', e] = '\\' :: code ∧
      ∀ rest, escape.Takes (code ++ rest) meant rest ∧ skipEscape.Takes (code ++ rest) () rest :=
    fun e meant h => ⟨[e], rfl, takes_escape_short h⟩
  unfold Print.stringChar
  split
  · rename_i h
    exact .inl (h ▸ hshort '"' _ rfl)
  split
  · rename_i h
    exact .inl (h ▸ hshort '\\' _ rfl)
  split
  · rename_i h
    exact .inl (h ▸ hshort 'n' _ rfl)
  split
  · rename_i h
    exact .inl (h ▸ hshort 'r' _ rfl)
  split
  · rename_i h
    exact .inl (h ▸ hshort 't' _ rfl)
  split
  · rename_i h
    exact .inl (h ▸ hshort 'b' _ rfl)
  split
  · rename_i h
    exact .inl (h ▸ hshort 'f' _ rfl)
  split
  · rename_i h
    exact .inl ⟨_, rfl, takes_escape_control h⟩
  · rename_i hquote hbackslash _ _ _ _ _ hcontrol
    exact .inr ⟨rfl, hquote, hbackslash, hcontrol⟩

theorem takes_stringBody (cs before rest : List Char) {bound : Nat} (hbound : cs.length < bound) :
    (stringBody before bound).Takes (cs.flatMap Print.stringChar ++ '"' :: rest)
      (String.ofList (before.reverse ++ cs)) rest := by
  -- Every step of the reader takes a whole character, escaped or not, so the induction is over the
  -- characters that are printed and not over their text.
  induction cs generalizing before bound with
  | nil =>
    obtain ⟨bound, rfl⟩ := Nat.exists_eq_add_of_lt hbound
    rw [List.append_nil]
    exact (takes_peek? _).bind ((takes_advance _ _).bind (.pure _ _))
  | cons c cs ih =>
    obtain ⟨bound, rfl⟩ := Nat.exists_eq_add_one_of_ne_zero (Nat.ne_zero_of_lt hbound)
    have hrest := ih (c :: before) (Nat.lt_of_succ_lt_succ hbound)
    rw [List.reverse_cons, List.append_assoc] at hrest
    rw [List.flatMap_cons, List.append_assoc]
    rcases stringChar_cases c with ⟨code, hcode, hescape⟩ | ⟨hc, hquote, hbackslash, hcontrol⟩
    · rw [hcode]
      exact (takes_peek? _).bind ((takes_advance _ _).bind ((hescape _).1.bind hrest))
    · rw [hc]
      refine (takes_peek? _).bind ?_
      simp only [List.cons_append, List.head?_cons, if_neg hcontrol]
      exact (takes_advance _ _).bind hrest

theorem takes_skipStringBody (cs rest : List Char) {bound : Nat} (hbound : cs.length < bound) :
    (skipStringBody bound).Takes (cs.flatMap Print.stringChar ++ '"' :: rest) () rest := by
  induction cs generalizing bound with
  | nil =>
    obtain ⟨bound, rfl⟩ := Nat.exists_eq_add_one_of_ne_zero (Nat.ne_zero_of_lt hbound)
    exact (takes_peek? _).bind (takes_advance _ _)
  | cons c cs ih =>
    obtain ⟨bound, rfl⟩ := Nat.exists_eq_add_one_of_ne_zero (Nat.ne_zero_of_lt hbound)
    have hrest := ih (Nat.lt_of_succ_lt_succ hbound)
    rw [List.flatMap_cons, List.append_assoc]
    rcases stringChar_cases c with ⟨code, hcode, hescape⟩ | ⟨hc, hquote, hbackslash, hcontrol⟩
    · rw [hcode]
      exact (takes_peek? _).bind ((takes_advance _ _).bind ((hescape _).2.bind hrest))
    · rw [hc]
      refine (takes_peek? _).bind ?_
      simp only [List.cons_append, List.head?_cons, if_neg hcontrol]
      exact (takes_advance _ _).bind hrest

theorem length_le_stringChars (cs : List Char) :
    cs.length ≤ (cs.flatMap Print.stringChar).length := by
  induction cs with
  | nil => exact Nat.le_refl 0
  | cons c cs ih =>
    have hc : 0 < (Print.stringChar c).length := by
      rcases stringChar_cases c with ⟨code, hcode, -⟩ | ⟨hc, -⟩
      · simp [hcode]
      · simp [hc]
    rw [List.flatMap_cons, List.length_append, List.length_cons]
    omega

theorem string_append (value : String) (rest : List Char) :
    Print.string value ++ rest = '"' :: (value.toList.flatMap Print.stringChar ++ '"' :: rest) := by
  simp [Print.string]

private theorem length_lt_remaining (cs rest : List Char) :
    cs.length < (cs.flatMap Print.stringChar ++ '"' :: rest).length + 1 := by
  have := length_le_stringChars cs
  rw [List.length_append]
  omega

theorem takes_string (value : String) (rest : List Char) :
    string.Takes (Print.string value ++ rest) value rest := by
  have hbody := takes_stringBody value.toList [] rest (length_lt_remaining _ rest)
  rw [List.reverse_nil, List.nil_append, String.ofList_toList] at hbody
  rw [string_append]
  exact (takes_advance _ _).bind ((takes_remaining _).bind hbody)

theorem takes_skipString (value : String) (rest : List Char) :
    skipString.Takes (Print.string value ++ rest) () rest := by
  rw [string_append]
  exact (takes_advance _ _).bind ((takes_remaining _).bind
    (takes_skipStringBody value.toList rest (length_lt_remaining _ rest)))

end Reader

end NativeBindings.Json
