import NativeBindings.Json.Record

/-!
# What readers take off

A reader takes a value off a text if it returns the value and leaves the rest, from whatever place
the text starts at. Larger readers take off what their parts take off one after the other.
-/

namespace NativeBindings.Json

/-- The reader returns a value and leaves the rest of the text. -/
def Reader.Takes {α : Type} (reader : Reader α) (text : List Char) (value : α)
    (rest : List Char) : Prop :=
  ∀ position, ∃ position', reader ⟨text, position⟩ = .ok (value, ⟨rest, position'⟩)

/-- What may follow a value: another element or member, a closing bracket, or nothing. -/
def EndsValue (rest : List Char) : Prop := ∀ c ∈ rest.head?, c = ',' ∨ c = ']' ∨ c = '}'

namespace Reader

variable {α β : Type} {reader : Reader α} {text middle rest : List Char} {value : α}

namespace Takes

theorem pure (value : α) (rest : List Char) : Takes (pure value) rest value rest :=
  fun position => ⟨position, rfl⟩

theorem bind {next : α → Reader β} {result : β} (h : reader.Takes text value middle)
    (hnext : (next value).Takes middle result rest) :
    (reader >>= next).Takes text result rest := by
  intro position
  obtain ⟨between, hreader⟩ := h position
  obtain ⟨last, hlast⟩ := hnext between
  refine ⟨last, ?_⟩
  change (reader ⟨text, position⟩ >>= fun taken => next taken.1 taken.2) = _
  rw [hreader]
  exact hlast

theorem map {f : α → β} (h : reader.Takes text value rest) :
    (f <$> reader).Takes text (f value) rest := by
  rw [map_eq_pure_bind]
  exact h.bind (.pure _ _)

end Takes

theorem takes_peek? (text : List Char) : peek?.Takes text text.head? text :=
  fun position => ⟨position, rfl⟩

theorem takes_advance (c : Char) (rest : List Char) : advance.Takes (c :: rest) () rest :=
  fun position => ⟨position.after c, rfl⟩

theorem takes_remaining (text : List Char) : remaining.Takes text text.length text :=
  fun position => ⟨position, rfl⟩

theorem takes_peekToken? {c : Char} (hc : isJsonBlank c = false) (rest : List Char) :
    peekToken?.Takes (c :: rest) (some c) (c :: rest) := by
  intro position
  refine ⟨position, ?_⟩
  rw [peekToken?, Cursor.pastBlanks, hc]
  rfl

theorem takes_word (letters rest : List Char) : (word letters).Takes (letters ++ rest) () rest := by
  induction letters with
  | nil => exact .pure _ _
  | cons letter letters ih =>
    refine (takes_peek? _).bind ?_
    -- The character ahead is the first letter that is asked for.
    change (if letter = letter then _ else _ : Reader Unit).Takes _ _ _
    rw [if_pos rfl]
    exact (takes_advance _ _).bind ih

theorem takes_colon (rest : List Char) : colon.Takes (':' :: rest) () rest :=
  (takes_peekToken? (by decide) _).bind (takes_advance _ _)

theorem takes_valueFrom {expected : String} {starts : Char → Option (Reader α)} {c : Char}
    (hc : isJsonBlank c = false) (hstarts : starts c = some reader)
    (h : reader.Takes (c :: text) value rest) :
    (valueFrom expected starts).Takes (c :: text) value rest := by
  refine (takes_peekToken? hc _).bind ?_
  simp only [hstarts]
  exact h

def whole (reader : Reader α) : Reader α := do
  let value ← reader
  match ← peekToken? with
  | none => Pure.pure value
  | some _ => faultAhead .trailingCharacters

theorem run_ofList (reader : Reader α) (text : List Char) :
    reader.run (String.ofList text) = (reader.whole ⟨text, .start⟩).map (·.1) := by
  change (reader.whole ⟨(String.ofList text).toList, .start⟩).map (·.1) = _
  rw [String.toList_ofList]

theorem run_of_takes (h : reader.Takes text value []) :
    reader.run (String.ofList text) = .ok value := by
  have hend : peekToken?.Takes [] none [] := fun position => ⟨position, rfl⟩
  have hwhole : reader.whole.Takes text value [] := h.bind (hend.bind (.pure _ _))
  obtain ⟨position, heq⟩ := hwhole .start
  rw [run_ofList, heq]
  rfl

end Reader

end NativeBindings.Json
