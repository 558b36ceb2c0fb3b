import NativeBindings.Proofs.Text.Pieces

/-!
# Lines as C# reads them

C# ends a line at more characters than line feeds. A carriage return and a line feed directly behind
it end one line together, and no line follows the last end.
-/

namespace NativeBindings.Text

/-- Carriage return, line feed, next line, line separator and paragraph separator. -/
def isHostLineEnd (c : Char) : Bool :=
  c == '\r' || c == '\n' || c == '\u0085' || c == '\u2028' || c == '\u2029'

/-- The lines of a text in C#, without their ends. -/
def hostLines : List Char → List (List Char)
  | [] => []
  | '\r' :: '\n' :: cs => [] :: hostLines cs
  | c :: cs =>
    if isHostLineEnd c then [] :: hostLines cs
    else
      match hostLines cs with
      | [] => [[c]]
      | line :: rest => (c :: line) :: rest

theorem isBlank_of_isHostLineEnd {c : Char} (h : isHostLineEnd c = true) : isBlank c = true := by
  simp only [isHostLineEnd, Bool.or_eq_true, beq_iff_eq] at h
  rcases h with (((rfl | rfl) | rfl) | rfl) | rfl <;> decide

private theorem hostLines_of_end_append {c : Char} {cs : List Char} (h : isHostLineEnd c = true)
    (hpair : ∀ rest, c = '\r' → cs = '\n' :: rest → False) (hne : c = '\r' → cs ≠ [])
    (more : List Char) : hostLines (c :: (cs ++ more)) = [] :: hostLines (cs ++ more) := by
  rw [hostLines.eq_3, if_pos h]
  intro rest hreturn hfeed
  cases cs with
  | nil => exact hne hreturn rfl
  | cons d cs =>
    cases hfeed
    exact hpair cs hreturn rfl

theorem hostLines_cons {c : Char} (h : isHostLineEnd c = false) (cs : List Char) :
    hostLines (c :: cs) = (c :: (hostLines cs).headD []) :: (hostLines cs).tail := by
  rw [hostLines.eq_3]
  · rw [h]
    cases hostLines cs <;> rfl
  · rintro cs' rfl -
    exact absurd h (by decide)

theorem hostLines_ne_nil {cs : List Char} (h : cs ≠ []) : hostLines cs ≠ [] := by
  fun_cases hostLines cs with
  | case1 => exact absurd rfl h
  | case2 cs => exact List.cons_ne_nil _ _
  | case3 c cs hpair hend => exact List.cons_ne_nil _ _
  | case4 c cs hpair hend heq => exact List.cons_ne_nil _ _
  | case5 c cs hpair hend line rest heq => exact List.cons_ne_nil _ _

theorem hostLines_append {front text : List Char} (h : ∀ c ∈ front, isHostLineEnd c = false)
    (hne : text ≠ []) :
    hostLines (front ++ text) =
      (front ++ (hostLines text).headD []) :: (hostLines text).tail := by
  induction front with
  | nil =>
    cases hlines : hostLines text with
    | nil => exact absurd hlines (hostLines_ne_nil hne)
    | cons line rest => simp [hlines]
  | cons c front ih =>
    obtain ⟨hc, hfront⟩ := List.forall_mem_cons.mp h
    rw [List.cons_append, hostLines_cons hc, ih hfront]
    rfl

/-- Whatever stands before a line feed, what follows it is read on its own. -/
theorem hostLines_feed_append (text rest : List Char) :
    hostLines (text ++ '\n' :: rest) = hostLines (text ++ ['\n']) ++ hostLines rest := by
  induction text using hostLines.induct with
  | case1 => simp [hostLines, isHostLineEnd]
  | case2 cs ih => simp [hostLines, ih]
  | case3 c cs hpair hend ih =>
    -- A carriage return at the end takes the line feed along on both sides.
    by_cases hreturn : c = '\r' ∧ cs = []
    · obtain ⟨rfl, rfl⟩ := hreturn
      rfl
    · have hne : c = '\r' → cs ≠ [] := fun hc hcs => hreturn ⟨hc, hcs⟩
      rw [List.cons_append, List.cons_append, hostLines_of_end_append hend hpair hne,
        hostLines_of_end_append hend hpair hne, ih, List.cons_append]
  | case4 c cs hpair hend _ ih | case5 c cs hpair hend _ _ _ ih =>
    have hopen : isHostLineEnd c = false := by simpa using hend
    have hne : hostLines (cs ++ ['\n']) ≠ [] := hostLines_ne_nil (by simp)
    rw [List.cons_append, List.cons_append, hostLines_cons hopen, hostLines_cons hopen, ih,
      List.tail_append_of_ne_nil hne]
    cases hlines : hostLines (cs ++ ['\n']) with
    | nil => exact absurd hlines hne
    | cons line more => rfl

theorem hostLines_feeds (pieces : List (List Char)) :
    hostLines (pieces.flatMap (· ++ ['\n'])) =
      pieces.flatMap fun piece => hostLines (piece ++ ['\n']) := by
  induction pieces with
  | nil => rfl
  | cons piece rest ih =>
    rw [List.flatMap_cons, List.flatMap_cons, List.append_assoc, List.singleton_append,
      hostLines_feed_append, ih]

section

private theorem getLast?_tail {p : Char → Prop} {c : Char} {text : List Char}
    (h : ∀ d ∈ (c :: text).getLast?, p d) : ∀ d ∈ text.getLast?, p d := by
  cases text with
  | nil => simp
  | cons d text => simpa using h

variable {text : List Char} (h : ∀ c ∈ text.getLast?, isHostLineEnd c = false)

include h

theorem hostLines_concat_feed (hne : text ≠ []) : hostLines (text ++ ['\n']) = hostLines text := by
  induction text using hostLines.induct with
  | case1 => exact absurd rfl hne
  | case2 cs ih =>
    have hrest : cs ≠ [] := by
      rintro rfl
      exact absurd (h '\n' rfl) (by decide)
    simp [hostLines, ih (getLast?_tail (getLast?_tail h)) hrest]
  | case3 c cs hpair hend ih =>
    have hrest : cs ≠ [] := by
      rintro rfl
      exact absurd (h c rfl) (by simp [hend])
    rw [List.cons_append, hostLines_of_end_append hend hpair fun _ => hrest,
      ih (getLast?_tail h) hrest, hostLines.eq_3 _ _ hpair, if_pos hend]
  | case4 c cs hpair hend _ ih | case5 c cs hpair hend _ _ _ ih =>
    have hopen : isHostLineEnd c = false := by simpa using hend
    rw [List.cons_append, hostLines_cons hopen, hostLines_cons hopen]
    by_cases hrest : cs = []
    · rw [hrest]
      rfl
    · rw [ih (getLast?_tail h) hrest]

/-- A text that does not end a line is one line if no character of it ends one. -/
theorem tail_hostLines_eq_nil_iff :
    (hostLines text).tail = [] ↔ ∀ c ∈ text, isHostLineEnd c = false := by
  induction text using hostLines.induct with
  | case1 => simp [hostLines]
  | case2 cs ih =>
    have hrest : cs ≠ [] := by
      rintro rfl
      exact absurd (h '\n' rfl) (by decide)
    simp [hostLines, hostLines_ne_nil hrest, isHostLineEnd]
  | case3 c cs hpair hend ih =>
    have hrest : cs ≠ [] := by
      rintro rfl
      exact absurd (h c rfl) (by simp [hend])
    rw [hostLines.eq_3 _ _ hpair, if_pos hend]
    simp [hostLines_ne_nil hrest, hend]
  | case4 c cs hpair hend _ ih | case5 c cs hpair hend _ _ _ ih =>
    have hopen : isHostLineEnd c = false := by simpa using hend
    rw [hostLines_cons hopen, List.tail_cons, ih (getLast?_tail h), List.forall_mem_cons]
    simp [hopen]

end

end NativeBindings.Text
