import NativeBindings.Text.Pieces
import Mathlib.Data.List.Infix
import Mathlib.Data.List.TakeWhile

/-!
# Pieces of a text

Trimming cuts blanks off the ends of a text and nothing else. What is left is a piece of the text
that has all characters of it but blanks. A text that is put together from lines is read as these
lines again, each without a carriage return at its end. Neither that nor indentation shows in a
trimmed line.
-/

namespace NativeBindings.Text

theorem trimStart_isSuffix (cs : List Char) : trimStart cs <:+ cs := List.dropWhile_suffix isBlank

theorem trimEnd_isPrefix (cs : List Char) : trimEnd cs <+: cs := by
  have h := List.reverse_prefix.mpr (trimStart_isSuffix cs.reverse)
  rwa [List.reverse_reverse] at h

theorem trim_isInfix (cs : List Char) : trim cs <:+: cs :=
  (trimEnd_isPrefix _).isInfix.trans (trimStart_isSuffix cs).isInfix

theorem exists_eq_append_trimStart (cs : List Char) :
    ∃ blanks, (∀ c ∈ blanks, isBlank c = true) ∧ cs = blanks ++ trimStart cs :=
  ⟨cs.takeWhile isBlank, fun _ hc => List.mem_takeWhile_imp hc,
    (List.takeWhile_append_dropWhile).symm⟩

theorem exists_eq_trimEnd_append (cs : List Char) :
    ∃ blanks, (∀ c ∈ blanks, isBlank c = true) ∧ cs = trimEnd cs ++ blanks := by
  obtain ⟨blanks, hb, hcs⟩ := exists_eq_append_trimStart cs.reverse
  refine ⟨blanks.reverse, fun c hc => hb c (List.mem_reverse.mp hc), ?_⟩
  rw [trimEnd, ← List.reverse_append, ← hcs, List.reverse_reverse]

theorem isBlank_getLast_trimEnd {cs : List Char} :
    ∀ c ∈ (trimEnd cs).getLast?, isBlank c = false := by
  intro c hc
  rw [trimEnd, List.getLast?_reverse] at hc
  have hhead := List.head?_dropWhile_not isBlank cs.reverse
  rw [← trimStart, Option.mem_def.mp hc] at hhead
  exact hhead

theorem trimStart_append {blanks : List Char} (hb : ∀ c ∈ blanks, isBlank c = true)
    (cs : List Char) : trimStart (blanks ++ cs) = trimStart cs :=
  List.dropWhile_append_of_pos hb

theorem trimStart_eq_self {cs : List Char} (h : ∀ c ∈ cs.head?, isBlank c = false) :
    trimStart cs = cs := by
  cases cs with
  | nil => rfl
  | cons c cs => exact List.dropWhile_cons_of_neg (by simp [h c rfl])

theorem trim_append_left {blanks : List Char} (hb : ∀ c ∈ blanks, isBlank c = true)
    (cs : List Char) : trim (blanks ++ cs) = trim cs := by
  rw [trim, trim, trimStart_append hb]

theorem trim_append_right {blanks : List Char} (hb : ∀ c ∈ blanks, isBlank c = true)
    (cs : List Char) : trim (cs ++ blanks) = trim cs := by
  have hend : ∀ front, trimEnd (front ++ blanks) = trimEnd front := by
    intro front
    have hr : ∀ c ∈ blanks.reverse, isBlank c = true := fun c hc => hb c (List.mem_reverse.mp hc)
    rw [trimEnd, trimEnd, List.reverse_append, trimStart_append hr]
  have hstart : trimStart (cs ++ blanks) =
      if (trimStart cs).isEmpty then trimStart blanks else trimStart cs ++ blanks :=
    List.dropWhile_append
  by_cases hempty : (trimStart cs).isEmpty = true
  · have hall : trimStart blanks = [] := by
      have h := trimStart_append hb []
      rwa [List.append_nil] at h
    rw [if_pos hempty, hall] at hstart
    rw [trim, trim, hstart, List.isEmpty_iff.mp hempty]
  · rw [if_neg hempty] at hstart
    rw [trim, trim, hstart, hend]

theorem trim_trimStart (cs : List Char) : trim (trimStart cs) = trim cs := by
  obtain ⟨blanks, hb, hcs⟩ := exists_eq_append_trimStart cs
  calc trim (trimStart cs) = trim (blanks ++ trimStart cs) := (trim_append_left hb _).symm
    _ = trim cs := by rw [← hcs]

theorem trim_concat {c : Char} (hc : isBlank c = false) (cs : List Char) :
    trim (cs ++ [c]) = trimStart cs ++ [c] := by
  have hone : trimStart [c] = [c] := trimStart_eq_self (by simpa using hc)
  have hsplit : trimStart (cs ++ [c]) =
      if (trimStart cs).isEmpty then trimStart [c] else trimStart cs ++ [c] :=
    List.dropWhile_append
  have hstart : trimStart (cs ++ [c]) = trimStart cs ++ [c] := by
    rw [hsplit]
    split
    · rename_i hempty
      rw [hone, List.isEmpty_iff.mp hempty, List.nil_append]
    · rfl
  have hend : trimStart (trimStart cs ++ [c]).reverse = (trimStart cs ++ [c]).reverse :=
    trimStart_eq_self (by simpa using hc)
  rw [trim, hstart, trimEnd, hend, List.reverse_reverse]

theorem isPrefix_trim {word : List Char} (hw : ∀ c ∈ word, isBlank c = false) (rest : List Char) :
    word <+: trim (word ++ rest) := by
  cases word with
  | nil => exact List.nil_prefix
  | cons c word =>
    have hstart : trimStart (c :: word ++ rest) = c :: word ++ rest :=
      trimStart_eq_self fun d hd => by
        cases hd
        exact hw c List.mem_cons_self
    obtain ⟨blanks, hb, happend⟩ := exists_eq_trimEnd_append (c :: word ++ rest)
    rw [trim, hstart]
    rcases List.append_eq_append_iff.mp happend with ⟨front, hfront, -⟩ | ⟨extra, hword, hextra⟩
    · rw [hfront]
      exact List.prefix_append (c :: word) front
    · cases extra with
      | nil =>
        rw [List.append_nil] at hword
        rw [← hword]
      | cons d extra =>
        have hblank := hb d (by rw [hextra]; exact List.mem_cons_self)
        have hmem : d ∈ c :: word := by
          rw [hword]
          exact List.mem_append_right _ List.mem_cons_self
        rw [hw d hmem] at hblank
        cases hblank

theorem trim_eq_self {cs : List Char} (hf : ∀ c ∈ cs.head?, isBlank c = false)
    (hl : ∀ c ∈ cs.getLast?, isBlank c = false) : trim cs = cs := by
  have hend : trimStart cs.reverse = cs.reverse := trimStart_eq_self (by rwa [List.head?_reverse])
  rw [trim, trimStart_eq_self hf, trimEnd, hend, List.reverse_reverse]

theorem isBlank_star : isBlank '*' = false := by decide

private theorem count_eq_zero_of_blank {c : Char} (hc : isBlank c = false) {blanks : List Char}
    (hb : ∀ c ∈ blanks, isBlank c = true) : blanks.count c = 0 := by
  apply List.count_eq_zero.mpr
  intro hm
  simp [hb c hm] at hc

theorem count_trimStart {c : Char} (hc : isBlank c = false) (cs : List Char) :
    (trimStart cs).count c = cs.count c := by
  obtain ⟨blanks, hb, hcs⟩ := exists_eq_append_trimStart cs
  have h := congrArg (List.count c) hcs
  rw [List.count_append, count_eq_zero_of_blank hc hb, Nat.zero_add] at h
  exact h.symm

theorem count_trimEnd {c : Char} (hc : isBlank c = false) (cs : List Char) :
    (trimEnd cs).count c = cs.count c := by
  rw [trimEnd, List.count_reverse, count_trimStart hc, List.count_reverse]

theorem count_trim {c : Char} (hc : isBlank c = false) (cs : List Char) :
    (trim cs).count c = cs.count c := by
  rw [trim, count_trimEnd hc, count_trimStart hc]

/-- A line as it is read: a carriage return at its end goes with the line feed. -/
def withoutReturn (line : List Char) : List Char := (withoutLast? '\r' line).getD line

theorem withoutReturn_of_getLast? {line : List Char} (h : line.getLast? ≠ some '\r') :
    withoutReturn line = line := by
  cases hlast : withoutLast? '\r' line with
  | none => rw [withoutReturn, hlast, Option.getD_none]
  | some front =>
    rw [eq_append_of_withoutLast? hlast] at h
    exact absurd List.getLast?_concat h

theorem withoutReturn_concat (line : List Char) : withoutReturn (line ++ ['\r']) = line := by
  rw [withoutReturn, withoutLast?_append, Option.getD_some]

theorem withoutReturn_isPrefix (line : List Char) : withoutReturn line <+: line := by
  by_cases h : line.getLast? = some '\r'
  · obtain ⟨front, rfl⟩ := List.getLast?_eq_some_iff.mp h
    rw [withoutReturn_concat]
    exact List.prefix_append front _
  · rw [withoutReturn_of_getLast? h]

private theorem withoutReturn_cons {c : Char} {line : List Char} (h : c = '\r' → line ≠ []) :
    withoutReturn (c :: line) = c :: withoutReturn line := by
  by_cases hlast : line.getLast? = some '\r'
  · obtain ⟨front, rfl⟩ := List.getLast?_eq_some_iff.mp hlast
    rw [withoutReturn_concat, ← List.cons_append, withoutReturn_concat]
  · rw [withoutReturn_of_getLast? hlast, withoutReturn_of_getLast?]
    cases line with
    | nil => simpa using fun hc => h hc rfl
    | cons d line => simpa using hlast

theorem lines_line {line : List Char} (h : '\n' ∉ line) (rest : List Char) :
    lines (line ++ '\n' :: rest) = withoutReturn line :: lines rest := by
  induction line with
  | nil => rfl
  | cons c line ih =>
    have hc : c ≠ '\n' := fun heq => h (heq ▸ List.mem_cons_self)
    have hrest : '\n' ∉ line := fun hm => h (List.mem_cons_of_mem c hm)
    by_cases hreturn : c = '\r' ∧ line = []
    · obtain ⟨rfl, rfl⟩ := hreturn
      rfl
    · have hnext : c = '\r' → line ≠ [] := fun hr hl => hreturn ⟨hr, hl⟩
      rw [withoutReturn_cons hnext, List.cons_append, lines.eq_4, ih hrest]
      · exact hc
      · intro cs hr happend
        cases line with
        | nil => exact hnext hr rfl
        | cons d line =>
          cases happend
          exact hrest List.mem_cons_self

theorem lines_last {line : List Char} (h : '\n' ∉ line) (hne : line ≠ []) :
    lines line = [line] := by
  induction line with
  | nil => exact absurd rfl hne
  | cons c line ih =>
    have hc : c ≠ '\n' := fun heq => h (heq ▸ List.mem_cons_self)
    have hrest : '\n' ∉ line := fun hm => h (List.mem_cons_of_mem c hm)
    rw [lines.eq_4]
    · cases line with
      | nil => rfl
      | cons d line => rw [ih hrest (List.cons_ne_nil d line)]
    · exact hc
    · intro cs _ heq
      rw [heq] at hrest
      exact hrest List.mem_cons_self

theorem lines_flatMap {written : List (List Char)} (h : ∀ line ∈ written, '\n' ∉ line)
    (rest : List Char) :
    lines (written.flatMap (· ++ ['\n']) ++ rest) = written.map withoutReturn ++ lines rest := by
  induction written with
  | nil => rfl
  | cons line written ih =>
    have hline := h line List.mem_cons_self
    have hrest := ih fun other hm => h other (List.mem_cons_of_mem line hm)
    rw [List.flatMap_cons, List.append_assoc, List.append_assoc, List.singleton_append,
      lines_line hline, hrest, List.map_cons, List.cons_append]

/-- Whatever stands before a line feed, what follows it is read on its own. -/
theorem lines_feed_append (text rest : List Char) :
    lines (text ++ '\n' :: rest) = lines (text ++ ['\n']) ++ lines rest := by
  by_cases h : '\n' ∈ text
  · obtain ⟨first, more, hsplit, hfirst⟩ := List.eq_append_cons_of_mem h
    have ih := lines_feed_append more rest
    simp only [hsplit, List.append_assoc, List.cons_append]
    rw [lines_line hfirst, lines_line hfirst, ih, List.cons_append]
  · rw [lines_line h, lines_line h]
    rfl
termination_by text.length
decreasing_by
  rw [hsplit, List.length_append, List.length_cons]
  omega

theorem lines_feeds (pieces : List (List Char)) :
    lines (pieces.flatMap (· ++ ['\n'])) = pieces.flatMap fun piece => lines (piece ++ ['\n']) := by
  induction pieces with
  | nil => rfl
  | cons piece rest ih =>
    rw [List.flatMap_cons, List.flatMap_cons, List.append_assoc, List.singleton_append,
      lines_feed_append, ih]

theorem splitOn_feeds (pieces : List (List Char)) :
    (pieces.flatMap (· ++ ['\n'])).splitOn '\n' = pieces.flatMap (·.splitOn '\n') ++ [[]] := by
  induction pieces with
  | nil => rfl
  | cons piece rest ih =>
    rw [List.flatMap_cons, List.flatMap_cons, List.append_assoc, List.append_assoc,
      List.singleton_append, List.splitOn_append_cons_self, ih]

theorem notMem_of_mem_lines {cs line : List Char} (h : line ∈ lines cs) : '\n' ∉ line := by
  fun_induction lines cs generalizing line with
  | case1 => exact absurd h List.not_mem_nil
  | case2 cs ih =>
    rcases List.mem_cons.mp h with rfl | h
    · exact List.not_mem_nil
    · exact ih h
  | case3 cs ih =>
    rcases List.mem_cons.mp h with rfl | h
    · exact List.not_mem_nil
    · exact ih h
  | case4 c cs hc _ _ _ =>
    rw [List.mem_singleton.mp h, List.mem_singleton]
    exact fun heq => hc heq.symm
  | case5 c cs hc _ first rest heq ih =>
    rw [heq] at ih
    rcases List.mem_cons.mp h with rfl | h
    · rw [List.mem_cons, not_or]
      exact ⟨fun heq => hc heq.symm, ih List.mem_cons_self⟩
    · exact ih (List.mem_cons_of_mem first h)

@[simp] theorem trim_withoutReturn (line : List Char) : trim (withoutReturn line) = trim line := by
  by_cases h : line.getLast? = some '\r'
  · obtain ⟨front, rfl⟩ := List.getLast?_eq_some_iff.mp h
    have hreturn : isBlank '\r' = true := by decide
    rw [withoutReturn_concat, trim_append_right (List.forall_mem_singleton.mpr hreturn)]
  · rw [withoutReturn_of_getLast? h]

end NativeBindings.Text
