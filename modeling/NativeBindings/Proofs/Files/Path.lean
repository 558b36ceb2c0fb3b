import NativeBindings.Build.Bindings
import NativeBindings.Files.Disk
import NativeBindings.Proofs.Text.Characters

/-!
# Places of paths

Without links, a path leads to the same place whatever is on the disk. A document is staged in the
directory of its destination, under the name of the destination and four more characters, so two
destinations share a staging place only if they are one.
-/

namespace NativeBindings

namespace Place

/-- Where one piece of a path leads from a place. -/
def enter (place : Place) (piece : String) : Place :=
  if piece = "" ∨ piece = "." then place
  else if piece = ".." then place.tail
  else piece :: place

/-- Where pieces lead from a place, the last piece first. -/
def reach (origin : Place) : List String → Place
  | [] => origin
  | piece :: before => (reach origin before).enter piece

theorem enter_of_void {piece : String} (h : piece = "" ∨ piece = ".") (place : Place) :
    place.enter piece = place := if_pos h

theorem enter_name {name : String} (h : ¬ (name = "" ∨ name = "." ∨ name = "..")) (place : Place) :
    place.enter name = name :: place := by
  simp only [not_or] at h
  simp [enter, h]

theorem reach_append (origin : Place) (pieces before : List String) :
    reach origin (pieces ++ before) = reach (reach origin before) pieces := by
  induction pieces with
  | nil => rfl
  | cons piece pieces ih => rw [List.cons_append, reach, reach, ih]

theorem reach_fromName (origin : Place) (pieces : List String) :
    reach origin (FilePath.fromName pieces) = reach origin pieces := by
  fun_induction FilePath.fromName pieces with
  | case1 => rfl
  | case2 first => rfl
  | case3 piece before _ hvoid ih => rw [ih, reach, enter_of_void hvoid]
  | case4 piece before _ hname => rfl

theorem reach_filter (origin : Place) (pieces : List String) :
    reach origin (pieces.filter (· ≠ "")) = reach origin pieces := by
  induction pieces with
  | nil => rfl
  | cons piece pieces ih =>
    by_cases hempty : piece = ""
    · rw [List.filter_cons_of_neg (by simpa using hempty), ih, reach, enter_of_void (.inl hempty)]
    · rw [List.filter_cons_of_pos (by simpa using hempty), reach, reach, ih]

end Place

namespace FilePath

/-- Where a path starts; relative paths start at `start`. -/
def origin (path : FilePath) (start : Place) : Place := if path.isAbsolute then [] else start

def place (path : FilePath) (start : Place) : Place :=
  Place.reach (path.origin start) path.pieces.reverse

theorem separator_notMem_of_mem_pieces {path : FilePath} {piece : String}
    (h : piece ∈ path.pieces) : '/' ∉ piece.toList := by
  obtain ⟨chars, hc, rfl⟩ := List.mem_map.mp h
  rw [String.toList_ofList]
  exact Text.notMem_of_mem_splitOn hc

/-- Pieces without separators, written with one separator between any two, are read back. -/
theorem pieces_intercalate {pieces : List String} (hne : pieces ≠ [])
    (h : ∀ piece ∈ pieces, '/' ∉ piece.toList) :
    FilePath.pieces ⟨"/".intercalate pieces⟩ = pieces := by
  have hchars : ("/".intercalate pieces).toList = ['/'].intercalate (pieces.map String.toList) :=
    String.toList_intercalate
  rw [FilePath.pieces, hchars, List.splitOn_intercalate '/' (by simpa using h) (by simpa using hne),
    List.map_map]
  exact List.map_id'' (fun piece => String.ofList_toList) pieces

theorem isAbsolute_iff {path : FilePath} (h : path.text ≠ "") :
    path.isAbsolute = true ↔ path.pieces.head? = some "" := by
  have hne : path.text.toList ≠ [] := by simpa using h
  obtain ⟨c, rest, hchars⟩ := List.exists_cons_of_ne_nil hne
  rw [isAbsolute, pieces, hchars, List.splitOn_cons_eq_if_modifyHead]
  obtain ⟨first, more, hsplit⟩ := List.exists_cons_of_ne_nil (List.splitOn_ne_nil '/' rest)
  by_cases hc : c = '/'
  · simp [hc]
  · simp [hc, hsplit]

theorem place_ofPieces {pieces : List String} (hne : pieces ≠ [])
    (h : ∀ piece ∈ pieces, '/' ∉ piece.toList) (start : Place) :
    (ofPieces pieces).place start =
      Place.reach (if pieces.getLast? = some "" then [] else start) pieces := by
  by_cases hroot : pieces = [""]
  · subst hroot
    rfl
  · have hpath : ofPieces pieces = ⟨"/".intercalate pieces.reverse⟩ := by
      unfold ofPieces
      split
      · exact absurd rfl hroot
      · rfl
    have hpieces : (ofPieces pieces).pieces = pieces.reverse := by
      rw [hpath]
      exact pieces_intercalate (by simpa using hne) (by simpa using h)
    have htext : (ofPieces pieces).text ≠ "" := by
      intro hempty
      have hsingle : (ofPieces pieces).pieces = [""] := by
        rw [FilePath.pieces, hempty]
        rfl
      rw [hpieces, List.reverse_eq_iff] at hsingle
      exact hroot hsingle
    have habsolute := isAbsolute_iff htext
    rw [hpieces, List.head?_reverse] at habsolute
    simp only [place, origin, habsolute, hpieces, List.reverse_reverse]

private theorem pieces_of_toList {path : FilePath} {front back : List Char}
    (h : path.text.toList = front ++ '/' :: back) :
    path.pieces =
      (front.splitOn '/').map String.ofList ++ (back.splitOn '/').map String.ofList := by
  rw [pieces, h, List.splitOn_append_cons_self, List.map_append]

private theorem splitOn_name {name : String} (hs : '/' ∉ name.toList) :
    (name.toList.splitOn '/').map String.ofList = [name] := by
  rw [List.splitOn_eq_singleton hs, List.map_singleton, String.ofList_toList]

private theorem place_of_text {front name : String} (hs : '/' ∉ name.toList) (start : Place) :
    place ⟨front ++ "/" ++ name⟩ start = (place ⟨front ++ "/"⟩ start).enter name := by
  have hseparated : (front ++ "/").toList = front.toList ++ '/' :: [] := by simp
  have hnamed : (front ++ "/" ++ name).toList = front.toList ++ '/' :: name.toList := by simp
  have horigin : origin ⟨front ++ "/" ++ name⟩ start = origin ⟨front ++ "/"⟩ start := by
    rw [origin, origin, isAbsolute, isAbsolute, hseparated, hnamed]
    cases front.toList <;> rfl
  rw [place, place, horigin, pieces_of_toList hnamed, pieces_of_toList hseparated, splitOn_name hs]
  simp [Place.reach, Place.enter_of_void]

/-- A separator at the end leads nowhere else. -/
private theorem place_separator {text : String} (hne : text ≠ "") (start : Place) :
    place ⟨text ++ "/"⟩ start = place ⟨text⟩ start := by
  have hseparated : (text ++ "/").toList = text.toList ++ '/' :: [] := by simp
  have horigin : origin ⟨text ++ "/"⟩ start = origin ⟨text⟩ start := by
    rw [origin, origin, isAbsolute, isAbsolute, hseparated]
    cases hchars : text.toList with
    | nil => exact absurd (by simpa using hchars) hne
    | cons c rest => rfl
  rw [place, place, horigin, pieces_of_toList hseparated]
  simp [Place.reach, Place.enter_of_void, pieces]

theorem place_join (path : FilePath) {name : String} (hs : '/' ∉ name.toList) (start : Place) :
    (path.join name).place start = (path.place start).enter name := by
  obtain ⟨text⟩ := path
  by_cases hempty : text = ""
  · subst hempty
    have habsolute : isAbsolute ⟨name⟩ = false := by
      cases hchars : name.toList with
      | nil => simp [isAbsolute, hchars]
      | cons c rest =>
        have hc : c ≠ '/' := fun h => hs (by simp [hchars, h])
        simp [isAbsolute, hchars, hc]
    have hpieces : pieces ⟨name⟩ = [name] := splitOn_name hs
    have hjoin : join ⟨""⟩ name = ⟨name⟩ := by simp [join]
    have hplace : place ⟨""⟩ start = start := rfl
    rw [hjoin, hplace, place, origin, habsolute, hpieces]
    rfl
  · by_cases hend : endsInSeparator ⟨text⟩ = true
    · obtain ⟨front, hfront⟩ := List.getLast?_eq_some_iff.mp (beq_iff_eq.mp hend)
      have htext : text = String.ofList front ++ "/" := by
        rw [← String.toList_inj, String.toList_append, String.toList_ofList]
        exact hfront
      have hjoin : join ⟨text⟩ name = ⟨text ++ name⟩ := if_pos (.inr hend)
      rw [hjoin, htext]
      exact place_of_text hs start
    · have hjoin : join ⟨text⟩ name = ⟨text ++ "/" ++ name⟩ := if_neg (by simp [hempty, hend])
      rw [hjoin, place_of_text hs, place_separator hempty]

theorem fileName?_eq_some {path : FilePath} {name : String} (h : path.fileName? = some name) :
    ∃ before, fromName path.pieces.reverse = name :: before ∧
      ¬ (name = "" ∨ name = "." ∨ name = "..") := by
  unfold fileName? at h
  split at h
  · cases h
  · rename_i piece before hpieces
    split at h
    · cases h
    · rename_i hname
      cases h
      exact ⟨before, hpieces, hname⟩

theorem fromName_isSuffix (pieces : List String) : fromName pieces <:+ pieces := by
  fun_induction fromName pieces with
  | case1 => exact List.suffix_rfl
  | case2 first => exact List.suffix_rfl
  | case3 piece before _ _ ih => exact ih.trans (List.suffix_cons piece before)
  | case4 piece before _ _ => exact List.suffix_rfl

theorem fromName_ne_nil {pieces : List String} (h : pieces ≠ []) : fromName pieces ≠ [] := by
  fun_induction fromName pieces with
  | case1 => exact h
  | case2 first => exact List.cons_ne_nil _ _
  | case3 piece before hbefore _ ih => exact ih hbefore
  | case4 piece before _ _ => exact List.cons_ne_nil _ _

theorem fromName_of_filter {pieces : List String} {last : String} {front : List String}
    (h : pieces.filter (· ≠ "") = last :: front) (hdot : last ≠ ".") :
    ∃ rest, fromName pieces = last :: rest := by
  fun_induction fromName pieces with
  | case1 => cases h
  | case2 first =>
    by_cases hempty : first = ""
    · simp [hempty] at h
    · simp only [ne_eq, hempty, not_false_eq_true, decide_true, List.filter_cons_of_pos,
        List.cons.injEq] at h
      exact ⟨[], by rw [h.1]⟩
  | case3 piece before hbefore hvoid ih =>
    rcases hvoid with rfl | rfl
    · exact ih (by simpa using h)
    · rw [List.filter_cons_of_pos (by decide)] at h
      exact absurd (List.cons.inj h).1.symm hdot
  | case4 piece before hbefore hname =>
    rw [not_or] at hname
    rw [List.filter_cons_of_pos (by simpa using hname.1)] at h
    exact ⟨before, by rw [(List.cons.inj h).1]⟩

theorem getLast?_fromName (pieces : List String) :
    (fromName pieces).getLast? = pieces.getLast? := by
  fun_induction fromName pieces with
  | case1 => rfl
  | case2 first => rfl
  | case3 piece before hbefore _ ih => rw [ih, List.getLast?_cons_of_ne_nil hbefore]
  | case4 piece before _ _ => rfl

theorem place_eq_of_fromName {path : FilePath} {name : String} {before : List String}
    (h : fromName path.pieces.reverse = name :: before)
    (hname : ¬ (name = "" ∨ name = "." ∨ name = "..")) (start : Place) :
    path.place start = name :: (path.parent?.getD ⟨""⟩).place start := by
  have hplace : path.place start = name :: Place.reach (path.origin start) before := by
    rw [place, ← Place.reach_fromName, h, Place.reach, Place.enter_name hname]
  have htext : path.text ≠ "" := by
    intro hempty
    have hpieces : path.pieces = [""] := by
      rw [pieces, hempty]
      rfl
    rw [hpieces] at h
    exact hname (.inl (List.cons.inj h).1.symm)
  have hfirst : path.pieces.head? = (name :: before).getLast? := by
    rw [← h, getLast?_fromName, List.getLast?_reverse]
  have habsolute := isAbsolute_iff htext
  rw [hfirst] at habsolute
  rw [hplace, parent?, h]
  congr 1
  cases before with
  | nil =>
    have hrelative : path.isAbsolute = false := by
      rw [Bool.eq_false_iff]
      intro habs
      exact hname (.inl (Option.some_inj.mp (habsolute.mp habs)))
    simp only [if_neg fun hempty => hname (.inl hempty), Option.getD_some, origin, hrelative]
    rfl
  | cons piece before =>
    have hlast : (fromName (piece :: before)).getLast? = (name :: piece :: before).getLast? := by
      rw [getLast?_fromName, List.getLast?_cons_cons]
    have hs : ∀ q ∈ fromName (piece :: before), '/' ∉ q.toList := by
      intro q hq
      have hmem : q ∈ name :: piece :: before :=
        List.mem_cons_of_mem name ((fromName_isSuffix _).subset hq)
      rw [← h] at hmem
      exact separator_notMem_of_mem_pieces
        (List.mem_reverse.mp ((fromName_isSuffix _).subset hmem))
    rw [Option.getD_some, place_ofPieces (fromName_ne_nil (List.cons_ne_nil _ _)) hs, hlast,
      Place.reach_fromName, origin]
    simp only [habsolute]

private theorem separator_notMem_stageName {name : String} (hs : '/' ∉ name.toList) :
    '/' ∉ (name ++ ".tmp").toList := by
  rw [String.toList_append, List.mem_append, not_or]
  exact ⟨hs, by decide⟩

theorem place_stage_of_name {path : FilePath} {name : String} (h : path.fileName? = some name)
    (start : Place) : ∃ parent : Place,
      path.place start = name :: parent ∧ path.stage.place start = (name ++ ".tmp") :: parent := by
  obtain ⟨before, hpieces, hname⟩ := fileName?_eq_some h
  refine ⟨_, place_eq_of_fromName hpieces hname start, ?_⟩
  have hmem : name ∈ path.pieces := by
    apply List.mem_reverse.mp
    apply (fromName_isSuffix path.pieces.reverse).subset
    rw [hpieces]
    exact List.mem_cons_self
  have hstage : path.stage = (path.parent?.getD ⟨""⟩).join (name ++ ".tmp") := by
    simp only [stage, withFileName, h, Option.getD_some]
  rw [hstage, place_join _ (separator_notMem_stageName (separator_notMem_of_mem_pieces hmem)),
    Place.enter_name]
  rintro (hs | hs | hs) <;> simpa using congrArg (List.length ∘ String.toList) hs

theorem place_stage_of_noName {path : FilePath} (h : path.fileName? = none) (start : Place) :
    path.stage.place start = ".tmp" :: path.place start := by
  have hstage : path.stage = path.join ".tmp" := by
    simp only [stage, withFileName, h, Option.getD_none, String.empty_append]
  rw [hstage, place_join _ (by decide), Place.enter_name (by decide)]

theorem place_stage_ne (path : FilePath) (start : Place) :
    path.stage.place start ≠ path.place start := by
  intro heq
  cases hname : path.fileName? with
  | none =>
    rw [place_stage_of_noName hname] at heq
    simpa using congrArg List.length heq
  | some name =>
    obtain ⟨parent, hplace, hstage⟩ := place_stage_of_name hname start
    rw [hplace, hstage] at heq
    simpa using congrArg String.length (List.cons.inj heq).1

/-- Documents with different destinations are staged apart. -/
theorem place_stage_inj {path other : FilePath} {name name' : String}
    (hname : path.fileName? = some name) (hname' : other.fileName? = some name') {start : Place} :
    path.stage.place start = other.stage.place start ↔ path.place start = other.place start := by
  obtain ⟨parent, hplace, hstage⟩ := place_stage_of_name hname start
  obtain ⟨parent', hplace', hstage'⟩ := place_stage_of_name hname' start
  rw [hplace, hstage, hplace', hstage', List.cons.injEq, List.cons.injEq, String.append_left_inj]

end FilePath

end NativeBindings
