import NativeBindings.Proofs.Files.Path
import NativeBindings.Proofs.Tables
import Mathlib.Logic.Basic

/-!
# Places on a disk

An operation on a path that leads to a file, or to a name that a file can have, concerns one place
of the disk. Where a path leads does not change as long as no directory disappears.
-/

namespace NativeBindings

namespace Disk

theorem lookup?_clear (disk : Disk) {place : Place} (h : place ≠ []) (other : Place) :
    (disk.clear place).lookup? other = if other = place then none else disk.lookup? other := by
  cases other with
  | nil => rw [if_neg h.symm, lookup?, lookup?]
  | cons name up =>
    simp only [lookup?, clear]
    by_cases ho : name :: up = place
    · rw [if_pos ho, ho, List.lookup_eq_none_iff]
      intro entry hentry
      rw [bne_comm]
      exact (List.mem_filter.mp hentry).2
    · rw [if_neg ho]
      exact lookup_filter_of_forall fun _ => bne_iff_ne.mpr ho

theorem lookup?_put (disk : Disk) {place : Place} (h : place ≠ []) (entry : DiskEntry)
    (other : Place) :
    (disk.put place entry).lookup? other =
      if other = place then some entry else disk.lookup? other := by
  cases other with
  | nil => rw [if_neg h.symm, lookup?, lookup?]
  | cons name up =>
    have hcleared := lookup?_clear disk h (name :: up)
    simp only [lookup?] at hcleared
    simp only [lookup?, put, List.lookup_cons]
    by_cases ho : name :: up = place
    · rw [beq_iff_eq.mpr ho, if_pos ho]
    · rw [beq_eq_false_iff_ne.mpr ho, if_neg ho]
      rwa [if_neg ho] at hcleared

def place (disk : Disk) (path : FilePath) : Place := path.place disk.workingDirectory

def file? (disk : Disk) (place : Place) : Option ByteArray :=
  match disk.lookup? place with
  | some (.file content) => some content
  | _ => none

theorem file?_eq_some_iff {disk : Disk} {place : Place} {content : ByteArray} :
    disk.file? place = some content ↔ disk.lookup? place = some (.file content) := by
  unfold file?
  split
  · rename_i found h
    rw [h]
    simp
  · rename_i h
    constructor
    · intro hnone
      cases hnone
    · exact fun hfile => absurd hfile (h content)

theorem file?_of_lookup?_eq {disk other : Disk} {place : Place}
    (h : disk.lookup? place = other.lookup? place) : disk.file? place = other.file? place := by
  rw [file?, file?, h]

theorem reach_of_follow {disk : Disk} {start place : Place} {steps : List String}
    (hs : "" ∉ steps) (h : disk.follow start steps = .ok place) :
    Place.reach start steps.reverse = place := by
  fun_induction disk.follow start steps with
  | case1 start =>
    cases h
    rfl
  | case2 start steps ih =>
    rw [List.reverse_cons, Place.reach_append]
    exact ih (fun hm => hs (List.mem_cons_of_mem _ hm)) h
  | case3 start steps ih =>
    rw [List.reverse_cons, Place.reach_append]
    exact ih (fun hm => hs (List.mem_cons_of_mem _ hm)) h
  | case4 => cases h
  | case5 => cases h
  | case6 => cases h
  | case7 start name steps hdot hdots _ _ ih =>
    have hname : ¬ (name = "" ∨ name = "." ∨ name = "..") := by
      rintro (rfl | rfl | rfl)
      · exact hs List.mem_cons_self
      · exact hdot rfl
      · exact hdots rfl
    rw [List.reverse_cons, Place.reach_append, Place.reach, Place.reach, Place.enter_name hname]
    exact ih (fun hm => hs (List.mem_cons_of_mem _ hm)) h

def Target.place : Target → Place
  | .directory place => place
  | .named parent name _ => name :: parent

/-- Where the last step of a path leads from the directory before it. -/
def Target.ofLast (parent : Place) (last : String) (slash : Bool) : Except FileFault Target :=
  if last = "." then .ok (.directory parent)
  else if last = ".." then .ok (.directory parent.tail)
  else if nameLimit < last.utf8ByteSize then .error .nameTooLong
  else .ok (.named parent last slash)

theorem Target.place_ofLast {parent : Place} {last : String} {slash : Bool} {found : Target}
    (hne : last ≠ "") (h : ofLast parent last slash = .ok found) :
    found.place = parent.enter last := by
  unfold ofLast at h
  split at h
  · rename_i hdot
    cases h
    rw [hdot, Place.enter_of_void (.inr rfl), place]
  · rename_i hdot
    split at h
    · rename_i hdots
      cases h
      rw [hdots]
      rfl
    · rename_i hdots
      split at h
      · cases h
      · cases h
        rw [Place.enter_name (by simp [hne, hdot, hdots]), place]

theorem Target.name_of_ofLast {parent before : Place} {last name : String} {slash slash' : Bool}
    (h : ofLast before last slash = .ok (.named parent name slash')) :
    last ≠ "." ∧ last ≠ ".." := by
  unfold ofLast at h
  split at h
  · cases h
  · rename_i hdot
    split at h
    · cases h
    · rename_i hdots
      exact ⟨hdot, hdots⟩

/-- A path that can lead somewhere. -/
structure IsUsable (path : FilePath) : Prop where
  noNul : ¬ path.text.toList.contains '\x00' = true
  fits : ¬ pathLimit < path.text.utf8ByteSize
  ne_empty : path.text ≠ ""

theorem target_eq_ok_iff {disk : Disk} {path : FilePath} {found : Target} :
    disk.target path = .ok found ↔ IsUsable path ∧
      ((path.pieces.filter (· ≠ "") = [] ∧
          found = .directory (path.origin disk.workingDirectory)) ∨
        ∃ front last parent, path.pieces.filter (· ≠ "") = front ++ [last] ∧
          disk.follow (path.origin disk.workingDirectory) front = .ok parent ∧
          Target.ofLast parent last path.endsInSeparator = .ok found) := by
  constructor
  · intro h
    unfold target at h
    split at h
    · cases h
    · rename_i hnul
      split at h
      · cases h
      · rename_i hlength
        split at h
        · cases h
        · rename_i htext
          refine ⟨⟨hnul, hlength, htext⟩, ?_⟩
          dsimp only at h
          split at h
          · rename_i hnone
            cases h
            exact .inl ⟨List.getLast?_eq_none_iff.mp hnone, rfl⟩
          · rename_i last hlast
            obtain ⟨front, hfront⟩ := List.getLast?_eq_some_iff.mp hlast
            rw [hfront, List.dropLast_concat] at h
            split at h
            · cases h
            · rename_i parent hparent
              exact .inr ⟨front, last, parent, hfront, hparent, h⟩
  · rintro ⟨⟨hnul, hlength, htext⟩, h⟩
    unfold target
    rw [if_neg hnul, if_neg hlength, if_neg htext]
    dsimp only
    rcases h with ⟨hsteps, rfl⟩ | ⟨front, last, parent, hsteps, hparent, hlast⟩
    · rw [hsteps]
      rfl
    · have hfollow : disk.follow (if path.isAbsolute then [] else disk.workingDirectory) front =
          .ok parent := hparent
      rw [hsteps, List.getLast?_concat, List.dropLast_concat, hfollow]
      exact hlast

theorem place_of_target {disk : Disk} {path : FilePath} {found : Target}
    (h : disk.target path = .ok found) : found.place = disk.place path := by
  have hplace : disk.place path = Place.reach (path.origin disk.workingDirectory)
      (path.pieces.filter (· ≠ "")).reverse := by
    rw [place, FilePath.place, ← List.filter_reverse, Place.reach_filter]
  have hsteps : "" ∉ path.pieces.filter (· ≠ "") := by simp
  rw [hplace]
  rcases (target_eq_ok_iff.mp h).2 with ⟨hnone, rfl⟩ | ⟨front, last, parent, hfront, hparent, hlast⟩
  · rw [hnone]
    rfl
  · rw [hfront] at hsteps
    have hlast_ne : last ≠ "" := by
      rintro rfl
      exact hsteps (by simp)
    rw [hfront, List.reverse_concat, Place.reach,
      reach_of_follow (fun hm => hsteps (List.mem_append_left _ hm)) hparent,
      Target.place_ofLast hlast_ne hlast]

/-- Every directory is still there, and paths start from the same one. -/
structure KeepsDirectories (before after : Disk) : Prop where
  workingDirectory : after.workingDirectory = before.workingDirectory
  directory : ∀ place, before.lookup? place = some .directory →
    after.lookup? place = some .directory

namespace KeepsDirectories

variable {before between after : Disk}

theorem trans (h : KeepsDirectories before between) (h' : KeepsDirectories between after) :
    KeepsDirectories before after where
  workingDirectory := h'.workingDirectory.trans h.workingDirectory
  directory place hp := h'.directory place (h.directory place hp)

theorem place_eq (h : KeepsDirectories before after) (path : FilePath) :
    after.place path = before.place path := by
  rw [place, place, h.workingDirectory]

theorem follow_eq_ok (h : KeepsDirectories before after) {start place : Place} {steps : List String}
    (hf : before.follow start steps = .ok place) : after.follow start steps = .ok place := by
  fun_induction before.follow start steps with
  | case1 start => exact hf
  | case2 start steps ih => exact ih hf
  | case3 start steps ih => exact ih hf
  | case4 => cases hf
  | case5 => cases hf
  | case6 => cases hf
  | case7 start name steps hdot hdots hlength hentry ih =>
    rw [follow.eq_4 _ _ _ _ hdot hdots, if_neg hlength, h.directory _ hentry]
    exact ih hf

theorem target_eq_ok (h : KeepsDirectories before after) {path : FilePath} {found : Target}
    (ht : before.target path = .ok found) : after.target path = .ok found := by
  rw [target_eq_ok_iff] at ht ⊢
  rw [h.workingDirectory]
  refine ⟨ht.1, ht.2.imp_right ?_⟩
  rintro ⟨front, last, parent, hfront, hparent, hlast⟩
  exact ⟨front, last, parent, hfront, h.follow_eq_ok hparent, hlast⟩

theorem put_file {disk : Disk} {place : Place} (hne : place ≠ [])
    (hfree : disk.lookup? place ≠ some .directory) (content : ByteArray) :
    KeepsDirectories disk (disk.put place (.file content)) where
  workingDirectory := rfl
  directory other ho := by
    rw [lookup?_put disk hne, if_neg]
    · exact ho
    · rintro rfl
      exact hfree ho

end KeepsDirectories

/-- What is at a place is the same, or nothing was there and a directory is now. -/
def OnlyMade (before after : Disk) (place : Place) : Prop :=
  after.lookup? place = before.lookup? place ∨
    before.lookup? place = none ∧ after.lookup? place = some .directory

namespace OnlyMade

variable {before after : Disk} {place : Place}

theorem lookup?_eq_some (h : OnlyMade before after place) {entry : DiskEntry}
    (he : before.lookup? place = some entry) : after.lookup? place = some entry := by
  rcases h with heq | ⟨hnone, -⟩
  · rw [heq, he]
  · rw [he] at hnone
    cases hnone

theorem file?_eq (h : OnlyMade before after place) : after.file? place = before.file? place := by
  rcases h with heq | ⟨hnone, hdir⟩
  · exact file?_of_lookup?_eq heq
  · rw [file?, file?, hnone, hdir]

theorem trans {between : Disk} (h : OnlyMade before between place)
    (h' : OnlyMade between after place) : OnlyMade before after place := by
  rcases h with heq | ⟨hnone, hdir⟩
  · rw [OnlyMade, ← heq]
    exact h'
  · exact .inr ⟨hnone, h'.lookup?_eq_some hdir⟩

end OnlyMade

/-- Nothing is different but that there are more directories. -/
structure AddsDirectories (before after : Disk) : Prop where
  workingDirectory : after.workingDirectory = before.workingDirectory
  entry : ∀ place, OnlyMade before after place

namespace AddsDirectories

variable {before between after : Disk}

theorem refl (disk : Disk) : AddsDirectories disk disk := ⟨rfl, fun _ => .inl rfl⟩

theorem keepsDirectories (h : AddsDirectories before after) : KeepsDirectories before after :=
  ⟨h.workingDirectory, fun place hp => (h.entry place).lookup?_eq_some hp⟩

theorem trans (h : AddsDirectories before between) (h' : AddsDirectories between after) :
    AddsDirectories before after where
  workingDirectory := h'.workingDirectory.trans h.workingDirectory
  entry place := (h.entry place).trans (h'.entry place)

end AddsDirectories

/-- The path leads to a name that it does not take for a directory. -/
def IsNamed (disk : Disk) (path : FilePath) : Prop :=
  ∃ parent name, disk.target path = .ok (.named parent name false)

theorem place_of_named {disk : Disk} {path : FilePath} {parent : Place} {name : String}
    {slash : Bool} (h : disk.target path = .ok (.named parent name slash)) :
    disk.place path = name :: parent :=
  (place_of_target h).symm

namespace IsNamed

variable {disk : Disk} {path : FilePath}

theorem place_ne_nil (h : disk.IsNamed path) : disk.place path ≠ [] := by
  obtain ⟨parent, name, ht⟩ := h
  rw [place_of_named ht]
  exact List.cons_ne_nil _ _

theorem of_keepsDirectories {after : Disk} (h : disk.IsNamed path)
    (hkeeps : KeepsDirectories disk after) : after.IsNamed path := by
  obtain ⟨parent, name, ht⟩ := h
  exact ⟨parent, name, hkeeps.target_eq_ok ht⟩

theorem exists_fileName? (h : disk.IsNamed path) : ∃ name, path.fileName? = some name := by
  obtain ⟨parent, name, ht⟩ := h
  rcases (target_eq_ok_iff.mp ht).2 with ⟨-, hroot⟩ | ⟨front, last, before, hsteps, -, hlast⟩
  · cases hroot
  · obtain ⟨hdot, hdots⟩ := Target.name_of_ofLast hlast
    have hreverse : path.pieces.reverse.filter (· ≠ "") = last :: front.reverse := by
      rw [List.filter_reverse, hsteps, List.reverse_concat]
    obtain ⟨rest, hrest⟩ := FilePath.fromName_of_filter hreverse hdot
    have hne : last ≠ "" := by
      have hmem : last ∈ path.pieces.filter (· ≠ "") := by
        rw [hsteps]
        exact List.mem_concat_self
      simpa using (List.mem_filter.mp hmem).2
    refine ⟨last, ?_⟩
    simp only [FilePath.fileName?, hrest, hne, hdot, hdots, or_self, if_false]

end IsNamed

/-- The path leads to a file, or to a name that a file can have. -/
structure IsFilePath (disk : Disk) (path : FilePath) : Prop where
  named : disk.IsNamed path
  free : disk.lookup? (disk.place path) ≠ some .directory

namespace IsFilePath

variable {disk : Disk} {path : FilePath}

theorem keepsDirectories_put (h : disk.IsFilePath path) (content : ByteArray) :
    KeepsDirectories disk (disk.put (disk.place path) (.file content)) :=
  .put_file h.named.place_ne_nil h.free content

theorem of_keepsDirectories {after : Disk} (h : disk.IsFilePath path)
    (hkeeps : KeepsDirectories disk after)
    (hfree : after.lookup? (disk.place path) ≠ some .directory) : after.IsFilePath path := by
  refine ⟨h.named.of_keepsDirectories hkeeps, ?_⟩
  rwa [hkeeps.place_eq]

end IsFilePath

theorem writeFile_eq_ok {disk after : Disk} {path : FilePath} {content : ByteArray}
    (h : disk.writeFile path content = .ok after) :
    disk.IsFilePath path ∧ after = disk.put (disk.place path) (.file content) := by
  unfold writeFile at h
  split at h
  · cases h
  · cases h
  · rename_i parent name slash ht
    split at h
    · cases h
    · rename_i hfree
      rw [not_or, Bool.not_eq_true] at hfree
      obtain ⟨rfl, hfree⟩ := hfree
      cases h
      rw [place_of_named ht]
      refine ⟨⟨⟨parent, name, ht⟩, ?_⟩, rfl⟩
      rwa [place_of_named ht]

theorem removeFile_eq {disk : Disk} {path : FilePath} (h : disk.IsFilePath path)
    {content : ByteArray} (hfile : disk.lookup? (disk.place path) = some (.file content)) :
    disk.removeFile path = .ok (disk.clear (disk.place path)) := by
  obtain ⟨parent, name, ht⟩ := h.named
  rw [place_of_named ht] at hfile ⊢
  simp only [removeFile, ht, hfile]
  rfl

theorem moveFile_eq_ok {disk after : Disk} {source destination : FilePath}
    (h : disk.moveFile source destination = .ok after) :
    disk.IsFilePath source ∧ disk.IsFilePath destination ∧
      ∃ content, disk.lookup? (disk.place source) = some (.file content) ∧
        after = (disk.clear (disk.place source)).put (disk.place destination) (.file content) := by
  unfold moveFile at h
  cases hs : disk.target source with
  | error fault =>
    rw [hs] at h
    cases h
  | ok from? =>
    cases hd : disk.target destination with
    | error fault =>
      rw [hs, hd] at h
      cases h
    | ok to? =>
      rw [hs, hd] at h
      dsimp only [bind, Except.bind] at h
      split at h
      · rename_i fromParent fromName fromSlash toParent toName toSlash
        have hfrom := place_of_named hs
        have hto := place_of_named hd
        rw [← hfrom, ← hto] at h
        split at h
        · cases h
        · cases h
        · rename_i content hfile
          split at h
          · cases h
          · rename_i hslash
            split at h
            · cases h
            · split at h
              · cases h
              · rename_i hfree
                simp only [not_or, Bool.not_eq_true] at hslash
                obtain ⟨rfl, rfl⟩ := hslash
                cases h
                refine ⟨⟨⟨_, _, hs⟩, ?_⟩, ⟨⟨_, _, hd⟩, hfree⟩, content, hfile, rfl⟩
                simp [hfile]
      · cases h

/-- A file of this content was moved, and nothing else changed. -/
structure Moves (source destination : FilePath) (content : ByteArray) (before after : Disk) :
    Prop where
  workingDirectory : after.workingDirectory = before.workingDirectory
  isSource : before.IsFilePath source
  isDestination : before.IsFilePath destination
  file : before.lookup? (before.place source) = some (.file content)
  lookup?_eq : ∀ place, after.lookup? place =
    if place = before.place destination then some (.file content)
    else if place = before.place source then none
    else before.lookup? place

theorem moves_of_moveFile_eq_ok {disk after : Disk} {source destination : FilePath}
    (h : disk.moveFile source destination = .ok after) :
    ∃ content, Moves source destination content disk after := by
  obtain ⟨hs, hd, content, hfile, rfl⟩ := moveFile_eq_ok h
  refine ⟨content, rfl, hs, hd, hfile, fun place => ?_⟩
  rw [lookup?_put _ hd.named.place_ne_nil, lookup?_clear _ hs.named.place_ne_nil]

theorem Moves.keepsDirectories {disk after : Disk} {source destination : FilePath}
    {content : ByteArray} (h : Moves source destination content disk after) :
    KeepsDirectories disk after where
  workingDirectory := h.workingDirectory
  directory place hp := by
    have hd : place ≠ disk.place destination := fun heq => h.isDestination.free (heq ▸ hp)
    have hs : place ≠ disk.place source := fun heq => h.isSource.free (heq ▸ hp)
    rw [h.lookup?_eq, if_neg hd, if_neg hs, hp]

private theorem fromUTF8?_toUTF8 (text : String) : String.fromUTF8? text.toUTF8 = some text :=
  dif_pos text.isValidUTF8

private theorem entryAt_eq {disk : Disk} {path : FilePath} (h : disk.IsNamed path) :
    disk.entryAt path = (disk.lookup? (disk.place path)).elim (.error .notFound) .ok := by
  obtain ⟨parent, name, ht⟩ := h
  simp only [entryAt, ht, place_of_named ht]
  cases disk.lookup? (name :: parent) with
  | none => rfl
  | some entry => cases entry <;> rfl

theorem readText_eq_ok {disk : Disk} {path : FilePath} (h : disk.IsNamed path) {text : String}
    (hfile : disk.lookup? (disk.place path) = some (.file text.toUTF8)) :
    disk.readText path = .ok text := by
  simp only [readText, entryAt_eq h, hfile, Option.elim_some, fromUTF8?_toUTF8]

theorem isPresent_eq_false {disk : Disk} {path : FilePath} (h : disk.IsNamed path)
    (hnone : disk.lookup? (disk.place path) = none) : disk.isPresent path = false := by
  rw [isPresent, entryAt_eq h, hnone]
  rfl

theorem makeDirectory_addsDirectories {disk after : Disk} {path : FilePath}
    (h : disk.makeDirectory path = .ok after) : AddsDirectories disk after := by
  unfold makeDirectory at h
  split at h
  · cases h
  · cases h
  · rename_i parent name slash ht
    split at h
    · cases h
    · rename_i hnone
      cases h
      refine ⟨rfl, fun place => ?_⟩
      rw [OnlyMade, lookup?_put disk (List.cons_ne_nil _ _)]
      by_cases hp : place = name :: parent
      · rw [if_pos hp, hp]
        exact .inr ⟨hnone, rfl⟩
      · rw [if_neg hp]
        exact .inl rfl

end Disk

end NativeBindings
