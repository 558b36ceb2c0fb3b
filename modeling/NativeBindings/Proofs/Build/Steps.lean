import NativeBindings.Proofs.Files.Run

/-!
# Steps of a build

What each step of a build does to a disk: generation leaves it alone, staging makes directories and
writes one file, moving takes a staged file to its destination, and withdrawing removes it. A step
that fails has made directories at most.
-/

namespace NativeBindings

open Disk

namespace BindingsBuild

theorem perform_writing (disk : Disk) (path : FilePath)
    (operation : Disk → Except FileFault Disk) :
    disk.perform (writing path (DiskRun.change operation)) =
      match operation disk with
      | .ok after => (.ok (), after)
      | .error fault => (.error (.output path fault), disk) := by
  rw [writing, perform_adapt, perform_change]
  cases operation disk <;> rfl

theorem onlyReads_tree (build : BindingsBuild) :
    OnlyReads (build.tree : ExceptT BuildFault DiskRun Declarations) := by
  unfold tree
  cases build.declarations with
  | file =>
    have htext := (OnlyReads.readText build.paths.declarations).adapt
      (SourceFault.unreadable build.paths.declarations)
    exact (htext.bind fun text => (OnlyReads.result _).adapt _).adapt _
  | header parse => exact (OnlyReads.result _).adapt _

theorem onlyReads_generate (build : BindingsBuild) :
    OnlyReads (build.generate : ExceptT BuildFault DiskRun Generated) :=
  build.onlyReads_tree.bind fun _ => (OnlyReads.result _).adapt _

theorem generate_eq_ok {build : BindingsBuild} {disk after : Disk} {generated : Generated}
    (h : disk.perform build.generate = (.ok generated, after)) : after = disk := by
  have hdisk := build.onlyReads_generate disk
  rwa [h] at hdisk

section

variable {destination : FilePath} {content : String} {disk after : Disk}

private theorem stage_eq (destination : FilePath) (content : String) :
    ∃ prepare : ExceptT BuildFault DiskRun Unit, OnlyAddsDirectories prepare ∧
      (stage destination content : ExceptT BuildFault DiskRun Unit) = prepare >>= fun _ =>
        writing destination.stage
          (DiskRun.change (·.writeFile destination.stage content.toUTF8)) := by
  unfold stage
  cases destination.parent? with
  | none =>
    refine ⟨pure (), .pure (), ?_⟩
    rw [pure_bind]
    rfl
  | some parent => exact ⟨_, (OnlyAddsDirectories.ensureDirectories parent).adapt _, rfl⟩

/-- A document was staged: it is in a file, and all else that is new are directories. -/
structure Stages (destination : FilePath) (content : String) (before after : Disk) : Prop where
  keeps : KeepsDirectories before after
  isFilePath : after.IsFilePath destination.stage
  file : after.lookup? (before.place destination.stage) = some (.file content.toUTF8)
  entry : ∀ place, place ≠ before.place destination.stage → OnlyMade before after place

theorem stages_of_stage_eq_ok (h : disk.perform (stage destination content) = (.ok (), after)) :
    Stages destination content disk after := by
  obtain ⟨prepare, honly, heq⟩ := stage_eq destination content
  rw [heq] at h
  obtain ⟨⟨⟩, ready, hready, hwrite⟩ := perform_bind_eq_ok h
  have hadds := honly disk
  rw [hready] at hadds
  have hplace : ready.place destination.stage = disk.place destination.stage :=
    hadds.keepsDirectories.place_eq destination.stage
  rw [perform_writing] at hwrite
  split at hwrite
  · rename_i written hfile
    cases hwrite
    obtain ⟨hpath, rfl⟩ := writeFile_eq_ok hfile
    have hput := hpath.keepsDirectories_put content.toUTF8
    have hlookup := fun place =>
      lookup?_put ready hpath.named.place_ne_nil (.file content.toUTF8) place
    rw [hplace] at hput hlookup ⊢
    refine ⟨hadds.keepsDirectories.trans hput, ?_, ?_, ?_⟩
    · apply hpath.of_keepsDirectories hput
      rw [hplace, hlookup, if_pos rfl]
      simp
    · rw [hlookup, if_pos rfl]
    · intro place hne
      rw [OnlyMade, hlookup, if_neg hne]
      exact hadds.entry place
  · cases hwrite

theorem stage_eq_error {fault : BuildFault}
    (h : disk.perform (stage destination content) = (.error fault, after)) :
    AddsDirectories disk after := by
  obtain ⟨prepare, honly, heq⟩ := stage_eq destination content
  rw [heq] at h
  have hadds := honly disk
  rcases perform_bind_eq_error h with hprepare | ⟨⟨⟩, ready, hready, hwrite⟩
  · rwa [hprepare] at hadds
  · rw [hready] at hadds
    rw [perform_writing] at hwrite
    split at hwrite
    · cases hwrite
    · cases hwrite
      exact hadds

private theorem perform_commit (disk : Disk) (destination : FilePath) :
    disk.perform (commit destination) =
      match disk.moveFile destination.stage destination with
      | .ok after => (.ok (), after)
      | .error fault => (.error (.output destination fault), disk) :=
  perform_writing disk destination (·.moveFile destination.stage destination)

theorem commit_eq_ok (h : disk.perform (commit destination) = (.ok (), after)) :
    disk.moveFile destination.stage destination = .ok after := by
  rw [perform_commit] at h
  split at h
  · rename_i moved hmove
    cases h
    exact hmove
  · cases h

theorem commit_eq_error {fault : BuildFault}
    (h : disk.perform (commit destination) = (.error fault, after)) : after = disk := by
  rw [perform_commit] at h
  split at h
  · cases h
  · cases h
    rfl

theorem perform_withdraw (hpath : disk.IsFilePath destination.stage) {content : ByteArray}
    (hfile : disk.lookup? (disk.place destination.stage) = some (.file content)) :
    disk.perform (withdraw destination) = (.ok (), disk.clear (disk.place destination.stage)) := by
  have hremove : disk.perform (writing destination.stage
      (FileAccess.removeFile destination.stage : ExceptT FileFault DiskRun Unit)) =
        (.ok (), disk.clear (disk.place destination.stage)) := by
    have h := perform_writing disk destination.stage (·.removeFile destination.stage)
    rw [removeFile_eq hpath hfile] at h
    exact h
  rw [withdraw, perform_tryCatch, hremove]

end

end BindingsBuild

end NativeBindings
