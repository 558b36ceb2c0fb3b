import NativeBindings.Proofs.Files.Disk

/-!
# Runs on a disk

What a run of operations gives on a disk, and the disk that it leaves, taken apart operation by
operation. Reading leaves a disk alone. Making the directories on the way to a path adds directories
and changes nothing else, also if it fails half way.
-/

namespace NativeBindings

namespace Disk

variable {ε ε' α β : Type}

/-- The result of a run on a disk, and the disk that it leaves. -/
def perform (disk : Disk) (run : ExceptT ε DiskRun α) : Except ε α × Disk := StateT.run run disk

theorem perform_bind (disk : Disk) (run : ExceptT ε DiskRun α) (next : α → ExceptT ε DiskRun β) :
    disk.perform (run >>= next) =
      match disk.perform run with
      | (.ok value, between) => between.perform (next value)
      | (.error fault, between) => (.error fault, between) := by
  unfold perform StateT.run
  simp only [bind, ExceptT.bind, ExceptT.mk, StateT.bind, ExceptT.bindCont]
  cases run disk with
  | mk result between => cases result <;> rfl

theorem perform_tryCatch (disk : Disk) (run : ExceptT ε DiskRun α)
    (handle : ε → ExceptT ε DiskRun α) :
    disk.perform (tryCatch run handle) =
      match disk.perform run with
      | (.ok value, between) => (.ok value, between)
      | (.error fault, between) => between.perform (handle fault) := by
  unfold perform StateT.run
  simp only [tryCatch, tryCatchThe, MonadExceptOf.tryCatch, ExceptT.tryCatch, ExceptT.mk, bind,
    StateT.bind]
  cases run disk with
  | mk result between => cases result <;> rfl

theorem perform_adapt (disk : Disk) (run : ExceptT ε DiskRun α) (adapt : ε → ε') :
    disk.perform (run.adapt adapt) =
      ((disk.perform run).1.mapError adapt, (disk.perform run).2) := by
  change (Except.mapError adapt <$> (run : DiskRun (Except ε α))) disk = _
  unfold perform StateT.run
  simp only [Functor.map, StateT.map, bind, pure]
  cases run disk with
  | mk result between => cases result <;> rfl

theorem perform_change (disk : Disk) (operation : Disk → Except FileFault Disk) :
    disk.perform (DiskRun.change operation) =
      match operation disk with
      | .ok after => (.ok (), after)
      | .error fault => (.error fault, disk) := by
  rfl

section

variable {disk after : Disk} {run : ExceptT ε DiskRun α} {next : α → ExceptT ε DiskRun β}

theorem perform_bind_eq_ok {value : β} (h : disk.perform (run >>= next) = (.ok value, after)) :
    ∃ first between, disk.perform run = (.ok first, between) ∧
      between.perform (next first) = (.ok value, after) := by
  rw [perform_bind] at h
  split at h
  · rename_i first between hrun
    exact ⟨first, between, hrun, h⟩
  · cases h

theorem perform_bind_eq_error {fault : ε}
    (h : disk.perform (run >>= next) = (.error fault, after)) :
    disk.perform run = (.error fault, after) ∨
      ∃ first between, disk.perform run = (.ok first, between) ∧
        between.perform (next first) = (.error fault, after) := by
  rw [perform_bind] at h
  split at h
  · rename_i first between hrun
    exact .inr ⟨first, between, hrun, h⟩
  · cases h
    exact .inl ‹_›

end

/-- The run leaves every disk as it is, whether it succeeds or not. -/
def OnlyReads (run : ExceptT ε DiskRun α) : Prop := ∀ disk : Disk, (disk.perform run).2 = disk

namespace OnlyReads

variable {run : ExceptT ε DiskRun α}

theorem bind {next : α → ExceptT ε DiskRun β} (h : OnlyReads run)
    (hnext : ∀ value, OnlyReads (next value)) : OnlyReads (run >>= next) := by
  intro disk
  have hrun := h disk
  rw [perform_bind]
  split
  · rename_i value between heq
    rw [heq] at hrun
    change between = disk at hrun
    rw [hrun]
    exact hnext value disk
  · rename_i fault between heq
    rwa [heq] at hrun

theorem adapt (h : OnlyReads run) (adapt : ε → ε') : OnlyReads (run.adapt adapt) := by
  intro disk
  rw [perform_adapt]
  exact h disk

theorem result (value : Except ε α) : OnlyReads (ExceptT.mk (pure value)) := fun _ => rfl

theorem readText (path : FilePath) : OnlyReads (FileAccess.readText path) := fun _ => rfl

theorem perform_eq (h : OnlyReads run) (disk : Disk) :
    disk.perform run = ((disk.perform run).1, disk) :=
  Prod.ext rfl (h disk)

end OnlyReads

/-- The run changes nothing but that it makes directories, whether it succeeds or not. -/
def OnlyAddsDirectories (run : ExceptT ε DiskRun α) : Prop :=
  ∀ disk : Disk, AddsDirectories disk (disk.perform run).2

namespace OnlyAddsDirectories

variable {run : ExceptT ε DiskRun α}

theorem bind {next : α → ExceptT ε DiskRun β} (h : OnlyAddsDirectories run)
    (hnext : ∀ value, OnlyAddsDirectories (next value)) : OnlyAddsDirectories (run >>= next) := by
  intro disk
  have hrun := h disk
  rw [perform_bind]
  split
  · rename_i value between heq
    rw [heq] at hrun
    exact hrun.trans (hnext value between)
  · rename_i fault between heq
    rwa [heq] at hrun

theorem tryCatch {handle : ε → ExceptT ε DiskRun α} (h : OnlyAddsDirectories run)
    (hhandle : ∀ fault, OnlyAddsDirectories (handle fault)) :
    OnlyAddsDirectories (tryCatch run handle) := by
  intro disk
  have hrun := h disk
  rw [perform_tryCatch]
  split
  · rename_i value between heq
    rwa [heq] at hrun
  · rename_i fault between heq
    rw [heq] at hrun
    exact hrun.trans (hhandle fault between)

theorem adapt (h : OnlyAddsDirectories run) (adapt : ε → ε') :
    OnlyAddsDirectories (run.adapt adapt) := by
  intro disk
  rw [perform_adapt]
  exact h disk

theorem pure (value : α) : OnlyAddsDirectories (Pure.pure value : ExceptT ε DiskRun α) :=
  fun disk => .refl disk

theorem makeDirectory (path : FilePath) :
    OnlyAddsDirectories (FileAccess.makeDirectory path : ExceptT FileFault DiskRun Unit) := by
  intro disk
  change AddsDirectories disk (disk.perform (DiskRun.change (·.makeDirectory path))).2
  rw [perform_change]
  cases hmade : disk.makeDirectory path with
  | ok after => exact makeDirectory_addsDirectories hmade
  | error fault => exact .refl disk

theorem acceptDirectory (path : FilePath) (fault : FileFault) :
    OnlyAddsDirectories
      (FileAccess.acceptDirectory path fault : ExceptT FileFault DiskRun Unit) := by
  have hasked : OnlyAddsDirectories
      (liftM (FileAccess.isDirectory path : DiskRun Bool) : ExceptT FileFault DiskRun Bool) :=
    fun disk => .refl disk
  refine hasked.bind fun found => ?_
  cases found with
  | true => exact fun disk => .refl disk
  | false => exact fun disk => .refl disk

theorem ensureWithin (path : FilePath) (above : List FilePath) :
    OnlyAddsDirectories (FileAccess.ensureWithin path above : ExceptT FileFault DiskRun Unit) := by
  induction above generalizing path with
  | nil => exact (makeDirectory path).tryCatch (acceptDirectory path)
  | cons parent above ih =>
    refine (makeDirectory path).tryCatch fun fault => ?_
    split
    · exact (ih parent).bind fun _ => (makeDirectory path).tryCatch (acceptDirectory path)
    · exact acceptDirectory path fault

theorem ensureDirectories (path : FilePath) :
    OnlyAddsDirectories (FileAccess.ensureDirectories path : ExceptT FileFault DiskRun Unit) := by
  unfold FileAccess.ensureDirectories
  split
  · exact pure ()
  · exact ensureWithin path path.directories

end OnlyAddsDirectories

end Disk

end NativeBindings
