import NativeBindings.Proofs.CommandLine.Prediction
import Mathlib.Data.List.Basic

/-!
# What arguments set

Arguments make sense if they are flags with their paths, one after the other; the path of a setting
is the one that stands behind its flag last. All other arguments have a first flag that is not
known, or a last one without a path. A command says which, and does nothing else.
-/

namespace NativeBindings

/-- A word in the place of a flag, and the path behind it. -/
abbrev FlagPair := String × String

namespace FlagPair

def flag? (pair : FlagPair) : Option Flag := Flag.ofWord? pair.1

def path (pair : FlagPair) : FilePath := ⟨pair.2⟩

def arguments (pairs : List FlagPair) : List String := pairs.flatMap fun pair => [pair.1, pair.2]

def AreKnown (pairs : List FlagPair) : Prop := ∀ pair ∈ pairs, (flag? pair).isSome

/-- The path in the last pair that sets the flag. -/
def lastPath? (pairs : List FlagPair) (flag : Flag) : Option FilePath :=
  (pairs.filter fun pair => flag? pair = some flag).getLast?.map path

/-- The path in the last pair of each flag. -/
def lastPaths (pairs : List FlagPair) : FlagPaths :=
  { config := lastPath? pairs .config
    header := lastPath? pairs .header
    declarations := lastPath? pairs .declarations
    glueOutput := lastPath? pairs .glueOutput
    bindingOutput := lastPath? pairs .bindingOutput }

instance (pairs : List FlagPair) : Decidable (AreKnown pairs) :=
  inferInstanceAs (Decidable (∀ pair ∈ pairs, _))

@[simp] theorem arguments_cons (word path : String) (pairs : List FlagPair) :
    arguments ((word, path) :: pairs) = word :: path :: arguments pairs := rfl

@[simp] theorem areKnown_cons {pair : FlagPair} {pairs : List FlagPair} :
    AreKnown (pair :: pairs) ↔ (flag? pair).isSome ∧ AreKnown pairs :=
  List.forall_mem_cons

theorem get?_lastPaths (pairs : List FlagPair) (flag : Flag) :
    (lastPaths pairs).get? flag = lastPath? pairs flag := by
  cases flag <;> rfl

theorem lastPath?_cons (pair : FlagPair) (pairs : List FlagPair) (flag : Flag) :
    lastPath? (pair :: pairs) flag =
      (lastPath? pairs flag).or (if flag? pair = some flag then some (path pair) else none) := by
  by_cases h : flag? pair = some flag
  · cases hrest : (pairs.filter fun pair => flag? pair = some flag).getLast? <;>
      simp [lastPath?, h, hrest, List.getLast?_cons]
  · simp [lastPath?, h]

end FlagPair

/-- What is wrong with arguments: behind pairs that make sense stands a word that is no flag, or a
flag is the last word. -/
inductive FlagFault.Occurs (arguments : List String) : FlagFault → Prop where
  | unknown {pairs : List FlagPair} {word : String} {rest : List String}
    (hpairs : FlagPair.AreKnown pairs) (hword : Flag.ofWord? word = none)
    (h : arguments = FlagPair.arguments pairs ++ word :: rest) : Occurs arguments (.unknown word)
  | missingPath {pairs : List FlagPair} {word : String}
    (hpairs : FlagPair.AreKnown pairs) (hword : (Flag.ofWord? word).isSome)
    (h : arguments = FlagPair.arguments pairs ++ [word]) : Occurs arguments (.missingPath word)

namespace FlagPaths

variable {pairs others : List FlagPair} {fault : FlagFault}

theorem ext_get? {paths other : FlagPaths} (h : ∀ flag, paths.get? flag = other.get? flag) :
    paths = other := by
  cases paths
  cases other
  simp only [mk.injEq]
  exact ⟨h .config, h .header, h .declarations, h .glueOutput, h .bindingOutput⟩

theorem exists_setAll_arguments (hpairs : FlagPair.AreKnown pairs) (paths : FlagPaths)
    (rest : List String) :
    ∃ after : FlagPaths, paths.setAll (FlagPair.arguments pairs ++ rest) = after.setAll rest ∧
      ∀ flag, after.get? flag = (FlagPair.lastPath? pairs flag).or (paths.get? flag) := by
  induction pairs generalizing paths with
  | nil => exact ⟨paths, rfl, fun flag => by simp [FlagPair.lastPath?]⟩
  | cons pair pairs ih =>
    obtain ⟨word, path⟩ := pair
    obtain ⟨hflag, hrest⟩ := FlagPair.areKnown_cons.mp hpairs
    obtain ⟨first, hfirst⟩ := Option.isSome_iff_exists.mp hflag
    have hword : Flag.ofWord? word = some first := hfirst
    obtain ⟨after, hafter, hget⟩ := ih hrest (paths.set first ⟨path⟩)
    refine ⟨after, ?_, ?_⟩
    · rw [FlagPair.arguments_cons, List.cons_append, List.cons_append, setAll, hword]
      exact hafter
    · intro flag
      rw [hget, get?_set, FlagPair.lastPath?_cons, hfirst, Option.or_assoc]
      by_cases h : flag = first
      · simp [h, FlagPair.path]
      · simp [h, Ne.symm h]

theorem ofArguments_arguments (hpairs : FlagPair.AreKnown pairs) :
    ofArguments (FlagPair.arguments pairs) = .ok (FlagPair.lastPaths pairs) := by
  obtain ⟨after, hafter, hget⟩ := exists_setAll_arguments hpairs unset []
  have hpaths : after = FlagPair.lastPaths pairs := by
    apply ext_get?
    intro flag
    simp [hget, FlagPair.get?_lastPaths]
  rw [List.append_nil, hpaths] at hafter
  exact hafter

theorem ofArguments_of_occurs {arguments : List String} (h : fault.Occurs arguments) :
    ofArguments arguments = .error fault := by
  cases h with
  | unknown hpairs hword h =>
    rename_i pairs word rest
    obtain ⟨after, hafter, -⟩ := exists_setAll_arguments hpairs unset (word :: rest)
    rw [h, ofArguments, hafter]
    cases rest <;> simp [setAll, hword]
  | missingPath hpairs hword h =>
    rename_i pairs word
    obtain ⟨after, hafter, -⟩ := exists_setAll_arguments hpairs unset [word]
    obtain ⟨flag, hflag⟩ := Option.isSome_iff_exists.mp hword
    rw [h, ofArguments, hafter]
    simp [setAll, hflag]

theorem exists_pairs_or_occurs (arguments : List String) :
    (∃ pairs, arguments = FlagPair.arguments pairs ∧ FlagPair.AreKnown pairs) ∨
      ∃ fault : FlagFault, fault.Occurs arguments := by
  have hnil : FlagPair.AreKnown [] := fun _ h => absurd h List.not_mem_nil
  -- `setAll` takes two words at a time.
  fun_induction setAll unset arguments with
  | case1 => exact .inl ⟨[], rfl, hnil⟩
  | case2 _ word hword => exact .inr ⟨_, .unknown hnil hword rfl⟩
  | case3 _ word flag hword => exact .inr ⟨_, .missingPath hnil (by simp [hword]) rfl⟩
  | case4 _ word path rest hword => exact .inr ⟨_, .unknown hnil hword rfl⟩
  | case5 _ word path rest flag hword ih =>
    have hknown {pairs : List FlagPair} (hpairs : FlagPair.AreKnown pairs) :
        FlagPair.AreKnown ((word, path) :: pairs) :=
      FlagPair.areKnown_cons.mpr ⟨Option.isSome_iff_exists.mpr ⟨flag, hword⟩, hpairs⟩
    obtain ⟨pairs, rfl, hpairs⟩ | ⟨fault, hfault⟩ := ih
    · exact .inl ⟨(word, path) :: pairs, rfl, hknown hpairs⟩
    · cases hfault with
      | unknown hpairs hother h => exact .inr ⟨_, .unknown (hknown hpairs) hother (by rw [h]; rfl)⟩
      | missingPath hpairs hother h =>
        exact .inr ⟨_, .missingPath (hknown hpairs) hother (by rw [h]; rfl)⟩

theorem ofArguments_eq_ok_iff {arguments : List String} {paths : FlagPaths} :
    ofArguments arguments = .ok paths ↔
      ∃ pairs, arguments = FlagPair.arguments pairs ∧ FlagPair.AreKnown pairs ∧
        paths = FlagPair.lastPaths pairs := by
  constructor
  · intro hok
    obtain ⟨pairs, rfl, hpairs⟩ | ⟨fault, hfault⟩ := exists_pairs_or_occurs arguments
    · rw [ofArguments_arguments hpairs] at hok
      exact ⟨pairs, rfl, hpairs, (Except.ok.inj hok).symm⟩
    · rw [ofArguments_of_occurs hfault] at hok
      cases hok
  · rintro ⟨pairs, rfl, hpairs, rfl⟩
    exact ofArguments_arguments hpairs

theorem ofArguments_eq_error_iff {arguments : List String} :
    ofArguments arguments = .error fault ↔ fault.Occurs arguments := by
  constructor
  · intro herror
    obtain ⟨pairs, rfl, hpairs⟩ | ⟨other, hother⟩ := exists_pairs_or_occurs arguments
    · rw [ofArguments_arguments hpairs] at herror
      cases herror
    · rw [ofArguments_of_occurs hother] at herror
      cases herror
      exact hother
  · exact ofArguments_of_occurs

/-- The order matters only among pairs of one flag. -/
theorem ofArguments_perm (hpairs : FlagPair.AreKnown pairs) (hperm : pairs.Perm others)
    (h : ∀ flag, pairs.filter (fun pair => FlagPair.flag? pair = some flag) =
      others.filter fun pair => FlagPair.flag? pair = some flag) :
    ofArguments (FlagPair.arguments pairs) = ofArguments (FlagPair.arguments others) := by
  have hothers : FlagPair.AreKnown others := fun pair hp => hpairs pair (hperm.mem_iff.mpr hp)
  rw [ofArguments_arguments hpairs, ofArguments_arguments hothers]
  simp only [FlagPair.lastPaths, FlagPair.lastPath?, h]

end FlagPaths

/-- A command whose arguments make no sense asks nothing of files. -/
theorem runBuild_of_error {m : Type → Type} [Monad m] [LawfulMonad m] [FileAccess m]
    {arguments : List String} {fault : FlagFault}
    (h : FlagPaths.ofArguments arguments = .error fault) (mode : BuildMode) :
    (runBuild mode arguments : m CommandResult) = pure (.failed "" fault.failure) := by
  have hfailed (adapt : FlagFault → Failure) :
      (ExceptT.mk (pure (.error fault)) : ExceptT FlagFault m FlagPaths).adapt adapt =
        throw (adapt fault) := by
    change Except.mapError adapt <$> (pure (.error fault) : m (Except FlagFault FlagPaths)) = _
    rw [map_pure]
    rfl
  have hthrown {α β : Type} (failure : Failure) (next : α → ExceptT Failure m β) :
      (throw failure >>= next).run = pure (.error failure) := by
    simp
  simp only [runBuild, h, hfailed, hthrown, pure_bind]
  rfl

/-- Arguments make sense exactly if they are pairs of a known flag and a path. Then each setting has
the path of the last pair that names it, so the order matters among pairs of one flag only.
Otherwise the fault is the first word that is no flag, or the last flag if it has no path; a command
fails with it and does nothing else. -/
theorem arguments_set_last_paths (arguments : List String) :
    ((∃ paths, FlagPaths.ofArguments arguments = .ok paths) ↔
        ∃ pairs, arguments = FlagPair.arguments pairs ∧ FlagPair.AreKnown pairs) ∧
      (∀ pairs, arguments = FlagPair.arguments pairs → FlagPair.AreKnown pairs →
        FlagPaths.ofArguments arguments = .ok (FlagPair.lastPaths pairs) ∧
        ∀ others, pairs.Perm others →
          (∀ flag, pairs.filter (fun pair => FlagPair.flag? pair = some flag) =
            others.filter fun pair => FlagPair.flag? pair = some flag) →
          FlagPaths.ofArguments (FlagPair.arguments others) = FlagPaths.ofArguments arguments) ∧
      (∀ fault, FlagPaths.ofArguments arguments = .error fault ↔ fault.Occurs arguments) ∧
      ∀ fault : FlagFault, fault.Occurs arguments →
        ∀ (m : Type → Type) [Monad m] [LawfulMonad m] [FileAccess m],
          ∀ command ∈ ["generate", "check"],
            (runCommand (command :: arguments) : m CommandResult) =
              pure (.failed "" ⟨fault.message, []⟩) := by
  refine ⟨?_, ?_, fun fault => FlagPaths.ofArguments_eq_error_iff, ?_⟩
  · constructor
    · rintro ⟨paths, hok⟩
      obtain ⟨pairs, h, hpairs, -⟩ := FlagPaths.ofArguments_eq_ok_iff.mp hok
      exact ⟨pairs, h, hpairs⟩
    · rintro ⟨pairs, h, hpairs⟩
      exact ⟨_, FlagPaths.ofArguments_eq_ok_iff.mpr ⟨pairs, h, hpairs, rfl⟩⟩
  · rintro pairs rfl hpairs
    refine ⟨FlagPaths.ofArguments_arguments hpairs, ?_⟩
    intro others hperm h
    exact (FlagPaths.ofArguments_perm hpairs hperm h).symm
  · intro fault hfault m _ _ _ command hcommand
    have hrun (mode : BuildMode) : (runBuild mode arguments : m CommandResult) =
        pure (.failed "" ⟨fault.message, []⟩) :=
      runBuild_of_error (FlagPaths.ofArguments_of_occurs hfault) mode
    simp only [List.mem_cons, List.not_mem_nil, or_false] at hcommand
    rcases hcommand with rfl | rfl
    · exact hrun .write
    · exact hrun .check

theorem arguments_set_last_paths_repeated :
    let pairs : List FlagPair :=
      [("-c", "a.toml"), ("--header", "--config"), ("--config", "b.toml")]
    let others : List FlagPair :=
      [("-c", "a.toml"), ("--config", "b.toml"), ("--header", "--config")]
    let odd := FlagPair.arguments pairs ++ ["--verbose"]
    FlagPair.AreKnown pairs ∧ pairs.Perm others ∧
      FlagPaths.ofArguments (FlagPair.arguments others) =
        .ok ⟨some ⟨"b.toml"⟩, some ⟨"--config"⟩, none, none, none⟩ ∧
      (FlagFault.unknown "--verbose").Occurs odd ∧
      ∀ disk : Disk, disk.command ("check" :: odd) =
        (.failed "" ⟨"Unknown flag: --verbose", []⟩, disk) := by
  intro pairs others odd
  have hpairs : FlagPair.AreKnown pairs := by decide +kernel
  have hperm : pairs.Perm others := by decide +kernel
  have hfault : (FlagFault.unknown "--verbose").Occurs odd := .unknown hpairs rfl rfl
  obtain ⟨-, hset, -, -⟩ := arguments_set_last_paths (FlagPair.arguments pairs)
  obtain ⟨-, -, -, hfails⟩ := arguments_set_last_paths odd
  obtain ⟨hok, hreorder⟩ := hset pairs rfl hpairs
  refine ⟨hpairs, hperm, ?_, hfault, ?_⟩
  · rw [hreorder others hperm (fun flag => by cases flag <;> rfl), hok]
    rfl
  · intro disk
    have hcheck := hfails _ hfault DiskRun "check" (by simp)
    rw [Disk.command, hcheck]
    rfl

end NativeBindings
