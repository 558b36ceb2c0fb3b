import NativeBindings.Proofs.Text.Characters

/-!
# Capitals of capitals

No character that is part of a capital has another capital, so nothing changes when a capital is
taken twice. Nor is the underscore part of the capital of another character. Both are facts about
the tables, which are compared as sets of code points and not entry by entry.
-/

namespace NativeBindings.Text

/-- A set of numbers as the bits of one number. The kernel compares all bits of two numbers in one
step, which is what makes large sets comparable. -/
def bitset (numbers : List Nat) : Nat := numbers.foldr (fun n bits => bits ||| 1 <<< n) 0

theorem testBit_bitset (numbers : List Nat) (i : Nat) :
    (bitset numbers).testBit i = decide (i ∈ numbers) := by
  induction numbers with
  | nil => simp [bitset]
  | cons n numbers ih =>
    have hcons : bitset (n :: numbers) = bitset numbers ||| 1 <<< n := rfl
    rw [hcons, Nat.testBit_or, ih, Nat.one_shiftLeft, Nat.testBit_two_pow]
    simp [eq_comm, Bool.or_comm]

theorem notMem_of_bitset_disjoint {numbers others : List Nat}
    (h : bitset numbers &&& bitset others = 0) {n : Nat} (hn : n ∈ numbers) : n ∉ others := by
  intro ho
  have hbit := congrArg (Nat.testBit · n) h
  simp [Nat.testBit_and, testBit_bitset, hn, ho] at hbit

def CapitalRun.codesFrom (run : CapitalRun) (start : Nat) : List Nat :=
  (List.range ((run.last - run.first) / run.stride + 1)).map fun k => start + run.stride * k

theorem CapitalRun.mem_codesFrom {run : CapitalRun} {code : Nat} (h : run.covers code = true)
    (start : Nat) : start + (code - run.first) ∈ run.codesFrom start := by
  simp only [covers, Bool.and_eq_true, decide_eq_true_eq, beq_iff_eq] at h
  obtain ⟨⟨-, hlast⟩, hstride⟩ := h
  have hsteps : (code - run.first) / run.stride ≤ (run.last - run.first) / run.stride :=
    Nat.div_le_div_right (Nat.sub_le_sub_right hlast run.first)
  rw [codesFrom, List.mem_map]
  refine ⟨(code - run.first) / run.stride, List.mem_range.mpr (Nat.lt_succ_of_le hsteps), ?_⟩
  rw [Nat.mul_div_cancel' (Nat.dvd_of_mod_eq_zero hstride)]

/-- The code points of all characters that have another capital than themselves. -/
def tabledCodes : List Nat :=
  capitalRuns.flatMap (fun run => run.codesFrom run.first) ++ expandingCapitals.map Prod.fst

/-- The code points of the capitals of these characters. -/
def tabledCapitals : List Nat :=
  capitalRuns.flatMap (fun run => run.codesFrom run.capital) ++ expandingCapitals.flatMap Prod.snd

theorem bitset_tabled_disjoint : bitset tabledCapitals &&& bitset tabledCodes = 0 := by
  decide +kernel

theorem capitalCodes_eq_self {code : Nat} (hexpanding : expandingCapitals.lookup code = none)
    (hruns : ∀ run ∈ capitalRuns, run.covers code = false) : capitalCodes code = [code] := by
  have hfind : capitalRuns.find? (·.covers code) = none :=
    List.find?_eq_none.mpr fun run hrun => by simp [hruns run hrun]
  simp only [capitalCodes, hexpanding, hfind]

theorem capitalCodes_of_notMem {code : Nat} (h : code ∉ tabledCodes) :
    capitalCodes code = [code] := by
  rw [tabledCodes, List.mem_append, not_or] at h
  obtain ⟨hrun, hentry⟩ := h
  apply capitalCodes_eq_self
  · rw [List.lookup_eq_none_iff]
    intro entry hmem
    have hne : code ≠ entry.1 := fun heq => hentry (heq ▸ List.mem_map_of_mem hmem)
    simpa using hne
  · intro run hmem
    by_contra hcovers
    have hcovers : run.covers code = true := by simpa using hcovers
    have hfirst : run.first ≤ code := by
      simp only [CapitalRun.covers, Bool.and_eq_true, decide_eq_true_eq] at hcovers
      exact hcovers.1.1
    have hcode := run.mem_codesFrom hcovers run.first
    rw [Nat.add_sub_cancel' hfirst] at hcode
    exact hrun (List.mem_flatMap.mpr ⟨run, hmem, hcode⟩)

theorem mem_tabledCapitals_or {code capital : Nat} (h : capital ∈ capitalCodes code) :
    capital ∈ tabledCapitals ∨ (capital = code ∧ capitalCodes code = [code]) := by
  refine forall_mem_capitalCodes (p := fun code capital =>
    capital ∈ tabledCapitals ∨ (capital = code ∧ capitalCodes code = [code])) ?_ ?_ ?_ capital h
  · intro entry hentry capital hcapital
    exact .inl (List.mem_append_right _ (List.mem_flatMap.mpr ⟨entry, hentry, hcapital⟩))
  · intro run hrun code hcovers
    have hcapital := run.mem_codesFrom hcovers run.capital
    exact .inl (List.mem_append_left _ (List.mem_flatMap.mpr ⟨run, hrun, hcapital⟩))
  · exact fun code hexpanding hruns => .inr ⟨rfl, capitalCodes_eq_self hexpanding hruns⟩

theorem capitalCodes_of_mem {code capital : Nat} (h : capital ∈ capitalCodes code) :
    capitalCodes capital = [capital] := by
  rcases mem_tabledCapitals_or h with htable | ⟨rfl, hself⟩
  · exact capitalCodes_of_notMem (notMem_of_bitset_disjoint bitset_tabled_disjoint htable)
  · exact hself

/-- What is part of a capital is its own capital. -/
theorem uppercase_of_mem_uppercase {c d : Char} (h : d ∈ uppercase c) : uppercase d = [d] := by
  by_cases hd : d.toNat = 0
  · have hnull : d = Char.ofNat 0 := by rw [← hd, Char.ofNat_toNat]
    rw [hnull]
    decide +kernel
  · rw [uppercase, capitalCodes_of_mem (toNat_mem_capitalCodes h hd), List.map_singleton,
      Char.ofNat_toNat]

/-- Only the underscore has an underscore in its capital. -/
theorem underscore_notMem_uppercase {c : Char} (h : c ≠ '_') : '_' ∉ uppercase c := by
  have htable : '_'.toNat ∉ tabledCapitals := by decide +kernel
  intro hmem
  rcases mem_tabledCapitals_or (toNat_mem_capitalCodes hmem (by decide)) with hcapital | ⟨hcode, -⟩
  · exact htable hcapital
  · exact h (Char.toNat_inj.mp hcode.symm)

end NativeBindings.Text
