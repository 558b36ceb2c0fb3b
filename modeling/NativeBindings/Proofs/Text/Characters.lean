import NativeBindings.Proofs.Text.Pieces
import NativeBindings.Text.Pieces
import NativeBindings.Text.Uppercase
import Mathlib.Data.List.Basic

/-!
# Characters of texts

Texts all of whose characters have a property, and which texts that are put together from others
have it too.
-/

namespace NativeBindings.Text

def ConsistsOf (p : Char → Prop) (text : String) : Prop := ∀ c ∈ text.toList, p c

instance (p : Char → Prop) [DecidablePred p] (text : String) : Decidable (ConsistsOf p text) :=
  List.decidableBAll p text.toList

section

variable {p q : Char → Prop} {text other : String}

theorem ConsistsOf.mono (hpq : ∀ c, p c → q c) (h : ConsistsOf p text) : ConsistsOf q text :=
  fun c hc => hpq c (h c hc)

@[simp] theorem consistsOf_append :
    ConsistsOf p (text ++ other) ↔ ConsistsOf p text ∧ ConsistsOf p other := by
  simp only [ConsistsOf, String.toList_append, List.forall_mem_append]

@[simp] theorem consistsOf_ofList {cs : List Char} :
    ConsistsOf p (String.ofList cs) ↔ ∀ c ∈ cs, p c := by
  rw [ConsistsOf, String.toList_ofList]

theorem consistsOf_intercalate {texts : List String} (hs : ConsistsOf p text)
    (h : ∀ t ∈ texts, ConsistsOf p t) : ConsistsOf p (text.intercalate texts) := by
  induction texts with
  | nil => exact fun c hc => absurd hc List.not_mem_nil
  | cons first rest ih =>
    have hfirst := h first List.mem_cons_self
    have hrest := ih fun t ht => h t (List.mem_cons_of_mem first ht)
    cases rest with
    | nil => rwa [String.intercalate_singleton]
    | cons second rest =>
      rw [String.intercalate_cons_cons, consistsOf_append, consistsOf_append]
      exact ⟨⟨hfirst, hs⟩, hrest⟩

theorem mem_of_mem_splitOn {mark : Char} {cs piece : List Char} (h : piece ∈ cs.splitOn mark) :
    ∀ c ∈ piece, c ∈ cs ∧ c ≠ mark := by
  induction cs generalizing piece with
  | nil =>
    rw [List.splitOn_nil, List.mem_singleton] at h
    rw [h]
    exact fun c hc => absurd hc List.not_mem_nil
  | cons first rest ih =>
    obtain ⟨head, tail, hsplit⟩ := List.exists_cons_of_ne_nil (List.splitOn_ne_nil mark rest)
    have hrest {piece : List Char} (hpiece : piece ∈ head :: tail) :
        ∀ c ∈ piece, c ∈ first :: rest ∧ c ≠ mark := by
      intro c hc
      obtain ⟨hmem, hne⟩ := ih (hsplit ▸ hpiece) c hc
      exact ⟨List.mem_cons_of_mem first hmem, hne⟩
    rw [List.splitOn_cons_eq_if_modifyHead, hsplit] at h
    by_cases hfirst : first = mark
    · rw [if_pos (by simpa using hfirst)] at h
      rcases List.mem_cons.mp h with rfl | h
      · exact fun c hc => absurd hc List.not_mem_nil
      · exact hrest h
    · rw [if_neg (by simpa using hfirst), List.modifyHead_cons] at h
      rcases List.mem_cons.mp h with rfl | h
      · exact List.forall_mem_cons.mpr
          ⟨⟨List.mem_cons_self, hfirst⟩, hrest List.mem_cons_self⟩
      · exact hrest (List.mem_cons_of_mem head h)

theorem forall_mem_splitOn (mark : Char) {cs : List Char} (h : ∀ c ∈ cs, p c) :
    ∀ word ∈ cs.splitOn mark, ∀ c ∈ word, p c :=
  fun _ hword c hc => h c (mem_of_mem_splitOn hword c hc).1

theorem notMem_of_mem_splitOn {mark : Char} {cs piece : List Char}
    (h : piece ∈ cs.splitOn mark) : mark ∉ piece :=
  fun hmark => (mem_of_mem_splitOn h mark hmark).2 rfl

theorem consistsOf_trim {cs : List Char} (h : ∀ c ∈ cs, p c) : ∀ c ∈ trim cs, p c :=
  fun c hc => h c ((trim_isInfix cs).subset hc)

end

/-- Does not end a line. -/
def IsInLine (c : Char) : Prop := c ≠ '\n'

/-- Neither ends a line nor is a parenthesis. -/
def IsPlain (c : Char) : Prop := c ≠ '\n' ∧ c ≠ '(' ∧ c ≠ ')'

/-- Is neither blank nor a parenthesis. -/
def IsSolid (c : Char) : Prop := isBlank c = false ∧ c ≠ '(' ∧ c ≠ ')'

instance : DecidablePred IsInLine := fun c => inferInstanceAs (Decidable (c ≠ '\n'))

instance : DecidablePred IsPlain := fun c =>
  inferInstanceAs (Decidable (c ≠ '\n' ∧ c ≠ '(' ∧ c ≠ ')'))

instance : DecidablePred IsSolid := fun c =>
  inferInstanceAs (Decidable (isBlank c = false ∧ c ≠ '(' ∧ c ≠ ')'))

theorem consistsOf_isInLine {text : String} : ConsistsOf IsInLine text ↔ '\n' ∉ text.toList := by
  constructor
  · exact fun h hm => h '\n' hm rfl
  · exact fun h c hc heq => h (heq ▸ hc)

theorem isInLine_toString (n : Nat) : ConsistsOf IsInLine (toString n) := by
  intro c hc
  have hdigits : (toString n).toList = Nat.toDigits 10 n := Nat.toList_repr
  rw [hdigits] at hc
  have hdigit := Nat.isDigit_of_mem_toDigits (by decide) (by decide) hc
  rintro rfl
  exact absurd hdigit (by decide)

theorem IsPlain.isInLine {c : Char} (h : IsPlain c) : IsInLine c := h.1

theorem IsSolid.isPlain {c : Char} (h : IsSolid c) : IsPlain c := by
  refine ⟨?_, h.2⟩
  rintro rfl
  exact absurd h.1 (by decide)

private theorem mem_expandingCapitals {code : Nat} {capital : List Nat}
    (h : expandingCapitals.lookup code = some capital) : (code, capital) ∈ expandingCapitals := by
  obtain ⟨front, back, hsplit, -⟩ := List.lookup_eq_some_iff.mp h
  rw [hsplit]
  exact List.mem_append_right front List.mem_cons_self

/-- What holds of all capitals in the tables, and of characters that are in none, holds of every
capital. -/
theorem forall_mem_capitalCodes {p : Nat → Nat → Prop}
    (hexpanding : ∀ entry ∈ expandingCapitals, ∀ capital ∈ entry.2, p entry.1 capital)
    (hruns : ∀ run ∈ capitalRuns, ∀ code, run.covers code = true →
      p code (run.capital + (code - run.first)))
    (hself : ∀ code, expandingCapitals.lookup code = none →
      (∀ run ∈ capitalRuns, run.covers code = false) → p code code) {code : Nat} :
    ∀ capital ∈ capitalCodes code, p code capital := by
  intro capital h
  unfold capitalCodes at h
  split at h
  · rename_i codes hlookup
    exact hexpanding _ (mem_expandingCapitals hlookup) capital h
  · rename_i run _ hfind
    have hcovers := List.find?_some hfind
    rw [List.mem_singleton.mp h]
    exact hruns run (List.mem_of_find?_eq_some hfind) code hcovers
  · rename_i hlookup hfind
    rw [List.mem_singleton.mp h]
    exact hself code hlookup fun run hrun =>
      eq_false_of_ne_true (List.find?_eq_none.mp hfind run hrun)

private theorem le_of_mem_capitalCodes {code capital : Nat} (h : capital ∈ capitalCodes code) :
    0x41 ≤ capital ∨ capital = code := by
  have hexpanding : ∀ entry ∈ expandingCapitals, ∀ capital ∈ entry.2, 0x41 ≤ capital := by
    decide +kernel
  have hruns : ∀ run ∈ capitalRuns, 0x41 ≤ run.capital := by decide +kernel
  refine forall_mem_capitalCodes (p := fun code capital => 0x41 ≤ capital ∨ capital = code)
    ?_ ?_ ?_ capital h
  · exact fun entry hentry capital hc => .inl (hexpanding entry hentry capital hc)
  · exact fun run hrun code _ => .inl (Nat.le_trans (hruns run hrun) (Nat.le_add_right _ _))
  · exact fun code _ _ => .inr rfl

theorem toNat_mem_capitalCodes {c d : Char} (h : d ∈ uppercase c) (hd : d.toNat ≠ 0) :
    d.toNat ∈ capitalCodes c.toNat := by
  obtain ⟨code, hcode, rfl⟩ := List.mem_map.mp h
  by_cases hvalid : code.isValidChar
  · rw [Char.ofNat, dif_pos hvalid]
    exact hcode
  · rw [Char.ofNat, dif_neg hvalid] at hd
    exact absurd rfl hd

theorem isInLine_uppercase {c : Char} (h : IsInLine c) : ∀ d ∈ uppercase c, IsInLine d := by
  rintro _ hd rfl
  rcases le_of_mem_capitalCodes (toNat_mem_capitalCodes hd (by decide)) with hle | hsame
  · exact absurd hle (by decide)
  · exact h (Char.toNat_inj.mp hsame.symm)

def IsSmall (c : Char) : Prop := 'a' ≤ c ∧ c ≤ 'z'

instance : DecidablePred IsSmall := fun c => inferInstanceAs (Decidable ('a' ≤ c ∧ c ≤ 'z'))

theorem isSmall_iff_toNat {c : Char} : IsSmall c ↔ 0x61 ≤ c.toNat ∧ c.toNat ≤ 0x7A := Iff.rfl

theorem not_isSmall_uppercase {c : Char} : ∀ d ∈ uppercase c, ¬ IsSmall d := by
  have hexpanding : ∀ entry ∈ expandingCapitals, ∀ capital ∈ entry.2,
      ¬ (0x61 ≤ capital ∧ capital ≤ 0x7A) := by
    decide +kernel
  -- The capitals of a run are as far apart as its characters.
  have hruns : ∀ run ∈ capitalRuns,
      run.capital + (run.last - run.first) < 0x61 ∨ 0x7A < run.capital := by
    decide +kernel
  intro d hd hsmall
  rw [isSmall_iff_toNat] at hsmall
  have hcode := toNat_mem_capitalCodes hd (by omega)
  refine forall_mem_capitalCodes (p := fun _ capital => ¬ (0x61 ≤ capital ∧ capital ≤ 0x7A))
    hexpanding ?_ ?_ d.toNat hcode hsmall
  · intro run hrun code hcovers
    have hrange := hruns run hrun
    simp only [CapitalRun.covers, Bool.and_eq_true, decide_eq_true_eq] at hcovers
    omega
  · intro code _ hnone hcode
    have halphabet := hnone ⟨0x61, 0x7A, 1, 0x41⟩ List.mem_cons_self
    simp [CapitalRun.covers, hcode, Nat.mod_one] at halphabet

theorem uppercase_ne_nil (c : Char) : uppercase c ≠ [] := by
  have hexpanding : ∀ entry ∈ expandingCapitals, entry.2 ≠ [] := by decide +kernel
  rw [uppercase, Ne, List.map_eq_nil_iff]
  unfold capitalCodes
  split
  · rename_i codes hlookup
    exact hexpanding _ (mem_expandingCapitals hlookup)
  · exact List.cons_ne_nil _ _
  · exact List.cons_ne_nil _ _

end NativeBindings.Text
