import Mathlib.Data.Nat.Bitwise

namespace PackageKitDart.BitFlags

variable {α : Type} {value : α → ℕ} {flags flags' : List α} {w : ℕ}

/-- The values of some flags in one word. -/
def combine (value : α → ℕ) (flags : List α) : ℕ := flags.foldl (fun acc f ↦ acc ||| value f) 0

theorem foldl_or (acc : ℕ) (flags : List α) :
    flags.foldl (fun acc f ↦ acc ||| value f) acc = acc ||| combine value flags := by
  induction flags generalizing acc with
  | nil => exact (Nat.or_zero acc).symm
  | cons f flags ih =>
    rw [combine, List.foldl_cons, List.foldl_cons, ih, ih, Nat.zero_or, Nat.or_assoc]

theorem combine_cons (f : α) (flags : List α) :
    combine value (f :: flags) = value f ||| combine value flags := by
  rw [combine, List.foldl_cons, foldl_or, Nat.zero_or]

theorem combine_append (flags flags' : List α) :
    combine value (flags ++ flags') = combine value flags ||| combine value flags' := by
  rw [combine, List.foldl_append, foldl_or]
  rfl

theorem testBit_combine (flags : List α) (i : ℕ) :
    (combine value flags).testBit i = flags.any (fun f ↦ (value f).testBit i) := by
  induction flags with
  | nil => exact Nat.zero_testBit i
  | cons f flags ih => rw [combine_cons, Nat.testBit_or, ih, List.any_cons]

theorem combine_lt (h : ∀ f ∈ flags, value f < 2 ^ w) : combine value flags < 2 ^ w := by
  induction flags with
  | nil => exact Nat.two_pow_pos w
  | cons f flags ih =>
    obtain ⟨hf, hflags⟩ := List.forall_mem_cons.mp h
    rw [combine_cons]
    exact Nat.or_lt_two_pow hf (ih hflags)

/-- Every flag has a bit of its own, or none at all. -/
structure Separate (value : α → ℕ) : Prop where
  bit : ∀ f, value f = 0 ∨ ∃ i, value f = 2 ^ i
  own : ∀ f g, value f = value g → value f = 0 ∨ f = g

theorem Separate.testBit_iff (h : Separate value) {f : α} {i : ℕ} (hf : value f = 2 ^ i) :
    (combine value flags).testBit i = true ↔ f ∈ flags := by
  rw [testBit_combine, List.any_eq_true]
  constructor
  · intro hany
    obtain ⟨g, hg, hbit⟩ := hany
    rcases h.bit g with hzero | ⟨j, hj⟩
    · rw [hzero, Nat.zero_testBit] at hbit
      cases hbit
    · rw [hj, Nat.testBit_two_pow, decide_eq_true_eq] at hbit
      subst hbit
      rcases h.own f g (hf.trans hj.symm) with hzero | rfl
      · rw [hf] at hzero
        exact absurd hzero (Nat.two_pow_pos j).ne'
      · exact hg
  · intro hmem
    exact ⟨f, hmem, by rw [hf, Nat.testBit_two_pow_self]⟩

/-- The flags have the same bits set, whatever their order and however often one comes. -/
def Same (value : α → ℕ) (flags flags' : List α) : Prop :=
  ∀ f, value f ≠ 0 → (f ∈ flags ↔ f ∈ flags')

theorem Separate.combine_eq_iff (h : Separate value) :
    combine value flags = combine value flags' ↔ Same value flags flags' := by
  constructor
  · intro heq f hf
    rcases h.bit f with hzero | ⟨i, hi⟩
    · exact absurd hzero hf
    · rw [← h.testBit_iff hi, ← h.testBit_iff hi, heq]
  · intro hsame
    apply Nat.eq_of_testBit_eq
    intro i
    rw [Bool.eq_iff_iff, testBit_combine, testBit_combine, List.any_eq_true, List.any_eq_true]
    refine exists_congr (fun f ↦ and_congr_left (fun hbit ↦ hsame f ?_))
    intro hzero
    rw [hzero, Nat.zero_testBit] at hbit
    cases hbit

end PackageKitDart.BitFlags
