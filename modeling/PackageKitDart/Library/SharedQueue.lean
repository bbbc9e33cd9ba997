import Mathlib.Algebra.BigOperators.Group.Finset.Basic
import Mathlib.Algebra.Order.BigOperators.Group.Finset
import PackageKitDart.Library.MergedTrace

namespace PackageKitDart.SharedQueue

open MergedTrace

variable {ι α : Type}

/-- A queue with several writers, whose items may be late, and one reader. -/
structure State (ι α : Type) where
  pending : ι → List α
  queue : List (ι × α) := []
  taken : List (ι × α) := []

namespace State

/-- The reader takes the next item. -/
def take (s : State ι α) : State ι α :=
  match s.queue with
  | [] => s
  | x :: rest => { s with
      queue := rest
      taken := s.taken ++ [x] }

structure Quiet (s : State ι α) : Prop where
  pending : ∀ i, s.pending i = []
  queue : s.queue = []

/-- How many steps of the writers and of the reader are left. -/
def work [Fintype ι] (s : State ι α) : ℕ := 2 * ∑ i, (s.pending i).length + s.queue.length

variable {s : State ι α}

theorem work_take_lt [Fintype ι] (h : s.queue ≠ []) : s.take.work < s.work := by
  obtain ⟨x, rest, hqueue⟩ := List.exists_cons_of_ne_nil h
  simp only [take, hqueue, work, List.length_cons]
  omega

theorem exists_of_not_quiet (h : ¬ s.Quiet) : (∃ i, s.pending i ≠ []) ∨ s.queue ≠ [] := by
  by_contra hnone
  rw [not_or, not_exists] at hnone
  exact h ⟨fun i ↦ not_not.mp (hnone.1 i), not_not.mp hnone.2⟩

variable [DecidableEq ι]

/-- A writer has more items to write. -/
def submit (s : State ι α) (i : ι) (items : List α) : State ι α :=
  { s with pending := Function.update s.pending i (s.pending i ++ items) }

/-- A writer writes its next item. -/
def post (s : State ι α) (i : ι) : State ι α :=
  match s.pending i with
  | [] => s
  | a :: rest => { s with
      pending := Function.update s.pending i rest
      queue := s.queue ++ [(i, a)] }

/-- All that a writer ever had to write, as far as it is still there. -/
def total (s : State ι α) (i : ι) : List α := proj i (s.taken ++ s.queue) ++ s.pending i

theorem total_submit_self (s : State ι α) (i : ι) (items : List α) :
    (s.submit i items).total i = s.total i ++ items := by
  simp [total, submit]

theorem total_submit_of_ne {i j : ι} (h : j ≠ i) (s : State ι α) (items : List α) :
    (s.submit i items).total j = s.total j := by
  simp [total, submit, h]

/-- Writing loses nothing and changes no order. -/
theorem total_post (s : State ι α) (i j : ι) : (s.post i).total j = s.total j := by
  cases hpending : s.pending i with
  | nil => simp [post, hpending]
  | cons a rest =>
    simp only [total, post, hpending, ← List.append_assoc, proj_append _ (s.taken ++ s.queue)]
    by_cases hj : j = i
    · subst hj
      rw [Function.update_self, hpending, proj_cons_self]
      simp [proj]
    · rw [Function.update_of_ne hj, proj_cons_of_ne (Ne.symm hj)]
      simp [proj]

theorem total_take (s : State ι α) (j : ι) : s.take.total j = s.total j := by
  cases hqueue : s.queue with
  | nil => simp [take, hqueue]
  | cons x rest => simp [total, take, hqueue]

theorem work_post_lt [Fintype ι] {i : ι} (h : s.pending i ≠ []) : (s.post i).work < s.work := by
  obtain ⟨a, rest, hpending⟩ := List.exists_cons_of_ne_nil h
  have hsum : ∑ j, (Function.update s.pending i rest j).length < ∑ j, (s.pending j).length := by
    apply Finset.sum_lt_sum
    · intro j _
      by_cases hj : j = i
      · subst hj
        rw [Function.update_self, hpending, List.length_cons]
        omega
      · rw [Function.update_of_ne hj]
    · refine ⟨i, Finset.mem_univ i, ?_⟩
      rw [Function.update_self, hpending, List.length_cons]
      omega
  simp only [post, hpending, work, List.length_append, List.length_singleton]
  omega

end State

end PackageKitDart.SharedQueue
