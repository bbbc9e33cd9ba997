import Mathlib.Algebra.BigOperators.Group.List.Basic
import Mathlib.Algebra.Ring.Nat
import Mathlib.Data.List.Basic

namespace PackageKitDart.TaskQueue

/-- Tasks over a state. A task may queue further ones, but only lighter ones,
so that a queue always runs dry. -/
structure Tasks (σ τ : Type) where
  exec : τ → σ → σ × List τ
  weight : τ → ℕ
  spawn_lt : ∀ t s, ((exec t s).2.map weight).sum < weight t

namespace Tasks

variable {σ τ : Type} (T : Tasks σ τ)

def total (queue : List τ) : ℕ := (queue.map T.weight).sum

/-- First in, first out, for at most `fuel` tasks. -/
def loop : (fuel : ℕ) → σ → List τ → σ × List τ
  | 0, s, queue => (s, queue)
  | _ + 1, s, [] => (s, [])
  | fuel + 1, s, t :: queue => loop fuel (T.exec t s).1 (queue ++ (T.exec t s).2)

def drain (s : σ) (queue : List τ) : σ := (T.loop (T.total queue) s queue).1

theorem total_exec (t : τ) (s : σ) (queue : List τ) :
    T.total (queue ++ (T.exec t s).2) < T.total (t :: queue) := by
  have h := T.spawn_lt t s
  simp only [total, List.map_append, List.sum_append, List.map_cons, List.sum_cons]
  omega

/-- The weight of the queue is fuel enough to empty it. -/
theorem loop_empties (fuel : ℕ) (s : σ) (queue : List τ) (h : T.total queue ≤ fuel) :
    (T.loop fuel s queue).2 = [] := by
  induction fuel generalizing s queue with
  | zero =>
    cases queue with
    | nil => rfl
    | cons t queue =>
      have hlt := T.total_exec t s queue
      omega
  | succ fuel ih =>
    cases queue with
    | nil => rfl
    | cons t queue =>
      have hlt := T.total_exec t s queue
      exact ih _ _ (by omega)

theorem loop_congr (fuel fuel' : ℕ) (s : σ) (queue : List τ) (h : T.total queue ≤ fuel)
    (h' : T.total queue ≤ fuel') : T.loop fuel s queue = T.loop fuel' s queue := by
  induction fuel generalizing fuel' s queue with
  | zero =>
    cases queue with
    | nil => cases fuel' <;> rfl
    | cons t queue =>
      have hlt := T.total_exec t s queue
      omega
  | succ fuel ih =>
    cases queue with
    | nil => cases fuel' <;> rfl
    | cons t queue =>
      have hlt := T.total_exec t s queue
      obtain ⟨k, rfl⟩ : ∃ k, fuel' = k + 1 := ⟨fuel' - 1, by omega⟩
      exact ih k _ _ (by omega) (by omega)

@[simp]
theorem drain_nil (s : σ) : T.drain s [] = s := rfl

theorem drain_cons (s : σ) (t : τ) (queue : List τ) :
    T.drain s (t :: queue) = T.drain (T.exec t s).1 (queue ++ (T.exec t s).2) := by
  have hlt := T.total_exec t s queue
  obtain ⟨k, hk⟩ : ∃ k, T.total (t :: queue) = k + 1 := ⟨T.total (t :: queue) - 1, by omega⟩
  have hcongr := T.loop_congr k (T.total (queue ++ (T.exec t s).2)) (T.exec t s).1
    (queue ++ (T.exec t s).2) (by omega) (Nat.le_refl _)
  rw [drain, drain, hk, loop, hcongr]

theorem drain_singleton (s : σ) (t : τ) :
    T.drain s [t] = T.drain (T.exec t s).1 (T.exec t s).2 := by
  rw [drain_cons, List.nil_append]

theorem drain_invariant {I : σ → Prop} (hstep : ∀ t s, I s → I (T.exec t s).1) {s : σ}
    (h : I s) (queue : List τ) : I (T.drain s queue) := by
  unfold drain
  generalize T.total queue = fuel
  induction fuel generalizing s queue with
  | zero => exact h
  | succ fuel ih =>
    cases queue with
    | nil => exact h
    | cons t queue => exact ih (hstep t s h) _

/-- One queue system follows another one when every task either runs as a task
of the other, and queues the same tasks there, or does not concern it. -/
theorem drain_simulation {σ' τ' : Type} (T' : Tasks σ' τ') (π : σ → σ') (f : τ → Option τ')
    (hskip : ∀ t s, f t = none →
      π (T.exec t s).1 = π s ∧ (T.exec t s).2.filterMap f = [])
    (hstep : ∀ t t' s, f t = some t' →
      π (T.exec t s).1 = (T'.exec t' (π s)).1 ∧
        (T.exec t s).2.filterMap f = (T'.exec t' (π s)).2)
    (s : σ) (queue : List τ) : π (T.drain s queue) = T'.drain (π s) (queue.filterMap f) := by
  induction hn : T.total queue using Nat.strongRecOn generalizing s queue with
  | ind n ih =>
    cases queue with
    | nil => rfl
    | cons t queue =>
      have hlt := T.total_exec t s queue
      have hrest := ih _ (hn ▸ hlt) (T.exec t s).1 (queue ++ (T.exec t s).2) rfl
      rw [drain_cons, hrest, List.filterMap_append]
      cases ht : f t with
      | none =>
        obtain ⟨hstate, hqueue⟩ := hskip t s ht
        rw [List.filterMap_cons_none ht, hstate, hqueue, List.append_nil]
      | some t' =>
        obtain ⟨hstate, hqueue⟩ := hstep t t' s ht
        rw [List.filterMap_cons_some ht, drain_cons, hstate, hqueue]

end Tasks

end PackageKitDart.TaskQueue
