import PackageKitDart.Library.SequentialRead

namespace PackageKitDart.TracedRun

open SequentialRead

/-- Computations that may throw and that write down what they access. -/
abbrev Traced (ε κ : Type) := ExceptT ε (StateM (List κ))

variable {ε κ α β σ : Type}

/-- An access is written down before it is made, whatever comes of it. -/
def access (x : κ) (d : Except ε α) : Traced ε κ α := do
  modify (fun log ↦ log ++ [x])
  liftM d

/-- The result of a traced computation, with what it has written down. -/
def Traced.trace (t : Traced ε κ α) : Except ε α × List κ := (ExceptT.run t).run []

/-- The traced computation comes to the result of the plain one, and what it
writes down satisfies `P`. -/
def Logs (P : κ → Prop) (t : Traced ε κ α) (d : Except ε α) : Prop :=
  ∀ log, ∃ new, (ExceptT.run t).run log = (d, log ++ new) ∧ ∀ x ∈ new, P x

namespace Logs

variable {P : κ → Prop}

theorem lift (d : Except ε α) : Logs P (liftM d) d :=
  fun log ↦ ⟨[], congrArg (Prod.mk d) (List.append_nil log).symm, List.forall_mem_nil _⟩

theorem pure (a : α) : Logs P (Pure.pure a : Traced ε κ α) (.ok a) := lift (.ok a)

theorem throw (e : ε) : Logs P (MonadExcept.throw e : Traced ε κ α) (.error e) := lift (.error e)

theorem access {x : κ} (hx : P x) (d : Except ε α) : Logs P (TracedRun.access x d) d :=
  fun _ ↦ ⟨[x], rfl, List.forall_mem_singleton.mpr hx⟩

theorem bind {t : Traced ε κ α} {d : Except ε α} {f : α → Traced ε κ β} {g : α → Except ε β}
    (h : Logs P t d) (h' : ∀ a, d = .ok a → Logs P (f a) (g a)) : Logs P (t >>= f) (d >>= g) := by
  intro log
  obtain ⟨new, hrun, hnew⟩ := h log
  cases d with
  | error e =>
    refine ⟨new, ?_, hnew⟩
    rw [ExceptT.run_bind, StateT.run_bind, hrun]
    rfl
  | ok a =>
    obtain ⟨new', hrun', hnew'⟩ := h' a rfl (log ++ new)
    refine ⟨new ++ new', ?_, List.forall_mem_append.mpr ⟨hnew, hnew'⟩⟩
    rw [ExceptT.run_bind, StateT.run_bind, hrun]
    change (ExceptT.run (f a)).run (log ++ new) = _
    rw [hrun', List.append_assoc]
    rfl

theorem trace_eq {t : Traced ε κ α} {d : Except ε α} (h : Logs P t d) :
    t.trace.1 = d ∧ ∀ x ∈ t.trace.2, P x := by
  obtain ⟨new, hrun, hnew⟩ := h []
  rw [Traced.trace, hrun]
  exact ⟨rfl, hnew⟩

end Logs

/-- The same for programs with a state, run from a state; `I` holds of the state they end in. -/
structure LogsAt (I : σ → Prop) (P : κ → Prop) (t : StateT σ (Traced ε κ) α)
    (d : StateT σ (Except ε) α) (s : σ) : Prop where
  logs : Logs P (t s) (d s)
  keeps : ∀ a s', d s = .ok (a, s') → I s'

/-- The program writes down nothing but what satisfies `P`, as long as its state satisfies `I`. -/
def LogsFrom (I : σ → Prop) (P : κ → Prop) (t : StateT σ (Traced ε κ) α)
    (d : StateT σ (Except ε) α) : Prop :=
  ∀ s, I s → LogsAt I P t d s

variable {I : σ → Prop} {P : κ → Prop}

namespace LogsAt

variable {t : StateT σ (Traced ε κ) α} {d : StateT σ (Except ε) α} {s : σ}

theorem lift {t : Traced ε κ α} {d : Except ε α} (h : Logs P t d) (hs : I s) :
    LogsAt I P (liftM t : StateT σ (Traced ε κ) α) (liftM d : StateT σ (Except ε) α) s where
  logs := h.bind (fun a _ ↦ Logs.pure (a, s))
  keeps a s' hd := by
    cases d with
    | error e => cases hd
    | ok b =>
      cases hd
      exact hs

theorem bind {f : α → StateT σ (Traced ε κ) β} {g : α → StateT σ (Except ε) β}
    (h : LogsAt I P t d s)
    (h' : ∀ a s', d s = .ok (a, s') → I s' → LogsAt I P (f a) (g a) s') :
    LogsAt I P (t >>= f) (d >>= g) s where
  logs := h.logs.bind (fun p hd ↦ (h' p.1 p.2 hd (h.keeps p.1 p.2 hd)).logs)
  keeps b s'' hrun := by
    obtain ⟨a, s', hd, hnext⟩ := ok_of_bind hrun
    exact (h' a s' hd (h.keeps a s' hd)).keeps b s'' hnext

end LogsAt

namespace LogsFrom

theorem lift {t : Traced ε κ α} {d : Except ε α} (h : Logs P t d) :
    LogsFrom I P (liftM t : StateT σ (Traced ε κ) α) (liftM d : StateT σ (Except ε) α) :=
  fun _ hs ↦ .lift h hs

theorem pure (a : α) :
    LogsFrom I P (Pure.pure a : StateT σ (Traced ε κ) α) (Pure.pure a : StateT σ (Except ε) α) :=
  lift (.pure a)

theorem throw (e : ε) : LogsFrom I P (MonadExcept.throw e : StateT σ (Traced ε κ) α)
    (MonadExcept.throw e : StateT σ (Except ε) α) :=
  lift (.throw e)

theorem get : LogsFrom I P (MonadState.get : StateT σ (Traced ε κ) σ)
    (MonadState.get : StateT σ (Except ε) σ) :=
  fun s hs ↦ {
    logs := .pure (s, s)
    keeps a s' hd := by
      cases hd
      exact hs }

theorem modify {f : σ → σ} (hf : ∀ s, I s → I (f s)) :
    LogsFrom I P (modify f : StateT σ (Traced ε κ) Unit) (modify f : StateT σ (Except ε) Unit) :=
  fun s hs ↦ {
    logs := .pure ((), f s)
    keeps a s' hd := by
      cases hd
      exact hf s hs }

theorem bind {t : StateT σ (Traced ε κ) α} {d : StateT σ (Except ε) α}
    {f : α → StateT σ (Traced ε κ) β} {g : α → StateT σ (Except ε) β}
    (h : LogsFrom I P t d) (h' : ∀ a, LogsFrom I P (f a) (g a)) :
    LogsFrom I P (t >>= f) (d >>= g) :=
  fun s hs ↦ (h s hs).bind (fun a s' _ hs' ↦ h' a s' hs')

end LogsFrom

end PackageKitDart.TracedRun
