import Mathlib.Data.List.Basic

namespace PackageKitDart.SequentialRead

/-- A position in a sequence: the items ahead of it, and how to move past some of them. -/
structure Cursor (σ β : Type) where
  ahead : σ → List β
  advance : ℕ → σ → σ
  advance_zero : ∀ s, advance 0 s = s
  advance_advance : ∀ m n s, advance n (advance m s) = advance (m + n) s
  ahead_advance : ∀ n s, ahead (advance n s) = (ahead s).drop n

variable {σ β ε α γ : Type} {c : Cursor σ β}

theorem bind_run {r : StateT σ (Except ε) α} {f : α → StateT σ (Except ε) γ} {s s' : σ} {a : α}
    (h : r s = .ok (a, s')) : (r >>= f) s = f a s' := by
  simp only [Bind.bind, StateT.bind, h, Except.bind]

theorem error_run {r : StateT σ (Except ε) α} {f : α → StateT σ (Except ε) γ} {s : σ} {e : ε}
    (h : r s = .error e) : (r >>= f) s = .error e := by
  simp only [Bind.bind, StateT.bind, h, Except.bind]

theorem lift_run {x : Except ε α} {a : α} (h : x = .ok a) (s : σ) :
    (liftM x : StateT σ (Except ε) α) s = .ok (a, s) := by
  subst h
  rfl

/-- The items `bs` are read as `a` whatever follows them, and nothing beyond them is consumed. -/
def Reads (c : Cursor σ β) (r : StateT σ (Except ε) α) (bs : List β) (a : α) : Prop :=
  ∀ s rest, c.ahead s = bs ++ rest → r s = .ok (a, c.advance bs.length s)

theorem Reads.pure (a : α) : Reads c (Pure.pure a : StateT σ (Except ε) α) [] a := by
  intro s rest _
  simp only [List.length_nil, c.advance_zero]
  rfl

theorem Reads.lift {x : Except ε α} {a : α} (h : x = .ok a) :
    Reads c (liftM x : StateT σ (Except ε) α) [] a := by
  intro s rest _
  simp only [List.length_nil, c.advance_zero]
  exact lift_run h s

theorem Reads.bind {r : StateT σ (Except ε) α} {f : α → StateT σ (Except ε) γ}
    {bs bs' : List β} {a : α} {b : γ} (h : Reads c r bs a) (h' : Reads c (f a) bs' b) :
    Reads c (r >>= f) (bs ++ bs') b := by
  intro s rest hs
  have hfirst : r s = .ok (a, c.advance bs.length s) :=
    h s (bs' ++ rest) (by rw [hs, List.append_assoc])
  have hahead : c.ahead (c.advance bs.length s) = bs' ++ rest := by
    rw [c.ahead_advance, hs, List.append_assoc, List.drop_left]
  have hsecond := h' _ rest hahead
  rw [c.advance_advance] at hsecond
  calc (r >>= f) s = f a (c.advance bs.length s) := bind_run hfirst
    _ = .ok (b, c.advance (bs ++ bs').length s) := by rw [hsecond, List.length_append]

/-- A trailing step that reads nothing, such as building the record. -/
theorem Reads.bind_nil {r : StateT σ (Except ε) α} {f : α → StateT σ (Except ε) γ}
    {bs : List β} {a : α} {b : γ} (h : Reads c r bs a) (h' : Reads c (f a) [] b) :
    Reads c (r >>= f) bs b := by
  simpa only [List.append_nil] using h.bind h'

theorem ok_of_bind {r : StateT σ (Except ε) α} {f : α → StateT σ (Except ε) γ} {s s' : σ} {b : γ}
    (h : (r >>= f) s = .ok (b, s')) : ∃ a t, r s = .ok (a, t) ∧ f a t = .ok (b, s') := by
  cases hr : r s with
  | error e =>
    rw [error_run hr] at h
    cases h
  | ok p =>
    obtain ⟨a, t⟩ := p
    rw [bind_run hr] at h
    exact ⟨a, t, rfl, h⟩

theorem error_of_bind {r : StateT σ (Except ε) α} {f : α → StateT σ (Except ε) γ} {s : σ} {e : ε}
    (h : (r >>= f) s = .error e) :
    r s = .error e ∨ ∃ a t, r s = .ok (a, t) ∧ f a t = .error e := by
  cases hr : r s with
  | error e' =>
    rw [error_run hr] at h
    cases h
    exact .inl rfl
  | ok p =>
    obtain ⟨a, t⟩ := p
    rw [bind_run hr] at h
    exact .inr ⟨a, t, rfl, h⟩

theorem ok_of_lift {x : Except ε α} {s s' : σ} {a : α}
    (h : (liftM x : StateT σ (Except ε) α) s = .ok (a, s')) : x = .ok a ∧ s' = s := by
  cases x with
  | error e => cases h
  | ok b =>
    cases h
    exact ⟨rfl, rfl⟩

/-- Besides, any proper beginning of the items is too short for the reader. -/
structure Takes (c : Cursor σ β) (short : ε → Prop) (r : StateT σ (Except ε) α) (bs : List β)
    (a : α) : Prop where
  reads : Reads c r bs a
  short : ∀ s, c.ahead s <+: bs → c.ahead s ≠ bs → ∃ e, short e ∧ r s = .error e

/-- Whenever the reader succeeds, it has taken some items and looked no further. -/
def Exact (c : Cursor σ β) (short : ε → Prop) (r : StateT σ (Except ε) α) : Prop :=
  ∀ s a s', r s = .ok (a, s') →
    ∃ bs rest, c.ahead s = bs ++ rest ∧ s' = c.advance bs.length s ∧ Takes c short r bs a

variable {short : ε → Prop}

theorem Takes.bind {r : StateT σ (Except ε) α} {f : α → StateT σ (Except ε) γ}
    {bs bs' : List β} {a : α} {b : γ} (h : Takes c short r bs a) (h' : Takes c short (f a) bs' b) :
    Takes c short (r >>= f) (bs ++ bs') b := by
  refine ⟨h.reads.bind h'.reads, ?_⟩
  intro s hbegin hne
  by_cases hfirst : bs <+: c.ahead s
  · obtain ⟨rest, hrest⟩ := hfirst
    have hrun := h.reads s rest hrest.symm
    have hahead : c.ahead (c.advance bs.length s) = rest := by
      rw [c.ahead_advance, ← hrest, List.drop_left]
    rw [← hrest] at hbegin hne
    obtain ⟨e, he, herror⟩ := h'.short (c.advance bs.length s)
      (hahead ▸ (List.prefix_append_right_inj bs).mp hbegin)
      (hahead ▸ fun heq ↦ hne (congrArg (bs ++ ·) heq))
    exact ⟨e, he, (bind_run hrun).trans herror⟩
  · have hshort : c.ahead s <+: bs :=
      (List.prefix_or_prefix_of_prefix hbegin (List.prefix_append bs bs')).resolve_right hfirst
    obtain ⟨e, he, herror⟩ := h.short s hshort (fun heq ↦ hfirst (heq ▸ List.prefix_refl bs))
    exact ⟨e, he, error_run herror⟩

theorem Exact.lift (x : Except ε α) : Exact c short (liftM x : StateT σ (Except ε) α) := by
  intro s a s' h
  obtain ⟨hx, rfl⟩ := ok_of_lift h
  refine ⟨[], c.ahead s', rfl, (c.advance_zero s').symm, Reads.lift hx, ?_⟩
  intro t hbegin hne
  exact absurd (List.prefix_nil.mp hbegin) hne

theorem Exact.pure (a : α) : Exact c short (Pure.pure a : StateT σ (Except ε) α) :=
  Exact.lift (.ok a)

theorem Exact.bind {r : StateT σ (Except ε) α} {f : α → StateT σ (Except ε) γ}
    (h : Exact c short r) (h' : ∀ s a s', r s = .ok (a, s') → Exact c short (f a)) :
    Exact c short (r >>= f) := by
  intro s b s' hrun
  obtain ⟨a, t, hr, hf⟩ := ok_of_bind hrun
  obtain ⟨bs, rest, hahead, rfl, htakes⟩ := h s a t hr
  obtain ⟨bs', rest', hahead', rfl, htakes'⟩ := h' s a _ hr _ b s' hf
  rw [c.ahead_advance, hahead, List.drop_left] at hahead'
  refine ⟨bs ++ bs', rest', ?_, ?_, htakes.bind htakes'⟩
  · rw [hahead, hahead', List.append_assoc]
  · rw [c.advance_advance, List.length_append]

theorem take_of_comparable {l l' : List β} {width : ℕ} (hl : width ≤ l.length)
    (hl' : width ≤ l'.length) (h : l <+: l' ∨ l' <+: l) : l.take width = l'.take width := by
  rcases h with ⟨rest, rfl⟩ | ⟨rest, rfl⟩
  · rw [List.take_append_of_le_length hl]
  · rw [List.take_append_of_le_length hl']

/-- A reader that takes a header of fixed width and as many items more as the header says. -/
theorem Exact.of_header {r : StateT σ (Except ε) α} (width : ℕ) (size : List β → ℕ)
    (f : List β → α) (fail fail' : σ → ε) (hfail : ∀ s, short (fail s))
    (hfail' : ∀ s, short (fail' s))
    (h : ∀ s, r s = if (c.ahead s).length < width then .error (fail s)
      else if (c.ahead s).length < width + size ((c.ahead s).take width) then .error (fail' s)
      else .ok (f ((c.ahead s).take (width + size ((c.ahead s).take width))),
        c.advance (width + size ((c.ahead s).take width)) s)) : Exact c short r := by
  intro s a s' hrun
  rw [h] at hrun
  split at hrun
  · cases hrun
  split at hrun
  · cases hrun
  next hwidth hsize =>
  cases hrun
  generalize hn : width + size ((c.ahead s).take width) = n at hsize ⊢
  have hlen : ((c.ahead s).take n).length = n := by
    rw [List.length_take]
    omega
  -- items that begin like those taken have the same header
  have hsame : ∀ l : List β, width ≤ l.length →
      l <+: (c.ahead s).take n ∨ (c.ahead s).take n <+: l →
      l.take width = (c.ahead s).take width := by
    intro l hl hbegin
    rw [take_of_comparable hl (by omega) hbegin, List.take_take, Nat.min_eq_left (by omega)]
  refine ⟨(c.ahead s).take n, (c.ahead s).drop n, (List.take_append_drop n _).symm,
    by rw [hlen], ?_, ?_⟩
  · intro t rest ht
    have hlt := congrArg List.length ht
    rw [List.length_append, hlen] at hlt
    have hhead := hsame (c.ahead t) (by omega) (.inr ⟨rest, ht.symm⟩)
    rw [h, hhead, hn, if_neg (by omega), if_neg (by omega), ht, hlen, List.take_left' hlen]
  · intro t hbegin hne
    have hlt : (c.ahead t).length < n := by
      rcases Nat.lt_or_ge (c.ahead t).length n with hlt | hge
      · exact hlt
      · exact absurd (hbegin.eq_of_length_le (by omega)) hne
    rw [h]
    split
    · exact ⟨_, hfail t, rfl⟩
    · next hge =>
      rw [hsame (c.ahead t) (by omega) (.inl hbegin), hn, if_pos hlt]
      exact ⟨_, hfail' t, rfl⟩

/-- Two runs end alike: with one allowed error, or with one value in related states. -/
def Alike (R : σ → σ → Prop) (E : ε → Prop) : Except ε (α × σ) → Except ε (α × σ) → Prop
  | .error e, .error e' => e = e' ∧ E e
  | .ok (a, s), .ok (a', s') => a = a' ∧ R s s'
  | .error _, .ok _ | .ok _, .error _ => False

theorem Alike.map_fst {R : σ → σ → Prop} {E : ε → Prop} {x x' : Except ε (α × σ)}
    (h : Alike R E x x') : x.map Prod.fst = x'.map Prod.fst := by
  cases x with
  | error e =>
    cases x' with
    | error e' => exact congrArg Except.error h.1
    | ok p' => cases h
  | ok p =>
    cases x' with
    | error e' => cases h
    | ok p' => exact congrArg Except.ok h.1

theorem Alike.error {R : σ → σ → Prop} {E : ε → Prop} {x : Except ε (α × σ)} {e : ε}
    (h : Alike R E (.error e) x) : E e := by
  cases x with
  | error e' => exact h.2
  | ok p => cases h

/-- The reader depends only on what related states have in common. -/
def Confined (R : σ → σ → Prop) (E : ε → Prop) (r : StateT σ (Except ε) α) : Prop :=
  ∀ s s', R s s' → Alike R E (r s) (r s')

variable {R : σ → σ → Prop} {E : ε → Prop}

theorem Confined.lift {x : Except ε α} (h : ∀ e, x = .error e → E e) :
    Confined R E (liftM x : StateT σ (Except ε) α) := by
  intro s s' hs
  cases x with
  | error e => exact ⟨rfl, h e rfl⟩
  | ok a => exact ⟨rfl, hs⟩

theorem Confined.pure (a : α) : Confined R E (Pure.pure a : StateT σ (Except ε) α) :=
  Confined.lift (x := .ok a) (fun e he ↦ by cases he)

theorem Confined.mono {E' : ε → Prop} {r : StateT σ (Except ε) α} (h : Confined R E r)
    (hE : ∀ e, E e → E' e) : Confined R E' r := by
  intro s s' hs
  have hrun := h s s' hs
  cases hr : r s with
  | error e =>
    cases hr' : r s' with
    | error e' =>
      rw [hr, hr'] at hrun
      exact ⟨hrun.1, hE e hrun.2⟩
    | ok p' => rw [hr, hr'] at hrun; cases hrun
  | ok p =>
    cases hr' : r s' with
    | error e' => rw [hr, hr'] at hrun; cases hrun
    | ok p' => rwa [hr, hr'] at hrun

theorem Confined.error {r : StateT σ (Except ε) α} {s : σ} {e : ε} (h : Confined R E r)
    (hs : R s s) (hr : r s = .error e) : E e := by
  have hself := h s s hs
  rw [hr] at hself
  exact hself.error

theorem Confined.bind {r : StateT σ (Except ε) α} {f : α → StateT σ (Except ε) γ}
    (h : Confined R E r) (h' : ∀ s a s', r s = .ok (a, s') → Confined R E (f a)) :
    Confined R E (r >>= f) := by
  intro s s' hs
  have hfirst := h s s' hs
  cases hr : r s with
  | error e =>
    cases hr' : r s' with
    | error e' =>
      rw [hr, hr'] at hfirst
      rwa [error_run hr, error_run hr']
    | ok p' => rw [hr, hr'] at hfirst; cases hfirst
  | ok p =>
    cases hr' : r s' with
    | error e' => rw [hr, hr'] at hfirst; cases hfirst
    | ok p' =>
      obtain ⟨a, t⟩ := p
      obtain ⟨a', t'⟩ := p'
      rw [hr, hr'] at hfirst
      obtain ⟨rfl, ht⟩ := hfirst
      rw [bind_run hr, bind_run hr']
      exact h' s a t hr t t' ht

end PackageKitDart.SequentialRead
