import Mathlib.Data.List.Basic

namespace PackageKitDart.MergedTrace

variable {ι α γ : Type} [DecidableEq ι]

/-- What one source contributed to a merged sequence, in the order of its own contributions. -/
def proj (i : ι) (trace : List (ι × α)) : List α :=
  (trace.filter (fun x ↦ x.1 = i)).map Prod.snd

theorem proj_append (i : ι) (p q : List (ι × α)) : proj i (p ++ q) = proj i p ++ proj i q := by
  simp [proj]

theorem proj_cons_self (i : ι) (a : α) (trace : List (ι × α)) :
    proj i ((i, a) :: trace) = a :: proj i trace := by
  simp [proj]

theorem proj_cons_of_ne {i j : ι} (h : j ≠ i) (a : α) (trace : List (ι × α)) :
    proj i ((j, a) :: trace) = proj i trace := by
  simp [proj, h]

theorem mem_proj {i : ι} {a : α} {trace : List (ι × α)} : a ∈ proj i trace ↔ (i, a) ∈ trace := by
  constructor
  · intro h
    obtain ⟨⟨j, b⟩, hmem, rfl⟩ := List.mem_map.mp h
    obtain ⟨hmem, hj⟩ := List.mem_filter.mp hmem
    have hj : j = i := by simpa using hj
    exact hj ▸ hmem
  · intro h
    exact List.mem_map.mpr ⟨(i, a), List.mem_filter.mpr ⟨h, by simp⟩, rfl⟩

theorem proj_of_forall {i : ι} {trace : List (ι × α)} (h : ∀ x ∈ trace, x.1 = i) :
    proj i trace = trace.map Prod.snd := by
  rw [proj, List.filter_eq_self.mpr (fun x hx ↦ decide_eq_true (h x hx))]

theorem proj_tag_self (i : ι) (l : List α) : proj i (l.map (i, ·)) = l := by
  rw [proj_of_forall (fun x hx ↦ by obtain ⟨a, -, rfl⟩ := List.mem_map.mp hx; rfl), List.map_map]
  exact List.map_id l

theorem proj_tag_of_ne {i j : ι} (h : j ≠ i) (l : List α) : proj i (l.map (j, ·)) = [] := by
  induction l with
  | nil => rfl
  | cons a l ih => rw [List.map_cons, proj_cons_of_ne h, ih]

theorem proj_of_initial (i : ι) {p trace : List (ι × α)} (h : p <+: trace) :
    proj i p <+: proj i trace := by
  obtain ⟨rest, rfl⟩ := h
  rw [proj_append]
  exact List.prefix_append _ _

/-- The first contribution of a source splits the merged sequence. -/
theorem exists_of_proj_cons {i : ι} {a : α} {l : List α} {trace : List (ι × α)}
    (h : proj i trace = a :: l) :
    ∃ p q, trace = p ++ (i, a) :: q ∧ proj i p = [] ∧ proj i q = l := by
  induction trace with
  | nil => cases h
  | cons x trace ih =>
    obtain ⟨k, b⟩ := x
    by_cases hk : k = i
    · subst hk
      rw [proj_cons_self] at h
      obtain ⟨rfl, hl⟩ := List.cons.inj h
      exact ⟨[], trace, rfl, rfl, hl⟩
    · rw [proj_cons_of_ne hk] at h
      obtain ⟨p, q, rfl, hp, hq⟩ := ih h
      exact ⟨(k, b) :: p, q, rfl, (proj_cons_of_ne hk b p).trans hp, hq⟩

/-- Where one of two sources contributes nothing of interest, the other one does it all. -/
theorem filterMap_snd {i j : ι} {trace : List (ι × α)} (hall : ∀ x ∈ trace, x.1 = i ∨ x.1 = j)
    {f : α → Option γ} (hj : ∀ a ∈ proj j trace, f a = none) :
    (trace.map Prod.snd).filterMap f = (proj i trace).filterMap f := by
  induction trace with
  | nil => rfl
  | cons x trace ih =>
    obtain ⟨k, a⟩ := x
    have hk : k = i ∨ k = j := hall (k, a) List.mem_cons_self
    have hrest : ∀ b ∈ proj j trace, f b = none := by
      intro b hb
      exact hj b (mem_proj.mpr (List.mem_cons_of_mem _ (mem_proj.mp hb)))
    have hsame := ih (fun y hy ↦ hall y (List.mem_cons_of_mem _ hy)) hrest
    by_cases hki : k = i
    · subst hki
      rw [proj_cons_self, List.map_cons, List.filterMap_cons, List.filterMap_cons, hsame]
    · obtain rfl : k = j := hk.resolve_left hki
      have hnone : f a = none := hj a (mem_proj.mpr List.mem_cons_self)
      rw [proj_cons_of_ne hki, List.map_cons, List.filterMap_cons_none hnone, hsame]

theorem countP_snd {i j : ι} (hij : i ≠ j) {trace : List (ι × α)}
    (hall : ∀ x ∈ trace, x.1 = i ∨ x.1 = j) (P : α → Bool) :
    (trace.map Prod.snd).countP P = (proj i trace).countP P + (proj j trace).countP P := by
  induction trace with
  | nil => rfl
  | cons x trace ih =>
    obtain ⟨k, a⟩ := x
    have hrest := ih (fun y hy ↦ hall y (List.mem_cons_of_mem _ hy))
    have hk : k = i ∨ k = j := hall (k, a) List.mem_cons_self
    rcases hk with rfl | rfl
    · simp only [proj_cons_self, proj_cons_of_ne hij, List.map_cons, List.countP_cons, hrest]
      omega
    · simp only [proj_cons_self, proj_cons_of_ne hij.symm, List.map_cons, List.countP_cons, hrest]
      omega

/-- No item in `A` without an earlier item in `B`. -/
def Guarded (A B : α → Prop) (l : List α) : Prop :=
  ∀ p x q, l = p ++ x :: q → A x → ∃ y ∈ p, B y

variable {A B : α → Prop}

theorem Guarded.nil : Guarded A B [] := by
  intro p x q h
  simp at h

theorem Guarded.of_forall_not {l : List α} (h : ∀ x ∈ l, ¬ A x) : Guarded A B l := by
  intro p x q hl hx
  exact absurd hx (h x (by simp [hl]))

theorem Guarded.left {l l' : List α} (h : Guarded A B (l ++ l')) : Guarded A B l := by
  intro p x q hl hx
  exact h p x (q ++ l') (by simp [hl]) hx

theorem Guarded.of_initial {l l' : List α} (h : Guarded A B l') (hp : l <+: l') :
    Guarded A B l := by
  obtain ⟨rest, rfl⟩ := hp
  exact h.left

theorem Guarded.append {l l' : List α} (h : Guarded A B l) (h' : Guarded A B l') :
    Guarded A B (l ++ l') := by
  intro p x q hl hx
  rcases List.append_eq_append_iff.mp hl with ⟨m, rfl, hm⟩ | ⟨m, rfl, hm⟩
  · -- the item lies in the second part
    obtain ⟨y, hy, hB⟩ := h' m x q hm hx
    exact ⟨y, List.mem_append_right _ hy, hB⟩
  · cases m with
    | nil =>
      obtain ⟨y, hy, hB⟩ := h' [] x q (by simpa using hm.symm) hx
      simp at hy
    | cons z m =>
      obtain ⟨rfl, rfl⟩ := List.cons.inj hm
      exact h p x m rfl hx

theorem Guarded.flatMap {l : List γ} {f : γ → List α} (h : ∀ x ∈ l, Guarded A B (f x)) :
    Guarded A B (l.flatMap f) := by
  induction l with
  | nil => exact .nil
  | cons x l ih =>
    rw [List.flatMap_cons]
    exact (h x List.mem_cons_self).append (ih (fun y hy ↦ h y (List.mem_cons_of_mem x hy)))

theorem Guarded.map {f : γ → α} {l : List γ} (h : Guarded (fun x ↦ A (f x)) (fun x ↦ B (f x)) l) :
    Guarded A B (l.map f) := by
  intro p x q hl hx
  obtain ⟨p, t, rfl, rfl, ht⟩ := List.map_eq_append_iff.mp hl
  obtain ⟨x, q, rfl, rfl, rfl⟩ := List.map_eq_cons_iff.mp ht
  obtain ⟨y, hy, hB⟩ := h p x q rfl hx
  exact ⟨f y, List.mem_map_of_mem hy, hB⟩

/-- If every source keeps the rule by itself, so does any merge of the sources. -/
theorem Guarded.merge {trace : List (ι × α)} (h : ∀ i, Guarded A B (proj i trace)) :
    Guarded A B (trace.map Prod.snd) := by
  intro p x q hl hx
  obtain ⟨tp, tq, rfl, rfl, htq⟩ := List.map_eq_append_iff.mp hl
  obtain ⟨⟨i, a⟩, tq, rfl, rfl, rfl⟩ := List.map_eq_cons_iff.mp htq
  obtain ⟨y, hy, hB⟩ := h i (proj i tp) a (proj i tq)
    (by rw [proj_append, proj_cons_self]) hx
  exact ⟨y, List.mem_map.mpr ⟨(i, y), mem_proj.mp hy, rfl⟩, hB⟩

end PackageKitDart.MergedTrace
