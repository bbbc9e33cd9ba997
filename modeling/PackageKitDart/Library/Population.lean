import Mathlib.Data.List.Basic

namespace PackageKitDart.Population

variable {σ ε : Type}

/-- A member comes in, or something happens to the member with a number. -/
inductive Event (σ ε : Type)
  | enter (s : σ)
  | reach (i : ℕ) (e : ε)

def Event.enter? : Event σ ε → Option σ
  | .enter s => some s
  | .reach _ _ => none

def step (f : ε → σ → σ) (members : List σ) : Event σ ε → List σ
  | .enter s => members ++ [s]
  | .reach i e => members.modify i (f e)

def run (f : ε → σ → σ) (members : List σ) (events : List (Event σ ε)) : List σ :=
  events.foldl (step f) members

/-- What the member with number `i` sees of the events, when `n` members are there at first: it
is the only one. -/
def own (i : ℕ) : ℕ → List (Event σ ε) → List (Event σ ε)
  | _, [] => []
  | n, .enter s :: events => (if n = i then [.enter s] else []) ++ own i (n + 1) events
  | n, .reach j e :: events => (if j = i then [.reach 0 e] else []) ++ own i n events

variable {f : ε → σ → σ}

theorem run_append (members : List σ) (events events' : List (Event σ ε)) :
    run f members (events ++ events') = run f (run f members events) events' := by
  simp only [run, List.foldl_append]

theorem enter_getElem? {members : List σ} {i : ℕ} (h : members.length ≠ i) (s : σ) :
    (members ++ [s])[i]? = members[i]? := by
  rcases Nat.lt_or_gt_of_ne h with hlt | hgt
  · have hbeyond : (members ++ [s])[i]? = none := by
      rw [List.getElem?_eq_none_iff, List.length_append, List.length_singleton]
      omega
    rw [hbeyond, List.getElem?_eq_none (Nat.le_of_lt hlt)]
  · exact List.getElem?_append_left hgt

theorem modify_toList (o : Option σ) (g : σ → σ) : o.toList.modify 0 g = (o.map g).toList := by
  cases o <;> rfl

/-- No member can tell whether the others are there. -/
theorem run_getElem? (members : List σ) (events : List (Event σ ε)) (i : ℕ) :
    (run f members events)[i]? = (run f members[i]?.toList (own i members.length events))[0]? := by
  induction events generalizing members with
  | nil =>
    rw [own]
    cases h : members[i]? <;> simp [run, h]
  | cons event events ih =>
    have hcons : run f members (event :: events) = run f (step f members event) events := rfl
    cases event with
    | enter s =>
      have hlength : (step f members (.enter s : Event σ ε)).length = members.length + 1 := by
        simp [step]
      rw [hcons, ih, hlength, own, run_append]
      by_cases hi : members.length = i
      · subst hi
        simp [step, run]
      · rw [if_neg hi, step, enter_getElem? hi]
        rfl
    | reach j e =>
      have hlength : (step f members (.reach j e)).length = members.length := by
        simp [step]
      rw [hcons, ih, hlength, own, run_append]
      by_cases hj : j = i
      · subst hj
        rw [if_pos rfl, step, List.getElem?_modify_eq]
        simp only [run, List.foldl_cons, List.foldl_nil, step, modify_toList, Option.map_eq_map]
      · rw [if_neg hj, step, List.getElem?_modify_ne _ _ hj]
        rfl

/-- What holds of the members coming in, and is kept by what happens to one, holds of all. -/
theorem forall_run {P : σ → Prop} (hf : ∀ e s, P s → P (f e s)) {events : List (Event σ ε)}
    (henter : ∀ s, .enter s ∈ events → P s) {members : List σ} (h : ∀ s ∈ members, P s) :
    ∀ s ∈ run f members events, P s := by
  induction events generalizing members with
  | nil => exact h
  | cons event events ih =>
    refine ih (fun s hs ↦ henter s (List.mem_cons_of_mem event hs)) ?_
    intro s hs
    cases event with
    | enter new =>
      rcases List.mem_append.mp hs with hs | hs
      · exact h s hs
      · obtain rfl := List.mem_singleton.mp hs
        exact henter s List.mem_cons_self
    | reach i e =>
      obtain ⟨j, hj⟩ := List.mem_iff_getElem?.mp hs
      by_cases hij : i = j
      · subst hij
        rw [step, List.getElem?_modify_eq, Option.map_eq_map] at hj
        obtain ⟨s', hs', rfl⟩ := Option.map_eq_some_iff.mp hj
        exact hf e s' (h s' (List.mem_of_getElem? hs'))
      · rw [step, List.getElem?_modify_ne _ _ hij] at hj
        exact h s (List.mem_of_getElem? hj)

theorem run_reach (members : List σ) (i : ℕ) (es : List ε) :
    run f members (es.map (.reach i)) = members.modify i (fun s ↦ es.foldl (fun t e ↦ f e t) s) := by
  induction es generalizing members with
  | nil => exact (List.modify_id _ _).symm
  | cons e es ih =>
    have hcons : run f members ((e :: es).map (.reach i)) =
        run f (members.modify i (f e)) (es.map (.reach i)) := rfl
    rw [hcons, ih, List.modify_modify_eq]
    rfl

section Simulation

variable {τ δ : Type} {g : δ → τ → τ}

/-- What each member does is what some events do to its image, so the whole is such a whole. -/
theorem exists_run_map (image : σ → τ)
    (hsim : ∀ e s, ∃ ds : List δ, image (f e s) = ds.foldl (fun t d ↦ g d t) (image s))
    (members : List σ) (events : List (Event σ ε)) :
    ∃ events' : List (Event τ δ),
      events'.filterMap Event.enter? = (events.filterMap Event.enter?).map image ∧
        run g (members.map image) events' = (run f members events).map image := by
  induction events generalizing members with
  | nil => exact ⟨[], rfl, rfl⟩
  | cons event events ih =>
    obtain ⟨events', henter, hrun⟩ := ih (step f members event)
    have hcons : run f members (event :: events) = run f (step f members event) events := rfl
    rw [hcons, ← hrun]
    cases event with
    | enter s =>
      refine ⟨.enter (image s) :: events', ?_, ?_⟩
      · rw [List.filterMap_cons, henter]
        rfl
      · rw [step, List.map_append]
        rfl
    | reach i e =>
      cases hi : members[i]? with
      | none =>
        refine ⟨events', henter, ?_⟩
        rw [step, List.modify_eq_self (List.getElem?_eq_none_iff.mp hi)]
      | some s =>
        obtain ⟨ds, hds⟩ := hsim e s
        have hnone : (ds.map (Event.reach (σ := τ) i)).filterMap Event.enter? = [] := by
          rw [List.filterMap_map, List.filterMap_eq_nil_iff]
          exact fun _ _ ↦ rfl
        refine ⟨ds.map (.reach i) ++ events', ?_, ?_⟩
        · rw [List.filterMap_append, hnone, henter]
          rfl
        · rw [run_append, run_reach]
          refine congrArg (fun l ↦ run g l events') (List.ext_getElem? (fun j ↦ ?_))
          rw [step, List.getElem?_map]
          by_cases hij : i = j
          · subst hij
            simp [List.getElem?_modify_eq, hi, hds]
          · simp [List.getElem?_modify_ne _ _ hij]

end Simulation

end PackageKitDart.Population
