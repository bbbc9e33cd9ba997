import Mathlib.Logic.Function.Basic
import Mathlib.Data.List.Induction
import PackageKitDart.Library.MergedTrace

namespace PackageKitDart.LatchedDemux

open MergedTrace

/-- What an incoming item asks for: a value for one output, a result, the
end of all outputs, a failure (which is both), or nothing. -/
inductive Item (κ : Type) (β : κ → Type) (ρ : Type)
  | data (k : κ) (v : β k)
  | final (r : ρ)
  | stop
  | fault (r : ρ)
  | noise

structure State (κ : Type) (β : κ → Type) (ρ : Type) where
  out : ∀ k, List (β k)
  closed : Bool
  result : Option ρ

variable {κ : Type} {β : κ → Type} {ρ : Type}

namespace Item

def closes : Item κ β ρ → Bool
  | .stop | .fault _ => true
  | .data _ _ | .final _ | .noise => false

/-- The result an item proposes; `late` is the price of data after the end. -/
def verdict (late : ρ) (closed : Bool) : Item κ β ρ → Option ρ
  | .data _ _ => if closed then some late else none
  | .final r | .fault r => some r
  | .stop | .noise => none

/-- The result an item brings along, wherever it comes. -/
def own : Item κ β ρ → Option ρ
  | .final r | .fault r => some r
  | .data _ _ | .stop | .noise => none

end Item

def live (l : List (Item κ β ρ)) : List (Item κ β ρ) := l.takeWhile (fun i ↦ !i.closes)

theorem live_cons (i : Item κ β ρ) (l : List (Item κ β ρ)) :
    live (i :: l) = if i.closes then [] else i :: live l := by
  cases h : i.closes <;> simp [live, h]

theorem live_append {l : List (Item κ β ρ)} (h : ∀ i ∈ l, i.closes = false)
    (l' : List (Item κ β ρ)) : live (l ++ l') = l ++ live l' := by
  have hopen : ∀ i ∈ l, (!i.closes) = true := fun i hi ↦ by rw [h i hi, Bool.not_false]
  exact List.takeWhile_append_of_pos hopen

variable (late : ρ)

def firstVerdict : Bool → List (Item κ β ρ) → Option ρ
  | _, [] => none
  | closed, i :: l => (i.verdict late closed).or (firstVerdict (closed || i.closes) l)

theorem firstVerdict_append (closed : Bool) (l l' : List (Item κ β ρ)) :
    firstVerdict late closed (l ++ l') =
      (firstVerdict late closed l).or (firstVerdict late (closed || l.any Item.closes) l') := by
  induction l generalizing closed with
  | nil => simp [firstVerdict]
  | cons i l ih => simp [firstVerdict, ih, Option.or_assoc, Bool.or_assoc]

theorem firstVerdict_eq_none (closed : Bool) (l : List (Item κ β ρ)) :
    firstVerdict late closed l = none ↔
      ∀ p i q, l = p ++ i :: q → i.verdict late (closed || p.any Item.closes) = none := by
  induction l generalizing closed with
  | nil => simp [firstVerdict]
  | cons j l ih =>
    rw [firstVerdict, Option.or_eq_none_iff, ih]
    constructor
    · intro h p i q hp
      obtain ⟨hj, hl⟩ := h
      cases p with
      | nil =>
        obtain ⟨rfl, rfl⟩ := List.cons.inj hp
        simpa using hj
      | cons m p =>
        obtain ⟨rfl, rfl⟩ := List.cons.inj hp
        simpa [Bool.or_assoc] using hl p i q rfl
    · intro h
      refine ⟨by simpa using h [] j l rfl, ?_⟩
      intro p i q hp
      simpa [Bool.or_assoc] using h (j :: p) i q (by simp [hp])

theorem firstVerdict_of_quiet {l : List (Item κ β ρ)}
    (h : ∀ i ∈ l, i.closes = false ∧ i.verdict late false = none) :
    firstVerdict late false l = none := by
  induction l with
  | nil => rfl
  | cons i l ih =>
    obtain ⟨hcloses, hverdict⟩ := h i List.mem_cons_self
    rw [firstVerdict, hcloses, hverdict, Bool.or_false, Option.none_or]
    exact ih (fun j hj ↦ h j (List.mem_cons_of_mem i hj))

theorem firstVerdict_eq_some (closed : Bool) (l : List (Item κ β ρ)) (r : ρ) :
    firstVerdict late closed l = some r ↔
      ∃ p i q, l = p ++ i :: q ∧ firstVerdict late closed p = none ∧
        i.verdict late (closed || p.any Item.closes) = some r := by
  constructor
  · intro h
    induction l generalizing closed with
    | nil => simp [firstVerdict] at h
    | cons j l ih =>
      rw [firstVerdict] at h
      cases hj : j.verdict late closed with
      | some r' =>
        rw [hj, Option.some_or] at h
        exact ⟨[], j, l, rfl, rfl, by simpa [hj] using h⟩
      | none =>
        rw [hj, Option.none_or] at h
        obtain ⟨p, i, q, rfl, hp, hi⟩ := ih _ h
        refine ⟨j :: p, i, q, rfl, ?_, by simpa [Bool.or_assoc] using hi⟩
        rw [firstVerdict, hj, Option.none_or, hp]
  · intro hfirst
    obtain ⟨p, i, q, rfl, hp, hi⟩ := hfirst
    rw [firstVerdict_append, hp, Option.none_or, firstVerdict, hi, Option.some_or]

/-- When an end only comes after a result, the first result is the first one brought along. -/
theorem firstVerdict_of_guarded {l : List (Item κ β ρ)}
    (hg : Guarded (fun i ↦ i = .stop) (fun i ↦ ∃ r, i = .final r) l) :
    firstVerdict late false l = l.findSome? Item.own := by
  induction l using List.reverseRecOn with
  | nil => rfl
  | append_singleton l i ih =>
    rw [firstVerdict_append, List.findSome?_append, ih hg.left, Bool.false_or]
    cases hl : l.findSome? Item.own with
    | some r => rfl
    | none =>
      have hopen : l.any Item.closes = false := by
        rw [List.any_eq_false]
        intro j hj hcloses
        have hown := List.findSome?_eq_none_iff.mp hl
        cases j with
        | stop =>
          obtain ⟨p, q, rfl⟩ := List.append_of_mem hj
          obtain ⟨y, hy, r, rfl⟩ := hg.left p .stop q rfl rfl
          exact absurd (hown _ (List.mem_append_left _ hy)) (by simp [Item.own])
        | fault r => exact absurd (hown _ hj) (by simp [Item.own])
        | data k v => simp [Item.closes] at hcloses
        | final r => simp [Item.closes] at hcloses
        | noise => simp [Item.closes] at hcloses
      rw [hopen]
      cases i <;> rfl

variable [DecidableEq κ]

namespace Item

/-- The value an item carries for the output `k`. -/
def at? (k : κ) : Item κ β ρ → Option (β k)
  | .data j v => if h : j = k then some (h ▸ v) else none
  | .final _ | .stop | .fault _ | .noise => none

@[simp]
theorem at?_data_self (k : κ) (v : β k) : (data k v : Item κ β ρ).at? k = some v := by
  simp [at?]

theorem at?_data_of_ne {j k : κ} (h : j ≠ k) (v : β j) : (data j v : Item κ β ρ).at? k = none := by
  simp [at?, h]

theorem data_of_at? {i : Item κ β ρ} {k : κ} {v : β k} (h : i.at? k = some v) : i = data k v := by
  cases i with
  | data j w =>
    rw [at?] at h
    split at h
    · next hj =>
      subst hj
      cases h
      rfl
    · cases h
  | _ => cases h

theorem at?_of_closes {i : Item κ β ρ} (h : i.closes = true) (k : κ) : i.at? k = none := by
  cases i <;> simp_all [closes, at?]

/-- Only noise has no effect at all. -/
theorem eq_noise {i : Item κ β ρ} (hcloses : i.closes = false) (hverdict : i.verdict late false = none)
    (hat : ∀ k, i.at? k = none) : i = noise := by
  cases i with
  | data k v =>
    have hk := hat k
    rw [at?_data_self] at hk
    cases hk
  | final r => cases hverdict
  | stop => cases hcloses
  | fault r => cases hcloses
  | noise => rfl

end Item

/-- What the output `k` still receives, given whether the outputs are closed at the start. -/
def received (k : κ) (closed : Bool) (l : List (Item κ β ρ)) : List (β k) :=
  if closed then [] else (live l).filterMap (Item.at? k)

theorem received_append (k : κ) (closed : Bool) (l l' : List (Item κ β ρ)) :
    received k closed (l ++ l') =
      received k closed l ++ received k (closed || l.any Item.closes) l' := by
  cases closed with
  | true => simp [received]
  | false =>
    induction l with
    | nil => simp [received, live]
    | cons i l ih =>
      cases hi : i.closes with
      | true => simp [received, live_cons, hi]
      | false =>
        simp only [received, List.cons_append, live_cons, hi, Bool.false_eq_true, if_false,
          List.filterMap_cons, List.any_cons, Bool.false_or] at ih ⊢
        cases i.at? k <;> simp [ih]

theorem received_cons_of_blank {k : κ} {i : Item κ β ρ} (hc : i.closes = false)
    (ha : i.at? k = none) (closed : Bool) (l : List (Item κ β ρ)) :
    received k closed (i :: l) = received k closed l := by
  cases closed with
  | true => rfl
  | false => simp [received, live_cons, hc, ha]

theorem received_cons_of_closes {i : Item κ β ρ} (h : i.closes = true) (k : κ) (closed : Bool)
    (l : List (Item κ β ρ)) : received k closed (i :: l) = [] := by
  cases closed with
  | true => rfl
  | false => simp [received, live_cons, h]

/-- All outputs close together and for good, and the first result stays. -/
def step (s : State κ β ρ) : Item κ β ρ → State κ β ρ
  | .data k v =>
    if s.closed then { s with result := s.result.or (some late) }
    else { s with out := Function.update s.out k (s.out k ++ [v]) }
  | .final r => { s with result := s.result.or (some r) }
  | .stop => { s with closed := true }
  | .fault r => { s with closed := true, result := s.result.or (some r) }
  | .noise => s

def init : State κ β ρ where
  out _ := []
  closed := false
  result := none

def run (s : State κ β ρ) (l : List (Item κ β ρ)) : State κ β ρ := l.foldl (step late) s

theorem step_closed (s : State κ β ρ) (i : Item κ β ρ) :
    (step late s i).closed = (s.closed || i.closes) := by
  cases i with
  | data k v => by_cases h : s.closed <;> simp [step, Item.closes, h]
  | final r => simp [step, Item.closes]
  | stop => simp [step, Item.closes]
  | fault r => simp [step, Item.closes]
  | noise => simp [step, Item.closes]

theorem step_result (s : State κ β ρ) (i : Item κ β ρ) :
    (step late s i).result = s.result.or (i.verdict late s.closed) := by
  cases i with
  | data k v => by_cases h : s.closed <;> simp [step, Item.verdict, h]
  | final r => simp [step, Item.verdict]
  | stop => simp [step, Item.verdict]
  | fault r => simp [step, Item.verdict]
  | noise => simp [step, Item.verdict]

theorem step_out (s : State κ β ρ) (i : Item κ β ρ) (k : κ) :
    (step late s i).out k = s.out k ++ if s.closed then [] else (i.at? k).toList := by
  cases i with
  | data j v =>
    cases hc : s.closed with
    | true => simp [step, hc]
    | false =>
      by_cases hj : j = k
      · subst hj
        simp [step, hc]
      · simp [step, hc, Function.update_of_ne (Ne.symm hj), Item.at?_data_of_ne hj]
  | final r => simp [step, Item.at?]
  | stop => simp [step, Item.at?]
  | fault r => simp [step, Item.at?]
  | noise => simp [step, Item.at?]

theorem run_append (s : State κ β ρ) (l l' : List (Item κ β ρ)) :
    run late s (l ++ l') = run late (run late s l) l' := by
  simp only [run, List.foldl_append]

theorem run_closed (s : State κ β ρ) (l : List (Item κ β ρ)) :
    (run late s l).closed = (s.closed || l.any Item.closes) := by
  induction l generalizing s with
  | nil => simp [run]
  | cons i l ih =>
    have h := ih (step late s i)
    simp only [run, List.foldl_cons, List.any_cons] at h ⊢
    rw [h, step_closed, Bool.or_assoc]

theorem run_result (s : State κ β ρ) (l : List (Item κ β ρ)) :
    (run late s l).result = s.result.or (firstVerdict late s.closed l) := by
  induction l generalizing s with
  | nil => simp [run, firstVerdict]
  | cons i l ih =>
    have h := ih (step late s i)
    simp only [run, List.foldl_cons] at h ⊢
    rw [h, step_closed, step_result, firstVerdict, Option.or_assoc]

/-- Each output has received exactly its own values among the live items, in order. -/
theorem run_out (s : State κ β ρ) (l : List (Item κ β ρ)) (k : κ) :
    (run late s l).out k = s.out k ++ received k s.closed l := by
  induction l generalizing s with
  | nil => simp [run, received, live]
  | cons i l ih =>
    have h := ih (step late s i)
    have hcons : received k s.closed (i :: l) =
        received k s.closed [i] ++ received k (s.closed || i.closes) l := by
      simpa using received_append k s.closed [i] l
    have hone : received k s.closed [i] = if s.closed then [] else (i.at? k).toList := by
      cases hi : i.closes with
      | true => simp [received, live_cons, hi, Item.at?_of_closes hi]
      | false => cases ha : i.at? k <;> simp [received, live, hi, ha]
    simp only [run, List.foldl_cons] at h ⊢
    rw [h, step_closed, step_out, hcons, hone, List.append_assoc]

theorem run_of_settled {s : State κ β ρ} (hc : s.closed = true) (hr : s.result.isSome = true)
    (l : List (Item κ β ρ)) : run late s l = s := by
  induction l with
  | nil => rfl
  | cons i l ih =>
    obtain ⟨r, hr⟩ := Option.isSome_iff_exists.mp hr
    have hstep : step late s i = s := by
      cases s
      subst hc hr
      cases i <;> simp [step]
    simpa only [run, List.foldl_cons, hstep] using ih

theorem result_of_guarded {l : List (Item κ β ρ)}
    (hg : Guarded (fun i ↦ i = .stop) (fun i ↦ ∃ r, i = .final r) l) :
    (run late (init : State κ β ρ) l).result = l.findSome? Item.own := by
  rw [run_result, init, Option.none_or]
  exact firstVerdict_of_guarded late hg

theorem result_of_closed {l : List (Item κ β ρ)}
    (hg : Guarded (fun i ↦ i = .stop) (fun i ↦ ∃ r, i = .final r) l)
    (hc : (run late (init : State κ β ρ) l).closed = true) :
    (run late (init : State κ β ρ) l).result.isSome = true := by
  rw [run_closed] at hc
  obtain ⟨i, hi, hclose⟩ : ∃ i ∈ l, i.closes = true := by simpa [init] using hc
  rw [run_result, init, Option.none_or, Option.isSome_iff_ne_none]
  intro hnone
  have hall := (firstVerdict_eq_none late false l).mp hnone
  obtain ⟨p, q, rfl⟩ := List.append_of_mem hi
  cases i with
  | stop =>
    obtain ⟨y, hy, r, rfl⟩ := hg p .stop q rfl rfl
    obtain ⟨p', q', rfl⟩ := List.append_of_mem hy
    have h := hall p' (.final r) (q' ++ .stop :: q) (by simp)
    simp [Item.verdict] at h
  | fault r =>
    have h := hall p (.fault r) q rfl
    simp [Item.verdict] at h
  | data k v => simp [Item.closes] at hclose
  | final r => simp [Item.closes] at hclose
  | noise => simp [Item.closes] at hclose

end PackageKitDart.LatchedDemux
