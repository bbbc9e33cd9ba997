import Mathlib.Data.List.Basic

namespace PackageKitDart.Classify

variable {α κ : Type} [DecidableEq κ] (key : α → κ)

/-- The elements of one class, in their order. -/
def fiber (k : κ) (l : List α) : List α := l.filter (fun a ↦ key a = k)

theorem fiber_append (k : κ) (l l' : List α) :
    fiber key k (l ++ l') = fiber key k l ++ fiber key k l' :=
  List.filter_append l l'

theorem fiber_cons (k : κ) (a : α) (l : List α) :
    fiber key k (a :: l) = (if key a = k then [a] else []) ++ fiber key k l := by
  by_cases h : key a = k <;> simp [fiber, h]

/-- Taking the elements class by class loses and repeats none. -/
theorem perm_flatMap_fiber (ks : List κ) (hnodup : ks.Nodup) (l : List α) :
    (ks.flatMap (fun k ↦ fiber key k l)).Perm (l.filter (fun a ↦ key a ∈ ks)) := by
  induction ks with
  | nil => simp
  | cons k ks ih =>
    obtain ⟨hk, hnodup⟩ := List.nodup_cons.mp hnodup
    have hsame :
        (l.filter (fun a ↦ key a ∈ k :: ks)).filter (fun a ↦ key a = k) = fiber key k l := by
      rw [List.filter_filter, fiber]
      refine List.filter_congr ?_
      intro a _
      by_cases h : key a = k <;> simp [h]
    have hrest : (l.filter (fun a ↦ key a ∈ k :: ks)).filter (fun a ↦ !decide (key a = k)) =
        l.filter (fun a ↦ key a ∈ ks) := by
      rw [List.filter_filter]
      refine List.filter_congr ?_
      intro a _
      by_cases h : key a = k <;> simp [h, hk]
    have hsplit := List.filter_append_perm (fun a ↦ decide (key a = k))
      (l.filter (fun a ↦ key a ∈ k :: ks))
    rw [hsame, hrest] at hsplit
    rw [List.flatMap_cons]
    exact ((ih hnodup).append_left _).trans hsplit

end PackageKitDart.Classify
