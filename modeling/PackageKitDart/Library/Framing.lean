import Mathlib.Data.List.Basic

namespace PackageKitDart.Framing

variable {α β : Type} {encode : α → List β} {P : α → Prop}

/-- The code of a value ends where it ends, whatever follows it. -/
def SelfDelimiting (encode : α → List β) (P : α → Prop) : Prop :=
  ∀ a a' rest rest', P a → P a' → encode a ++ rest = encode a' ++ rest' → a = a' ∧ rest = rest'

/-- A sequence of codes, none of them empty, is cut up in one way only. -/
theorem SelfDelimiting.flatMap_inj (h : SelfDelimiting encode P) (hne : ∀ a, encode a ≠ [])
    {l l' : List α} (hl : ∀ a ∈ l, P a) (hl' : ∀ a ∈ l', P a)
    (heq : l.flatMap encode = l'.flatMap encode) : l = l' := by
  induction l generalizing l' with
  | nil =>
    cases l' with
    | nil => rfl
    | cons a' l' =>
      rw [List.flatMap_nil, List.flatMap_cons] at heq
      exact absurd (List.append_eq_nil_iff.mp heq.symm).1 (hne a')
  | cons a l ih =>
    cases l' with
    | nil =>
      rw [List.flatMap_nil, List.flatMap_cons] at heq
      exact absurd (List.append_eq_nil_iff.mp heq).1 (hne a)
    | cons a' l' =>
      obtain ⟨ha, htail⟩ := List.forall_mem_cons.mp hl
      obtain ⟨ha', htail'⟩ := List.forall_mem_cons.mp hl'
      rw [List.flatMap_cons, List.flatMap_cons] at heq
      obtain ⟨rfl, hrest⟩ := h a a' _ _ ha ha' heq
      rw [ih htail htail' hrest]

end PackageKitDart.Framing
