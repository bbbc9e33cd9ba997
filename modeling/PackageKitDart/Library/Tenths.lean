import Mathlib.Algebra.Order.Field.Rat
import Mathlib.Data.List.Basic
import Mathlib.Tactic.FieldSimp
import Mathlib.Tactic.Linarith
import Mathlib.Tactic.Positivity
import Mathlib.Tactic.Ring
import Std.Data.String.ToNat

namespace PackageKitDart.Tenths

/-- The quotient `a / b` in tenths, rounded to the nearest, and up halfway between two. -/
def nearest (a b : ℕ) : ℕ := (20 * a + b) / (2 * b)

/-- A number of tenths in decimal notation. -/
def render (m : ℕ) : String := toString (m / 10) ++ "." ++ toString (m % 10)

theorem nearest_lt_iff {b : ℕ} (hb : 0 < b) (a k : ℕ) :
    nearest a b < k ↔ 20 * a + b < k * (2 * b) :=
  Nat.div_lt_iff_lt_mul (by omega)

theorem nearest_within {b : ℕ} (hb : 0 < b) (a : ℕ) :
    |(nearest a b : ℚ) / 10 - (a : ℚ) / b| ≤ 1 / 20 := by
  have hpos : (0 : ℚ) < b := by exact_mod_cast hb
  have hlow : nearest a b * (2 * b) ≤ 20 * a + b := Nat.div_mul_le_self _ _
  have hhigh : 20 * a + b < (nearest a b + 1) * (2 * b) :=
    (nearest_lt_iff hb a _).mp (Nat.lt_succ_self _)
  have hlow' : (nearest a b : ℚ) * (2 * b) ≤ 20 * a + b := by exact_mod_cast hlow
  have hhigh' : 20 * (a : ℚ) + b < (nearest a b + 1) * (2 * b) := by exact_mod_cast hhigh
  have hdist : (nearest a b : ℚ) / 10 - (a : ℚ) / b =
      ((nearest a b : ℚ) * (2 * b) - 20 * a) / (20 * b) := by
    field_simp
    ring
  rw [hdist, abs_le]
  constructor
  · rw [le_div_iff₀ (by positivity)]
    linarith
  · rw [div_le_iff₀ (by positivity)]
    linarith

theorem toList_render (m : ℕ) :
    (render m).toList = Nat.toDigits 10 (m / 10) ++ '.' :: [(m % 10).digitChar] := by
  have hdigit : Nat.toDigits 10 (m % 10) = [(m % 10).digitChar] :=
    Nat.toDigits_of_lt_base (Nat.mod_lt m (by omega))
  have hfirst : (toString (m / 10)).toList = Nat.toDigits 10 (m / 10) := Nat.toList_repr
  have hlast : (toString (m % 10)).toList = Nat.toDigits 10 (m % 10) := Nat.toList_repr
  rw [render, String.toList_append, String.toList_append, hfirst, hlast, hdigit, List.append_assoc]
  rfl

theorem point_notMem_toDigits (n : ℕ) : '.' ∉ Nat.toDigits 10 n := by
  intro h
  exact absurd (Nat.isDigit_of_mem_toDigits (by omega) (by omega) h) (by decide)

theorem toDigits_injective {m n : ℕ} (h : Nat.toDigits 10 m = Nat.toDigits 10 n) : m = n := by
  refine Nat.repr_injective ?_
  rw [Nat.repr_eq_ofList_toDigits, Nat.repr_eq_ofList_toDigits, h]

theorem digitChar_injective {m n : ℕ} (hm : m < 10) (hn : n < 10)
    (h : m.digitChar = n.digitChar) : m = n := by
  rw [← Nat.toNat_digitChar_sub_48_of_lt_ten hm, h, Nat.toNat_digitChar_sub_48_of_lt_ten hn]

/-- What was written can be read again, also with a text behind it. -/
theorem render_append_inj {m m' : ℕ} {s s' : String} (hs : '.' ∉ s.toList)
    (h : render m ++ s = render m' ++ s') : m = m' ∧ s = s' := by
  have hlist := congrArg String.toList h
  rw [String.toList_append, String.toList_append, toList_render, toList_render,
    List.append_assoc, List.append_assoc, List.cons_append, List.cons_append] at hlist
  have htail : '.' ∉ [(m % 10).digitChar] ++ s.toList := by
    have hdigit := point_notMem_toDigits (m % 10)
    rw [Nat.toDigits_of_lt_base (Nat.mod_lt m (by omega))] at hdigit
    exact fun hmem ↦ (List.mem_append.mp hmem).elim hdigit hs
  obtain ⟨hfirst, -, hrest⟩ :=
    (List.append_cons_inj_of_notMem (point_notMem_toDigits (m / 10)) htail).mp hlist
  obtain ⟨hlast, hs'⟩ := List.cons.inj hrest
  have hdiv := toDigits_injective hfirst
  have hmod := digitChar_injective (Nat.mod_lt m (by omega)) (Nat.mod_lt m' (by omega)) hlast
  refine ⟨by omega, String.toList_inj.mp hs'⟩

end PackageKitDart.Tenths
