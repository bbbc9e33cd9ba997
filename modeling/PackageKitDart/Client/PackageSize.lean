import PackageKitDart.Client.FormatAgreement
import PackageKitDart.Library.Tenths

namespace PackageKitDart.Client

open Dart Native Glz Reader Tenths

/-- `(a / b).toStringAsFixed(1)`, of the exact quotient. -/
def quotientToStringAsFixed (a : ℤ) (b : ℕ) : String :=
  (if a < 0 then "-" else "") ++ render (nearest a.natAbs b)

def PkPackageDetail.sizeFormatted (d : PkPackageDetail) : String :=
  if d.size = 0 then "unknown"
  else if d.size ≥ 2 ^ 30 then quotientToStringAsFixed d.size (2 ^ 30) ++ " GiB"
  else if d.size ≥ 2 ^ 20 then quotientToStringAsFixed d.size (2 ^ 20) ++ " MiB"
  else quotientToStringAsFixed d.size 1024 ++ " KiB"

inductive SizeUnit
  | kib | mib | gib
  deriving DecidableEq

namespace SizeUnit

def bytes : SizeUnit → ℕ
  | .kib => 2 ^ 10
  | .mib => 2 ^ 20
  | .gib => 2 ^ 30

def suffix : SizeUnit → String
  | .kib => " KiB"
  | .mib => " MiB"
  | .gib => " GiB"

/-- The unit `sizeFormatted` takes for a size. -/
def ofSize (n : ℕ) : SizeUnit := if n ≥ 2 ^ 30 then .gib else if n ≥ 2 ^ 20 then .mib else .kib

end SizeUnit

/-- The Dart side has the size of the message, and shows it as it should. -/
structure SizeShown (n : UInt64) (d : PkPackageDetail) : Prop where
  size : d.size = n.toNat
  unknown : d.sizeFormatted = "unknown" ↔ n = 0
  quantity : n ≠ 0 → ∃ (unit : SizeUnit) (tenths : ℕ),
    d.sizeFormatted = render tenths ++ unit.suffix ∧
    |(tenths : ℚ) / 10 - (n.toNat : ℚ) / unit.bytes| ≤ 1 / 20 ∧
    (unit ≠ .gib → (tenths : ℚ) / 10 < 1024)

/-- The sizes that round up to 1024 of a smaller unit. -/
def RoundsUp (n : ℕ) : Prop :=
  1048525 ≤ n ∧ n < 2 ^ 20 ∨ 1073689396 ≤ n ∧ n < 2 ^ 30

instance (n : ℕ) : Decidable (RoundsUp n) := inferInstanceAs (Decidable (_ ∨ _))

theorem sizeFormatted_of_pos {d : PkPackageDetail} {n : ℕ} (hsize : d.size = n) (hpos : 0 < n) :
    d.sizeFormatted =
      render (nearest n (SizeUnit.ofSize n).bytes) ++ (SizeUnit.ofSize n).suffix := by
  have hzero : ¬ (n : ℤ) = 0 := by omega
  have hneg : ¬ (n : ℤ) < 0 := by omega
  have hgib : (n : ℤ) ≥ 2 ^ 30 ↔ n ≥ 2 ^ 30 := by omega
  have hmib : (n : ℤ) ≥ 2 ^ 20 ↔ n ≥ 2 ^ 20 := by omega
  simp only [PkPackageDetail.sizeFormatted, hsize, hzero, if_false, hgib, hmib,
    quotientToStringAsFixed, hneg, String.empty_append, Int.natAbs_natCast, SizeUnit.ofSize]
  by_cases h30 : n ≥ 2 ^ 30
  · simp only [if_pos h30]
    rfl
  by_cases h20 : n ≥ 2 ^ 20
  · simp only [if_neg h30, if_pos h20]
    rfl
  · simp only [if_neg h30, if_neg h20]
    rfl

theorem point_notMem_suffix (unit : SizeUnit) : '.' ∉ unit.suffix.toList := by
  cases unit <;> decide

theorem suffix_injective {unit unit' : SizeUnit} (h : unit.suffix = unit'.suffix) :
    unit = unit' := by
  cases unit <;> cases unit' <;> first | rfl | exact absurd h (by decide)

theorem nearest_lt_iff_roundsUp {n : ℕ} :
    (SizeUnit.ofSize n ≠ .gib → nearest n (SizeUnit.ofSize n).bytes < 10240) ↔ ¬ RoundsUp n := by
  have hpos : 0 < (SizeUnit.ofSize n).bytes := by
    cases SizeUnit.ofSize n <;> decide
  rw [nearest_lt_iff hpos, RoundsUp]
  by_cases h30 : n ≥ 2 ^ 30
  · have hunit : SizeUnit.ofSize n = .gib := if_pos h30
    exact iff_of_true (fun hne ↦ absurd hunit hne) (by omega)
  by_cases h20 : n ≥ 2 ^ 20
  · have hunit : SizeUnit.ofSize n = .mib := by rw [SizeUnit.ofSize, if_neg h30, if_pos h20]
    simp only [hunit, SizeUnit.bytes, ne_eq, reduceCtorEq, not_false_eq_true, forall_const]
    omega
  · have hunit : SizeUnit.ofSize n = .kib := by rw [SizeUnit.ofSize, if_neg h30, if_neg h20]
    simp only [hunit, SizeUnit.bytes, ne_eq, reduceCtorEq, not_false_eq_true, forall_const]
    omega

theorem below_iff (tenths : ℕ) : (tenths : ℚ) / 10 < 1024 ↔ tenths < 10240 := by
  rw [div_lt_iff₀ (by norm_num)]
  norm_num

/-- Of a size that arrived as it was sent. -/
theorem sizeShown_of_size {n : UInt64} {d : PkPackageDetail} (hsize : d.size = n.toNat) :
    SizeShown n d ↔ ¬ RoundsUp n.toNat := by
  have hzero : n = 0 ↔ n.toNat = 0 := by
    rw [← UInt64.toNat_inj]
    rfl
  rcases Nat.eq_zero_or_pos n.toNat with h | hpos
  · have hn := hzero.mpr h
    have hunknown : d.sizeFormatted = "unknown" := by
      rw [PkPackageDetail.sizeFormatted, hsize, h]
      rfl
    refine iff_of_true ⟨hsize, iff_of_true hunknown hn, fun hne ↦ absurd hn hne⟩ ?_
    rw [RoundsUp, h]
    omega
  have hshown := sizeFormatted_of_pos hsize hpos
  have hn : n ≠ 0 := fun hn ↦ hpos.ne' (hzero.mp hn)
  have hunknown : d.sizeFormatted ≠ "unknown" := by
    intro h
    have hpoint : '.' ∈ d.sizeFormatted.toList := by
      rw [hshown, String.toList_append, toList_render]
      simp
    rw [h] at hpoint
    exact absurd hpoint (by decide)
  rw [← nearest_lt_iff_roundsUp]
  have hbytes : 0 < (SizeUnit.ofSize n.toNat).bytes := by
    cases SizeUnit.ofSize n.toNat <;> decide
  constructor
  · intro h hne
    obtain ⟨unit, tenths, htext, _, hbelow⟩ := h.quantity hn
    -- the text determines the unit and the number
    rw [hshown] at htext
    obtain ⟨rfl, hsuffix⟩ := render_append_inj (point_notMem_suffix _) htext
    have hunit := suffix_injective hsuffix
    exact (below_iff _).mp (hbelow (hunit ▸ hne))
  · intro h
    refine ⟨hsize, iff_of_false hunknown hn, fun _ ↦ ⟨_, _, hshown, nearest_within hbytes _, ?_⟩⟩
    intro hne
    exact (below_iff _).mpr (h hne)

theorem toInt_eq_toNat_iff (n : UInt64) : n.toBitVec.toInt = n.toNat ↔ n.toNat < 2 ^ 63 := by
  rw [BitVec.toInt_eq_toNat_cond, UInt64.toNat_toBitVec]
  split <;> omega

/-- Of every size in a details message: it arrives and is shown well unless it
is no signed word, or just below a unit. -/
theorem sizeShown_iff {d : Native.PkDetails} {v : PkPackageDetail}
    (hsized : ∀ f ∈ Meta.fields (C := Native.PkDetails), Sized f.type (f.get d))
    (h : GlazeCodec.decode .pkPackageDetail
      (Uint8List.ofBytes (PkTransactionBridge.post PkTransactionBridge.kDetails d)) 1 = .ok v) :
    SizeShown d.size v ↔ d.size.toNat < 2 ^ 63 ∧ ¬ RoundsUp d.size.toNat := by
  obtain ⟨_, _, _, _, _, _, hsize⟩ := agrees_of_posted (T := .pkPackageDetail) hsized h
  have hsize : v.size = d.size.toBitVec.toInt := hsize
  by_cases hlt : d.size.toNat < 2 ^ 63
  · rw [(toInt_eq_toNat_iff d.size).mpr hlt] at hsize
    rw [sizeShown_of_size hsize]
    exact (and_iff_right hlt).symm
  · refine iff_of_false ?_ (fun hcond ↦ hlt hcond.1)
    intro hshown
    exact hlt ((toInt_eq_toNat_iff d.size).mp (hsize.symm.trans hshown.size))

def sizedDetails (size : UInt64) : Native.PkDetails where
  packageId := [0x3B, 0x3B, 0x3B]
  size := size

def shownDetails (size : ℤ) : PkPackageDetail where
  id := ⟨"", "", "", ""⟩
  summary := ""
  description := ""
  url := ""
  license := ""
  group := ""
  size := size

theorem sizeShown_iff_half : SizeShown 524288 (shownDetails 524288) ↔
    (524288 : UInt64).toNat < 2 ^ 63 ∧ ¬ RoundsUp (524288 : UInt64).toNat := by
  have hsized : ∀ f ∈ Meta.fields (C := Native.PkDetails),
      Sized f.type (f.get (sizedDetails 524288)) := by
    simp only [Meta.fields, List.forall_mem_cons]
    exact ⟨by decide, by decide, by decide, by decide, by decide, by decide, trivial,
      List.forall_mem_nil _⟩
  exact sizeShown_iff (d := sizedDetails 524288) hsized (by decide)

/-- One byte below 1 MiB is shown as 1024.0 KiB, and 2 to the 63 bytes are negative. -/
theorem not_sizeShown :
    (GlazeCodec.decode .pkPackageDetail (Uint8List.ofBytes
        (PkTransactionBridge.post PkTransactionBridge.kDetails (sizedDetails 1048575))) 1 =
        .ok (shownDetails 1048575) ∧
      (shownDetails 1048575).sizeFormatted = "1024.0 KiB" ∧
      ¬ SizeShown 1048575 (shownDetails 1048575)) ∧
    (GlazeCodec.decode .pkPackageDetail (Uint8List.ofBytes
        (PkTransactionBridge.post PkTransactionBridge.kDetails
          (sizedDetails 9223372036854775808))) 1 =
        .ok (shownDetails (-9223372036854775808)) ∧
      (shownDetails (-9223372036854775808)).sizeFormatted = "-9007199254740992.0 KiB" ∧
      ¬ SizeShown 9223372036854775808 (shownDetails (-9223372036854775808))) := by
  refine ⟨⟨by decide, by decide, ?_⟩, by decide, by decide, ?_⟩
  · intro h
    exact (sizeShown_of_size rfl).mp h (by decide)
  · intro h
    exact absurd h.size (by decide)

end PackageKitDart.Client
