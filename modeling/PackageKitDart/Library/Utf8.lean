import Mathlib.Data.List.Basic

namespace PackageKitDart.Utf8

def bytes (s : String) : List UInt8 := s.toByteArray.data.toList

def Valid (bs : List UInt8) : Prop := (ByteArray.mk bs.toArray).IsValidUTF8

instance (bs : List UInt8) : Decidable (Valid bs) :=
  inferInstanceAs (Decidable (ByteArray.mk bs.toArray).IsValidUTF8)

def decode? (bs : List UInt8) : Option String := String.fromUTF8? ⟨bs.toArray⟩

theorem toArray_bytes (s : String) : ByteArray.mk (bytes s).toArray = s.toByteArray := by
  simp [bytes]

theorem valid_bytes (s : String) : Valid (bytes s) := by
  unfold Valid
  rw [toArray_bytes]
  exact s.isValidUTF8

theorem decode?_bytes (s : String) : decode? (bytes s) = some s := by
  unfold decode?
  rw [toArray_bytes, String.fromUTF8?, dif_pos s.isValidUTF8]
  rfl

theorem bytes_injective : Function.Injective bytes := by
  intro s t h
  have hdecode := congrArg decode? h
  simpa only [decode?_bytes, Option.some.injEq] using hdecode

theorem bytes_of_decode? {bs : List UInt8} {s : String} (h : decode? bs = some s) :
    bytes s = bs := by
  unfold decode? String.fromUTF8? at h
  split at h
  · cases h
    simp [bytes, String.fromUTF8]
  · cases h

theorem valid_of_decode? {bs : List UInt8} {s : String} (h : decode? bs = some s) : Valid bs :=
  bytes_of_decode? h ▸ valid_bytes s

theorem exists_bytes {bs : List UInt8} (h : Valid bs) : ∃ s, bytes s = bs :=
  ⟨String.fromUTF8 ⟨bs.toArray⟩ h, by simp [bytes, String.fromUTF8]⟩

theorem bytes_append (s t : String) : bytes (s ++ t) = bytes s ++ bytes t := by
  simp [bytes]

theorem bytes_eq_flatMap (s : String) : bytes s = s.toList.flatMap String.utf8EncodeChar := by
  rw [bytes, ← String.utf8Encode_toList, List.utf8Encode, List.data_toByteArray]

theorem not_mem_high {l : List ℕ} {b : UInt8} (hb : b.toNat < 128)
    (hl : ∀ n ∈ l, 128 ≤ n ∧ n < 256) : b ∉ l.map UInt8.ofNat := by
  intro h
  obtain ⟨n, hn, rfl⟩ := List.mem_map.mp h
  obtain ⟨hlow, hhigh⟩ := hl n hn
  rw [UInt8.toNat_ofNat_of_lt' hhigh] at hb
  omega

theorem count_encodeChar (c d : Char) (hd : d.val.toNat < 128) :
    (String.utf8EncodeChar c).count (UInt8.ofNat d.val.toNat) = [c].count d := by
  have hcd : c = d ↔ c.val.toNat = d.val.toNat := by rw [Char.ext_iff, UInt32.toNat_inj]
  have hbyte : (UInt8.ofNat d.val.toNat).toNat = d.val.toNat :=
    UInt8.toNat_ofNat_of_lt' (show _ < 256 by omega)
  have hhigh (hc : 127 < c.val.toNat) (l : List ℕ) (hl : ∀ n ∈ l, 128 ≤ n ∧ n < 256) :
      (l.map UInt8.ofNat).count (UInt8.ofNat d.val.toNat) = [c].count d := by
    have hne : c ≠ d := by rw [Ne, hcd]; omega
    rw [List.count_eq_zero_of_not_mem (not_mem_high (by omega) hl)]
    simp [hne]
  fun_cases String.utf8EncodeChar c with
  | case1 v hv =>
    have hv : c.val.toNat ≤ 127 := hv
    have hsame : UInt8.ofNat c.val.toNat = UInt8.ofNat d.val.toNat ↔ c = d := by
      rw [← UInt8.toNat_inj, hbyte, UInt8.toNat_ofNat_of_lt' (show _ < 256 by omega), hcd]
    simp only [List.count_singleton, beq_iff_eq, v, hsame]
  | case2 v hv hv' => exact hhigh (by omega) [_, _] (by simp; omega)
  | case3 v hv hv' hv'' => exact hhigh (by omega) [_, _, _] (by simp; omega)
  | case4 v hv hv' hv'' => exact hhigh (by omega) [_, _, _, _] (by simp; omega)

theorem count_bytes (s : String) (d : Char) (hd : d.val.toNat < 128) :
    (bytes s).count (UInt8.ofNat d.val.toNat) = s.toList.count d := by
  rw [bytes_eq_flatMap]
  induction s.toList with
  | nil => rfl
  | cons c l ih =>
    rw [List.flatMap_cons, List.count_append, ih, count_encodeChar c d hd, ← List.count_append]
    rfl

/-- The encoding of the byte order mark U+FEFF. -/
def bom : List UInt8 := [0xEF, 0xBB, 0xBF]

theorem bytes_bom : bytes "\uFEFF" = bom := by decide

theorem valid_bom_append (rest : List UInt8) : Valid (bom ++ rest) ↔ Valid rest := by
  have hsplit : ByteArray.mk (bom ++ rest).toArray =
      ['\uFEFF'].utf8Encode ++ ByteArray.mk rest.toArray := by
    have hbom : (['\uFEFF'].utf8Encode).data.toList = bom := by decide
    apply ByteArray.ext
    rw [ByteArray.data_append, ← Array.toList_inj, Array.toList_append, hbom]
  unfold Valid
  rw [hsplit, ByteArray.isValidUTF8_utf8Encode_singleton_append_iff]

theorem head_of_bom {s : String} {rest : List UInt8} (h : bytes s = bom ++ rest) :
    s.toList.head? = some '\uFEFF' := by
  obtain ⟨t, rfl⟩ := exists_bytes ((valid_bom_append rest).mp (h ▸ valid_bytes s))
  have hs : s = "\uFEFF" ++ t := by
    rw [← bytes_bom, ← bytes_append] at h
    exact bytes_injective h
  simp [hs]

end PackageKitDart.Utf8
