import PackageKitDart.Client.DecoderLayout

namespace PackageKitDart.Client

open Dart SequentialRead Native Glz Reader

/-- The fields as the reader takes them from the message, set on `obj` in turn. -/
def Reader.readRecord {C : Type} : List (FieldDescriptor C) → C → Read C
  | [], obj => return obj
  | f :: fields, obj => do
    let v ← readRaw f.type
    readRecord fields (f.set v obj)

theorem reads_record {C : Type} {Q : (t : FieldType) → t.Val → Prop}
    {fields : List (FieldDescriptor C)} {obj n : C} {bs : List UInt8}
    (h : SpellsAll Q fields obj bs n) : Reads cursor (readRecord fields obj) bs n := by
  induction h with
  | nil obj => exact Reads.pure obj
  | cons hspell _ _ ih => exact (reads_raw hspell).bind ih

/-- `glz::decode` of the struct. A finished message has none, and its two words
are decoded as the fields of a struct are. -/
def WireType.glzDecode : (T : WireType) → List UInt8 → (offset : ℕ) → T.Native →
    Option (ℕ × T.Native)
  | .pkPackage => Glz.decode (C := Native.PkPackage)
  | .pkProgress => Glz.decode (C := Native.PkProgress)
  | .pkPackageDetail => Glz.decode (C := Native.PkDetails)
  | .pkUpdateDetail => Glz.decode (C := Native.PkUpdateDetail)
  | .pkRepoDetail => Glz.decode (C := Native.PkRepoDetail)
  | .pkFiles => Glz.decode (C := Native.PkFiles)
  | .pkErrorCode => Glz.decode (C := Native.PkErrorCode)
  | .pkMessage => Glz.decode (C := Native.PkMessage)
  | .pkEulaRequired => Glz.decode (C := Native.PkEulaRequired)
  | .pkRepoSigRequired => Glz.decode (C := Native.PkRepoSigRequired)
  | .pkRequireRestart => Glz.decode (C := Native.PkRequireRestart)
  | .pkManagerProps => Glz.decode (C := Native.PkManagerProps)
  | .pkFinished => fun buf offset ↦ decodeImpl buf finishedFields offset

theorem glzDecode_eq (T : WireType) (buf : List UInt8) (offset : ℕ) (obj : T.Native) :
    T.glzDecode buf offset obj = decodeImpl buf T.fields offset obj := by
  cases T <;> rfl

/-- What the Dart decoder accepts the native one decodes without leaving the
buffer, to the same end and from the same bytes for every field. -/
theorem two_decoders {T : WireType} {u : Uint8List} {offset : ℕ} {v : T.Val} {r : Reader}
    (h : GlazeCodec.decodeFrom T u offset = .ok (v, r)) (obj : T.Native) :
    ∃ n, T.glzDecode u.toBytes offset obj = some (r.offset, n) ∧
      readRecord T.fields obj (Reader.ofBytes u offset) = .ok (n, r) ∧ Agrees T n v := by
  obtain ⟨bs, rest, n, hahead, rfl, hspells, hagrees⟩ := (follows_decoder T obj).sound h
  refine ⟨n, ?_, reads_record hspells _ rest hahead, hagrees⟩
  rw [ahead_ofBytes] at hahead
  rw [glzDecode_eq]
  exact decodeImpl_of_spells hspells hahead

theorem two_decoders_repoDetail :
    let u := Uint8List.ofBytes [9, 1, 0, 0, 0, 0x61, 0, 0, 0, 0, 7, 0xFF]
    let v : PkRepoDetail := { repoId := "a", description := "", enabled := true }
    ∃ r n, WireType.glzDecode .pkRepoDetail u.toBytes 1 {} = some (r.offset, n) ∧
      readRecord (WireType.fields .pkRepoDetail) {} (Reader.ofBytes u 1) = .ok (n, r) ∧
      Agrees .pkRepoDetail n v := by
  have h : (GlazeCodec.decodeFrom .pkRepoDetail
      (Uint8List.ofBytes [9, 1, 0, 0, 0, 0x61, 0, 0, 0, 0, 7, 0xFF]) 1).map
        (Prod.map id Reader.offset) =
      .ok (({ repoId := "a", description := "", enabled := true } : PkRepoDetail), 11) := by decide
  obtain ⟨r, hdecode, -⟩ := decodeFrom_of_offset h
  exact ⟨r, two_decoders hdecode {}⟩

end PackageKitDart.Client
