import PackageKitDart.Client.FormatAgreement
import PackageKitDart.Client.TwoDecoders
import PackageKitDart.Native.GlazeRoundTrip

namespace PackageKitDart.Client

open Dart SequentialRead Native Glz Reader

theorem get_set_fields (T : WireType) : ∀ f ∈ T.fields, ∀ v obj, f.get (f.set v obj) = v := by
  cases T <;> repeat' first
    | exact List.forall_mem_nil _
    | exact fun _ _ ↦ rfl
    | refine List.forall_mem_cons.mpr ⟨?_, ?_⟩

theorem apart_fields (T : WireType) :
    T.fields.Pairwise (fun f g ↦ ∀ v obj, f.get (g.set v obj) = f.get obj) := by
  cases T <;> repeat' first
    | exact List.Pairwise.nil
    | exact List.forall_mem_nil _
    | exact fun _ _ ↦ rfl
    | refine List.forall_mem_cons.mpr ⟨?_, ?_⟩
    | refine List.Pairwise.cons ?_ ?_

theorem lawful_fields (T : WireType) : Lawful T.fields where
  get_set := get_set_fields T
  apart := apart_fields T
  whole := foldl_set T

namespace Follows

variable {C α : Type} {P : C → α → Prop} {E : C → DartError → Prop}
  {Q : (t : FieldType) → t.Val → Prop} {fields : List (FieldDescriptor C)} {obj n : C}
  {d : Read α} {r : Reader} {bs rest : List UInt8}

/-- A malformed string is met before any id is parsed. -/
theorem malformed (h : Follows P E fields obj d) (hn : SpellsAll Q fields obj bs n)
    (hr : r.ahead = bs ++ rest) (hbad : ¬ SpellsAll Texts fields obj bs n) :
    d r = .error .malformedUtf8 := by
  induction h generalizing bs r with
  | field _ ih =>
    cases hn with
    | @cons _ _ _ _ bs bs' x hx _ hrest =>
      rw [List.append_assoc] at hr
      rcases readField_of_spells hx hr with ⟨y, hy, hread⟩ | ⟨hread, _⟩
      · have hahead : (r.advance bs.length).ahead = bs' ++ rest := by
          rw [ahead_advance, hr, List.drop_left]
        rw [bind_run hread]
        apply ih x y hy hrest hahead
        intro htexts
        exact hbad (.cons hx (texts_of_decoded hy) htexts)
      · exact error_run hread
  | parse _ _ _ =>
    cases hn
    exact absurd (.nil _) hbad
  | value _ =>
    cases hn
    exact absurd (.nil _) hbad

/-- An error comes from a read, or from the id of a record that is there in full. -/
theorem error (h : Follows P E fields obj d) {e : DartError} (hd : d r = .error e) :
    ReadError e ∨ ∃ bs rest n, r.ahead = bs ++ rest ∧ SpellsAll Texts fields obj bs n := by
  induction h generalizing r with
  | field _ ih =>
    rcases error_of_bind hd with hread | ⟨y, q, hy, hnext⟩
    · exact .inl ((confined_field _).error ⟨rfl, rfl, rfl⟩ hread)
    · obtain ⟨bs, rest, x, hahead, rfl, hspell, hx⟩ := field_ok hy
      rcases ih x y hx hnext with hread | ⟨bs', rest', n, hahead', hspells⟩
      · exact .inl hread
      · rw [ahead_advance, hahead, List.drop_left] at hahead'
        refine .inr ⟨bs ++ bs', rest', n, ?_, .cons hspell (texts_of_decoded hx) hspells⟩
        rw [hahead, hahead', List.append_assoc]
  | @parse _ obj _ _ _ _ => exact .inr ⟨[], _, obj, rfl, .nil obj⟩
  | value _ => cases hd

end Follows

namespace WireType

def discriminator : WireType → UInt8
  | .pkPackage => PkTransactionBridge.kPackage
  | .pkProgress => PkTransactionBridge.kProgress
  | .pkPackageDetail => PkTransactionBridge.kDetails
  | .pkUpdateDetail => PkTransactionBridge.kUpdateDetail
  | .pkRepoDetail => PkTransactionBridge.kRepoDetail
  | .pkFiles => PkTransactionBridge.kFiles
  | .pkErrorCode => PkTransactionBridge.kErrorCode
  | .pkMessage => PkTransactionBridge.kMessage
  | .pkEulaRequired => PkTransactionBridge.kEulaRequired
  | .pkRepoSigRequired => PkTransactionBridge.kRepoSigReq
  | .pkRequireRestart => PkTransactionBridge.kRequireRestart
  | .pkManagerProps => PkManager.kManagerProps
  | .pkFinished => PkTransactionBridge.kFinished

/-- `glz::encode` of the struct, and the two words of a finished message. -/
def glzEncode : (T : WireType) → T.Native → List UInt8
  | .pkPackage => Glz.encode (C := Native.PkPackage)
  | .pkProgress => Glz.encode (C := Native.PkProgress)
  | .pkPackageDetail => Glz.encode (C := Native.PkDetails)
  | .pkUpdateDetail => Glz.encode (C := Native.PkUpdateDetail)
  | .pkRepoDetail => Glz.encode (C := Native.PkRepoDetail)
  | .pkFiles => Glz.encode (C := Native.PkFiles)
  | .pkErrorCode => Glz.encode (C := Native.PkErrorCode)
  | .pkMessage => Glz.encode (C := Native.PkMessage)
  | .pkEulaRequired => Glz.encode (C := Native.PkEulaRequired)
  | .pkRepoSigRequired => Glz.encode (C := Native.PkRepoSigRequired)
  | .pkRequireRestart => Glz.encode (C := Native.PkRequireRestart)
  | .pkManagerProps => Glz.encode (C := Native.PkManagerProps)
  | .pkFinished => fun n ↦ encodeField .uint32 n.1 ++ encodeField .uint32 n.2

/-- All lengths and counts of the record fit their prefix. -/
def AllSized (T : WireType) (n : T.Native) : Prop := ∀ f ∈ T.fields, Sized f.type (f.get n)

/-- The id that the decoder of the record parses. -/
def parsedId : (T : WireType) → T.Native → Option CString
  | .pkPackage, n | .pkPackageDetail, n => some n.packageId
  | .pkProgress, _ | .pkUpdateDetail, _ | .pkRepoDetail, _ | .pkFiles, _ | .pkErrorCode, _
  | .pkMessage, _ | .pkEulaRequired, _ | .pkRepoSigRequired, _ | .pkRequireRestart, _
  | .pkManagerProps, _ | .pkFinished, _ => none

/-- All strings of the record are valid UTF-8. -/
def Readable (T : WireType) (n : T.Native) : Prop := ∀ f ∈ T.fields, Texts f.type (f.get n)

/-- The id that is parsed has four parts. -/
def Identified (T : WireType) (n : T.Native) : Prop := ∀ s ∈ T.parsedId n, s.count 0x3B = 3

end WireType

theorem glzEncode_eq (T : WireType) (n : T.Native) : T.glzEncode n = encodeAll T.fields n := by
  cases T with
  | pkFinished => exact congrArg (encodeField .uint32 n.1 ++ ·) (List.append_nil _).symm
  | _ => rfl

theorem posted_eq_cons (T : WireType) (n : T.Native) :
    T.posted n = T.discriminator :: T.glzEncode n := by
  cases T <;> rfl

variable {T : WireType} {n : T.Native}

theorem glzDecode_posted (hn : T.AllSized n) (obj : T.Native) (after : List UInt8) :
    T.glzDecode (Uint8List.ofBytes (T.posted n ++ after)).toBytes 1 obj =
      some ((T.posted n).length, n) := by
  rw [Uint8List.toBytes_ofBytes, glzDecode_eq, posted_eq_cons, glzEncode_eq, List.cons_append,
    List.length_cons, Nat.add_comm]
  exact decodeImpl_of_spells ((lawful_fields T).spellsAll_encodeAll hn obj) rfl

theorem refused_iff {e : DartError} :
    T.Refused n e ↔ ∃ s, T.parsedId n = some s ∧ Unparsed s e := by
  cases T with
  | pkPackage => simp [WireType.Refused, WireType.parsedId]
  | pkPackageDetail => simp [WireType.Refused, WireType.parsedId]
  | _ => simp [WireType.Refused, WireType.parsedId]

theorem not_refused_of_identified (h : T.Identified n) (e : DartError) : ¬ T.Refused n e := by
  intro hrefused
  obtain ⟨s, hs, hunparsed⟩ := refused_iff.mp hrefused
  exact not_unparsed (h s hs) e hunparsed

theorem count_of_decoded {s : CString} {t : String} (h : utf8Decode s = .ok t) :
    t.toList.count ';' = s.count 0x3B := by
  rw [← Utf8.count_bytes t ';' (by decide), bytes_of_utf8Decode h]
  exact count_dropBom s

theorem count_of_decodedId {s : CString} {id : PkPackageId} (h : DecodedId s id) :
    s.count 0x3B = 3 := by
  obtain ⟨t, ht, hparse⟩ := h
  rw [← count_of_decoded ht, ← PkPackageId.parse_isOk_iff]
  exact ⟨id, hparse⟩

theorem identified_of_agrees {v : T.Val} (h : Agrees T n v) : T.Identified n := by
  intro s hs
  cases T with
  | pkPackage =>
    cases hs
    exact count_of_decodedId h.2.1
  | pkPackageDetail =>
    cases hs
    exact count_of_decodedId h.1
  | _ => cases hs

section Decode

variable {u : Uint8List} {offset offset' : ℕ} {obj : T.Native}

theorem decode_of_glzDecode_none (h : T.glzDecode u.toBytes offset obj = none) :
    ∃ e, GlazeCodec.decode T u offset = .error e ∧
      ((∃ message, e = .rangeError message) ∨ e = .malformedUtf8) := by
  rw [glzDecode_eq] at h
  have habsent (Q : (t : FieldType) → t.Val → Prop) (bs rest : List UInt8) (n : T.Native)
      (hahead : (Reader.ofBytes u offset).ahead = bs ++ rest) :
      ¬ SpellsAll Q T.fields obj bs n := by
    intro hspells
    rw [ahead_ofBytes] at hahead
    rw [decodeImpl_of_spells hspells hahead] at h
    cases h
  cases hd : GlazeCodec.decode T u offset with
  | ok v =>
    obtain ⟨r, hrun⟩ := decodeFrom_of_decode hd
    obtain ⟨bs, rest, n, hahead, _, hspells, _⟩ := (follows_decoder T obj).sound hrun
    exact absurd hspells (habsent _ bs rest n hahead)
  | error e =>
    refine ⟨e, rfl, ?_⟩
    rcases (follows_decoder T obj).error (error_of_decode hd) with hread | ⟨bs, rest, n, hahead, hn⟩
    · cases e with
      | rangeError message => exact .inl ⟨message, rfl⟩
      | malformedUtf8 => exact .inr rfl
      | _ => cases hread
    · exact absurd hn (habsent _ bs rest n hahead)

theorem spells_of_glzDecode (h : T.glzDecode u.toBytes offset obj = some (offset', n)) :
    ∃ bs rest, (Reader.ofBytes u offset).ahead = bs ++ rest ∧ offset' = offset + bs.length ∧
      SpellsAll (fun _ _ ↦ True) T.fields obj bs n := by
  rw [glzDecode_eq] at h
  obtain ⟨bs, rest, hdrop, hend, hspells⟩ := spells_of_decodeImpl h
  exact ⟨bs, rest, (ahead_ofBytes u offset).trans hdrop, hend, hspells⟩

theorem decode_of_unreadable (h : T.glzDecode u.toBytes offset obj = some (offset', n))
    (hbad : ¬ T.Readable n) : GlazeCodec.decode T u offset = .error .malformedUtf8 := by
  obtain ⟨bs, rest, hahead, _, hspells⟩ := spells_of_glzDecode h
  have hlawful := lawful_fields T
  have htexts : ¬ SpellsAll Texts T.fields obj bs n :=
    fun htexts ↦ hbad (htexts.forall_get hlawful.get_set hlawful.apart)
  have hrun := (follows_decoder T obj).malformed hspells hahead htexts
  rw [GlazeCodec.decode, GlazeCodec.decodeFrom, hrun]
  rfl

/-- A record whose strings are fine is decoded, unless its id cannot be parsed. -/
theorem decode_of_readable (h : T.glzDecode u.toBytes offset obj = some (offset', n))
    (hread : T.Readable n) :
    (∃ v r, GlazeCodec.decodeFrom T u offset = .ok (v, r) ∧ r.offset = offset' ∧ Agrees T n v) ∨
      ∃ e, T.Refused n e ∧ GlazeCodec.decode T u offset = .error e := by
  obtain ⟨bs, rest, hahead, rfl, hspells⟩ := spells_of_glzDecode h
  have hlawful := lawful_fields T
  have htexts := hspells.of_forall_get hlawful.get_set hlawful.apart hread
  rcases (follows_decoder T obj).complete htexts hahead with
    ⟨v, hagrees, hrun⟩ | ⟨_, hall⟩ | ⟨e, he, hrun⟩
  · exact .inl ⟨v, _, hrun, rfl, hagrees⟩
  · exact absurd (fun _ _ ↦ id) hall
  · refine .inr ⟨e, he, ?_⟩
    rw [GlazeCodec.decode, GlazeCodec.decodeFrom, hrun]
    rfl

theorem decode_of_unidentified (h : T.glzDecode u.toBytes offset obj = some (offset', n))
    (hread : T.Readable n) (hbad : ¬ T.Identified n) :
    ∃ s t, T.parsedId n = some s ∧ utf8Decode s = .ok t ∧
      GlazeCodec.decode T u offset = .error (.formatException ("Invalid package_id: " ++ t)) := by
  obtain ⟨s, hs, hcount⟩ : ∃ s ∈ T.parsedId n, s.count 0x3B ≠ 3 := by
    simpa [WireType.Identified] using hbad
  rcases decode_of_readable h hread with ⟨v, _, _, _, hagrees⟩ | ⟨e, he, hdecode⟩
  · exact absurd (identified_of_agrees hagrees) hbad
  · obtain ⟨s', hs', t, ht, hparse⟩ := refused_iff.mp he
    obtain rfl : s = s' := Option.some.inj (hs.symm.trans hs')
    have hparts : t.toList.count ';' ≠ 3 := by rwa [count_of_decoded ht]
    rw [PkPackageId.parse_error hparts] at hparse
    refine ⟨s, t, hs, ht, ?_⟩
    rw [hdecode, ← Except.error.inj hparse]

end Decode

/-- The Dart decoder accepts what the native one decodes inside the buffer, with readable
strings and a well-formed id; otherwise the error says which of these is missing. -/
theorem decode_classified (T : WireType) (u : Uint8List) (offset : ℕ) (obj : T.Native) :
    (T.glzDecode u.toBytes offset obj = none → ∃ e, GlazeCodec.decode T u offset = .error e ∧
      ((∃ message, e = .rangeError message) ∨ e = .malformedUtf8)) ∧
    ∀ offset' n, T.glzDecode u.toBytes offset obj = some (offset', n) →
      (T.Readable n → T.Identified n → ∃ v r, GlazeCodec.decodeFrom T u offset = .ok (v, r) ∧
        r.offset = offset' ∧ Agrees T n v) ∧
      (¬ T.Readable n → GlazeCodec.decode T u offset = .error .malformedUtf8) ∧
      (T.Readable n → ¬ T.Identified n → ∃ s t, T.parsedId n = some s ∧ utf8Decode s = .ok t ∧
        GlazeCodec.decode T u offset =
          .error (.formatException ("Invalid package_id: " ++ t))) := by
  refine ⟨decode_of_glzDecode_none, ?_⟩
  intro offset' n h
  refine ⟨?_, decode_of_unreadable h, decode_of_unidentified h⟩
  intro hread hid
  rcases decode_of_readable h hread with hdecode | ⟨e, he, _⟩
  · exact hdecode
  · exact absurd he (not_refused_of_identified hid e)

/-- `glz::decode` gives back what `glz::encode` wrote, wherever it stands, exactly when
all lengths fit their prefix; and what it reads is written back as it was, up to the
spelling of a `bool`. -/
theorem glaze_round_trip (T : WireType) :
    (∀ (n obj : T.Native) (before after : List UInt8),
      T.glzDecode (before ++ (T.glzEncode n ++ after)) before.length obj =
          some (before.length + (T.glzEncode n).length, n) ↔ T.AllSized n) ∧
    ∀ (buf : List UInt8) (offset offset' : ℕ) (obj n : T.Native),
      T.glzDecode buf offset obj = some (offset', n) →
      T.AllSized n ∧ ∃ bytes rest, buf.drop offset = bytes ++ rest ∧
        offset' = offset + bytes.length ∧ List.Forall₂ Normalizes bytes (T.glzEncode n) ∧
        ((∀ f ∈ T.fields, f.type ≠ .bool) → bytes = T.glzEncode n) := by
  have hlawful := lawful_fields T
  constructor
  · intro n obj before after
    rw [glzDecode_eq, glzEncode_eq]
    exact hlawful.decodeImpl_encodeAll n obj before after
  · intro buf offset offset' obj n hdecode
    rw [glzDecode_eq] at hdecode
    rw [glzEncode_eq]
    exact ⟨hlawful.sized_of_decodeImpl hdecode, hlawful.encodeAll_of_decodeImpl hdecode⟩

end PackageKitDart.Client
