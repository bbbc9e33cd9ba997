import PackageKitDart.Client.FieldReads

namespace PackageKitDart.Client

open Dart SequentialRead Native Glz Reader

/-- A decoder reads the given fields in turn and builds a value that is in the
relation `P` to the record it has read, unless parsing an id throws `E` of the record. -/
inductive Follows {C α : Type} (P : C → α → Prop) (E : C → DartError → Prop) :
    List (FieldDescriptor C) → C → Read α → Prop
  | field {f : FieldDescriptor C} {fields : List (FieldDescriptor C)} {obj : C}
      {next : FieldValue f.type → Read α}
      (h : ∀ x y, Decoded f.type x y → Follows P E fields (f.set x obj) (next y)) :
      Follows P E (f :: fields) obj (readField f.type >>= next)
  | parse {s : String} {obj : C} {next : PkPackageId → Read α}
      (hE : ∀ e, PkPackageId.parse s = .error e → E obj e)
      (h : ∀ id, PkPackageId.parse s = .ok id → Follows P E [] obj (next id)) :
      Follows P E [] obj (liftM (PkPackageId.parse s) >>= next)
  | value {obj : C} {v : α} (h : P obj v) : Follows P E [] obj (pure v)

namespace Follows

variable {C α : Type} {P : C → α → Prop} {E : C → DartError → Prop}
  {fields : List (FieldDescriptor C)} {obj : C} {d : Read α}

theorem exact (h : Follows P E fields obj d) : Exact cursor Overruns d := by
  induction h with
  | field _ ih =>
    refine (exact_field _).bind ?_
    intro r y r' hy
    obtain ⟨_, _, x, _, _, _, hx⟩ := field_ok hy
    exact ih x y hx
  | parse _ _ ih => exact (Exact.lift _).bind (fun _ id _ hid ↦ ih id (ok_of_lift hid).1)
  | value _ => exact Exact.pure _

theorem confined (h : Follows P E fields obj d) :
    Confined SameView (fun e ↦ ReadError e ∨ ∃ n, E n e) d := by
  induction h with
  | field _ ih =>
    refine ((confined_field _).mono (fun _ ↦ .inl)).bind ?_
    intro r y r' hy
    obtain ⟨_, _, x, _, _, _, hx⟩ := field_ok hy
    exact ih x y hx
  | parse hE _ ih =>
    refine (Confined.lift ?_).bind (fun _ id _ hid ↦ ih id (ok_of_lift hid).1)
    exact fun e he ↦ .inr ⟨_, hE e he⟩
  | value _ => exact Confined.pure _

/-- What a decoder accepts is there, field by field. -/
theorem sound (h : Follows P E fields obj d) {r r' : Reader} {v : α} (hd : d r = .ok (v, r')) :
    ∃ bs rest n, r.ahead = bs ++ rest ∧ r' = r.advance bs.length ∧
      SpellsAll Texts fields obj bs n ∧ P n v := by
  induction h generalizing r with
  | field _ ih =>
    obtain ⟨y, q, hy, hnext⟩ := ok_of_bind hd
    obtain ⟨bs, rest, x, hahead, rfl, hspell, hx⟩ := field_ok hy
    obtain ⟨bs', rest', n, hahead', rfl, hspells, hP⟩ := ih x y hx hnext
    rw [ahead_advance, hahead, List.drop_left] at hahead'
    refine ⟨bs ++ bs', rest', n, ?_, ?_, .cons hspell (texts_of_decoded hx) hspells, hP⟩
    · rw [hahead, hahead', List.append_assoc]
    · rw [advance_advance, List.length_append]
  | parse _ _ ih =>
    obtain ⟨id, q, hrun, hnext⟩ := ok_of_bind hd
    obtain ⟨hid, rfl⟩ := ok_of_lift hrun
    exact ih id hid hnext
  | @value obj _ hP =>
    cases hd
    exact ⟨[], _, obj, rfl, (cursor.advance_zero _).symm, .nil obj, hP⟩

/-- What is there is accepted, up to malformed strings and ids. -/
theorem complete (h : Follows P E fields obj d) {Q : (t : FieldType) → t.Val → Prop} {n : C}
    {bs : List UInt8} (hn : SpellsAll Q fields obj bs n) {r : Reader} {rest : List UInt8}
    (hr : r.ahead = bs ++ rest) :
    (∃ v, P n v ∧ d r = .ok (v, r.advance bs.length)) ∨
      (d r = .error .malformedUtf8 ∧ ¬ ∀ t x, Q t x → Texts t x) ∨ ∃ e, E n e ∧ d r = .error e := by
  induction h generalizing bs r with
  | field _ ih =>
    cases hn with
    | @cons _ _ _ _ bs bs' x hx hQ hrest =>
      rw [List.append_assoc] at hr
      have hahead : (r.advance bs.length).ahead = bs' ++ rest := by
        rw [ahead_advance, hr, List.drop_left]
      rcases readField_of_spells hx hr with ⟨y, hy, hread⟩ | ⟨hread, htext⟩
      · rw [bind_run hread, List.length_append, ← advance_advance]
        exact ih x y hy hrest hahead
      · exact .inr (.inl ⟨error_run hread, fun hall ↦ htext (hall _ x hQ)⟩)
  | @parse s _ _ hE _ ih =>
    cases hs : PkPackageId.parse s with
    | ok id => exact ih id hs hn hr
    | error e =>
      cases hn
      exact .inr (.inr ⟨e, hE e hs, rfl⟩)
  | value hP =>
    cases hn
    exact .inl ⟨_, hP, rfl⟩

end Follows

/-- `PkPackageId.parse` throws `e` on the text of the id. -/
def Unparsed (s : CString) (e : DartError) : Prop :=
  ∃ t, Decoded .string s t ∧ PkPackageId.parse t = .error e

theorem follows_package (obj : Native.PkPackage) :
    Follows (Agrees .pkPackage) (fun n ↦ Unparsed n.packageId) Meta.fields obj
      GlazeCodec.decodePackage := by
  refine .field fun info info' h₁ ↦ .field fun packageId packageId' h₂ ↦
    .field fun summary summary' h₃ ↦ .parse (fun e he ↦ ⟨packageId', h₂, he⟩) ?_
  intro id hid
  exact .value ⟨congrArg PkInfo.fromInt h₁, ⟨packageId', h₂, hid⟩, h₃⟩

theorem follows_progress (obj : Native.PkProgress) :
    Follows (Agrees .pkProgress) (fun _ _ ↦ False) Meta.fields obj GlazeCodec.decodeProgress := by
  refine .field fun packageId packageId' h₁ ↦ .field fun status status' h₂ ↦
    .field fun percentage percentage' h₃ ↦ .field fun isItem isItem' h₄ ↦ ?_
  exact .value ⟨h₁, congrArg PkStatus.fromInt h₂, h₃, h₄⟩

theorem follows_details (obj : Native.PkDetails) :
    Follows (Agrees .pkPackageDetail) (fun n ↦ Unparsed n.packageId) Meta.fields obj
      GlazeCodec.decodeDetails := by
  refine .field fun packageId packageId' h₁ ↦ .field fun summary summary' h₂ ↦
    .field fun description description' h₃ ↦ .field fun url url' h₄ ↦
    .field fun license license' h₅ ↦ .field fun group group' h₆ ↦
    .field fun size size' h₇ ↦ .parse (fun e he ↦ ⟨packageId', h₁, he⟩) ?_
  intro id hid
  exact .value ⟨⟨packageId', h₁, hid⟩, h₂, h₃, h₄, h₅, h₆, h₇⟩

theorem follows_updateDetail (obj : Native.PkUpdateDetail) :
    Follows (Agrees .pkUpdateDetail) (fun _ _ ↦ False) Meta.fields obj
      GlazeCodec.decodeUpdateDetail := by
  refine .field fun packageId packageId' h₁ ↦ .field fun updates updates' h₂ ↦
    .field fun obsoletes obsoletes' h₃ ↦ .field fun vendorUrls vendorUrls' h₄ ↦
    .field fun bugzillaUrls bugzillaUrls' h₅ ↦ .field fun cveUrls cveUrls' h₆ ↦
    .field fun restart restart' h₇ ↦ .field fun updateText updateText' h₈ ↦
    .field fun changelog changelog' h₉ ↦ .field fun state state' h₁₀ ↦
    .field fun issued issued' h₁₁ ↦ .field fun updated updated' h₁₂ ↦ ?_
  exact .value ⟨h₁, h₂, h₃, h₄, h₅, h₆, h₇, h₈, h₉, h₁₀, h₁₁, h₁₂⟩

theorem follows_repoDetail (obj : Native.PkRepoDetail) :
    Follows (Agrees .pkRepoDetail) (fun _ _ ↦ False) Meta.fields obj
      GlazeCodec.decodeRepoDetail := by
  refine .field fun repoId repoId' h₁ ↦ .field fun description description' h₂ ↦
    .field fun enabled enabled' h₃ ↦ ?_
  exact .value ⟨h₁, h₂, h₃⟩

theorem follows_files (obj : Native.PkFiles) :
    Follows (Agrees .pkFiles) (fun _ _ ↦ False) Meta.fields obj GlazeCodec.decodeFiles := by
  refine .field fun packageId packageId' h₁ ↦ .field fun files files' h₂ ↦ ?_
  exact .value ⟨h₁, h₂⟩

theorem follows_errorCode (obj : Native.PkErrorCode) :
    Follows (Agrees .pkErrorCode) (fun _ _ ↦ False) Meta.fields obj GlazeCodec.decodeErrorCode := by
  refine .field fun code code' h₁ ↦ .field fun details details' h₂ ↦ ?_
  exact .value ⟨h₁, h₂⟩

theorem follows_message (obj : Native.PkMessage) :
    Follows (Agrees .pkMessage) (fun _ _ ↦ False) Meta.fields obj GlazeCodec.decodeMessage := by
  refine .field fun type type' h₁ ↦ .field fun details details' h₂ ↦ ?_
  exact .value ⟨h₁, h₂⟩

theorem follows_eulaRequired (obj : Native.PkEulaRequired) :
    Follows (Agrees .pkEulaRequired) (fun _ _ ↦ False) Meta.fields obj
      GlazeCodec.decodeEulaRequired := by
  refine .field fun eulaId eulaId' h₁ ↦ .field fun packageId packageId' h₂ ↦
    .field fun vendorName vendorName' h₃ ↦ .field fun licenseAgreement licenseAgreement' h₄ ↦ ?_
  exact .value ⟨h₁, h₂, h₃, h₄⟩

theorem follows_repoSigRequired (obj : Native.PkRepoSigRequired) :
    Follows (Agrees .pkRepoSigRequired) (fun _ _ ↦ False) Meta.fields obj
      GlazeCodec.decodeRepoSigRequired := by
  refine .field fun packageId packageId' h₁ ↦ .field fun repositoryName repositoryName' h₂ ↦
    .field fun keyUrl keyUrl' h₃ ↦ .field fun keyUserId keyUserId' h₄ ↦
    .field fun keyId keyId' h₅ ↦ .field fun keyFingerprint keyFingerprint' h₆ ↦
    .field fun keyTimestamp keyTimestamp' h₇ ↦ .field fun type type' h₈ ↦ ?_
  exact .value ⟨h₁, h₂, h₃, h₄, h₅, h₆, h₇, h₈⟩

theorem follows_requireRestart (obj : Native.PkRequireRestart) :
    Follows (Agrees .pkRequireRestart) (fun _ _ ↦ False) Meta.fields obj
      GlazeCodec.decodeRequireRestart := by
  refine .field fun type type' h₁ ↦ .field fun packageId packageId' h₂ ↦ ?_
  exact .value ⟨h₁, h₂⟩

theorem follows_managerProps (obj : Native.PkManagerProps) :
    Follows (Agrees .pkManagerProps) (fun _ _ ↦ False) Meta.fields obj
      GlazeCodec.decodeManagerProps := by
  refine .field fun backendName backendName' h₁ ↦
    .field fun backendDescription backendDescription' h₂ ↦
    .field fun backendAuthor backendAuthor' h₃ ↦ .field fun roles roles' h₄ ↦
    .field fun filters filters' h₅ ↦ .field fun groups groups' h₆ ↦
    .field fun mimeTypes mimeTypes' h₇ ↦ .field fun distroId distroId' h₈ ↦
    .field fun networkState networkState' h₉ ↦ .field fun locked locked' h₁₀ ↦
    .field fun versionMajor versionMajor' h₁₁ ↦ .field fun versionMinor versionMinor' h₁₂ ↦
    .field fun versionMicro versionMicro' h₁₃ ↦ ?_
  exact .value ⟨h₁, h₂, h₃, h₄, h₅, h₆, h₇, h₈, h₉, h₁₀, h₁₁, h₁₂, h₁₃⟩

/-- The two words of a finished message, which has no struct of its own. -/
def finishedFields : List (FieldDescriptor (UInt32 × UInt32)) := [
  ⟨"exitCode", .uint32, Prod.fst, fun v n ↦ (v, n.2)⟩,
  ⟨"runtimeMs", .uint32, Prod.snd, fun v n ↦ (n.1, v)⟩]

theorem follows_finished (obj : UInt32 × UInt32) :
    Follows (Agrees .pkFinished) (fun _ _ ↦ False) finishedFields obj
      GlazeCodec.decodeFinished := by
  refine .field fun exitCode exitCode' h₁ ↦ .field fun runtimeMs runtimeMs' h₂ ↦ ?_
  exact .value ⟨h₁, h₂⟩

namespace WireType

def fields : (T : WireType) → List (FieldDescriptor T.Native)
  | .pkPackage => Meta.fields (C := Native.PkPackage)
  | .pkProgress => Meta.fields (C := Native.PkProgress)
  | .pkPackageDetail => Meta.fields (C := Native.PkDetails)
  | .pkUpdateDetail => Meta.fields (C := Native.PkUpdateDetail)
  | .pkRepoDetail => Meta.fields (C := Native.PkRepoDetail)
  | .pkFiles => Meta.fields (C := Native.PkFiles)
  | .pkErrorCode => Meta.fields (C := Native.PkErrorCode)
  | .pkMessage => Meta.fields (C := Native.PkMessage)
  | .pkEulaRequired => Meta.fields (C := Native.PkEulaRequired)
  | .pkRepoSigRequired => Meta.fields (C := Native.PkRepoSigRequired)
  | .pkRequireRestart => Meta.fields (C := Native.PkRequireRestart)
  | .pkManagerProps => Meta.fields (C := Native.PkManagerProps)
  | .pkFinished => finishedFields

/-- What the two decoders that parse a package id throw when it cannot be parsed. -/
def Refused : (T : WireType) → T.Native → DartError → Prop
  | .pkPackage, n, e | .pkPackageDetail, n, e => Unparsed n.packageId e
  | .pkProgress, _, _ | .pkUpdateDetail, _, _ | .pkRepoDetail, _, _ | .pkFiles, _, _
  | .pkErrorCode, _, _ | .pkMessage, _, _ | .pkEulaRequired, _, _ | .pkRepoSigRequired, _, _
  | .pkRequireRestart, _, _ | .pkManagerProps, _, _ | .pkFinished, _, _ => False

end WireType

theorem follows_decoder : (T : WireType) → (obj : T.Native) →
    Follows (Agrees T) T.Refused T.fields obj (GlazeCodec.decoder T)
  | .pkPackage, obj => follows_package obj
  | .pkProgress, obj => follows_progress obj
  | .pkPackageDetail, obj => follows_details obj
  | .pkUpdateDetail, obj => follows_updateDetail obj
  | .pkRepoDetail, obj => follows_repoDetail obj
  | .pkFiles, obj => follows_files obj
  | .pkErrorCode, obj => follows_errorCode obj
  | .pkMessage, obj => follows_message obj
  | .pkEulaRequired, obj => follows_eulaRequired obj
  | .pkRepoSigRequired, obj => follows_repoSigRequired obj
  | .pkRequireRestart, obj => follows_requireRestart obj
  | .pkManagerProps, obj => follows_managerProps obj
  | .pkFinished, obj => follows_finished obj

instance (T : WireType) : Nonempty T.Native := by
  cases T with
  | pkFinished => exact ⟨(0, 0)⟩
  | _ => exact ⟨{}⟩

theorem exact_decoder (T : WireType) : Exact cursor Overruns (GlazeCodec.decoder T) :=
  (follows_decoder T (Classical.arbitrary _)).exact

theorem confined_decoder (T : WireType) :
    Confined SameView (fun e ↦ ReadError e ∨ ∃ n, T.Refused n e) (GlazeCodec.decoder T) :=
  (follows_decoder T (Classical.arbitrary _)).confined

/-- Every type has a field, and every field takes a byte. -/
theorem length_pos_of_spellsAll {Q : (t : FieldType) → t.Val → Prop} {T : WireType}
    {obj n : T.Native} {bs : List UInt8} (h : SpellsAll Q T.fields obj bs n) : 0 < bs.length := by
  obtain ⟨f, fields, hfields⟩ : ∃ f fields, T.fields = f :: fields := by
    cases T <;> exact ⟨_, _, rfl⟩
  rw [hfields] at h
  cases h with
  | cons hspell _ _ =>
    rw [List.length_append]
    exact Nat.add_pos_left hspell.length_pos _

theorem decodeFrom_of_decode {T : WireType} {u : Uint8List} {offset : ℕ} {v : T.Val}
    (h : GlazeCodec.decode T u offset = .ok v) :
    ∃ r, GlazeCodec.decodeFrom T u offset = .ok (v, r) := by
  rw [GlazeCodec.decode] at h
  cases hd : GlazeCodec.decodeFrom T u offset with
  | error e =>
    rw [hd] at h
    cases h
  | ok p =>
    rw [hd] at h
    cases h
    exact ⟨p.2, rfl⟩

theorem error_of_decode {T : WireType} {u : Uint8List} {offset : ℕ} {e : DartError}
    (h : GlazeCodec.decode T u offset = .error e) :
    GlazeCodec.decodeFrom T u offset = .error e := by
  rw [GlazeCodec.decode] at h
  cases hd : GlazeCodec.decodeFrom T u offset with
  | error e' =>
    rw [hd] at h
    cases h
    rfl
  | ok p =>
    rw [hd] at h
    cases h

theorem decodeFrom_of_offset {T : WireType} {u : Uint8List} {offset k : ℕ} {v : T.Val}
    (h : (GlazeCodec.decodeFrom T u offset).map (Prod.map id Reader.offset) = .ok (v, k)) :
    ∃ r, GlazeCodec.decodeFrom T u offset = .ok (v, r) ∧ r.offset = k := by
  cases hd : GlazeCodec.decodeFrom T u offset with
  | error e =>
    rw [hd] at h
    cases h
  | ok p =>
    rw [hd] at h
    cases h
    exact ⟨p.2, rfl, rfl⟩

end PackageKitDart.Client
