import PackageKitDart.Client.DispatchSemantics
import PackageKitDart.Client.DecoderLayout
import PackageKitDart.Native.PkManager

namespace PackageKitDart.Client

open Dart SequentialRead Native Glz Reader

/-- Strings are valid UTF-8, and lengths and counts fit their prefix. -/
def Fits : (t : FieldType) → t.Val → Prop
  | .string, s => Utf8.Valid s ∧ s.length < 2 ^ 32
  | .strings, l => l.length < 2 ^ 32 ∧ ∀ s ∈ l, Utf8.Valid s ∧ s.length < 2 ^ 32
  | .uint8, _ | .bool, _ | .uint32, _ | .uint64, _ => True

def FieldsFit {C : Type} [Meta C] (obj : C) : Prop :=
  ∀ f ∈ Meta.fields (C := C), Fits f.type (f.get obj)

/-- What has to hold of a struct for its message to be decodable. -/
def Transmissible : (T : WireType) → T.Native → Prop
  | .pkPackage, n => FieldsFit n ∧ n.packageId.count 0x3B = 3
  | .pkProgress, n => FieldsFit n
  | .pkPackageDetail, n => FieldsFit n ∧ n.packageId.count 0x3B = 3
  | .pkUpdateDetail, n => FieldsFit n
  | .pkRepoDetail, n => FieldsFit n
  | .pkFiles, n => FieldsFit n
  | .pkErrorCode, n => FieldsFit n
  | .pkMessage, n => FieldsFit n
  | .pkEulaRequired, n => FieldsFit n
  | .pkRepoSigRequired, n => FieldsFit n
  | .pkRequireRestart, n => FieldsFit n
  | .pkManagerProps, n => FieldsFit n
  | .pkFinished, _ => True

def WireType.posted : (T : WireType) → T.Native → Posted
  | .pkPackage, n => PkTransactionBridge.post PkTransactionBridge.kPackage n
  | .pkProgress, n => PkTransactionBridge.post PkTransactionBridge.kProgress n
  | .pkPackageDetail, n => PkTransactionBridge.post PkTransactionBridge.kDetails n
  | .pkUpdateDetail, n => PkTransactionBridge.post PkTransactionBridge.kUpdateDetail n
  | .pkRepoDetail, n => PkTransactionBridge.post PkTransactionBridge.kRepoDetail n
  | .pkFiles, n => PkTransactionBridge.post PkTransactionBridge.kFiles n
  | .pkErrorCode, n => PkTransactionBridge.post PkTransactionBridge.kErrorCode n
  | .pkMessage, n => PkTransactionBridge.post PkTransactionBridge.kMessage n
  | .pkEulaRequired, n => PkTransactionBridge.post PkTransactionBridge.kEulaRequired n
  | .pkRepoSigRequired, n => PkTransactionBridge.post PkTransactionBridge.kRepoSigReq n
  | .pkRequireRestart, n => PkTransactionBridge.post PkTransactionBridge.kRequireRestart n
  | .pkManagerProps, n => PkManager.propsMessage n
  | .pkFinished, n => PkTransactionBridge.finishedMessage n.1 n.2

theorem count_dropBom (bs : List UInt8) : (dropBom bs).count 0x3B = bs.count 0x3B := by
  rcases dropBom_eq bs with h | ⟨rest, rfl, h⟩
  · rw [h]
  · rw [h, List.count_append]
    simp [Utf8.bom]

theorem parse_of_decoded {s : CString} {t : String} (ht : utf8Decode s = .ok t)
    (hcount : s.count 0x3B = 3) : ∃ id, PkPackageId.parse t = .ok id := by
  rw [PkPackageId.parse_isOk_iff, ← Utf8.count_bytes t ';' (by decide), bytes_of_utf8Decode ht]
  rw [← hcount, ← count_dropBom]
  rfl

theorem sized_of_fits : {t : FieldType} → {x : t.Val} → Fits t x → Sized t x ∧ Texts t x
  | .uint8, _, _ | .bool, _, _ | .uint32, _, _ | .uint64, _, _ => ⟨trivial, trivial⟩
  | .string, _, h => ⟨h.2, h.1⟩
  | .strings, _, h => ⟨⟨h.1, fun s hs ↦ (h.2 s hs).2⟩, fun s hs ↦ (h.2 s hs).1⟩

/-- No member is missing from `glz::meta`: setting all fields gives the struct. -/
theorem foldl_set (T : WireType) (n obj : T.Native) :
    T.fields.foldl (fun o f ↦ f.set (f.get n) o) obj = n := by
  cases T <;> rfl

theorem posted_eq (T : WireType) (n : T.Native) :
    ∃ disc, T.posted n = disc :: T.fields.flatMap (fun f ↦ encodeField f.type (f.get n)) := by
  cases T with
  | pkFinished =>
    refine ⟨0x20, congrArg (0x20 :: encodeField .uint32 n.1 ++ ·) ?_⟩
    exact (List.append_nil _).symm
  | _ => exact ⟨_, rfl⟩

theorem fits_of_transmissible : {T : WireType} → {n : T.Native} → Transmissible T n →
    ∀ f ∈ T.fields, Fits f.type (f.get n)
  | .pkPackage, _, h | .pkPackageDetail, _, h => h.1
  | .pkProgress, _, h | .pkUpdateDetail, _, h | .pkRepoDetail, _, h | .pkFiles, _, h
  | .pkErrorCode, _, h | .pkMessage, _, h | .pkEulaRequired, _, h | .pkRepoSigRequired, _, h
  | .pkRequireRestart, _, h | .pkManagerProps, _, h => h
  | .pkFinished, _, _ => by simp [WireType.fields, finishedFields, Fits]

theorem not_unparsed {s : CString} (hcount : s.count 0x3B = 3) (e : DartError) :
    ¬ Unparsed s e := by
  intro h
  obtain ⟨t, ht, hparse⟩ := h
  obtain ⟨id, hid⟩ := parse_of_decoded ht hcount
  rw [hid] at hparse
  cases hparse

theorem not_refused {T : WireType} {n : T.Native} (h : Transmissible T n) (e : DartError) :
    ¬ T.Refused n e := by
  cases T with
  | pkPackage => exact not_unparsed h.2 e
  | pkPackageDetail => exact not_unparsed h.2 e
  | _ => exact not_false

/-- What the decoder makes of the message for a struct. -/
theorem posted_run {T : WireType} {n : T.Native} {Q : (t : FieldType) → t.Val → Prop}
    (h : ∀ f ∈ T.fields, Sized f.type (f.get n) ∧ Q f.type (f.get n)) :
    (∃ v r, GlazeCodec.decodeFrom T (Uint8List.ofBytes (T.posted n)) 1 = .ok (v, r) ∧
      r.offset = (T.posted n).length ∧ Agrees T n v) ∨
    (¬ ∀ t x, Q t x → Texts t x) ∧
      GlazeCodec.decodeFrom T (Uint8List.ofBytes (T.posted n)) 1 = .error .malformedUtf8 ∨
    ∃ e, T.Refused n e ∧
      GlazeCodec.decodeFrom T (Uint8List.ofBytes (T.posted n)) 1 = .error e := by
  obtain ⟨disc, hposted⟩ := posted_eq T n
  -- what the fields are set on does not matter
  have hspells := spellsAll_encoded h n
  rw [foldl_set] at hspells
  have hahead : (Reader.ofBytes (Uint8List.ofBytes (T.posted n)) 1).ahead =
      T.fields.flatMap (fun f ↦ encodeField f.type (f.get n)) ++ [] := by
    rw [hposted, ahead_ofBytes, Uint8List.toBytes_ofBytes, List.append_nil]
    rfl
  rcases (follows_decoder T n).complete hspells hahead with
    ⟨v, hagrees, hdecode⟩ | ⟨hdecode, htexts⟩ | ⟨e, he, hdecode⟩
  · refine .inl ⟨v, _, hdecode, ?_, hagrees⟩
    rw [hposted, List.length_cons, Nat.add_comm]
    rfl
  · exact .inr (.inl ⟨htexts, hdecode⟩)
  · exact .inr (.inr ⟨e, he, hdecode⟩)

theorem decodes_posted {T : WireType} {n : T.Native} (h : Transmissible T n) :
    ∃ v r, GlazeCodec.decodeFrom T (Uint8List.ofBytes (T.posted n)) 1 = .ok (v, r) ∧
      r.offset = (T.posted n).length ∧ Agrees T n v := by
  have hfields : ∀ f ∈ T.fields, Sized f.type (f.get n) ∧ Texts f.type (f.get n) :=
    fun f hf ↦ sized_of_fits (fits_of_transmissible h f hf)
  rcases posted_run hfields with hrun | ⟨htexts, _⟩ | ⟨e, he, _⟩
  · exact hrun
  · exact absurd (fun _ _ ↦ id) htexts
  · exact absurd he (not_refused h e)

/-- Whenever the message of a struct is decoded, the value agrees with the struct. -/
theorem agrees_of_posted {T : WireType} {n : T.Native} {v : T.Val}
    (hsized : ∀ f ∈ T.fields, Sized f.type (f.get n))
    (h : GlazeCodec.decode T (Uint8List.ofBytes (T.posted n)) 1 = .ok v) : Agrees T n v := by
  have hfields : ∀ f ∈ T.fields, Sized f.type (f.get n) ∧ (fun _ _ ↦ True) f.type (f.get n) :=
    fun f hf ↦ ⟨hsized f hf, trivial⟩
  rw [GlazeCodec.decode] at h
  rcases posted_run (Q := fun _ _ ↦ True) hfields with
    ⟨w, r, hdecode, _, hagrees⟩ | ⟨_, hdecode⟩ | ⟨e, _, hdecode⟩
  · rw [hdecode] at h
    cases h
    exact hagrees
  · rw [hdecode] at h
    cases h
  · rw [hdecode] at h
    cases h

/-- What dispatching a message of this struct does: an open stream gets exactly the value, a
Finished leaves its outcome, and the properties are handed out as an event of the manager. -/
inductive Received (msg : Uint8List) : (T : WireType) → T.Val → Prop
  | data (s : StreamName) (event : s.Event)
      (h : ∀ d : TransactionDispatcher, (d.streams s).isClosed = false →
        d.dispatch msg = .ok (d.push s event, [])) : Received msg s.type event
  | finished (result : PkFinished)
      (h : ∀ d : TransactionDispatcher, d.dispatch msg = .ok (d.record (finishedOutcome result))) :
      Received msg .pkFinished result
  | managerProps (props : PkManagerProps)
      (h : dispatchManagerEvent msg = .ok (some (.props props))) :
      Received msg .pkManagerProps props

theorem received_data {msg : Uint8List} {s : StreamName} {event : s.Event}
    (hget : msg.get 0 = .ok s.byte) (hdecode : GlazeCodec.decode s.type msg 1 = .ok event) :
    Received msg s.type event := by
  refine .data s event (fun d hopen ↦ ?_)
  simp [TransactionDispatcher.dispatch, TransactionDispatcher.dispatchBody, hget, hdecode,
    TransactionDispatcher.add, StreamController.add, hopen, TransactionDispatcher.push]

theorem received_finished {msg : Uint8List} {result : PkFinished} (hget : msg.get 0 = .ok 0x20)
    (hdecode : GlazeCodec.decode .pkFinished msg 1 = .ok result) :
    Received msg .pkFinished result := by
  have hs : StreamName.ofDiscriminator 0x20 = none := rfl
  refine .finished result (fun d ↦ ?_)
  simp [TransactionDispatcher.dispatch, TransactionDispatcher.dispatchBody, hget, hs, hdecode,
    TransactionDispatcher.finishedBody_eq]

theorem received_managerProps {msg : Uint8List} {props : PkManagerProps}
    (hget : msg.get 0 = .ok 0x0C)
    (hdecode : GlazeCodec.decode .pkManagerProps msg 1 = .ok props) :
    Received msg .pkManagerProps props := by
  refine .managerProps props ?_
  simp [dispatchManagerEvent, hget, hdecode]

theorem received_posted {T : WireType} {n : T.Native} {v : T.Val}
    (hdecode : GlazeCodec.decode T (Uint8List.ofBytes (T.posted n)) 1 = .ok v) :
    Received (Uint8List.ofBytes (T.posted n)) T v := by
  cases T with
  | pkPackage => exact received_data (s := .packages) rfl hdecode
  | pkProgress => exact received_data (s := .progress) rfl hdecode
  | pkPackageDetail => exact received_data (s := .details) rfl hdecode
  | pkUpdateDetail => exact received_data (s := .updateDetails) rfl hdecode
  | pkRepoDetail => exact received_data (s := .repoDetails) rfl hdecode
  | pkFiles => exact received_data (s := .files) rfl hdecode
  | pkErrorCode => exact received_data (s := .errors) rfl hdecode
  | pkMessage => exact received_data (s := .messages) rfl hdecode
  | pkEulaRequired => exact received_data (s := .eulaRequired) rfl hdecode
  | pkRepoSigRequired => exact received_data (s := .repoSigRequired) rfl hdecode
  | pkRequireRestart => exact received_data (s := .requireRestart) rfl hdecode
  | pkManagerProps => exact received_managerProps rfl hdecode
  | pkFinished => exact received_finished rfl hdecode

/-- The network state travels outside the codec, as one word behind its discriminator. -/
theorem networkState_posted (state : UInt32) :
    dispatchManagerEvent (Uint8List.ofBytes (PkManager.onNetworkStateChanged state)) =
      .ok (some (.networkStateChanged state.toNat)) := by
  have hget : (Uint8List.ofBytes (PkManager.onNetworkStateChanged state)).get 0 = .ok 0xD2 := rfl
  have hword : ((Uint8List.ofBytes (PkManager.onNetworkStateChanged state)).asByteData.getUint32 1 :
      Except DartError ℕ) = .ok state.toNat := by
    have hlt : state.toNat < 256 ^ 4 := state.toNat_lt
    have htake : (LittleEndian.encode 4 state.toNat).take 4 = LittleEndian.encode 4 state.toNat :=
      List.take_of_length_le (by simp)
    simp [ByteData.getUint32, ByteData.load, ByteData.ahead, Uint8List.asByteData,
      Uint8List.ofBytes, PkManager.onNetworkStateChanged, encodeField, htake,
      LittleEndian.decode_encode_of_lt hlt]
  simp [dispatchManagerEvent, hget, hword]

/-- Both sides of the bridge agree on every message format: the decoder reads a posted struct to
its end, every field comes from the field of the same name, and it is this value that dispatching
the message leaves behind. -/
theorem format_agreement :
    (∀ (T : WireType) (n : T.Native), Transmissible T n →
      ∃ v r, GlazeCodec.decodeFrom T (Uint8List.ofBytes (T.posted n)) 1 = .ok (v, r) ∧
        r.offset = (T.posted n).length ∧ Agrees T n v ∧
        Received (Uint8List.ofBytes (T.posted n)) T v) ∧
    ∀ state : UInt32, (PkManager.onNetworkStateChanged state).length = 1 + 4 ∧
      dispatchManagerEvent (Uint8List.ofBytes (PkManager.onNetworkStateChanged state)) =
        .ok (some (.networkStateChanged state.toNat)) := by
  refine ⟨fun T n h ↦ ?_, fun state ↦ ⟨?_, ?_⟩⟩
  · obtain ⟨v, r, hdecode, hoffset, hagrees⟩ := decodes_posted h
    refine ⟨v, r, hdecode, hoffset, hagrees, received_posted ?_⟩
    rw [GlazeCodec.decode, hdecode]
    rfl
  · simp [PkManager.onNetworkStateChanged, encodeField]
  · exact networkState_posted state

theorem format_agreement_package :
    let n : Native.PkPackage :=
      { info := 2, packageId := Utf8.bytes "vim;9.1;x86_64;core", summary := [] }
    ∃ v r, GlazeCodec.decodeFrom .pkPackage (Uint8List.ofBytes (WireType.posted .pkPackage n)) 1 =
        .ok (v, r) ∧
      r.offset = (WireType.posted .pkPackage n).length ∧ Agrees .pkPackage n v ∧
      Received (Uint8List.ofBytes (WireType.posted .pkPackage n)) .pkPackage v := by
  intro n
  have hfit : Transmissible .pkPackage n := by
    refine ⟨?_, by decide⟩
    simp only [FieldsFit, Meta.fields, List.forall_mem_cons]
    exact ⟨trivial, ⟨by decide, by decide⟩, ⟨by decide, by decide⟩, List.forall_mem_nil _⟩
  exact format_agreement.1 .pkPackage n hfit

end PackageKitDart.Client
