import PackageKitDart.Client.DecoderLayout
import PackageKitDart.Library.TracedRun

namespace PackageKitDart.Client

open Dart SequentialRead TracedRun Native Glz Reader

instance : BufferAccess (Traced DartError (ℕ × ℕ)) where
  load d width byteOffset := access (d.offsetInBytes + byteOffset, width) (d.load width byteOffset)
  view buffer offset length := access (offset, length) (Uint8List.view buffer offset length)

/-- `decodeFrom` with the ranges of the backing buffer, by start and length, that its loads and
views ask for. An access is written down before it is made, be it in bounds or not. -/
def GlazeCodec.traceFrom (T : WireType) (data : Uint8List) (offset : ℕ) :
    Except DartError (T.Val × Reader) × List (ℕ × ℕ) :=
  (decoder T (Reader.ofBytes data offset) : Traced DartError (ℕ × ℕ) (T.Val × Reader)).trace

namespace Reader

/-- The range lies in the part of the buffer that the view shows. -/
def Visible (u : Uint8List) (range : ℕ × ℕ) : Prop :=
  u.offsetInBytes ≤ range.1 ∧ range.1 + range.2 ≤ u.offsetInBytes + u.length

def ReadsView (u : Uint8List) (r : Reader) : Prop := r.data = u.asByteData ∧ r.length = u.length

variable {α β : Type} {u : Uint8List}

/-- The read comes to the same when it is traced, and asks for visible ranges only. -/
abbrev Inside (u : Uint8List) (t : StateT Reader (Traced DartError (ℕ × ℕ)) α) (d : Read α) :
    Prop :=
  LogsFrom (ReadsView u) (Visible u) t d

theorem visible_of_bounds {r : Reader} {len : ℕ} (hr : ReadsView u r)
    (hbounds : r.offset + len ≤ r.length) :
    Visible u (r.data.offsetInBytes + r.offset, len) := by
  obtain ⟨hdata, hlength⟩ := hr
  have hstart : r.data.offsetInBytes = u.offsetInBytes := by rw [hdata]; rfl
  rw [Visible, hstart, ← hlength]
  constructor
  · exact Nat.le_add_right _ _
  · change u.offsetInBytes + r.offset + len ≤ _
    omega

theorem inside_checkBounds (needed : ℕ) : Inside u (checkBounds needed) (checkBounds needed) := by
  refine .bind .get (fun r ↦ ?_)
  by_cases h : r.offset + needed > r.length
  · rw [if_pos h, if_pos h]
    exact .throw _
  · rw [if_neg h, if_neg h]
    exact .pure ()

theorem bounds_of_check {needed : ℕ} {r r' : Reader}
    (h : (checkBounds needed : Read Unit) r = .ok ((), r')) :
    r' = r ∧ r.offset + needed ≤ r.length := by
  rw [checkBounds_eq] at h
  split at h
  · cases h
  · cases h
    exact ⟨rfl, by omega⟩

theorem inside_skip (n : ℕ) : Inside u (skip n) (skip n) := .modify (fun _ h ↦ h)

/-- What comes after a bounds check runs from the same reader, with room for what was checked. -/
theorem inside_checked {needed : ℕ} {t : Reader → StateT Reader (Traced DartError (ℕ × ℕ)) α}
    {d : Reader → Read α}
    (h : ∀ r, ReadsView u r → r.offset + needed ≤ r.length →
      LogsAt (ReadsView u) (Visible u) (t r) (d r) r) :
    Inside u (do checkBounds needed; t (← get)) (do checkBounds needed; d (← get)) := by
  intro r hr
  refine (inside_checkBounds needed r hr).bind ?_
  intro _ r' hcheck hr'
  obtain ⟨rfl, hbounds⟩ := bounds_of_check hcheck
  refine (LogsFrom.get r' hr').bind ?_
  intro q q' hget _
  cases hget
  exact h _ hr' hbounds

theorem inside_fixed {width : ℕ} {loadT : ByteData → ℕ → Traced DartError (ℕ × ℕ) α}
    {loadD : ByteData → ℕ → Except DartError α}
    (hload : ∀ (d : ByteData) (offset : ℕ), Visible u (d.offsetInBytes + offset, width) →
      Logs (Visible u) (loadT d offset) (loadD d offset)) :
    Inside u (readFixed width loadT) (readFixed width loadD) := by
  refine inside_checked (fun r hr hbounds ↦ ?_)
  refine (LogsAt.lift (hload r.data r.offset (visible_of_bounds hr hbounds)) hr).bind ?_
  intro v r' _ hr'
  exact (inside_skip width).bind (fun _ ↦ .pure v) r' hr'

theorem inside_uint8 : Inside u (readFixed 1 ByteData.getUint8) (readFixed 1 ByteData.getUint8) :=
  inside_fixed (fun _ _ hrange ↦ .access hrange _)

theorem inside_uint32 : Inside u readUint32 readUint32 :=
  inside_fixed (fun _ _ hrange ↦ .access hrange _)

theorem inside_uint64 : Inside u readUint64 readUint64 :=
  inside_fixed (fun _ _ hrange ↦ .bind (.access hrange _) (fun _ _ ↦ .pure _))

theorem inside_bool : Inside u readBool readBool := inside_uint8.bind (fun _ ↦ .pure _)

theorem inside_string : Inside u readString readString := by
  refine inside_uint32.bind (fun len ↦ inside_checked (fun r hr hbounds ↦ ?_))
  have hview := Logs.access (visible_of_bounds hr hbounds)
    (Uint8List.view r.data.buffer (r.data.offsetInBytes + r.offset) len)
  refine (LogsAt.lift hview hr).bind ?_
  intro bytes r' _ hr'
  exact (inside_skip len).bind (fun _ ↦ .lift (.lift _)) r' hr'

theorem inside_strings (count : ℕ) : Inside u (readStrings count) (readStrings count) := by
  induction count with
  | zero => exact .pure []
  | succ count ih => exact inside_string.bind (fun _ ↦ ih.bind (fun _ ↦ .pure _))

theorem inside_stringList : Inside u readStringList readStringList :=
  inside_uint32.bind inside_strings

theorem inside_decoder : (T : WireType) → Inside u (GlazeCodec.decoder T) (GlazeCodec.decoder T)
  | .pkPackage =>
    inside_uint32.bind fun _ ↦ inside_string.bind fun _ ↦ inside_string.bind fun _ ↦
      .bind (.lift (.lift _)) fun _ ↦ .pure _
  | .pkProgress =>
    inside_string.bind fun _ ↦ inside_uint32.bind fun _ ↦ inside_uint32.bind fun _ ↦
      inside_bool.bind fun _ ↦ .pure _
  | .pkPackageDetail =>
    inside_string.bind fun _ ↦ inside_string.bind fun _ ↦ inside_string.bind fun _ ↦
      inside_string.bind fun _ ↦ inside_string.bind fun _ ↦ inside_string.bind fun _ ↦
      inside_uint64.bind fun _ ↦ .bind (.lift (.lift _)) fun _ ↦ .pure _
  | .pkUpdateDetail =>
    inside_string.bind fun _ ↦ inside_stringList.bind fun _ ↦ inside_stringList.bind fun _ ↦
      inside_stringList.bind fun _ ↦ inside_stringList.bind fun _ ↦ inside_stringList.bind fun _ ↦
      inside_uint32.bind fun _ ↦ inside_string.bind fun _ ↦ inside_string.bind fun _ ↦
      inside_uint32.bind fun _ ↦ inside_string.bind fun _ ↦ inside_string.bind fun _ ↦ .pure _
  | .pkRepoDetail =>
    inside_string.bind fun _ ↦ inside_string.bind fun _ ↦ inside_bool.bind fun _ ↦ .pure _
  | .pkFiles => inside_string.bind fun _ ↦ inside_stringList.bind fun _ ↦ .pure _
  | .pkErrorCode => inside_uint32.bind fun _ ↦ inside_string.bind fun _ ↦ .pure _
  | .pkMessage => inside_uint32.bind fun _ ↦ inside_string.bind fun _ ↦ .pure _
  | .pkEulaRequired =>
    inside_string.bind fun _ ↦ inside_string.bind fun _ ↦ inside_string.bind fun _ ↦
      inside_string.bind fun _ ↦ .pure _
  | .pkRepoSigRequired =>
    inside_string.bind fun _ ↦ inside_string.bind fun _ ↦ inside_string.bind fun _ ↦
      inside_string.bind fun _ ↦ inside_string.bind fun _ ↦ inside_string.bind fun _ ↦
      inside_string.bind fun _ ↦ inside_uint32.bind fun _ ↦ .pure _
  | .pkRequireRestart => inside_uint32.bind fun _ ↦ inside_string.bind fun _ ↦ .pure _
  | .pkManagerProps =>
    inside_string.bind fun _ ↦ inside_string.bind fun _ ↦ inside_string.bind fun _ ↦
      inside_uint64.bind fun _ ↦ inside_uint64.bind fun _ ↦ inside_uint64.bind fun _ ↦
      inside_stringList.bind fun _ ↦ inside_string.bind fun _ ↦ inside_uint32.bind fun _ ↦
      inside_bool.bind fun _ ↦ inside_uint32.bind fun _ ↦ inside_uint32.bind fun _ ↦
      inside_uint32.bind fun _ ↦ .pure _
  | .pkFinished => inside_uint32.bind fun _ ↦ inside_uint32.bind fun _ ↦ .pure _

end Reader

theorem sameView_ofBytes {u u' : Uint8List} (h : u'.toBytes = u.toBytes) (offset : ℕ) :
    SameView (Reader.ofBytes u' offset) (Reader.ofBytes u offset) where
  ahead := by rw [ahead_ofBytes, ahead_ofBytes, h]
  offset := rfl
  length := by
    have hlen := congrArg List.length h
    rwa [Uint8List.length_toBytes, Uint8List.length_toBytes] at hlen

/-- What `GlazeCodec.decode` can throw: its own `RangeError`, the
`FormatException` of `PkPackageId.parse`, or that of `utf8.decode`. -/
inductive CodecError : DartError → Prop
  | overrun (message : String) : CodecError (.rangeError message)
  | unparsed (message : String) : CodecError (.formatException message)
  | malformed : CodecError .malformedUtf8

theorem codecError_of_readError {e : DartError} (h : ReadError e) : CodecError e := by
  cases e with
  | rangeError message => exact .overrun message
  | malformedUtf8 => exact .malformed
  | _ => cases h

theorem codecError_of_unparsed {s : CString} {e : DartError} (h : Unparsed s e) : CodecError e := by
  obtain ⟨t, _, hparse⟩ := h
  unfold PkPackageId.parse at hparse
  split at hparse
  · cases hparse
  · cases hparse
    exact .unparsed _

theorem codecError_of_refused {T : WireType} {n : T.Native} {e : DartError} (h : T.Refused n e) :
    CodecError e := by
  cases T with
  | pkPackage => exact codecError_of_unparsed h
  | pkPackageDetail => exact codecError_of_unparsed h
  | _ => cases h

theorem confined_codec (T : WireType) : Confined SameView CodecError (GlazeCodec.decoder T) := by
  refine (confined_decoder T).mono ?_
  intro e he
  rcases he with he | ⟨n, he⟩
  · exact codecError_of_readError he
  · exact codecError_of_refused he

theorem decode_congr {u u' : Uint8List} (h : u'.toBytes = u.toBytes) (T : WireType) (offset : ℕ) :
    GlazeCodec.decode T u' offset = GlazeCodec.decode T u offset :=
  (confined_codec T _ _ (sameView_ofBytes h offset)).map_fst

theorem decode_error {T : WireType} {u : Uint8List} {offset : ℕ} {e : DartError}
    (h : GlazeCodec.decode T u offset = .error e) : CodecError e := by
  have hself : Alike _ _ (GlazeCodec.decodeFrom T u offset) _ :=
    confined_codec T _ _ (sameView_ofBytes (u := u) rfl offset)
  rw [error_of_decode h] at hself
  exact hself.error

/-- `GlazeCodec.decode` accesses only bytes of its view, and depends on nothing else. -/
theorem view_confinement (T : WireType) (u : Uint8List) (offset : ℕ) :
    (GlazeCodec.traceFrom T u offset).1 = GlazeCodec.decodeFrom T u offset ∧
    (∀ range ∈ (GlazeCodec.traceFrom T u offset).2,
      u.offsetInBytes ≤ range.1 ∧ range.1 + range.2 ≤ u.offsetInBytes + u.length ∧
        range.1 + range.2 ≤ u.buffer.length) ∧
    (∀ e, GlazeCodec.decode T u offset = .error e → CodecError e) ∧
    ∀ u' : Uint8List, u'.toBytes = u.toBytes →
      GlazeCodec.decode T u' offset = GlazeCodec.decode T u offset := by
  have hlogs := (inside_decoder T (Reader.ofBytes u offset) ⟨rfl, rfl⟩).logs
  obtain ⟨hresult, hvisible⟩ := hlogs.trace_eq
  refine ⟨hresult, ?_, fun _ ↦ decode_error, fun _ h ↦ decode_congr h T offset⟩
  intro range hrange
  obtain ⟨hstart, hend⟩ := hvisible range hrange
  exact ⟨hstart, hend, hend.trans u.inBuffer⟩

-- the code, the length and the text of an ErrorCode, in a view with a foreign byte on either side
example : (GlazeCodec.traceFrom .pkErrorCode
    ⟨[0, 7, 1, 0, 0, 0, 2, 0, 0, 0, 0x61, 0x62, 0], 1, 11, by decide⟩ 1).2 =
    [(2, 4), (6, 4), (10, 2)] := rfl

end PackageKitDart.Client
