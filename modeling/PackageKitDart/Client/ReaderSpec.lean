import PackageKitDart.Client.Codec
import PackageKitDart.Native.GlazeMeta

namespace PackageKitDart.Client.Reader

open Dart SequentialRead Native Glz

def ahead (r : Reader) : List UInt8 := ((r.data.ahead 0).take r.length).drop r.offset

def advance (n : ℕ) (r : Reader) : Reader := { r with offset := r.offset + n }

def cursor : Cursor Reader UInt8 where
  ahead := ahead
  advance := advance
  advance_zero _ := rfl
  advance_advance m n r := by simp [advance, Nat.add_assoc]
  ahead_advance n r := by simp [ahead, advance, Nat.add_comm]

theorem ahead_advance (n : ℕ) (r : Reader) : (r.advance n).ahead = r.ahead.drop n :=
  cursor.ahead_advance n r

theorem advance_advance (m n : ℕ) (r : Reader) : (r.advance m).advance n = r.advance (m + n) :=
  cursor.advance_advance m n r

theorem ahead_eq (r : Reader) :
    r.ahead = (r.data.ahead r.offset).take (r.length - r.offset) := by
  simp only [ahead, ByteData.ahead, List.drop_zero, List.drop_take, Nat.sub_zero]

/-- A fresh reader sees the bytes of its view, from the start offset on. -/
theorem ahead_ofBytes (u : Uint8List) (offset : ℕ) :
    (ofBytes u offset).ahead = u.toBytes.drop offset := by
  have hu := u.inBuffer
  have hmin : min u.length (u.buffer.length - u.offsetInBytes) = u.length := by omega
  simp only [ahead, ByteData.ahead, ofBytes, Uint8List.asByteData, Uint8List.toBytes,
    List.drop_zero, List.take_take, hmin]

theorem length_ahead (r : Reader) : r.ahead.length = r.length - r.offset := by
  have h := r.inData
  have h' := r.data.inBuffer
  simp only [ahead, ByteData.ahead, List.length_drop, List.length_take]
  omega

variable {r : Reader} {bs rest : List UInt8}

theorem take_ahead (h : r.ahead = bs ++ rest) : (r.data.ahead r.offset).take bs.length = bs := by
  have hlen := r.length_ahead
  rw [h, List.length_append] at hlen
  have hmin : min bs.length (r.length - r.offset) = bs.length := by omega
  calc (r.data.ahead r.offset).take bs.length = r.ahead.take bs.length := by
        rw [ahead_eq, List.take_take, hmin]
    _ = bs := by rw [h, List.take_left]

/-- What `checkBounds` throws. -/
def overrun (r : Reader) (needed : ℕ) : DartError :=
  .rangeError ("Codec read overrun: need " ++ toString needed ++ " bytes at offset " ++
    toString r.offset ++ ", but buffer is " ++ toString r.length ++ " bytes")

theorem checkBounds_eq (needed : ℕ) (r : Reader) : (checkBounds needed : Read Unit) r =
    if r.length < r.offset + needed then .error (r.overrun needed) else .ok ((), r) := by
  change (ite (r.offset + needed > r.length) _ (pure ()) : Read Unit) r = _
  by_cases h : r.length < r.offset + needed
  · rw [if_pos h, if_pos h]
    rfl
  · rw [if_neg h, if_neg h]
    rfl

theorem readFixed_eq {α : Type} {width : ℕ} {load : ByteData → ℕ → Except DartError α} {f : ℕ → α}
    (hload : ∀ d offset, load d offset = f <$> d.load width offset) (hpos : 0 < width)
    (r : Reader) : readFixed width load r =
      if r.ahead.length < width then .error (r.overrun width)
      else .ok (f (LittleEndian.decode (r.ahead.take width)), r.advance width) := by
  have hlen := r.length_ahead
  by_cases h : r.ahead.length < width
  · have hbounds : (checkBounds width : Read Unit) r = .error (r.overrun width) := by
      rw [checkBounds_eq, if_pos (by omega)]
    rw [if_pos h, readFixed, error_run hbounds]
  · have hbounds : (checkBounds width : Read Unit) r = .ok ((), r) := by
      rw [checkBounds_eq, if_neg (by omega)]
    have hin : r.offset + width ≤ r.data.lengthInBytes := by
      have h := r.inData
      omega
    have hmin : min width (r.length - r.offset) = width := by omega
    have hvalue : load r.data r.offset = .ok (f (LittleEndian.decode (r.ahead.take width))) := by
      rw [hload, ByteData.load, if_pos hin, ahead_eq, List.take_take, hmin, map_ok]
    have hget : (get : Read Reader) r = .ok (r, r) := rfl
    rw [if_neg h, readFixed, bind_run hbounds, bind_run hget, bind_run (lift_run hvalue r)]
    rfl

theorem reads_fixed {α : Type} {width : ℕ} (load : ByteData → ℕ → Except DartError α) (f : ℕ → α)
    (hload : ∀ d offset, load d offset = f <$> d.load width offset) (hpos : 0 < width)
    (hlen : bs.length = width) :
    Reads cursor (readFixed width load) bs (f (LittleEndian.decode bs)) := by
  intro r rest hr
  change r.ahead = _ at hr
  have hle : ¬ r.ahead.length < width := by
    rw [hr, List.length_append]
    omega
  rw [readFixed_eq hload hpos, if_neg hle, hr, ← hlen, List.take_left]
  rfl

theorem load_uint8 (d : ByteData) (offset : ℕ) :
    (d.getUint8 offset : Except DartError ℕ) = id <$> d.load 1 offset :=
  (id_map (d.load 1 offset)).symm

theorem load_uint32 (d : ByteData) (offset : ℕ) :
    (d.getUint32 offset : Except DartError ℕ) = id <$> d.load 4 offset :=
  (id_map (d.load 4 offset)).symm

theorem load_uint64 (d : ByteData) (offset : ℕ) :
    (d.getUint64 offset : Except DartError ℤ) = (fun word : ℕ ↦ (word : ℤ).bmod (2 ^ 64)) <$> d.load 8 offset :=
  (map_eq_pure_bind _ (d.load 8 offset)).symm

theorem reads_uint32_of_lt {n : ℕ} (hn : n < 2 ^ 32) :
    Reads cursor (readUint32 : Read ℕ) (LittleEndian.encode 4 n) n := by
  have h := reads_fixed ByteData.getUint32 id load_uint32 (by omega)
    (LittleEndian.encode_length 4 n)
  rwa [LittleEndian.decode_encode_of_lt (by omega)] at h

theorem reads_uint32 (n : UInt32) :
    Reads cursor (readUint32 : Read ℕ) (encodeField .uint32 n) n.toNat :=
  reads_uint32_of_lt n.toNat_lt

theorem reads_uint64 (n : UInt64) :
    Reads cursor (readUint64 : Read ℤ) (encodeField .uint64 n) n.toBitVec.toInt := by
  have hlt : n.toNat < 256 ^ 8 := n.toNat_lt
  have h := reads_fixed ByteData.getUint64 (fun word ↦ (word : ℤ).bmod (2 ^ 64)) load_uint64
    (by omega) (LittleEndian.encode_length 8 n.toNat)
  rw [LittleEndian.decode_encode_of_lt hlt] at h
  rwa [BitVec.toInt_eq_toNat_bmod]

theorem reads_uint8 (n : UInt8) :
    Reads cursor (readFixed 1 ByteData.getUint8 : Read ℕ) (encodeField .uint8 n) n.toNat := by
  have h := reads_fixed ByteData.getUint8 id load_uint8 (by omega)
    (show (encodeField .uint8 n).length = 1 from rfl)
  have hn : id (LittleEndian.decode [n]) = n.toNat := by simp [LittleEndian.decode]
  exact hn ▸ h

theorem view_ahead {s : List UInt8} (h : r.ahead = s ++ rest)
    (hle : r.offset + s.length ≤ r.length) :
    ∃ u, Uint8List.view r.data.buffer (r.data.offsetInBytes + r.offset) s.length = .ok u ∧
      u.toBytes = s := by
  have hdata := r.inData
  have hbuffer := r.data.inBuffer
  have hin : r.data.offsetInBytes + r.offset + s.length ≤ r.data.buffer.length := by omega
  refine ⟨_, dif_pos hin, ?_⟩
  have htake := take_ahead h
  have hmin : min s.length (r.data.lengthInBytes - r.offset) = s.length := by omega
  rw [ByteData.ahead, List.drop_take, List.take_take, hmin, List.drop_drop] at htake
  exact htake

/-- The bytes of a string of which the length is known. -/
def readBytes (len : ℕ) : Read CString := do
  checkBounds len
  let r ← get
  let bytes ← Uint8List.view r.data.buffer (r.data.offsetInBytes + r.offset) len
  skip len
  return bytes.toBytes

/-- `readString` up to its `utf8.decode`. -/
def readText : Read CString := do
  let len ← readUint32
  readBytes len

theorem readString_eq : readString = readText >>= fun bytes ↦ liftM (utf8Decode bytes) := by
  simp only [readString, readText, readBytes, view_except, bind_assoc, pure_bind]

theorem readBytes_eq (len : ℕ) (r : Reader) : readBytes len r =
    if r.length < r.offset + len then .error (r.overrun len)
    else .ok (r.ahead.take len, r.advance len) := by
  by_cases h : r.length < r.offset + len
  · have hbounds : (checkBounds len : Read Unit) r = .error (r.overrun len) := by
      rw [checkBounds_eq, if_pos h]
    rw [if_pos h, readBytes, error_run hbounds]
  · have hbounds : (checkBounds len : Read Unit) r = .ok ((), r) := by
      rw [checkBounds_eq, if_neg h]
    have hlen : (r.ahead.take len).length = len := by
      rw [List.length_take, length_ahead]
      omega
    obtain ⟨u, hu, hbytes⟩ := view_ahead (List.take_append_drop len r.ahead).symm (by omega)
    rw [hlen] at hu
    have hget : (get : Read Reader) r = .ok (r, r) := rfl
    rw [if_neg h, readBytes, bind_run hbounds, bind_run hget, bind_run (lift_run hu r), ← hbytes]
    rfl

theorem readText_eq (r : Reader) : readText r =
    if r.ahead.length < 4 then .error (r.overrun 4)
    else if r.ahead.length < 4 + LittleEndian.decode (r.ahead.take 4) then
      .error ((r.advance 4).overrun (LittleEndian.decode (r.ahead.take 4)))
    else .ok ((r.ahead.take (4 + LittleEndian.decode (r.ahead.take 4))).drop 4,
      r.advance (4 + LittleEndian.decode (r.ahead.take 4))) := by
  have hword : (readUint32 : Read ℕ) r = if r.ahead.length < 4 then .error (r.overrun 4)
      else .ok (LittleEndian.decode (r.ahead.take 4), r.advance 4) :=
    readFixed_eq load_uint32 (by omega) r
  have hlen := r.length_ahead
  by_cases h : r.ahead.length < 4
  · rw [if_pos h] at hword
    rw [if_pos h, readText, error_run hword]
  · rw [if_neg h] at hword
    generalize LittleEndian.decode (r.ahead.take 4) = len at hword ⊢
    have hroom : (r.advance 4).length < (r.advance 4).offset + len ↔ r.ahead.length < 4 + len := by
      simp only [advance]
      omega
    rw [if_neg h, readText, bind_run hword, readBytes_eq]
    simp only [hroom, ahead_advance, advance_advance, List.drop_take, Nat.add_sub_cancel_left]

theorem reads_text {s : CString} (hlen : s.length < 2 ^ 32) :
    Reads cursor readText (encodeString s) s := by
  intro r rest hr
  change r.ahead = _ at hr
  have hsize : LittleEndian.decode (r.ahead.take 4) = s.length := by
    rw [hr, encodeString, List.append_assoc, List.take_left' (LittleEndian.encode_length 4 _),
      Nat.mod_eq_of_lt hlen, LittleEndian.decode_encode_of_lt (by omega)]
  have hspell : (encodeString s).length = 4 + s.length := by
    rw [encodeString, List.length_append, LittleEndian.encode_length]
  have hahead := congrArg List.length hr
  rw [List.length_append, hspell] at hahead
  rw [readText_eq, hsize, if_neg (by omega), if_neg (by omega), hr, ← hspell, List.take_left,
    encodeString, List.drop_left' (LittleEndian.encode_length 4 _)]
  rfl

end PackageKitDart.Client.Reader
