import PackageKitDart.Library.LittleEndian
import PackageKitDart.Library.Utf8

namespace PackageKitDart.Dart

/-- What Dart code can throw here. The errors the SDK raises itself keep no
text, since it is the SDK's own. -/
inductive DartError
  | rangeError (message : String)
  | indexError
  | formatException (message : String)
  | malformedUtf8
  | stateError (message : String)
  deriving DecidableEq, Repr

section Except

variable {ε α β : Type}

@[simp]
theorem ok_bind (a : α) (f : α → Except ε β) : (Except.ok a >>= f) = f a := rfl

@[simp]
theorem error_bind (e : ε) (f : α → Except ε β) : (Except.error e >>= f) = .error e := rfl

@[simp]
theorem map_ok (a : α) (f : α → β) : (f <$> (Except.ok a : Except ε α)) = .ok (f a) := rfl

@[simp]
theorem pure_eq_ok (a : α) : (pure a : Except ε α) = .ok a := rfl

end Except

/-- A `Uint8List` is a window into a byte buffer that may be larger. -/
structure Uint8List where
  buffer : List UInt8
  offsetInBytes : ℕ
  length : ℕ
  inBuffer : offsetInBytes + length ≤ buffer.length

namespace Uint8List

def toBytes (u : Uint8List) : List UInt8 := (u.buffer.drop u.offsetInBytes).take u.length

def ofBytes (bytes : List UInt8) : Uint8List where
  buffer := bytes
  offsetInBytes := 0
  length := bytes.length
  inBuffer := by simp

theorem length_toBytes (u : Uint8List) : u.toBytes.length = u.length := by
  have h := u.inBuffer
  rw [toBytes, List.length_take, List.length_drop]
  omega

theorem toBytes_ofBytes (bytes : List UInt8) : (ofBytes bytes).toBytes = bytes := by
  simp [toBytes, ofBytes]

/-- The operator `u[i]`. -/
def get (u : Uint8List) (i : ℕ) : Except DartError UInt8 :=
  match u.toBytes[i]? with
  | some byte => .ok byte
  | none => .error .indexError

/-- `Uint8List.view(buffer, offset, length)`. -/
def view (buffer : List UInt8) (offset length : ℕ) : Except DartError Uint8List :=
  if h : offset + length ≤ buffer.length then .ok ⟨buffer, offset, length, h⟩
  else .error .indexError

end Uint8List

structure ByteData where
  buffer : List UInt8
  offsetInBytes : ℕ
  lengthInBytes : ℕ
  inBuffer : offsetInBytes + lengthInBytes ≤ buffer.length

namespace ByteData

def ahead (d : ByteData) (byteOffset : ℕ) : List UInt8 :=
  ((d.buffer.drop d.offsetInBytes).take d.lengthInBytes).drop byteOffset

def load (d : ByteData) (width byteOffset : ℕ) : Except DartError ℕ :=
  if byteOffset + width ≤ d.lengthInBytes then
    .ok (LittleEndian.decode ((d.ahead byteOffset).take width))
  else .error .indexError

end ByteData

/-- The two ways to the bytes of a buffer. The monad is left open, so that it can keep track of
them. -/
class BufferAccess (m : Type → Type) where
  load : ByteData → (width byteOffset : ℕ) → m ℕ
  view : List UInt8 → (offset length : ℕ) → m Uint8List

instance : BufferAccess (Except DartError) where
  load := ByteData.load
  view := Uint8List.view

@[simp]
theorem load_except (d : ByteData) (width byteOffset : ℕ) :
    (BufferAccess.load d width byteOffset : Except DartError ℕ) = d.load width byteOffset := rfl

@[simp]
theorem view_except (buffer : List UInt8) (offset length : ℕ) :
    (BufferAccess.view buffer offset length : Except DartError Uint8List) =
      Uint8List.view buffer offset length := rfl

namespace ByteData

variable {m : Type → Type} [BufferAccess m]

def getUint8 (d : ByteData) (byteOffset : ℕ) : m ℕ := BufferAccess.load d 1 byteOffset

def getUint32 (d : ByteData) (byteOffset : ℕ) : m ℕ := BufferAccess.load d 4 byteOffset

/-- Dart's `int` is signed, so the upper half of the unsigned range comes out negative. -/
def getUint64 [Monad m] (d : ByteData) (byteOffset : ℕ) : m ℤ := do
  let word ← BufferAccess.load d 8 byteOffset
  return (word : ℤ).bmod (2 ^ 64)

end ByteData

/-- `u.buffer.asByteData(u.offsetInBytes)`: it runs to the end of the buffer. -/
def Uint8List.asByteData (u : Uint8List) : ByteData where
  buffer := u.buffer
  offsetInBytes := u.offsetInBytes
  lengthInBytes := u.buffer.length - u.offsetInBytes
  inBuffer := by have h := u.inBuffer; omega

/-- A leading byte order mark is dropped, as the SDK's decoder does. -/
def dropBom : List UInt8 → List UInt8
  | 0xEF :: 0xBB :: 0xBF :: rest => rest
  | bytes => bytes

/-- `utf8.decode`. -/
def utf8Decode (bytes : List UInt8) : Except DartError String :=
  match Utf8.decode? (dropBom bytes) with
  | some s => .ok s
  | none => .error .malformedUtf8

theorem dropBom_eq (bytes : List UInt8) :
    dropBom bytes = bytes ∨ ∃ rest, bytes = Utf8.bom ++ rest ∧ dropBom bytes = rest := by
  fun_cases dropBom bytes with
  | case1 rest => exact .inr ⟨rest, rfl, rfl⟩
  | case2 => exact .inl rfl

theorem utf8Decode_of_valid {bytes : List UInt8} (h : Utf8.Valid bytes) :
    ∃ s, utf8Decode bytes = .ok s := by
  have hvalid : Utf8.Valid (dropBom bytes) := by
    rcases dropBom_eq bytes with hb | ⟨rest, rfl, hb⟩
    · rwa [hb]
    · rw [hb]
      exact (Utf8.valid_bom_append rest).mp h
  obtain ⟨s, hs⟩ := Utf8.exists_bytes hvalid
  exact ⟨s, by rw [utf8Decode, ← hs, Utf8.decode?_bytes]⟩

theorem valid_of_utf8Decode {bytes : List UInt8} {s : String} (h : utf8Decode bytes = .ok s) :
    Utf8.Valid bytes := by
  unfold utf8Decode at h
  split at h
  · next t ht =>
    have hvalid := Utf8.valid_of_decode? ht
    rcases dropBom_eq bytes with hb | ⟨rest, rfl, hb⟩
    · rwa [hb] at hvalid
    · rw [hb] at hvalid
      exact (Utf8.valid_bom_append rest).mpr hvalid
  · cases h

theorem utf8Decode_error {bytes : List UInt8} {e : DartError} (h : utf8Decode bytes = .error e) :
    e = .malformedUtf8 := by
  unfold utf8Decode at h
  split at h
  · cases h
  · cases h
    rfl

theorem utf8Decode_bytes {s : String} (h : s.toList.head? ≠ some '\uFEFF') :
    utf8Decode (Utf8.bytes s) = .ok s := by
  rcases dropBom_eq (Utf8.bytes s) with hb | ⟨rest, hb, _⟩
  · rw [utf8Decode, hb, Utf8.decode?_bytes]
  · exact absurd (Utf8.head_of_bom hb) h

/-- Only the mark can be missing from what was decoded. -/
theorem bytes_of_utf8Decode {bytes : List UInt8} {s : String} (h : utf8Decode bytes = .ok s) :
    Utf8.bytes s = dropBom bytes := by
  unfold utf8Decode at h
  split at h
  · next t ht =>
    cases h
    exact Utf8.bytes_of_decode? ht
  · cases h

example : utf8Decode [0xEF, 0xBB, 0xBF, 0x61] = .ok "a" := by decide

end PackageKitDart.Dart
