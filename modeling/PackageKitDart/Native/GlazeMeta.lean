import PackageKitDart.Library.LittleEndian

namespace PackageKitDart.Native

/-- A C++ `std::string`: bytes, in no particular encoding. -/
abbrev CString := List UInt8

namespace Glz

/-- The member types that `encode_field` and `decode_field` are overloaded for. -/
inductive FieldType
  | uint8
  | bool
  | uint32
  | uint64
  | string
  | strings

abbrev FieldType.Val : FieldType → Type
  | .uint8 => UInt8
  | .bool => Bool
  | .uint32 => UInt32
  | .uint64 => UInt64
  | .string => CString
  | .strings => List CString

/-- A name and a member pointer, which reads and writes that member. -/
structure FieldDescriptor (C : Type) where
  name : String
  type : FieldType
  get : C → type.Val
  set : type.Val → C → C

/-- `glz::meta<C>::fields`. -/
class Meta (C : Type) where
  fields : List (FieldDescriptor C)

/-- The length prefix is a `uint32_t`, so a longer size is cut by the cast. -/
def encodeString (s : CString) : List UInt8 :=
  LittleEndian.encode 4 (s.length % 2 ^ 32) ++ s

/-- Words are written with `memcpy` on a little-endian host. -/
def encodeField : (t : FieldType) → t.Val → List UInt8
  | .uint8, v => [v]
  | .bool, v => [bif v then 1 else 0]
  | .uint32, v => LittleEndian.encode 4 v.toNat
  | .uint64, v => LittleEndian.encode 8 v.toNat
  | .string, s => encodeString s
  | .strings, v => LittleEndian.encode 4 (v.length % 2 ^ 32) ++ v.flatMap encodeString

def encode {C : Type} [Meta C] (obj : C) : List UInt8 :=
  (Meta.fields (C := C)).flatMap (fun f ↦ encodeField f.type (f.get obj))

/-- The bytes that `memcpy` or `assign` takes from the buffer, and the offset
past them. The source has no bounds check: `none` is an access past the end. -/
def readBytes (buf : List UInt8) (offset n : ℕ) : Option (List UInt8 × ℕ) :=
  if offset + n ≤ buf.length then some ((buf.drop offset).take n, offset + n) else none

def decodeString (buf : List UInt8) (offset : ℕ) : Option (CString × ℕ) := do
  let (len, offset) ← readBytes buf offset 4
  readBytes buf offset (LittleEndian.decode len)

def decodeStrings (buf : List UInt8) : (count offset : ℕ) → Option (List CString × ℕ)
  | 0, offset => some ([], offset)
  | count + 1, offset => do
    let (s, offset) ← decodeString buf offset
    let (rest, offset) ← decodeStrings buf count offset
    return (s :: rest, offset)

def decodeField (buf : List UInt8) (offset : ℕ) : (t : FieldType) → Option (t.Val × ℕ)
  | .uint8 => do
    let v ← buf[offset]?
    return (v, offset + 1)
  | .bool => do
    let v ← buf[offset]?
    return (v != 0, offset + 1)
  | .uint32 => do
    let (bytes, offset) ← readBytes buf offset 4
    return (UInt32.ofNat (LittleEndian.decode bytes), offset)
  | .uint64 => do
    let (bytes, offset) ← readBytes buf offset 8
    return (UInt64.ofNat (LittleEndian.decode bytes), offset)
  | .string => decodeString buf offset
  | .strings => do
    let (count, offset) ← readBytes buf offset 4
    decodeStrings buf (LittleEndian.decode count) offset

def decodeImpl {C : Type} (buf : List UInt8) :
    List (FieldDescriptor C) → (offset : ℕ) → C → Option (ℕ × C)
  | [], offset, obj => some (offset, obj)
  | f :: fields, offset, obj => do
    let (v, offset) ← decodeField buf offset f.type
    decodeImpl buf fields offset (f.set v obj)

/-- The offset past the consumed bytes, and `obj` with its fields overwritten. -/
def decode {C : Type} [Meta C] (buf : List UInt8) (offset : ℕ) (obj : C) : Option (ℕ × C) :=
  decodeImpl buf Meta.fields offset obj

/-- Lengths and counts that fit their prefix. -/
def Sized : (t : FieldType) → t.Val → Prop
  | .string, s => s.length < 2 ^ 32
  | .strings, l => l.length < 2 ^ 32 ∧ ∀ s ∈ l, s.length < 2 ^ 32
  | .uint8, _ | .bool, _ | .uint32, _ | .uint64, _ => True

instance : (t : FieldType) → (v : t.Val) → Decidable (Sized t v)
  | .string, s => inferInstanceAs (Decidable (s.length < 2 ^ 32))
  | .strings, l => inferInstanceAs (Decidable (l.length < 2 ^ 32 ∧ ∀ s ∈ l, s.length < 2 ^ 32))
  | .uint8, _ | .bool, _ | .uint32, _ | .uint64, _ => isTrue trivial

/-- The bytes stand for the value: its encoding, but every byte except 0 is a true `bool`. -/
def Spells : (t : FieldType) → List UInt8 → t.Val → Prop
  | .bool, bytes, v => ∃ byte, bytes = [byte] ∧ v = (byte != 0)
  | t, bytes, v => bytes = encodeField t v ∧ Sized t v

/-- The bytes stand for values of the fields, one after the other and all with
the property `Q`, and `n` is `obj` with the fields set to them. -/
inductive SpellsAll {C : Type} (Q : (t : FieldType) → t.Val → Prop) :
    List (FieldDescriptor C) → C → List UInt8 → C → Prop
  | nil (obj : C) : SpellsAll Q [] obj [] obj
  | cons {f : FieldDescriptor C} {fields : List (FieldDescriptor C)} {obj n : C}
      {bytes bytes' : List UInt8} {v : f.type.Val} :
      Spells f.type bytes v → Q f.type v → SpellsAll Q fields (f.set v obj) bytes' n →
      SpellsAll Q (f :: fields) obj (bytes ++ bytes') n

theorem spells_encodeField : {t : FieldType} → {v : t.Val} → Sized t v →
    Spells t (encodeField t v) v
  | .bool, v, _ => ⟨bif v then 1 else 0, rfl, by cases v <;> rfl⟩
  | .uint8, _, h | .uint32, _, h | .uint64, _, h | .string, _, h | .strings, _, h => ⟨rfl, h⟩

/-- The fields of `n` are spelled by their encodings. -/
theorem spellsAll_encoded {C : Type} {Q : (t : FieldType) → t.Val → Prop}
    {fields : List (FieldDescriptor C)} {n : C}
    (h : ∀ f ∈ fields, Sized f.type (f.get n) ∧ Q f.type (f.get n)) (obj : C) :
    SpellsAll Q fields obj (fields.flatMap (fun f ↦ encodeField f.type (f.get n)))
      (fields.foldl (fun o f ↦ f.set (f.get n) o) obj) := by
  induction fields generalizing obj with
  | nil => exact .nil obj
  | cons f fields ih =>
    obtain ⟨⟨hsized, hQ⟩, hfields⟩ := List.forall_mem_cons.mp h
    exact .cons (spells_encodeField hsized) hQ (ih hfields _)

theorem SpellsAll.mono {C : Type} {Q Q' : (t : FieldType) → t.Val → Prop}
    {fields : List (FieldDescriptor C)} {obj n : C} {bytes : List UInt8}
    (h : SpellsAll Q fields obj bytes n) (hQ : ∀ t v, Q t v → Q' t v) :
    SpellsAll Q' fields obj bytes n := by
  induction h with
  | nil obj => exact .nil obj
  | cons hspell hv _ ih => exact .cons hspell (hQ _ _ hv) ih

theorem Spells.length_pos : {t : FieldType} → {bytes : List UInt8} → {v : t.Val} →
    Spells t bytes v → 0 < bytes.length
  | .bool, _, _, ⟨_, rfl, _⟩ => Nat.one_pos
  | .uint8, _, _, ⟨rfl, _⟩ => Nat.one_pos
  | .uint32, _, _, ⟨rfl, _⟩ | .uint64, _, _, ⟨rfl, _⟩ | .string, _, _, ⟨rfl, _⟩
  | .strings, _, _, ⟨rfl, _⟩ => by simp [encodeField, encodeString]

theorem toNat_word32 {bytes : List UInt8} (h : bytes.length = 4) :
    (UInt32.ofNat (LittleEndian.decode bytes)).toNat = LittleEndian.decode bytes := by
  have hlt := LittleEndian.decode_lt bytes
  rw [h] at hlt
  exact UInt32.toNat_ofNat_of_lt' hlt

theorem toNat_word64 {bytes : List UInt8} (h : bytes.length = 8) :
    (UInt64.ofNat (LittleEndian.decode bytes)).toNat = LittleEndian.decode bytes := by
  have hlt := LittleEndian.decode_lt bytes
  rw [h] at hlt
  exact UInt64.toNat_ofNat_of_lt' hlt

theorem encode_word32 {bytes : List UInt8} (h : bytes.length = 4) :
    encodeField .uint32 (UInt32.ofNat (LittleEndian.decode bytes)) = bytes := by
  rw [encodeField, toNat_word32 h, ← h, LittleEndian.encode_decode]

theorem encode_word64 {bytes : List UInt8} (h : bytes.length = 8) :
    encodeField .uint64 (UInt64.ofNat (LittleEndian.decode bytes)) = bytes := by
  rw [encodeField, toNat_word64 h, ← h, LittleEndian.encode_decode]

section Decode

variable {buf bytes rest : List UInt8} {offset : ℕ}

theorem offset_le_of_drop (h : buf.drop offset = bytes ++ rest) (hpos : 0 < bytes.length) :
    offset + bytes.length ≤ buf.length := by
  have hlen := congrArg List.length h
  rw [List.length_drop, List.length_append] at hlen
  omega

theorem readBytes_of_drop (h : buf.drop offset = bytes ++ rest) (hle : offset ≤ buf.length) :
    readBytes buf offset bytes.length = some (bytes, offset + bytes.length) := by
  have hlen := congrArg List.length h
  rw [List.length_drop, List.length_append] at hlen
  rw [readBytes, if_pos (by omega), h, List.take_left]

theorem drop_of_readBytes {n offset' : ℕ} (h : readBytes buf offset n = some (bytes, offset')) :
    offset ≤ buf.length ∧ bytes.length = n ∧ offset' = offset + n ∧
      ∃ rest, buf.drop offset = bytes ++ rest := by
  unfold readBytes at h
  split at h
  · next hle =>
    cases h
    have hlen : ((buf.drop offset).take n).length = n := by
      rw [List.length_take, List.length_drop]
      omega
    exact ⟨by omega, hlen, rfl, _, (List.take_append_drop n _).symm⟩
  · cases h

theorem decodeString_of_drop {s : CString} (hlen : s.length < 2 ^ 32)
    (h : buf.drop offset = encodeString s ++ rest) :
    decodeString buf offset = some (s, offset + (encodeString s).length) := by
  have hle := offset_le_of_drop h (by simp [encodeString])
  rw [encodeString, Nat.mod_eq_of_lt hlen] at h hle ⊢
  rw [List.length_append, LittleEndian.encode_length] at hle ⊢
  rw [List.append_assoc] at h
  have hbegin := readBytes_of_drop h (by omega)
  have hahead : buf.drop (offset + 4) = s ++ rest := by
    rw [← List.drop_drop, h, List.drop_left' (LittleEndian.encode_length 4 _)]
  have hbytes := readBytes_of_drop hahead (by omega)
  rw [LittleEndian.encode_length] at hbegin
  have hcount : LittleEndian.decode (LittleEndian.encode 4 s.length) = s.length :=
    LittleEndian.decode_encode_of_lt (by omega)
  rw [decodeString, hbegin]
  simp only [Option.bind_eq_bind, Option.bind_some, hcount, hbytes, Nat.add_assoc]

theorem drop_of_decodeString {s : CString} {offset' : ℕ}
    (h : decodeString buf offset = some (s, offset')) :
    s.length < 2 ^ 32 ∧ offset' = offset + (encodeString s).length ∧
      ∃ rest, buf.drop offset = encodeString s ++ rest := by
  obtain ⟨⟨len, o⟩, hlen, hs⟩ := Option.bind_eq_some_iff.mp h
  obtain ⟨-, hwidth, rfl, rest, hrest⟩ := drop_of_readBytes hlen
  obtain ⟨-, hsize, rfl, rest', hrest'⟩ := drop_of_readBytes hs
  have hlt : s.length < 2 ^ 32 := by
    have hbound := LittleEndian.decode_lt len
    rw [hwidth, ← hsize] at hbound
    exact hbound
  have hspell : encodeString s = len ++ s := by
    rw [encodeString, Nat.mod_eq_of_lt hlt, hsize, ← hwidth, LittleEndian.encode_decode]
  refine ⟨hlt, ?_, rest', ?_⟩
  · rw [hspell, List.length_append, hwidth, hsize, Nat.add_assoc]
  · have hrest₂ : rest = s ++ rest' := by
      rw [← hrest', ← List.drop_drop, hrest, List.drop_left' hwidth]
    rw [hrest, hspell, hrest₂, List.append_assoc]

theorem decodeStrings_of_drop {l : List CString} (hsizes : ∀ s ∈ l, s.length < 2 ^ 32)
    (h : buf.drop offset = l.flatMap encodeString ++ rest) :
    decodeStrings buf l.length offset = some (l, offset + (l.flatMap encodeString).length) := by
  induction l generalizing offset with
  | nil => rfl
  | cons s l ih =>
    rw [List.flatMap_cons, List.append_assoc] at h
    have hs := decodeString_of_drop (hsizes s List.mem_cons_self) h
    have hahead : buf.drop (offset + (encodeString s).length) = l.flatMap encodeString ++ rest := by
      rw [← List.drop_drop, h, List.drop_left]
    have hl := ih (fun x hx ↦ hsizes x (List.mem_cons_of_mem s hx)) hahead
    rw [List.length_cons, decodeStrings, hs]
    simp only [Option.bind_eq_bind, Option.bind_some, hl, List.flatMap_cons, List.length_append,
      Nat.add_assoc]
    rfl

theorem drop_of_decodeStrings {count offset' : ℕ} {l : List CString}
    (h : decodeStrings buf count offset = some (l, offset')) :
    l.length = count ∧ (∀ s ∈ l, s.length < 2 ^ 32) ∧
      offset' = offset + (l.flatMap encodeString).length ∧
      ∃ rest, buf.drop offset = l.flatMap encodeString ++ rest := by
  induction count generalizing offset l with
  | zero =>
    cases h
    exact ⟨rfl, List.forall_mem_nil _, rfl, _, rfl⟩
  | succ count ih =>
    obtain ⟨⟨s, o⟩, hs, hrest⟩ := Option.bind_eq_some_iff.mp h
    obtain ⟨⟨l', o'⟩, hl, hcons⟩ := Option.bind_eq_some_iff.mp hrest
    cases hcons
    obtain ⟨hsize, rfl, rest, hdrop⟩ := drop_of_decodeString hs
    obtain ⟨rfl, hsizes, rfl, rest', hdrop'⟩ := ih hl
    rw [← List.drop_drop, hdrop, List.drop_left] at hdrop'
    refine ⟨rfl, List.forall_mem_cons.mpr ⟨hsize, hsizes⟩, ?_, rest', ?_⟩
    · rw [List.flatMap_cons, List.length_append, Nat.add_assoc]
    · rw [hdrop, hdrop', List.flatMap_cons, List.append_assoc]

theorem getElem?_of_drop {byte : UInt8} (h : buf.drop offset = byte :: rest) :
    buf[offset]? = some byte := by
  rw [← List.head?_drop, h, List.head?_cons]

theorem drop_of_getElem? {byte : UInt8} (h : buf[offset]? = some byte) :
    ∃ rest, buf.drop offset = [byte] ++ rest := by
  obtain ⟨hlt, rfl⟩ := List.getElem?_eq_some_iff.mp h
  exact ⟨_, List.drop_eq_getElem_cons hlt⟩

theorem decodeField_of_spells {t : FieldType} {v : t.Val} (h : buf.drop offset = bytes ++ rest)
    (hv : Spells t bytes v) : decodeField buf offset t = some (v, offset + bytes.length) := by
  have hle := offset_le_of_drop h hv.length_pos
  have hread := readBytes_of_drop h (by omega)
  cases t with
  | uint8 =>
    obtain ⟨rfl, -⟩ := hv
    rw [decodeField, getElem?_of_drop h]
    rfl
  | bool =>
    obtain ⟨byte, rfl, rfl⟩ := hv
    rw [decodeField, getElem?_of_drop h]
    rfl
  | uint32 =>
    obtain ⟨rfl, -⟩ := hv
    have hword : LittleEndian.decode (encodeField .uint32 v) = v.toNat :=
      LittleEndian.decode_encode_of_lt v.toNat_lt
    have hlen : (encodeField .uint32 v).length = 4 := LittleEndian.encode_length 4 _
    rw [hlen] at hread ⊢
    rw [decodeField, hread]
    simp only [Option.bind_eq_bind, Option.bind_some, hword, UInt32.ofNat_toNat]
    rfl
  | uint64 =>
    obtain ⟨rfl, -⟩ := hv
    have hword : LittleEndian.decode (encodeField .uint64 v) = v.toNat :=
      LittleEndian.decode_encode_of_lt v.toNat_lt
    have hlen : (encodeField .uint64 v).length = 8 := LittleEndian.encode_length 8 _
    rw [hlen] at hread ⊢
    rw [decodeField, hread]
    simp only [Option.bind_eq_bind, Option.bind_some, hword, UInt64.ofNat_toNat]
    rfl
  | string =>
    obtain ⟨rfl, hsize⟩ := hv
    exact decodeString_of_drop hsize h
  | strings =>
    obtain ⟨rfl, hcount, hsizes⟩ := hv
    rw [encodeField, Nat.mod_eq_of_lt hcount, List.append_assoc] at h
    rw [encodeField, Nat.mod_eq_of_lt hcount, List.length_append, LittleEndian.encode_length]
      at hle ⊢
    have hbegin := readBytes_of_drop h (by omega)
    have hahead : buf.drop (offset + 4) = v.flatMap encodeString ++ rest := by
      rw [← List.drop_drop, h, List.drop_left' (LittleEndian.encode_length 4 _)]
    have hword : LittleEndian.decode (LittleEndian.encode 4 v.length) = v.length :=
      LittleEndian.decode_encode_of_lt (by omega)
    rw [LittleEndian.encode_length] at hbegin
    rw [decodeField, hbegin]
    simp only [Option.bind_eq_bind, Option.bind_some, hword, decodeStrings_of_drop hsizes hahead,
      Nat.add_assoc]

theorem spells_of_decodeField {t : FieldType} {v : t.Val} {offset' : ℕ}
    (h : decodeField buf offset t = some (v, offset')) :
    ∃ bytes rest, buf.drop offset = bytes ++ rest ∧ offset' = offset + bytes.length ∧
      Spells t bytes v := by
  cases t with
  | uint8 =>
    obtain ⟨byte, hbyte, hv⟩ := Option.bind_eq_some_iff.mp h
    cases hv
    obtain ⟨rest, hrest⟩ := drop_of_getElem? hbyte
    exact ⟨[v], rest, hrest, rfl, rfl, trivial⟩
  | bool =>
    obtain ⟨byte, hbyte, hv⟩ := Option.bind_eq_some_iff.mp h
    cases hv
    obtain ⟨rest, hrest⟩ := drop_of_getElem? hbyte
    exact ⟨[byte], rest, hrest, rfl, byte, rfl, rfl⟩
  | uint32 =>
    obtain ⟨⟨bytes, o⟩, hbytes, hv⟩ := Option.bind_eq_some_iff.mp h
    cases hv
    obtain ⟨-, hwidth, rfl, rest, hrest⟩ := drop_of_readBytes hbytes
    refine ⟨bytes, rest, hrest, by rw [hwidth], ?_, trivial⟩
    exact (encode_word32 hwidth).symm
  | uint64 =>
    obtain ⟨⟨bytes, o⟩, hbytes, hv⟩ := Option.bind_eq_some_iff.mp h
    cases hv
    obtain ⟨-, hwidth, rfl, rest, hrest⟩ := drop_of_readBytes hbytes
    refine ⟨bytes, rest, hrest, by rw [hwidth], ?_, trivial⟩
    exact (encode_word64 hwidth).symm
  | string =>
    obtain ⟨hsize, hend, rest, hrest⟩ := drop_of_decodeString h
    exact ⟨encodeString v, rest, hrest, hend, rfl, hsize⟩
  | strings =>
    obtain ⟨⟨count, o⟩, hcount, hv⟩ := Option.bind_eq_some_iff.mp h
    obtain ⟨-, hwidth, rfl, rest, hrest⟩ := drop_of_readBytes hcount
    obtain ⟨hlen, hsizes, rfl, rest', hrest'⟩ := drop_of_decodeStrings hv
    rw [← List.drop_drop, hrest, List.drop_left' hwidth] at hrest'
    have hlt : v.length < 2 ^ 32 := by
      have hbound := LittleEndian.decode_lt count
      rw [hwidth, ← hlen] at hbound
      exact hbound
    have hspell : encodeField .strings v = count ++ v.flatMap encodeString := by
      rw [encodeField, Nat.mod_eq_of_lt hlt, hlen, ← hwidth, LittleEndian.encode_decode]
    refine ⟨encodeField .strings v, rest', ?_, ?_, rfl, hlt, hsizes⟩
    · rw [hrest, hspell, hrest', List.append_assoc]
    · rw [hspell, List.length_append, hwidth, Nat.add_assoc]

theorem decodeImpl_of_spells {C : Type} {Q : (t : FieldType) → t.Val → Prop}
    {fields : List (FieldDescriptor C)} {obj n : C} (hn : SpellsAll Q fields obj bytes n)
    (h : buf.drop offset = bytes ++ rest) :
    decodeImpl buf fields offset obj = some (offset + bytes.length, n) := by
  induction hn generalizing offset with
  | nil => rfl
  | @cons f fields obj n bytes bytes' v hv _ _ ih =>
    rw [List.append_assoc] at h
    have hahead : buf.drop (offset + bytes.length) = bytes' ++ rest := by
      rw [← List.drop_drop, h, List.drop_left]
    rw [decodeImpl, decodeField_of_spells h hv]
    simp only [Option.bind_eq_bind, Option.bind_some, ih hahead, List.length_append, Nat.add_assoc]

theorem spells_of_decodeImpl {C : Type} {fields : List (FieldDescriptor C)} {obj n : C}
    {offset' : ℕ} (h : decodeImpl buf fields offset obj = some (offset', n)) :
    ∃ bytes rest, buf.drop offset = bytes ++ rest ∧ offset' = offset + bytes.length ∧
      SpellsAll (fun _ _ ↦ True) fields obj bytes n := by
  induction fields generalizing offset obj with
  | nil =>
    cases h
    exact ⟨[], _, rfl, rfl, .nil _⟩
  | cons f fields ih =>
    obtain ⟨⟨v, o⟩, hv, hrest⟩ := Option.bind_eq_some_iff.mp h
    obtain ⟨bytes, rest, hdrop, rfl, hspell⟩ := spells_of_decodeField hv
    obtain ⟨bytes', rest', hdrop', rfl, hspell'⟩ := ih hrest
    rw [← List.drop_drop, hdrop, List.drop_left] at hdrop'
    refine ⟨bytes ++ bytes', rest', ?_, ?_, .cons hspell trivial hspell'⟩
    · rw [hdrop, hdrop', List.append_assoc]
    · rw [List.length_append, Nat.add_assoc]

end Decode

end Glz

end PackageKitDart.Native
