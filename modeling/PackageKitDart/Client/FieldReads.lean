import PackageKitDart.Client.WireValues

namespace PackageKitDart.Client.Reader

open Dart SequentialRead Native Glz

def Overruns : DartError → Prop
  | .rangeError _ => True
  | .indexError | .formatException _ | .malformedUtf8 | .stateError _ => False

/-- What a read of one field can throw. -/
def ReadError : DartError → Prop
  | .rangeError _ | .malformedUtf8 => True
  | .indexError | .formatException _ | .stateError _ => False

/-- Two readers at the same place of views with the same bytes. -/
structure SameView (r r' : Reader) : Prop where
  ahead : r.ahead = r'.ahead
  offset : r.offset = r'.offset
  length : r.length = r'.length

theorem SameView.advance {r r' : Reader} (h : SameView r r') (n : ℕ) :
    SameView (r.advance n) (r'.advance n) where
  ahead := by rw [ahead_advance, ahead_advance, h.ahead]
  offset := congrArg (· + n) h.offset
  length := h.length

theorem SameView.overrun {r r' : Reader} (h : SameView r r') (needed : ℕ) :
    r.overrun needed = r'.overrun needed := by
  rw [Reader.overrun, Reader.overrun, h.offset, h.length]

section Fixed

variable {α : Type} {width : ℕ} {load : ByteData → ℕ → Except DartError α} {f : ℕ → α}

theorem exact_fixed (hload : ∀ d offset, load d offset = f <$> d.load width offset)
    (hpos : 0 < width) : Exact cursor Overruns (readFixed width load) := by
  refine Exact.of_header width (fun _ ↦ 0) (fun bs ↦ f (LittleEndian.decode bs))
    (fun r ↦ r.overrun width) (fun r ↦ r.overrun width) (fun _ ↦ trivial) (fun _ ↦ trivial) ?_
  intro r
  change _ = ite (r.ahead.length < width) _ (ite (r.ahead.length < width) _ _)
  rw [readFixed_eq hload hpos]
  by_cases h : r.ahead.length < width
  · rw [if_pos h, if_pos h]
  · rw [if_neg h, if_neg h, if_neg h]
    rfl

theorem confined_fixed (hload : ∀ d offset, load d offset = f <$> d.load width offset)
    (hpos : 0 < width) : Confined SameView ReadError (readFixed width load) := by
  intro r r' h
  rw [readFixed_eq hload hpos, readFixed_eq hload hpos, h.ahead]
  split
  · exact ⟨h.overrun width, trivial⟩
  · exact ⟨rfl, h.advance width⟩

theorem fixed_ok (hload : ∀ d offset, load d offset = f <$> d.load width offset)
    (hpos : 0 < width) {r r' : Reader} {y : α} (h : readFixed width load r = .ok (y, r')) :
    ∃ bs rest, r.ahead = bs ++ rest ∧ bs.length = width ∧ r' = r.advance width ∧
      y = f (LittleEndian.decode bs) := by
  rw [readFixed_eq hload hpos] at h
  split at h
  · cases h
  · cases h
    refine ⟨_, _, (List.take_append_drop width r.ahead).symm, ?_, rfl, rfl⟩
    rw [List.length_take]
    omega

end Fixed

theorem exact_text : Exact cursor Overruns readText :=
  Exact.of_header 4 LittleEndian.decode (List.drop 4) (fun r ↦ r.overrun 4)
    (fun r ↦ (r.advance 4).overrun (LittleEndian.decode (r.ahead.take 4)))
    (fun _ ↦ trivial) (fun _ ↦ trivial) readText_eq

theorem confined_text : Confined SameView ReadError readText := by
  intro r r' h
  rw [readText_eq, readText_eq, h.ahead]
  split
  · exact ⟨h.overrun 4, trivial⟩
  split
  · exact ⟨(h.advance 4).overrun _, trivial⟩
  · exact ⟨rfl, h.advance _⟩

theorem text_ok {r r' : Reader} {s : CString} (h : readText r = .ok (s, r')) :
    s.length < 2 ^ 32 ∧ r' = r.advance (encodeString s).length ∧
      ∃ rest, r.ahead = encodeString s ++ rest := by
  rw [readText_eq] at h
  split at h
  · cases h
  split at h
  · cases h
  next hwidth hsize =>
  cases h
  have hbegin : (r.ahead.take 4).length = 4 := by
    rw [List.length_take]
    omega
  have hlt : LittleEndian.decode (r.ahead.take 4) < 2 ^ 32 := by
    have hbound := LittleEndian.decode_lt (r.ahead.take 4)
    rw [hbegin] at hbound
    exact hbound
  have hword := LittleEndian.encode_decode (r.ahead.take 4)
  rw [hbegin] at hword
  generalize LittleEndian.decode (r.ahead.take 4) = n at hsize hlt hword ⊢
  have htake : (r.ahead.take (4 + n)).length = 4 + n := by
    rw [List.length_take]
    omega
  have hlen : ((r.ahead.take (4 + n)).drop 4).length = n := by
    rw [List.length_drop, htake, Nat.add_sub_cancel_left]
  have hhead : r.ahead.take 4 = (r.ahead.take (4 + n)).take 4 := by
    rw [List.take_take, Nat.min_eq_left (Nat.le_add_right 4 n)]
  have hspell : encodeString ((r.ahead.take (4 + n)).drop 4) = r.ahead.take (4 + n) := by
    rw [encodeString, hlen, Nat.mod_eq_of_lt hlt, hword, hhead, List.take_append_drop]
  rw [hspell, htake, hlen]
  exact ⟨hlt, rfl, _, (List.take_append_drop (4 + n) r.ahead).symm⟩

theorem readError_of_utf8Decode {bytes : List UInt8} {e : DartError}
    (h : utf8Decode bytes = .error e) : ReadError e := by
  rw [utf8Decode_error h]
  trivial

theorem exact_string : Exact cursor Overruns readString := by
  rw [readString_eq]
  exact exact_text.bind (fun _ _ _ _ ↦ Exact.lift _)

theorem confined_string : Confined SameView ReadError readString := by
  rw [readString_eq]
  exact confined_text.bind (fun _ _ _ _ ↦ Confined.lift (fun _ ↦ readError_of_utf8Decode))

theorem exact_strings (count : ℕ) : Exact cursor Overruns (readStrings count) := by
  induction count with
  | zero => exact Exact.pure []
  | succ count ih => exact exact_string.bind (fun _ _ _ _ ↦ ih.bind (fun _ _ _ _ ↦ Exact.pure _))

theorem confined_strings (count : ℕ) : Confined SameView ReadError (readStrings count) := by
  induction count with
  | zero => exact Confined.pure []
  | succ count ih =>
    exact confined_string.bind (fun _ _ _ _ ↦ ih.bind (fun _ _ _ _ ↦ Confined.pure _))

theorem exact_field : (t : FieldType) → Exact cursor Overruns (readField t)
  | .uint8 => exact_fixed load_uint8 (by omega)
  | .bool => (exact_fixed load_uint8 (by omega)).bind (fun _ _ _ _ ↦ Exact.pure _)
  | .uint32 => exact_fixed load_uint32 (by omega)
  | .uint64 => exact_fixed load_uint64 (by omega)
  | .string => exact_string
  | .strings => (exact_fixed load_uint32 (by omega)).bind (fun _ _ _ _ ↦ exact_strings _)

theorem confined_field : (t : FieldType) → Confined SameView ReadError (readField t)
  | .uint8 => confined_fixed load_uint8 (by omega)
  | .bool => (confined_fixed load_uint8 (by omega)).bind (fun _ _ _ _ ↦ Confined.pure _)
  | .uint32 => confined_fixed load_uint32 (by omega)
  | .uint64 => confined_fixed load_uint64 (by omega)
  | .string => confined_string
  | .strings => (confined_fixed load_uint32 (by omega)).bind (fun _ _ _ _ ↦ confined_strings _)

theorem string_ok {r r' : Reader} {t : String} (h : (readString : Read String) r = .ok (t, r')) :
    ∃ s rest, r.ahead = encodeString s ++ rest ∧ r' = r.advance (encodeString s).length ∧
      s.length < 2 ^ 32 ∧ utf8Decode s = .ok t := by
  rw [readString_eq] at h
  obtain ⟨s, q, htext, hdecode⟩ := ok_of_bind h
  obtain ⟨ht, rfl⟩ := ok_of_lift hdecode
  obtain ⟨hlen, rfl, rest, hrest⟩ := text_ok htext
  exact ⟨s, rest, hrest, rfl, hlen, ht⟩

theorem strings_ok {count : ℕ} {r r' : Reader} {ts : List String}
    (h : (readStrings count : Read (List String)) r = .ok (ts, r')) :
    ∃ l rest, r.ahead = l.flatMap encodeString ++ rest ∧
      r' = r.advance (l.flatMap encodeString).length ∧ l.length = count ∧
      (∀ s ∈ l, s.length < 2 ^ 32) ∧ List.Forall₂ (fun s t ↦ utf8Decode s = .ok t) l ts := by
  induction count generalizing r ts with
  | zero =>
    cases h
    exact ⟨[], _, rfl, (cursor.advance_zero _).symm, rfl, List.forall_mem_nil _, .nil⟩
  | succ count ih =>
    obtain ⟨t, q, hs, hrest⟩ := ok_of_bind h
    obtain ⟨ts, q', hl, hcons⟩ := ok_of_bind hrest
    cases hcons
    obtain ⟨s, rest, hahead, rfl, hlen, ht⟩ := string_ok hs
    obtain ⟨l, rest', hahead', rfl, rfl, hlens, hts⟩ := ih hl
    rw [ahead_advance, hahead, List.drop_left] at hahead'
    refine ⟨s :: l, rest', ?_, ?_, rfl, List.forall_mem_cons.mpr ⟨hlen, hlens⟩, .cons ht hts⟩
    · rw [hahead, hahead', List.flatMap_cons, List.append_assoc]
    · rw [List.flatMap_cons, List.length_append, advance_advance]

theorem decode_singleton (byte : UInt8) : LittleEndian.decode [byte] = byte.toNat := by
  simp [LittleEndian.decode]

theorem toNat_bne_zero (byte : UInt8) : (byte.toNat != 0) = (byte != 0) := by
  rw [Bool.eq_iff_iff, bne_iff_ne, bne_iff_ne, Ne, Ne, ← UInt8.toNat_inj]
  rfl

/-- A field that was read is spelled by the bytes it was read from. -/
theorem field_ok {t : FieldType} {r r' : Reader} {y : FieldValue t}
    (h : readField t r = .ok (y, r')) :
    ∃ bs rest x, r.ahead = bs ++ rest ∧ r' = r.advance bs.length ∧ Spells t bs x ∧
      Decoded t x y := by
  cases t with
  | uint8 =>
    obtain ⟨bs, rest, hahead, hlen, rfl, rfl⟩ := fixed_ok load_uint8 (by omega) h
    obtain ⟨byte, rfl⟩ := List.length_eq_one_iff.mp hlen
    exact ⟨[byte], rest, byte, hahead, rfl, ⟨rfl, trivial⟩, decode_singleton byte⟩
  | bool =>
    obtain ⟨v, q, hv, hy⟩ := ok_of_bind h
    cases hy
    obtain ⟨bs, rest, hahead, hlen, rfl, rfl⟩ := fixed_ok load_uint8 (by omega) hv
    obtain ⟨byte, rfl⟩ := List.length_eq_one_iff.mp hlen
    refine ⟨[byte], rest, byte != 0, hahead, rfl, ⟨byte, rfl, rfl⟩, ?_⟩
    rw [decode_singleton]
    exact toNat_bne_zero byte
  | uint32 =>
    obtain ⟨bs, rest, hahead, hlen, rfl, rfl⟩ := fixed_ok load_uint32 (by omega) h
    refine ⟨bs, rest, UInt32.ofNat (LittleEndian.decode bs), hahead, by rw [hlen], ?_, ?_⟩
    · exact ⟨(encode_word32 hlen).symm, trivial⟩
    · exact (toNat_word32 hlen).symm
  | uint64 =>
    obtain ⟨bs, rest, hahead, hlen, rfl, hy⟩ := fixed_ok load_uint64 (by omega) h
    refine ⟨bs, rest, UInt64.ofNat (LittleEndian.decode bs), hahead, by rw [hlen], ?_, ?_⟩
    · exact ⟨(encode_word64 hlen).symm, trivial⟩
    · rw [Decoded, hy, BitVec.toInt_eq_toNat_bmod, UInt64.toNat_toBitVec, toNat_word64 hlen]
  | string =>
    obtain ⟨s, rest, hahead, rfl, hlen, ht⟩ := string_ok h
    exact ⟨encodeString s, rest, s, hahead, rfl, ⟨rfl, hlen⟩, ht⟩
  | strings =>
    obtain ⟨count, q, hcount, hl⟩ := ok_of_bind h
    obtain ⟨bs, rest, hahead, hlen, rfl, rfl⟩ := fixed_ok load_uint32 (by omega) hcount
    obtain ⟨l, rest', hahead', rfl, hsize, hlens, hts⟩ := strings_ok hl
    rw [ahead_advance, hahead, List.drop_left' hlen] at hahead'
    have hlt : l.length < 2 ^ 32 := by
      have hbound := LittleEndian.decode_lt bs
      rw [hlen] at hbound
      rw [hsize]
      exact hbound
    have hspell : encodeField .strings l = bs ++ l.flatMap encodeString := by
      rw [encodeField, Nat.mod_eq_of_lt hlt, hsize, id, ← hlen, LittleEndian.encode_decode]
    refine ⟨encodeField .strings l, rest', l, ?_, ?_, ⟨rfl, hlt, hlens⟩, hts⟩
    · rw [hahead, hspell, hahead', List.append_assoc]
    · rw [hspell, List.length_append, hlen, advance_advance]

/-- Strings are valid UTF-8. -/
def Texts : (t : FieldType) → t.Val → Prop
  | .string, s => Utf8.Valid s
  | .strings, l => ∀ s ∈ l, Utf8.Valid s
  | .uint8, _ | .bool, _ | .uint32, _ | .uint64, _ => True

theorem texts_of_decoded : {t : FieldType} → {x : t.Val} → {y : FieldValue t} → Decoded t x y →
    Texts t x
  | .uint8, _, _, _ | .bool, _, _, _ | .uint32, _, _, _ | .uint64, _, _, _ => trivial
  | .string, _, _, h => valid_of_utf8Decode h
  | .strings, l, ts, h => by
    have h : List.Forall₂ (fun s t ↦ utf8Decode s = .ok t) l ts := h
    induction h with
    | nil => exact List.forall_mem_nil _
    | cons hs _ ih => exact List.forall_mem_cons.mpr ⟨valid_of_utf8Decode hs, ih ‹_›⟩

theorem readString_of_text {s : CString} (hlen : s.length < 2 ^ 32) {r : Reader} {rest : List UInt8}
    (h : r.ahead = encodeString s ++ rest) :
    (∃ t, utf8Decode s = .ok t ∧
      (readString : Read String) r = .ok (t, r.advance (encodeString s).length)) ∨
      (readString : Read String) r = .error .malformedUtf8 ∧ ¬ Utf8.Valid s := by
  have htext := reads_text hlen r rest h
  rw [readString_eq, bind_run htext]
  cases ht : utf8Decode s with
  | ok t => exact .inl ⟨t, rfl, rfl⟩
  | error e =>
    rw [utf8Decode_error ht]
    refine .inr ⟨rfl, ?_⟩
    intro hvalid
    obtain ⟨t, ht'⟩ := utf8Decode_of_valid hvalid
    rw [ht'] at ht
    cases ht

theorem readStrings_of_texts {l : List CString} (hlens : ∀ s ∈ l, s.length < 2 ^ 32) {r : Reader}
    {rest : List UInt8} (h : r.ahead = l.flatMap encodeString ++ rest) :
    (∃ ts, List.Forall₂ (fun s t ↦ utf8Decode s = .ok t) l ts ∧
      (readStrings l.length : Read (List String)) r =
        .ok (ts, r.advance (l.flatMap encodeString).length)) ∨
      (readStrings l.length : Read (List String)) r = .error .malformedUtf8 ∧
        ¬ ∀ s ∈ l, Utf8.Valid s := by
  induction l generalizing r with
  | nil => exact .inl ⟨[], .nil, rfl⟩
  | cons s l ih =>
    rw [List.flatMap_cons, List.append_assoc] at h
    have hahead : (r.advance (encodeString s).length).ahead = l.flatMap encodeString ++ rest := by
      rw [ahead_advance, h, List.drop_left]
    rcases readString_of_text (hlens s List.mem_cons_self) h with ⟨t, ht, hs⟩ | ⟨hs, hvalid⟩
    · rcases ih (fun x hx ↦ hlens x (List.mem_cons_of_mem s hx)) hahead with
        ⟨ts, hts, hl⟩ | ⟨hl, hvalid⟩
      · refine .inl ⟨t :: ts, .cons ht hts, ?_⟩
        rw [List.length_cons, readStrings, bind_run hs, bind_run hl, List.flatMap_cons,
          List.length_append, ← advance_advance]
        rfl
      · refine .inr ⟨?_, fun hall ↦ hvalid (List.forall_mem_cons.mp hall).2⟩
        rw [List.length_cons, readStrings, bind_run hs, error_run hl]
    · refine .inr ⟨?_, fun hall ↦ hvalid (List.forall_mem_cons.mp hall).1⟩
      rw [List.length_cons, readStrings, error_run hs]

theorem reads_bool_of_byte (byte : UInt8) :
    Reads cursor (readBool : Read Bool) [byte] (byte != 0) := by
  have h : Reads cursor (readBool : Read Bool) [byte] (id (LittleEndian.decode [byte]) != 0) :=
    (reads_fixed ByteData.getUint8 id load_uint8 (by omega) rfl).bind_nil (Reads.pure _)
  rw [decode_singleton] at h
  exact toNat_bne_zero byte ▸ h

/-- A field that is there is read, unless one of its strings is malformed. -/
theorem readField_of_spells {t : FieldType} {bs rest : List UInt8} {x : t.Val} {r : Reader}
    (hx : Spells t bs x) (h : r.ahead = bs ++ rest) :
    (∃ y, Decoded t x y ∧ readField t r = .ok (y, r.advance bs.length)) ∨
      readField t r = .error .malformedUtf8 ∧ ¬ Texts t x := by
  cases t with
  | uint8 =>
    obtain ⟨rfl, -⟩ := hx
    exact .inl ⟨_, rfl, reads_uint8 x r rest h⟩
  | bool =>
    obtain ⟨byte, rfl, rfl⟩ := hx
    exact .inl ⟨_, rfl, reads_bool_of_byte byte r rest h⟩
  | uint32 =>
    obtain ⟨rfl, -⟩ := hx
    exact .inl ⟨_, rfl, reads_uint32 x r rest h⟩
  | uint64 =>
    obtain ⟨rfl, -⟩ := hx
    exact .inl ⟨_, rfl, reads_uint64 x r rest h⟩
  | string =>
    obtain ⟨rfl, hlen⟩ := hx
    exact readString_of_text hlen h
  | strings =>
    obtain ⟨rfl, hcount, hlens⟩ := hx
    rw [encodeField, Nat.mod_eq_of_lt hcount] at h ⊢
    rw [List.append_assoc] at h
    have hlen := LittleEndian.encode_length 4 x.length
    have hbegin := reads_uint32_of_lt hcount r _ h
    have hahead : (r.advance 4).ahead = x.flatMap encodeString ++ rest := by
      rw [ahead_advance, h, List.drop_left' hlen]
    rw [hlen] at hbegin
    rw [List.length_append, hlen, ← advance_advance]
    change (∃ y, _ ∧ (readStringList : Read _) r = _) ∨ (readStringList : Read _) r = _ ∧ _
    rw [readStringList, bind_run hbegin]
    exact readStrings_of_texts hlens hahead

def readTexts : ℕ → Read (List CString)
  | 0 => return []
  | count + 1 => do
    let s ← readText
    let rest ← readTexts count
    return s :: rest

/-- What the reader takes from the message for a field, before any `utf8.decode`. -/
def readRaw : (t : FieldType) → Read t.Val
  | .uint8 => do return UInt8.ofNat (← readFixed 1 ByteData.getUint8)
  | .bool => readBool
  | .uint32 => do return UInt32.ofNat (← readUint32)
  | .uint64 => do return UInt64.ofBitVec (BitVec.ofInt 64 (← readUint64))
  | .string => readText
  | .strings => do readTexts (← readUint32)

theorem reads_texts {l : List CString} (hlens : ∀ s ∈ l, s.length < 2 ^ 32) :
    Reads cursor (readTexts l.length) (l.flatMap encodeString) l := by
  induction l with
  | nil => exact Reads.pure []
  | cons s l ih =>
    rw [List.flatMap_cons]
    refine (reads_text (hlens s List.mem_cons_self)).bind ?_
    exact (ih (fun x hx ↦ hlens x (List.mem_cons_of_mem s hx))).bind_nil (Reads.pure _)

theorem reads_raw : {t : FieldType} → {bs : List UInt8} → {x : t.Val} → Spells t bs x →
    Reads cursor (readRaw t) bs x
  | .uint8, _, x, ⟨rfl, _⟩ => by
    have h : Reads cursor (readRaw .uint8) (encodeField .uint8 x) (UInt8.ofNat x.toNat) :=
      (reads_uint8 x).bind_nil (Reads.pure _)
    rwa [UInt8.ofNat_toNat] at h
  | .bool, _, _, ⟨byte, rfl, rfl⟩ => reads_bool_of_byte byte
  | .uint32, _, x, ⟨rfl, _⟩ => by
    have h : Reads cursor (readRaw .uint32) (encodeField .uint32 x) (UInt32.ofNat x.toNat) :=
      (reads_uint32 x).bind_nil (Reads.pure _)
    rwa [UInt32.ofNat_toNat] at h
  | .uint64, _, x, ⟨rfl, _⟩ => by
    have h : Reads cursor (readRaw .uint64) (encodeField .uint64 x)
        (UInt64.ofBitVec (BitVec.ofInt 64 x.toBitVec.toInt)) :=
      (reads_uint64 x).bind_nil (Reads.pure _)
    rwa [BitVec.ofInt_toInt] at h
  | .string, _, _, ⟨rfl, hlen⟩ => reads_text hlen
  | .strings, _, l, ⟨rfl, hcount, hlens⟩ => by
    rw [encodeField, Nat.mod_eq_of_lt hcount]
    exact (reads_uint32_of_lt hcount).bind (reads_texts hlens)

end PackageKitDart.Client.Reader
