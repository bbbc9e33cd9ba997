import PackageKitDart.Native.GlazeMeta

namespace PackageKitDart.Native.Glz

variable {C : Type}

/-- A member is read back as it was set, the members after it leave it alone, and
the members together are the whole struct. -/
structure Lawful (fields : List (FieldDescriptor C)) : Prop where
  get_set : ∀ f ∈ fields, ∀ v obj, f.get (f.set v obj) = v
  apart : fields.Pairwise (fun f g ↦ ∀ v obj, f.get (g.set v obj) = f.get obj)
  whole : ∀ n obj, fields.foldl (fun o f ↦ f.set (f.get n) o) obj = n

def encodeAll (fields : List (FieldDescriptor C)) (n : C) : List UInt8 :=
  fields.flatMap (fun f ↦ encodeField f.type (f.get n))

/-- A byte that is written back: the same one, or 1 for a `bool` that was read as true. -/
def Normalizes (byte byte' : UInt8) : Prop := byte' = byte ∨ byte ≠ 0 ∧ byte' = 1

variable {Q Q' : (t : FieldType) → t.Val → Prop} {fields : List (FieldDescriptor C)} {obj n : C}
  {bytes : List UInt8}

theorem SpellsAll.get_eq {f : FieldDescriptor C}
    (hf : ∀ g ∈ fields, ∀ v obj, f.get (g.set v obj) = f.get obj)
    (h : SpellsAll Q fields obj bytes n) : f.get n = f.get obj := by
  induction h with
  | nil => rfl
  | @cons g fields obj n bytes bytes' v _ _ _ ih =>
    obtain ⟨hg, hfields⟩ := List.forall_mem_cons.mp hf
    rw [ih hfields, hg]

theorem SpellsAll.get_head {f : FieldDescriptor C} {v : f.type.Val}
    (hset : ∀ v obj, f.get (f.set v obj) = v)
    (hf : ∀ g ∈ fields, ∀ v obj, f.get (g.set v obj) = f.get obj)
    (h : SpellsAll Q fields (f.set v obj) bytes n) : f.get n = v :=
  (h.get_eq hf).trans (hset v obj)

theorem Spells.sized : {t : FieldType} → {bytes : List UInt8} → {v : t.Val} → Spells t bytes v →
    Sized t v
  | .bool, _, _, _ => trivial
  | .uint8, _, _, h | .uint32, _, _, h | .uint64, _, _, h | .string, _, _, h
  | .strings, _, _, h => h.2

theorem SpellsAll.spells_sized (h : SpellsAll Q fields obj bytes n) :
    SpellsAll Sized fields obj bytes n := by
  induction h with
  | nil obj => exact .nil obj
  | cons hspell _ _ ih => exact .cons hspell hspell.sized ih

theorem Spells.normalizes : {t : FieldType} → {bytes : List UInt8} → {v : t.Val} →
    Spells t bytes v → List.Forall₂ Normalizes bytes (encodeField t v)
  | .bool, _, _, ⟨byte, rfl, rfl⟩ => by
    refine .cons ?_ .nil
    by_cases hbyte : byte = 0
    · subst hbyte
      exact .inl rfl
    · rw [bne_iff_ne.mpr hbyte]
      exact .inr ⟨hbyte, rfl⟩
  | .uint8, _, _, ⟨rfl, _⟩ | .uint32, _, _, ⟨rfl, _⟩ | .uint64, _, _, ⟨rfl, _⟩
  | .string, _, _, ⟨rfl, _⟩ | .strings, _, _, ⟨rfl, _⟩ =>
    List.forall₂_same.mpr (fun _ _ ↦ .inl rfl)

theorem Spells.eq_encodeField : {t : FieldType} → {bytes : List UInt8} → {v : t.Val} →
    t ≠ .bool → Spells t bytes v → bytes = encodeField t v
  | .bool, _, _, hbool, _ => absurd rfl hbool
  | .uint8, _, _, _, h | .uint32, _, _, _, h | .uint64, _, _, _, h | .string, _, _, _, h
  | .strings, _, _, _, h => h.1

section Lawful

variable (hset : ∀ f ∈ fields, ∀ v obj, f.get (f.set v obj) = v)
  (hapart : fields.Pairwise (fun f g ↦ ∀ v obj, f.get (g.set v obj) = f.get obj))
include hset hapart

theorem SpellsAll.forall_get (h : SpellsAll Q fields obj bytes n) :
    ∀ f ∈ fields, Q f.type (f.get n) := by
  induction h with
  | nil => exact List.forall_mem_nil _
  | cons _ hv hrest ih =>
    obtain ⟨hf, hsets⟩ := List.forall_mem_cons.mp hset
    obtain ⟨hapart, haparts⟩ := List.pairwise_cons.mp hapart
    refine List.forall_mem_cons.mpr ⟨?_, ih hsets haparts⟩
    rw [hrest.get_head hf hapart]
    exact hv

theorem SpellsAll.of_forall_get (h : SpellsAll Q fields obj bytes n)
    (hQ : ∀ f ∈ fields, Q' f.type (f.get n)) : SpellsAll Q' fields obj bytes n := by
  induction h with
  | nil obj => exact .nil obj
  | cons hspell _ hrest ih =>
    obtain ⟨hf, hsets⟩ := List.forall_mem_cons.mp hset
    obtain ⟨hapart, haparts⟩ := List.pairwise_cons.mp hapart
    obtain ⟨hv, hQs⟩ := List.forall_mem_cons.mp hQ
    rw [hrest.get_head hf hapart] at hv
    exact .cons hspell hv (ih hsets haparts hQs)

theorem SpellsAll.normalizes (h : SpellsAll Q fields obj bytes n) :
    List.Forall₂ Normalizes bytes (encodeAll fields n) := by
  induction h with
  | nil => exact .nil
  | cons hspell _ hrest ih =>
    obtain ⟨hf, hsets⟩ := List.forall_mem_cons.mp hset
    obtain ⟨hapart, haparts⟩ := List.pairwise_cons.mp hapart
    rw [encodeAll, List.flatMap_cons, hrest.get_head hf hapart]
    exact List.rel_append hspell.normalizes (ih hsets haparts)

theorem SpellsAll.eq_encodeAll (hbool : ∀ f ∈ fields, f.type ≠ .bool)
    (h : SpellsAll Q fields obj bytes n) : bytes = encodeAll fields n := by
  induction h with
  | nil => rfl
  | cons hspell _ hrest ih =>
    obtain ⟨hf, hsets⟩ := List.forall_mem_cons.mp hset
    obtain ⟨hapart, haparts⟩ := List.pairwise_cons.mp hapart
    obtain ⟨htype, htypes⟩ := List.forall_mem_cons.mp hbool
    rw [encodeAll, List.flatMap_cons, hrest.get_head hf hapart, ← hspell.eq_encodeField htype]
    exact congrArg _ (ih hsets haparts htypes)

end Lawful

namespace Lawful

variable (h : Lawful fields) {buf : List UInt8} {offset offset' : ℕ}
include h

theorem spellsAll_encodeAll (hsized : ∀ f ∈ fields, Sized f.type (f.get n)) (obj : C) :
    SpellsAll Sized fields obj (encodeAll fields n) n := by
  have hspells := spellsAll_encoded (Q := Sized) (fun f hf ↦ ⟨hsized f hf, hsized f hf⟩) obj
  rwa [h.whole] at hspells

theorem sized_of_decodeImpl (hdecode : decodeImpl buf fields offset obj = some (offset', n)) :
    ∀ f ∈ fields, Sized f.type (f.get n) := by
  obtain ⟨bytes, rest, _, _, hspells⟩ := spells_of_decodeImpl hdecode
  exact hspells.spells_sized.forall_get h.get_set h.apart

/-- What was encoded is decoded again exactly when all lengths fit their prefix. -/
theorem decodeImpl_encodeAll (n obj : C) (before after : List UInt8) :
    decodeImpl (before ++ (encodeAll fields n ++ after)) fields before.length obj =
        some (before.length + (encodeAll fields n).length, n) ↔
      ∀ f ∈ fields, Sized f.type (f.get n) := by
  constructor
  · intro hdecode
    exact h.sized_of_decodeImpl hdecode
  · intro hsized
    exact decodeImpl_of_spells (h.spellsAll_encodeAll hsized obj) List.drop_left

/-- What was decoded is encoded to the bytes it was read from, up to the way a `bool` is spelt. -/
theorem encodeAll_of_decodeImpl
    (hdecode : decodeImpl buf fields offset obj = some (offset', n)) :
    ∃ bytes rest, buf.drop offset = bytes ++ rest ∧ offset' = offset + bytes.length ∧
      List.Forall₂ Normalizes bytes (encodeAll fields n) ∧
      ((∀ f ∈ fields, f.type ≠ .bool) → bytes = encodeAll fields n) := by
  obtain ⟨bytes, rest, hdrop, hend, hspells⟩ := spells_of_decodeImpl hdecode
  exact ⟨bytes, rest, hdrop, hend, hspells.normalizes h.get_set h.apart,
    fun hbool ↦ hspells.eq_encodeAll h.get_set h.apart hbool⟩

/-- Encodings are told apart, and from what follows them. -/
theorem encodeAll_append_inj {n' : C} (hn : ∀ f ∈ fields, Sized f.type (f.get n))
    (hn' : ∀ f ∈ fields, Sized f.type (f.get n')) {rest rest' : List UInt8}
    (heq : encodeAll fields n ++ rest = encodeAll fields n' ++ rest') : n = n' ∧ rest = rest' := by
  have hdecode : decodeImpl (encodeAll fields n ++ rest) fields 0 n =
      some (0 + (encodeAll fields n).length, n) :=
    decodeImpl_of_spells (h.spellsAll_encodeAll hn n) rfl
  have hdecode' : decodeImpl (encodeAll fields n ++ rest) fields 0 n =
      some (0 + (encodeAll fields n').length, n') :=
    decodeImpl_of_spells (h.spellsAll_encodeAll hn' n) heq
  rw [hdecode, Option.some.injEq, Prod.mk.injEq] at hdecode'
  obtain ⟨-, rfl⟩ := hdecode'
  exact ⟨rfl, List.append_cancel_left heq⟩

end Lawful

end PackageKitDart.Native.Glz
