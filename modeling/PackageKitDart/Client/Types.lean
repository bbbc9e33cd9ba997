import PackageKitDart.Client.Enums
import PackageKitDart.Dart.TypedData

namespace PackageKitDart.Client

open Dart

structure PkPackageId where
  name : String
  version : String
  arch : String
  data : String
  deriving DecidableEq, Repr

/-- `s.split(c)`. -/
def split (s : String) (c : Char) : List String := (s.toList.splitOn c).map String.ofList

theorem length_split (s : String) (c : Char) : (split s c).length = s.toList.count c + 1 := by
  rw [split, List.length_map]
  induction s.toList with
  | nil => simp
  | cons d l ih =>
    rw [List.splitOn_cons_eq_if_modifyHead, List.count_cons]
    by_cases h : d = c
    · simp [h, ih]
    · simp [h, ih]

namespace PkPackageId

def parse (id : String) : Except DartError PkPackageId :=
  match split id ';' with
  | [name, version, arch, data] => .ok ⟨name, version, arch, data⟩
  | _ => .error (.formatException ("Invalid package_id: " ++ id))

def raw (p : PkPackageId) : String :=
  p.name ++ ";" ++ p.version ++ ";" ++ p.arch ++ ";" ++ p.data

theorem split_of_parse {id : String} {p : PkPackageId} (h : parse id = .ok p) :
    split id ';' = [p.name, p.version, p.arch, p.data] := by
  unfold parse at h
  split at h
  · next hs => cases h; exact hs
  · cases h

theorem raw_of_parse {id : String} {p : PkPackageId} (h : parse id = .ok p) : p.raw = id := by
  have hs := congrArg (List.map String.toList) (split_of_parse h)
  simp only [split, List.map_map, Function.comp_def, String.toList_ofList, List.map_id'] at hs
  have hjoin : [';'].intercalate (id.toList.splitOn ';') = id.toList := List.intercalate_splitOn ';'
  rw [hs] at hjoin
  rw [← String.toList_inj, ← hjoin]
  simp [raw, List.intercalate]

theorem parse_isOk_iff (id : String) : (∃ p, parse id = .ok p) ↔ id.toList.count ';' = 3 := by
  have hlen := length_split id ';'
  constructor
  · intro hparse
    obtain ⟨p, hp⟩ := hparse
    rw [split_of_parse hp] at hlen
    simpa using hlen.symm
  · intro hcount
    obtain ⟨name, version, arch, data, hs⟩ :
        ∃ name version arch data, split id ';' = [name, version, arch, data] :=
      List.length_eq_four.mp (by omega)
    exact ⟨⟨name, version, arch, data⟩, by rw [parse, hs]⟩

theorem parse_error {id : String} (h : id.toList.count ';' ≠ 3) :
    parse id = .error (.formatException ("Invalid package_id: " ++ id)) := by
  cases hparse : parse id with
  | ok p => exact absurd ((parse_isOk_iff id).mp ⟨p, hparse⟩) h
  | error e =>
    rw [parse] at hparse
    split at hparse
    · cases hparse
    · exact hparse.symm

def parts (p : PkPackageId) : List String := [p.name, p.version, p.arch, p.data]

theorem toList_raw (p : PkPackageId) :
    p.raw.toList = [';'].intercalate (p.parts.map String.toList) := by
  simp [raw, parts, List.intercalate]

theorem split_raw {p : PkPackageId} (h : ∀ part ∈ p.parts, ';' ∉ part.toList) :
    split p.raw ';' = p.parts := by
  have hparts : ∀ l ∈ p.parts.map String.toList, ';' ∉ l := by
    intro l hl
    obtain ⟨part, hpart, rfl⟩ := List.mem_map.mp hl
    exact h part hpart
  rw [split, toList_raw, List.splitOn_intercalate ';' hparts (List.cons_ne_nil _ _), List.map_map]
  simp [Function.comp_def]

/-- A part with a separator in it makes one separator too many. -/
theorem count_raw (p : PkPackageId) :
    p.raw.toList.count ';' = 3 ↔ ∀ part ∈ p.parts, ';' ∉ part.toList := by
  have hcount : p.raw.toList.count ';' = p.name.toList.count ';' + p.version.toList.count ';' +
      p.arch.toList.count ';' + p.data.toList.count ';' + 3 := by
    simp only [raw, String.toList_append, List.count_append]
    have hsep : ";".toList.count ';' = 1 := rfl
    omega
  rw [hcount]
  simp only [parts, List.forall_mem_cons, List.not_mem_nil, false_implies, implies_true, and_true,
    ← List.count_eq_zero]
  omega

/-- Parsing and printing are inverse to each other where a printed id can be parsed at all, which
is where no part has a separator in it. -/
theorem package_ids_round_trip :
    (∀ p : PkPackageId, parse p.raw =
      if ∀ part ∈ p.parts, ';' ∉ part.toList then .ok p
        else .error (.formatException ("Invalid package_id: " ++ p.raw))) ∧
    ∀ s p, parse s = .ok p → p.raw = s ∧ ∀ part ∈ p.parts, ';' ∉ part.toList := by
  refine ⟨?_, ?_⟩
  · intro p
    split
    · next hparts => rw [parse, split_raw hparts]; rfl
    · next hparts => exact parse_error (fun hcount ↦ hparts ((count_raw p).mp hcount))
  · intro s p hparse
    have hraw := raw_of_parse hparse
    refine ⟨hraw, (count_raw p).mp ?_⟩
    rw [hraw]
    exact (parse_isOk_iff s).mp ⟨p, hparse⟩

end PkPackageId

structure PkPackage where
  info : PkInfo
  id : PkPackageId
  summary : String
  deriving DecidableEq, Repr

structure PkPackageDetail where
  id : PkPackageId
  summary : String
  description : String
  url : String
  license : String
  group : String
  size : ℤ
  deriving DecidableEq, Repr

structure PkUpdateDetail where
  packageId : String
  updates : List String
  obsoletes : List String
  vendorUrls : List String
  bugzillaUrls : List String
  cveUrls : List String
  restart : ℕ
  updateText : String
  changelog : String
  state : ℕ
  issued : String
  updated : String
  deriving DecidableEq, Repr

structure PkFiles where
  packageId : String
  files : List String
  deriving DecidableEq, Repr

structure PkMessage where
  type : ℕ
  details : String
  deriving DecidableEq, Repr

structure PkErrorCode where
  code : ℕ
  details : String
  deriving DecidableEq, Repr

structure PkRequireRestart where
  type : ℕ
  packageId : String
  deriving DecidableEq, Repr

structure PkRepoDetail where
  repoId : String
  description : String
  enabled : Bool
  deriving DecidableEq, Repr

structure PkEulaRequired where
  eulaId : String
  packageId : String
  vendorName : String
  licenseAgreement : String
  deriving DecidableEq, Repr

structure PkRepoSigRequired where
  packageId : String
  repositoryName : String
  keyUrl : String
  keyUserId : String
  keyId : String
  keyFingerprint : String
  keyTimestamp : String
  type : ℕ
  deriving DecidableEq, Repr

structure PkProgress where
  packageId : String
  status : PkStatus
  percentage : ℕ
  isItem : Bool
  deriving DecidableEq, Repr

structure PkManagerProps where
  backendName : String
  backendDescription : String
  backendAuthor : String
  roles : ℤ
  filters : ℤ
  groups : ℤ
  mimeTypes : List String
  distroId : String
  networkState : ℕ
  locked : Bool
  versionMajor : ℕ
  versionMinor : ℕ
  versionMicro : ℕ
  deriving DecidableEq, Repr

structure PkFinished where
  exitCode : ℕ
  runtimeMs : ℕ
  deriving DecidableEq, Repr

structure PkTransactionResult where
  exit : PkExit
  runtimeMs : ℕ
  deriving DecidableEq, Repr

/-- The `PkException` hierarchy. The text of a plain `PkException` ends in the
interpolated error, which is kept as a value. -/
inductive PkException
  | exception (text : String) (cause : DartError)
  | serviceUnavailable (message : String)
  | transaction (message : String) (exit : PkExit) (runtimeMs : ℕ)
  deriving DecidableEq, Repr

end PackageKitDart.Client
