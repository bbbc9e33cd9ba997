import PackageKitDart.Native.PkTypes
import PackageKitDart.Library.Utf8

namespace PackageKitDart.Native

/-- A buffer handed to `Dart_PostCObject_DL` as `Uint8` typed data. -/
abbrev Posted := List UInt8

/-- `sdbus::Error`; its message is all the bridge looks at. -/
structure SdbusError where
  message : CString

/-- `sdbus::Variant`, as far as the bridge can tell its types apart. -/
inductive Variant (σ : Type)
  | string (s : σ)
  | uint64 (n : UInt64)
  | other

/-- The signals of a transaction object, over the type of their texts. -/
inductive Signal (σ : Type)
  | package (info : UInt32) (pkgId summary : σ)
  | packages (packages : List (UInt32 × σ × σ))
  | progress (pkgId : σ) (status pct : UInt32)
  | itemProgress (id : σ) (status pct : UInt32)
  | statusChanged (status : UInt32)
  | details (data : List (σ × Variant σ))
  | updateDetail (pkgId : σ) (updates obsoletes vendorUrls bugzillaUrls cveUrls : List σ)
      (restart : UInt32) (updateText changelog : σ) (state : UInt32) (issued updated : σ)
  | repoDetail (repoId desc : σ) (enabled : Bool)
  | repoSignatureRequired (pkgId repoName keyUrl keyUserid keyId fingerprint timestamp : σ)
      (type : UInt32)
  | eulaRequired (eulaId pkgId vendor license : σ)
  | files (pkgId : σ) (files : List σ)
  | errorCode (code : UInt32) (details : σ)
  | requireRestart (type : UInt32) (pkgId : σ)
  | message (type : UInt32) (details : σ)
  | finished (exitCode runtime : UInt32)
  | destroy

def Variant.map {σ τ : Type} (f : σ → τ) : Variant σ → Variant τ
  | .string s => .string (f s)
  | .uint64 n => .uint64 n
  | .other => .other

def Signal.map {σ τ : Type} (f : σ → τ) : Signal σ → Signal τ
  | .package info pkgId summary => .package info (f pkgId) (f summary)
  | .packages ps => .packages (ps.map (fun p ↦ (p.1, f p.2.1, f p.2.2)))
  | .progress pkgId status pct => .progress (f pkgId) status pct
  | .itemProgress id status pct => .itemProgress (f id) status pct
  | .statusChanged status => .statusChanged status
  | .details data => .details (data.map (fun e ↦ (f e.1, e.2.map f)))
  | .updateDetail pkgId updates obsoletes vendorUrls bugzillaUrls cveUrls restart updateText
      changelog state issued updated =>
    .updateDetail (f pkgId) (updates.map f) (obsoletes.map f) (vendorUrls.map f)
      (bugzillaUrls.map f) (cveUrls.map f) restart (f updateText) (f changelog) state (f issued)
      (f updated)
  | .repoDetail repoId desc enabled => .repoDetail (f repoId) (f desc) enabled
  | .repoSignatureRequired pkgId repoName keyUrl keyUserid keyId fingerprint timestamp type =>
    .repoSignatureRequired (f pkgId) (f repoName) (f keyUrl) (f keyUserid) (f keyId)
      (f fingerprint) (f timestamp) type
  | .eulaRequired eulaId pkgId vendor license =>
    .eulaRequired (f eulaId) (f pkgId) (f vendor) (f license)
  | .files pkgId fs => .files (f pkgId) (fs.map f)
  | .errorCode code text => .errorCode code (f text)
  | .requireRestart type pkgId => .requireRestart type (f pkgId)
  | .message type text => .message type (f text)
  | .finished exitCode runtime => .finished exitCode runtime
  | .destroy => .destroy

namespace PkTransactionBridge

def kPackage : UInt8 := 0x01
def kProgress : UInt8 := 0x02
def kDetails : UInt8 := 0x03
def kUpdateDetail : UInt8 := 0x04
def kRepoDetail : UInt8 := 0x05
def kFiles : UInt8 := 0x06
def kErrorCode : UInt8 := 0x07
def kMessage : UInt8 := 0x08
def kEulaRequired : UInt8 := 0x09
def kRepoSigReq : UInt8 := 0x0A
def kRequireRestart : UInt8 := 0x0B
def kFinished : UInt8 := 0x20
def kSentinel : UInt8 := 0xFF

def post {C : Type} [Glz.Meta C] (discriminator : UInt8) (value : C) : Posted :=
  discriminator :: Glz.encode value

def finishedMessage (exitCode runtimeMs : UInt32) : Posted :=
  kFinished :: (Glz.encodeField .uint32 exitCode ++ Glz.encodeField .uint32 runtimeMs)

def sentinelMessage : Posted := [kSentinel]

def postFinished (exitCode runtimeMs : UInt32) : List Posted :=
  [finishedMessage exitCode runtimeMs, sentinelMessage]

def errorMessage (message : CString) : Posted :=
  post kErrorCode ({ code := 4, details := message } : PkErrorCode)

def postError (message : CString) : List Posted :=
  errorMessage message :: postFinished 2 0

def onPackage (info : UInt32) (pkgId summary : CString) : Posted :=
  post kPackage ({ info := info, packageId := pkgId, summary := summary } : PkPackage)

def onProgress (pkgId : CString) (status pct : UInt32) : Posted :=
  post kProgress
    ({ packageId := pkgId, status := status, percentage := pct, isItem := false } : PkProgress)

def onItemProgress (id : CString) (status pct : UInt32) : Posted :=
  post kProgress
    ({ packageId := id, status := status, percentage := pct, isItem := true } : PkProgress)

def onStatusChanged (status : UInt32) : Posted :=
  post kProgress
    ({ packageId := [], status := status, percentage := 101, isItem := false } : PkProgress)

/-- An absent key gives the empty string; `Variant::get` throws on another type. -/
def getStr (data : List (CString × Variant CString)) (key : String) : Option CString :=
  match data.lookup (Utf8.bytes key) with
  | some (.string s) => some s
  | some _ => none
  | none => some []

def getU64 (data : List (CString × Variant CString)) (key : String) : Option UInt64 :=
  match data.lookup (Utf8.bytes key) with
  | some (.uint64 n) => some n
  | some _ => none
  | none => some 0

/-- `none` when an `sdbus::Error` leaves the handler, before anything is posted. -/
def onDetails (data : List (CString × Variant CString)) : Option Posted := do
  let packageId ← getStr data "package-id"
  let summary ← getStr data "summary"
  let description ← getStr data "description"
  let url ← getStr data "url"
  let license ← getStr data "license"
  let group ← getStr data "group"
  let size ← getU64 data "size"
  return post kDetails ({
    packageId := packageId
    summary := summary
    description := description
    url := url
    license := license
    group := group
    size := size } : PkDetails)

def onUpdateDetail (pkgId : CString)
    (updates obsoletes vendorUrls bugzillaUrls cveUrls : List CString) (restart : UInt32)
    (updateText changelog : CString) (state : UInt32) (issued updated : CString) : Posted :=
  post kUpdateDetail ({
    packageId := pkgId
    updates := updates
    obsoletes := obsoletes
    vendorUrls := vendorUrls
    bugzillaUrls := bugzillaUrls
    cveUrls := cveUrls
    restart := restart
    updateText := updateText
    changelog := changelog
    state := state
    issued := issued
    updated := updated } : PkUpdateDetail)

def onRepoDetail (repoId desc : CString) (enabled : Bool) : Posted :=
  post kRepoDetail ({ repoId := repoId, description := desc, enabled := enabled } : PkRepoDetail)

def onRepoSignatureRequired
    (pkgId repoName keyUrl keyUserid keyId fingerprint timestamp : CString)
    (type : UInt32) : Posted :=
  post kRepoSigReq ({
    packageId := pkgId
    repositoryName := repoName
    keyUrl := keyUrl
    keyUserId := keyUserid
    keyId := keyId
    keyFingerprint := fingerprint
    keyTimestamp := timestamp
    type := type } : PkRepoSigRequired)

def onEulaRequired (eulaId pkgId vendor license : CString) : Posted :=
  post kEulaRequired ({
    eulaId := eulaId
    packageId := pkgId
    vendorName := vendor
    licenseAgreement := license } : PkEulaRequired)

def onFiles (pkgId : CString) (files : List CString) : Posted :=
  post kFiles ({ packageId := pkgId, files := files } : PkFiles)

def onErrorCode (code : UInt32) (details : CString) : Posted :=
  post kErrorCode ({ code := code, details := details } : PkErrorCode)

def onRequireRestart (type : UInt32) (pkgId : CString) : Posted :=
  post kRequireRestart ({ type := type, packageId := pkgId } : PkRequireRestart)

def onMessage (type : UInt32) (details : CString) : Posted :=
  post kMessage ({ type := type, details := details } : PkMessage)

def onFinished (exitCode runtimeMs : UInt32) : List Posted := postFinished exitCode runtimeMs

def onDestroy : List Posted := []

/-- What the handler registered for a signal posts. -/
def handle : Signal CString → List Posted
  | .package info pkgId summary => [onPackage info pkgId summary]
  | .packages packages => packages.map (fun p ↦ onPackage p.1 p.2.1 p.2.2)
  | .progress pkgId status pct => [onProgress pkgId status pct]
  | .itemProgress id status pct => [onItemProgress id status pct]
  | .statusChanged status => [onStatusChanged status]
  | .details data => (onDetails data).toList
  | .updateDetail pkgId updates obsoletes vendorUrls bugzillaUrls cveUrls restart updateText
      changelog state issued updated =>
    [onUpdateDetail pkgId updates obsoletes vendorUrls bugzillaUrls cveUrls restart updateText
      changelog state issued updated]
  | .repoDetail repoId desc enabled => [onRepoDetail repoId desc enabled]
  | .repoSignatureRequired pkgId repoName keyUrl keyUserid keyId fingerprint timestamp type =>
    [onRepoSignatureRequired pkgId repoName keyUrl keyUserid keyId fingerprint timestamp type]
  | .eulaRequired eulaId pkgId vendor license => [onEulaRequired eulaId pkgId vendor license]
  | .files pkgId files => [onFiles pkgId files]
  | .errorCode code details => [onErrorCode code details]
  | .requireRestart type pkgId => [onRequireRestart type pkgId]
  | .message type details => [onMessage type details]
  | .finished exitCode runtime => onFinished exitCode runtime
  | .destroy => onDestroy

/-- Everything the event-loop thread posts for a sequence of signals. -/
def eventPosts (signals : List (Signal CString)) : List Posted := signals.flatMap handle

section Details

variable (data : List (CString × Variant CString))

/-- The string under a key, if one is there. -/
def stringAt (key : String) : Option CString :=
  match data.lookup (Utf8.bytes key) with
  | some (.string s) => some s
  | _ => none

def uint64At (key : String) : Option UInt64 :=
  match data.lookup (Utf8.bytes key) with
  | some (.uint64 n) => some n
  | _ => none

/-- The known fields that are there with their type, each independently of the
others, and the member's default for the rest. -/
def detailsOf : PkDetails :=
  let d : PkDetails := {}
  { packageId := (stringAt data "package-id").getD d.packageId
    summary := (stringAt data "summary").getD d.summary
    description := (stringAt data "description").getD d.description
    url := (stringAt data "url").getD d.url
    license := (stringAt data "license").getD d.license
    group := (stringAt data "group").getD d.group
    size := (uint64At data "size").getD d.size }

/-- No key is there with another type than `string`, or `uint64` for the size. -/
structure WellTyped : Prop where
  strings : ∀ key ∈ ["package-id", "summary", "description", "url", "license", "group"], ∀ v,
    data.lookup (Utf8.bytes key) = some v → ∃ s, v = .string s
  size : ∀ v, data.lookup (Utf8.bytes "size") = some v → ∃ n, v = .uint64 n

variable {data}

theorem getStr_eq_some_iff {key : String} {s : CString} :
    getStr data key = some s ↔ s = (stringAt data key).getD [] ∧
      ∀ v, data.lookup (Utf8.bytes key) = some v → ∃ s, v = .string s := by
  rw [getStr, stringAt]
  cases data.lookup (Utf8.bytes key) with
  | none => simp [eq_comm]
  | some v => cases v <;> simp [eq_comm]

theorem getU64_eq_some_iff {key : String} {n : UInt64} :
    getU64 data key = some n ↔ n = (uint64At data key).getD 0 ∧
      ∀ v, data.lookup (Utf8.bytes key) = some v → ∃ n, v = .uint64 n := by
  rw [getU64, uint64At]
  cases data.lookup (Utf8.bytes key) with
  | none => simp [eq_comm]
  | some v => cases v <;> simp [eq_comm]

theorem onDetails_eq_some_iff {m : Posted} :
    onDetails data = some m ↔ m = post kDetails (detailsOf data) ∧ WellTyped data := by
  simp only [onDetails, Option.bind_eq_bind, Option.bind_eq_some_iff, getStr_eq_some_iff,
    getU64_eq_some_iff, Option.pure_def, Option.some_inj]
  constructor
  · intro h
    obtain ⟨_, ⟨rfl, h₁⟩, _, ⟨rfl, h₂⟩, _, ⟨rfl, h₃⟩, _, ⟨rfl, h₄⟩, _, ⟨rfl, h₅⟩, _, ⟨rfl, h₆⟩, _,
      ⟨rfl, h₇⟩, rfl⟩ := h
    refine ⟨rfl, ?_, h₇⟩
    simp only [List.forall_mem_cons]
    exact ⟨h₁, h₂, h₃, h₄, h₅, h₆, List.forall_mem_nil _⟩
  · intro h
    obtain ⟨rfl, hstrings, hsize⟩ := h
    simp only [List.forall_mem_cons] at hstrings
    obtain ⟨h₁, h₂, h₃, h₄, h₅, h₆, -⟩ := hstrings
    exact ⟨_, ⟨rfl, h₁⟩, _, ⟨rfl, h₂⟩, _, ⟨rfl, h₃⟩, _, ⟨rfl, h₄⟩, _, ⟨rfl, h₅⟩, _, ⟨rfl, h₆⟩, _,
      ⟨rfl, hsize⟩, rfl⟩

end Details

/-- A details signal is forwarded field by field, unless one known key has an
unexpected type: then nothing is posted. -/
theorem handle_details_iff (data : List (CString × Variant CString)) :
    handle (.details data) = [post kDetails (detailsOf data)] ↔ WellTyped data := by
  rw [handle]
  constructor
  · intro h
    cases hm : onDetails data with
    | none =>
      rw [hm] at h
      cases h
    | some m => exact (onDetails_eq_some_iff.mp hm).2
  · intro h
    rw [onDetails_eq_some_iff.mpr ⟨rfl, h⟩]
    rfl

/-- A package whose size has the wrong type. -/
def wrongSize : List (CString × Variant CString) := [
  (Utf8.bytes "package-id", .string (Utf8.bytes "vim;9.1;x86_64;core")),
  (Utf8.bytes "size", .other)]

theorem handle_wrongSize :
    handle (.details wrongSize) = [] ∧
      stringAt wrongSize "package-id" = some (Utf8.bytes "vim;9.1;x86_64;core") ∧
      ¬ handle (.details wrongSize) = [post kDetails (detailsOf wrongSize)] := by
  have h : handle (.details wrongSize) = [] := by decide
  refine ⟨h, by decide, ?_⟩
  rw [h]
  exact (List.cons_ne_nil _ _).symm

end PkTransactionBridge

end PackageKitDart.Native
