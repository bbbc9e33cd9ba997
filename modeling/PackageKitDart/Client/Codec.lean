import PackageKitDart.Client.Types
import PackageKitDart.Library.SequentialRead

namespace PackageKitDart.Client

open Dart SequentialRead

/-- `_Reader`: its view of the data runs to the end of the buffer, and
`length` is the visible part of it. -/
structure Reader where
  data : ByteData
  length : ℕ
  offset : ℕ
  inData : length ≤ data.lengthInBytes

abbrev Read (α : Type) := StateT Reader (Except DartError) α

-- the codec runs in `Except DartError`, but can also be run in a monad that traces its accesses
variable {m : Type → Type} [Monad m] [MonadExceptOf DartError m] [MonadLiftT (Except DartError) m]
  [BufferAccess m]

namespace Reader

def ofBytes (bytes : Uint8List) (offset : ℕ) : Reader where
  data := bytes.asByteData
  length := bytes.length
  offset := offset
  inData := by
    have h := bytes.inBuffer
    simp only [Uint8List.asByteData]
    omega

def checkBounds (needed : ℕ) : StateT Reader m Unit := do
  let r ← get
  if r.offset + needed > r.length then
    throw (.rangeError ("Codec read overrun: need " ++ toString needed ++ " bytes at offset " ++
      toString r.offset ++ ", but buffer is " ++ toString r.length ++ " bytes"))

def skip (n : ℕ) : StateT Reader m Unit := modify (fun r ↦ { r with offset := r.offset + n })

/-- A checked load of fixed width. -/
def readFixed {α : Type} (width : ℕ) (load : ByteData → ℕ → m α) : StateT Reader m α := do
  checkBounds width
  let r ← get
  let v ← load r.data r.offset
  skip width
  return v

def readUint32 : StateT Reader m ℕ := readFixed 4 ByteData.getUint32

def readUint64 : StateT Reader m ℤ := readFixed 8 ByteData.getUint64

def readBool : StateT Reader m Bool := do
  let v ← readFixed 1 ByteData.getUint8
  return v != 0

def readString : StateT Reader m String := do
  let len ← readUint32
  checkBounds len
  let r ← get
  let bytes ← (BufferAccess.view r.data.buffer (r.data.offsetInBytes + r.offset) len : m Uint8List)
  skip len
  utf8Decode bytes.toBytes

/-- `List.generate(count, (_) => readString())`. -/
def readStrings : ℕ → StateT Reader m (List String)
  | 0 => return []
  | count + 1 => do
    let s ← readString
    let rest ← readStrings count
    return s :: rest

def readStringList : StateT Reader m (List String) := do
  let count ← readUint32
  readStrings count

end Reader

namespace GlazeCodec

open Reader

def decodePackage : StateT Reader m PkPackage := do
  let info ← readUint32
  let packageId ← readString
  let summary ← readString
  let id ← PkPackageId.parse packageId
  return { info := PkInfo.fromInt info, id := id, summary := summary }

def decodeProgress : StateT Reader m PkProgress := do
  let packageId ← readString
  let status ← readUint32
  let percentage ← readUint32
  let isItem ← readBool
  return {
    packageId := packageId
    status := PkStatus.fromInt status
    percentage := percentage
    isItem := isItem }

def decodeDetails : StateT Reader m PkPackageDetail := do
  let packageId ← readString
  let summary ← readString
  let description ← readString
  let url ← readString
  let license ← readString
  let group ← readString
  let size ← readUint64
  let id ← PkPackageId.parse packageId
  return {
    id := id
    summary := summary
    description := description
    url := url
    license := license
    group := group
    size := size }

def decodeUpdateDetail : StateT Reader m PkUpdateDetail := do
  let packageId ← readString
  let updates ← readStringList
  let obsoletes ← readStringList
  let vendorUrls ← readStringList
  let bugzillaUrls ← readStringList
  let cveUrls ← readStringList
  let restart ← readUint32
  let updateText ← readString
  let changelog ← readString
  let state ← readUint32
  let issued ← readString
  let updated ← readString
  return {
    packageId := packageId
    updates := updates
    obsoletes := obsoletes
    vendorUrls := vendorUrls
    bugzillaUrls := bugzillaUrls
    cveUrls := cveUrls
    restart := restart
    updateText := updateText
    changelog := changelog
    state := state
    issued := issued
    updated := updated }

def decodeRepoDetail : StateT Reader m PkRepoDetail := do
  let repoId ← readString
  let description ← readString
  let enabled ← readBool
  return { repoId := repoId, description := description, enabled := enabled }

def decodeFiles : StateT Reader m PkFiles := do
  let packageId ← readString
  let files ← readStringList
  return { packageId := packageId, files := files }

def decodeErrorCode : StateT Reader m PkErrorCode := do
  let code ← readUint32
  let details ← readString
  return { code := code, details := details }

def decodeMessage : StateT Reader m PkMessage := do
  let type ← readUint32
  let details ← readString
  return { type := type, details := details }

def decodeEulaRequired : StateT Reader m PkEulaRequired := do
  let eulaId ← readString
  let packageId ← readString
  let vendorName ← readString
  let licenseAgreement ← readString
  return {
    eulaId := eulaId
    packageId := packageId
    vendorName := vendorName
    licenseAgreement := licenseAgreement }

def decodeRepoSigRequired : StateT Reader m PkRepoSigRequired := do
  let packageId ← readString
  let repositoryName ← readString
  let keyUrl ← readString
  let keyUserId ← readString
  let keyId ← readString
  let keyFingerprint ← readString
  let keyTimestamp ← readString
  let type ← readUint32
  return {
    packageId := packageId
    repositoryName := repositoryName
    keyUrl := keyUrl
    keyUserId := keyUserId
    keyId := keyId
    keyFingerprint := keyFingerprint
    keyTimestamp := keyTimestamp
    type := type }

def decodeRequireRestart : StateT Reader m PkRequireRestart := do
  let type ← readUint32
  let packageId ← readString
  return { type := type, packageId := packageId }

def decodeManagerProps : StateT Reader m PkManagerProps := do
  let backendName ← readString
  let backendDescription ← readString
  let backendAuthor ← readString
  let roles ← readUint64
  let filters ← readUint64
  let groups ← readUint64
  let mimeTypes ← readStringList
  let distroId ← readString
  let networkState ← readUint32
  let locked ← readBool
  let versionMajor ← readUint32
  let versionMinor ← readUint32
  let versionMicro ← readUint32
  return {
    backendName := backendName
    backendDescription := backendDescription
    backendAuthor := backendAuthor
    roles := roles
    filters := filters
    groups := groups
    mimeTypes := mimeTypes
    distroId := distroId
    networkState := networkState
    locked := locked
    versionMajor := versionMajor
    versionMinor := versionMinor
    versionMicro := versionMicro }

def decodeFinished : StateT Reader m PkFinished := do
  let exitCode ← readUint32
  let runtimeMs ← readUint32
  return { exitCode := exitCode, runtimeMs := runtimeMs }

end GlazeCodec

/-- The types `GlazeCodec.decode<T>` knows. -/
inductive WireType
  | pkPackage | pkProgress | pkPackageDetail | pkUpdateDetail | pkRepoDetail | pkFiles
  | pkErrorCode | pkMessage | pkEulaRequired | pkRepoSigRequired | pkRequireRestart
  | pkManagerProps | pkFinished
  deriving DecidableEq, Repr

abbrev WireType.Val : WireType → Type
  | .pkPackage => PkPackage
  | .pkProgress => PkProgress
  | .pkPackageDetail => PkPackageDetail
  | .pkUpdateDetail => PkUpdateDetail
  | .pkRepoDetail => PkRepoDetail
  | .pkFiles => PkFiles
  | .pkErrorCode => PkErrorCode
  | .pkMessage => PkMessage
  | .pkEulaRequired => PkEulaRequired
  | .pkRepoSigRequired => PkRepoSigRequired
  | .pkRequireRestart => PkRequireRestart
  | .pkManagerProps => PkManagerProps
  | .pkFinished => PkFinished

namespace GlazeCodec

def decoder : (T : WireType) → StateT Reader m T.Val
  | .pkPackage => decodePackage
  | .pkProgress => decodeProgress
  | .pkPackageDetail => decodeDetails
  | .pkUpdateDetail => decodeUpdateDetail
  | .pkRepoDetail => decodeRepoDetail
  | .pkFiles => decodeFiles
  | .pkErrorCode => decodeErrorCode
  | .pkMessage => decodeMessage
  | .pkEulaRequired => decodeEulaRequired
  | .pkRepoSigRequired => decodeRepoSigRequired
  | .pkRequireRestart => decodeRequireRestart
  | .pkManagerProps => decodeManagerProps
  | .pkFinished => decodeFinished

/-- The decoded value and the reader as the decoder left it. -/
def decodeFrom (T : WireType) (data : Uint8List) (offset : ℕ) : Except DartError (T.Val × Reader) :=
  decoder T (Reader.ofBytes data offset)

def decode (T : WireType) (data : Uint8List) (offset : ℕ) : Except DartError T.Val :=
  (decodeFrom T data offset).map Prod.fst

end GlazeCodec

end PackageKitDart.Client
