import PackageKitDart.Client.ReaderSpec
import PackageKitDart.Native.PkTypes

namespace PackageKitDart.Client

open Dart Native Glz Reader

abbrev FieldValue : FieldType → Type
  | .uint8 | .uint32 => ℕ
  | .bool => Bool
  | .uint64 => ℤ
  | .string => String
  | .strings => List String

/-- The field was decoded from exactly what was encoded. -/
def Decoded : (t : FieldType) → t.Val → FieldValue t → Prop
  | .uint8, n, v => v = n.toNat
  | .bool, b, v => v = b
  | .uint32, n, v => v = n.toNat
  | .uint64, n, v => v = n.toBitVec.toInt
  | .string, s, v => utf8Decode s = .ok v
  | .strings, l, v => List.Forall₂ (fun s t ↦ utf8Decode s = .ok t) l v

def readField : (t : FieldType) → Read (FieldValue t)
  | .uint8 => readFixed 1 ByteData.getUint8
  | .bool => readBool
  | .uint32 => readUint32
  | .uint64 => readUint64
  | .string => readString
  | .strings => readStringList

abbrev WireType.Native : WireType → Type
  | .pkPackage => Native.PkPackage
  | .pkProgress => Native.PkProgress
  | .pkPackageDetail => Native.PkDetails
  | .pkUpdateDetail => Native.PkUpdateDetail
  | .pkRepoDetail => Native.PkRepoDetail
  | .pkFiles => Native.PkFiles
  | .pkErrorCode => Native.PkErrorCode
  | .pkMessage => Native.PkMessage
  | .pkEulaRequired => Native.PkEulaRequired
  | .pkRepoSigRequired => Native.PkRepoSigRequired
  | .pkRequireRestart => Native.PkRequireRestart
  | .pkManagerProps => Native.PkManagerProps
  | .pkFinished => UInt32 × UInt32

def DecodedId (s : CString) (id : PkPackageId) : Prop :=
  ∃ t, Decoded .string s t ∧ PkPackageId.parse t = .ok id

/-- Every field of the Dart value comes from the field of the same name. -/
def Agrees : (T : WireType) → T.Native → T.Val → Prop
  | .pkPackage, n, v =>
    v.info = PkInfo.fromInt n.info.toNat ∧ DecodedId n.packageId v.id ∧
      Decoded .string n.summary v.summary
  | .pkProgress, n, v =>
    Decoded .string n.packageId v.packageId ∧ v.status = PkStatus.fromInt n.status.toNat ∧
      Decoded .uint32 n.percentage v.percentage ∧ Decoded .bool n.isItem v.isItem
  | .pkPackageDetail, n, v =>
    DecodedId n.packageId v.id ∧ Decoded .string n.summary v.summary ∧
      Decoded .string n.description v.description ∧ Decoded .string n.url v.url ∧
      Decoded .string n.license v.license ∧ Decoded .string n.group v.group ∧
      Decoded .uint64 n.size v.size
  | .pkUpdateDetail, n, v =>
    Decoded .string n.packageId v.packageId ∧ Decoded .strings n.updates v.updates ∧
      Decoded .strings n.obsoletes v.obsoletes ∧ Decoded .strings n.vendorUrls v.vendorUrls ∧
      Decoded .strings n.bugzillaUrls v.bugzillaUrls ∧ Decoded .strings n.cveUrls v.cveUrls ∧
      Decoded .uint32 n.restart v.restart ∧ Decoded .string n.updateText v.updateText ∧
      Decoded .string n.changelog v.changelog ∧ Decoded .uint32 n.state v.state ∧
      Decoded .string n.issued v.issued ∧ Decoded .string n.updated v.updated
  | .pkRepoDetail, n, v =>
    Decoded .string n.repoId v.repoId ∧ Decoded .string n.description v.description ∧
      Decoded .bool n.enabled v.enabled
  | .pkFiles, n, v => Decoded .string n.packageId v.packageId ∧ Decoded .strings n.files v.files
  | .pkErrorCode, n, v => Decoded .uint32 n.code v.code ∧ Decoded .string n.details v.details
  | .pkMessage, n, v => Decoded .uint32 n.type v.type ∧ Decoded .string n.details v.details
  | .pkEulaRequired, n, v =>
    Decoded .string n.eulaId v.eulaId ∧ Decoded .string n.packageId v.packageId ∧
      Decoded .string n.vendorName v.vendorName ∧
      Decoded .string n.licenseAgreement v.licenseAgreement
  | .pkRepoSigRequired, n, v =>
    Decoded .string n.packageId v.packageId ∧ Decoded .string n.repositoryName v.repositoryName ∧
      Decoded .string n.keyUrl v.keyUrl ∧ Decoded .string n.keyUserId v.keyUserId ∧
      Decoded .string n.keyId v.keyId ∧ Decoded .string n.keyFingerprint v.keyFingerprint ∧
      Decoded .string n.keyTimestamp v.keyTimestamp ∧ Decoded .uint32 n.type v.type
  | .pkRequireRestart, n, v =>
    Decoded .uint32 n.type v.type ∧ Decoded .string n.packageId v.packageId
  | .pkManagerProps, n, v =>
    Decoded .string n.backendName v.backendName ∧
      Decoded .string n.backendDescription v.backendDescription ∧
      Decoded .string n.backendAuthor v.backendAuthor ∧ Decoded .uint64 n.roles v.roles ∧
      Decoded .uint64 n.filters v.filters ∧ Decoded .uint64 n.groups v.groups ∧
      Decoded .strings n.mimeTypes v.mimeTypes ∧ Decoded .string n.distroId v.distroId ∧
      Decoded .uint32 n.networkState v.networkState ∧ Decoded .bool n.locked v.locked ∧
      Decoded .uint32 n.versionMajor v.versionMajor ∧
      Decoded .uint32 n.versionMinor v.versionMinor ∧
      Decoded .uint32 n.versionMicro v.versionMicro
  | .pkFinished, n, v => Decoded .uint32 n.1 v.exitCode ∧ Decoded .uint32 n.2 v.runtimeMs

end PackageKitDart.Client
