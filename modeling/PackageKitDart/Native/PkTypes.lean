import PackageKitDart.Native.GlazeMeta

namespace PackageKitDart.Native

open Glz

structure PkPackage where
  info : UInt32 := 0
  packageId : CString := []
  summary : CString := []

instance : Meta PkPackage where
  fields := [
    ⟨"info", .uint32, (·.info), fun v p ↦ { p with info := v }⟩,
    ⟨"packageId", .string, (·.packageId), fun v p ↦ { p with packageId := v }⟩,
    ⟨"summary", .string, (·.summary), fun v p ↦ { p with summary := v }⟩]

/-- Progress, ItemProgress and StatusChanged in one type. -/
structure PkProgress where
  packageId : CString := []
  status : UInt32 := 0
  percentage : UInt32 := 0
  isItem : Bool := false

instance : Meta PkProgress where
  fields := [
    ⟨"packageId", .string, (·.packageId), fun v p ↦ { p with packageId := v }⟩,
    ⟨"status", .uint32, (·.status), fun v p ↦ { p with status := v }⟩,
    ⟨"percentage", .uint32, (·.percentage), fun v p ↦ { p with percentage := v }⟩,
    ⟨"isItem", .bool, (·.isItem), fun v p ↦ { p with isItem := v }⟩]

structure PkDetails where
  packageId : CString := []
  summary : CString := []
  description : CString := []
  url : CString := []
  license : CString := []
  group : CString := []
  size : UInt64 := 0

instance : Meta PkDetails where
  fields := [
    ⟨"packageId", .string, (·.packageId), fun v d ↦ { d with packageId := v }⟩,
    ⟨"summary", .string, (·.summary), fun v d ↦ { d with summary := v }⟩,
    ⟨"description", .string, (·.description), fun v d ↦ { d with description := v }⟩,
    ⟨"url", .string, (·.url), fun v d ↦ { d with url := v }⟩,
    ⟨"license", .string, (·.license), fun v d ↦ { d with license := v }⟩,
    ⟨"group", .string, (·.group), fun v d ↦ { d with group := v }⟩,
    ⟨"size", .uint64, (·.size), fun v d ↦ { d with size := v }⟩]

structure PkUpdateDetail where
  packageId : CString := []
  updates : List CString := []
  obsoletes : List CString := []
  vendorUrls : List CString := []
  bugzillaUrls : List CString := []
  cveUrls : List CString := []
  restart : UInt32 := 0
  updateText : CString := []
  changelog : CString := []
  state : UInt32 := 0
  issued : CString := []
  updated : CString := []

instance : Meta PkUpdateDetail where
  fields := [
    ⟨"packageId", .string, (·.packageId), fun v u ↦ { u with packageId := v }⟩,
    ⟨"updates", .strings, (·.updates), fun v u ↦ { u with updates := v }⟩,
    ⟨"obsoletes", .strings, (·.obsoletes), fun v u ↦ { u with obsoletes := v }⟩,
    ⟨"vendorUrls", .strings, (·.vendorUrls), fun v u ↦ { u with vendorUrls := v }⟩,
    ⟨"bugzillaUrls", .strings, (·.bugzillaUrls), fun v u ↦ { u with bugzillaUrls := v }⟩,
    ⟨"cveUrls", .strings, (·.cveUrls), fun v u ↦ { u with cveUrls := v }⟩,
    ⟨"restart", .uint32, (·.restart), fun v u ↦ { u with restart := v }⟩,
    ⟨"updateText", .string, (·.updateText), fun v u ↦ { u with updateText := v }⟩,
    ⟨"changelog", .string, (·.changelog), fun v u ↦ { u with changelog := v }⟩,
    ⟨"state", .uint32, (·.state), fun v u ↦ { u with state := v }⟩,
    ⟨"issued", .string, (·.issued), fun v u ↦ { u with issued := v }⟩,
    ⟨"updated", .string, (·.updated), fun v u ↦ { u with updated := v }⟩]

structure PkRepoDetail where
  repoId : CString := []
  description : CString := []
  enabled : Bool := false

instance : Meta PkRepoDetail where
  fields := [
    ⟨"repoId", .string, (·.repoId), fun v r ↦ { r with repoId := v }⟩,
    ⟨"description", .string, (·.description), fun v r ↦ { r with description := v }⟩,
    ⟨"enabled", .bool, (·.enabled), fun v r ↦ { r with enabled := v }⟩]

structure PkFiles where
  packageId : CString := []
  files : List CString := []

instance : Meta PkFiles where
  fields := [
    ⟨"packageId", .string, (·.packageId), fun v f ↦ { f with packageId := v }⟩,
    ⟨"files", .strings, (·.files), fun v f ↦ { f with files := v }⟩]

structure PkErrorCode where
  code : UInt32 := 0
  details : CString := []

instance : Meta PkErrorCode where
  fields := [
    ⟨"code", .uint32, (·.code), fun v e ↦ { e with code := v }⟩,
    ⟨"details", .string, (·.details), fun v e ↦ { e with details := v }⟩]

structure PkMessage where
  type : UInt32 := 0
  details : CString := []

instance : Meta PkMessage where
  fields := [
    ⟨"type", .uint32, (·.type), fun v m ↦ { m with type := v }⟩,
    ⟨"details", .string, (·.details), fun v m ↦ { m with details := v }⟩]

structure PkEulaRequired where
  eulaId : CString := []
  packageId : CString := []
  vendorName : CString := []
  licenseAgreement : CString := []

instance : Meta PkEulaRequired where
  fields := [
    ⟨"eulaId", .string, (·.eulaId), fun v e ↦ { e with eulaId := v }⟩,
    ⟨"packageId", .string, (·.packageId), fun v e ↦ { e with packageId := v }⟩,
    ⟨"vendorName", .string, (·.vendorName), fun v e ↦ { e with vendorName := v }⟩,
    ⟨"licenseAgreement", .string, (·.licenseAgreement),
      fun v e ↦ { e with licenseAgreement := v }⟩]

structure PkRepoSigRequired where
  packageId : CString := []
  repositoryName : CString := []
  keyUrl : CString := []
  keyUserId : CString := []
  keyId : CString := []
  keyFingerprint : CString := []
  keyTimestamp : CString := []
  type : UInt32 := 0

instance : Meta PkRepoSigRequired where
  fields := [
    ⟨"packageId", .string, (·.packageId), fun v r ↦ { r with packageId := v }⟩,
    ⟨"repositoryName", .string, (·.repositoryName), fun v r ↦ { r with repositoryName := v }⟩,
    ⟨"keyUrl", .string, (·.keyUrl), fun v r ↦ { r with keyUrl := v }⟩,
    ⟨"keyUserId", .string, (·.keyUserId), fun v r ↦ { r with keyUserId := v }⟩,
    ⟨"keyId", .string, (·.keyId), fun v r ↦ { r with keyId := v }⟩,
    ⟨"keyFingerprint", .string, (·.keyFingerprint), fun v r ↦ { r with keyFingerprint := v }⟩,
    ⟨"keyTimestamp", .string, (·.keyTimestamp), fun v r ↦ { r with keyTimestamp := v }⟩,
    ⟨"type", .uint32, (·.type), fun v r ↦ { r with type := v }⟩]

structure PkRequireRestart where
  type : UInt32 := 0
  packageId : CString := []

instance : Meta PkRequireRestart where
  fields := [
    ⟨"type", .uint32, (·.type), fun v r ↦ { r with type := v }⟩,
    ⟨"packageId", .string, (·.packageId), fun v r ↦ { r with packageId := v }⟩]

structure PkManagerProps where
  backendName : CString := []
  backendDescription : CString := []
  backendAuthor : CString := []
  roles : UInt64 := 0
  filters : UInt64 := 0
  groups : UInt64 := 0
  mimeTypes : List CString := []
  distroId : CString := []
  networkState : UInt32 := 0
  locked : Bool := false
  versionMajor : UInt32 := 0
  versionMinor : UInt32 := 0
  versionMicro : UInt32 := 0

instance : Meta PkManagerProps where
  fields := [
    ⟨"backendName", .string, (·.backendName), fun v m ↦ { m with backendName := v }⟩,
    ⟨"backendDescription", .string, (·.backendDescription),
      fun v m ↦ { m with backendDescription := v }⟩,
    ⟨"backendAuthor", .string, (·.backendAuthor), fun v m ↦ { m with backendAuthor := v }⟩,
    ⟨"roles", .uint64, (·.roles), fun v m ↦ { m with roles := v }⟩,
    ⟨"filters", .uint64, (·.filters), fun v m ↦ { m with filters := v }⟩,
    ⟨"groups", .uint64, (·.groups), fun v m ↦ { m with groups := v }⟩,
    ⟨"mimeTypes", .strings, (·.mimeTypes), fun v m ↦ { m with mimeTypes := v }⟩,
    ⟨"distroId", .string, (·.distroId), fun v m ↦ { m with distroId := v }⟩,
    ⟨"networkState", .uint32, (·.networkState), fun v m ↦ { m with networkState := v }⟩,
    ⟨"locked", .bool, (·.locked), fun v m ↦ { m with locked := v }⟩,
    ⟨"versionMajor", .uint32, (·.versionMajor), fun v m ↦ { m with versionMajor := v }⟩,
    ⟨"versionMinor", .uint32, (·.versionMinor), fun v m ↦ { m with versionMinor := v }⟩,
    ⟨"versionMicro", .uint32, (·.versionMicro), fun v m ↦ { m with versionMicro := v }⟩]

end PackageKitDart.Native
