import PackageKitDart.Client.FormatAgreement
import PackageKitDart.Native.PkBridge

namespace PackageKitDart.Client

open Dart LatchedDemux MergedTrace Native PkTransactionBridge

def arrived (m : Posted) : Uint8List := Uint8List.ofBytes m

def postedReading (m : Posted) : Reading := reading (arrived m)

theorem map_reading_arrived (msgs : List Posted) :
    (msgs.map arrived).map reading = msgs.map postedReading := by
  rw [List.map_map]
  rfl

/-- The message is for one of the eleven streams. -/
def IsData (m : Posted) : Prop :=
  ∃ disc bs s, m = disc :: bs ∧ StreamName.ofDiscriminator disc = some s

theorem reading_data {disc : UInt8} {bs : List UInt8} {s : StreamName} {v : s.Event}
    (hs : StreamName.ofDiscriminator disc = some s)
    (hv : GlazeCodec.decode s.type (arrived (disc :: bs)) 1 = .ok v) :
    postedReading (disc :: bs) = .data s v :=
  reading_of_data (congrArg Except.ok (StreamName.ofDiscriminator_eq_some.mp hs)) hv

theorem reading_of_isData {m : Posted} (h : IsData m) :
    (∃ s v, postedReading m = .data s v) ∨ ∃ o, postedReading m = .fault o := by
  obtain ⟨disc, bs, s, rfl, hs⟩ := h
  cases hv : GlazeCodec.decode s.type (arrived (disc :: bs)) 1 with
  | ok v => exact .inl ⟨s, v, reading_data hs hv⟩
  | error e =>
    have hget : (arrived (disc :: bs)).get 0 = .ok s.byte :=
      congrArg Except.ok (StreamName.ofDiscriminator_eq_some.mp hs)
    exact .inr ⟨_, reading_of_fails (.data hget hv)⟩

theorem reading_posted {s : StreamName} {n : s.type.Native} (h : Transmissible s.type n) :
    ∃ v, postedReading (s.type.posted n) = .data s v ∧ Agrees s.type n v := by
  obtain ⟨v, r, hdecode, _, hagrees⟩ := decodes_posted h
  have hv : GlazeCodec.decode s.type (arrived (s.type.posted n)) 1 = .ok v := by
    rw [GlazeCodec.decode, arrived, hdecode]
    rfl
  refine ⟨v, ?_, hagrees⟩
  cases s <;> exact reading_data rfl hv

theorem reading_finishedMessage (exitCode runtimeMs : UInt32) :
    postedReading (finishedMessage exitCode runtimeMs) =
      .final (finishedOutcome ⟨exitCode.toNat, runtimeMs.toNat⟩) := by
  obtain ⟨v, r, hdecode, _, hagrees⟩ :=
    decodes_posted (T := .pkFinished) (n := (exitCode, runtimeMs)) trivial
  have hv : v = ⟨exitCode.toNat, runtimeMs.toNat⟩ := by
    obtain ⟨h₁, h₂⟩ := hagrees
    cases v
    exact congrArg₂ PkFinished.mk h₁ h₂
  subst hv
  apply reading_of_finished rfl
  rw [GlazeCodec.decode, arrived]
  exact congrArg (Except.map Prod.fst) hdecode

theorem isData_errorMessage (message : CString) : IsData (errorMessage message) :=
  ⟨_, _, .errors, rfl, rfl⟩

theorem isData_of_mem_handle {sg : Signal CString} (hsg : ∀ e t, sg ≠ .finished e t) {m : Posted}
    (hm : m ∈ handle sg) : IsData m := by
  cases sg with
  | package info pkgId summary =>
    obtain rfl := List.mem_singleton.mp hm
    exact ⟨_, _, .packages, rfl, rfl⟩
  | packages ps =>
    obtain ⟨p, _, rfl⟩ := List.mem_map.mp hm
    exact ⟨_, _, .packages, rfl, rfl⟩
  | progress pkgId status pct =>
    obtain rfl := List.mem_singleton.mp hm
    exact ⟨_, _, .progress, rfl, rfl⟩
  | itemProgress id status pct =>
    obtain rfl := List.mem_singleton.mp hm
    exact ⟨_, _, .progress, rfl, rfl⟩
  | statusChanged status =>
    obtain rfl := List.mem_singleton.mp hm
    exact ⟨_, _, .progress, rfl, rfl⟩
  | details data =>
    have hm : onDetails data = some m := by simpa [handle] using hm
    simp only [onDetails, Option.bind_eq_bind, Option.bind_eq_some_iff] at hm
    obtain ⟨_, _, _, _, _, _, _, _, _, _, _, _, _, _, hpost⟩ := hm
    cases hpost
    exact ⟨_, _, .details, rfl, rfl⟩
  | updateDetail pkgId updates obsoletes vendorUrls bugzillaUrls cveUrls restart updateText
      changelog state issued updated =>
    obtain rfl := List.mem_singleton.mp hm
    exact ⟨_, _, .updateDetails, rfl, rfl⟩
  | repoDetail repoId desc enabled =>
    obtain rfl := List.mem_singleton.mp hm
    exact ⟨_, _, .repoDetails, rfl, rfl⟩
  | repoSignatureRequired pkgId repoName keyUrl keyUserid keyId fingerprint timestamp type =>
    obtain rfl := List.mem_singleton.mp hm
    exact ⟨_, _, .repoSigRequired, rfl, rfl⟩
  | eulaRequired eulaId pkgId vendor license =>
    obtain rfl := List.mem_singleton.mp hm
    exact ⟨_, _, .eulaRequired, rfl, rfl⟩
  | files pkgId fs =>
    obtain rfl := List.mem_singleton.mp hm
    exact ⟨_, _, .files, rfl, rfl⟩
  | errorCode code text =>
    obtain rfl := List.mem_singleton.mp hm
    exact ⟨_, _, .errors, rfl, rfl⟩
  | requireRestart type pkgId =>
    obtain rfl := List.mem_singleton.mp hm
    exact ⟨_, _, .requireRestart, rfl, rfl⟩
  | message type text =>
    obtain rfl := List.mem_singleton.mp hm
    exact ⟨_, _, .messages, rfl, rfl⟩
  | finished exitCode runtime => exact absurd rfl (hsg exitCode runtime)
  | destroy => simp [handle, onDestroy] at hm

end PackageKitDart.Client
