import PackageKitDart.Client.PostedReadings

namespace PackageKitDart.Client

open Dart LatchedDemux Native PkTransactionBridge

abbrev StreamEvent := (s : StreamName) × s.Event

namespace StreamEvent

def asReading (e : StreamEvent) : Reading := .data e.1 e.2

def on? (s : StreamName) (e : StreamEvent) : Option s.Event := e.asReading.at? s

end StreamEvent

/-- A text that survives the wire: its length fits the prefix, and it does not
start with the byte order mark. -/
structure TextFits (s : String) : Prop where
  size : s.utf8ByteSize < 2 ^ 32
  head : s.toList.head? ≠ some '\uFEFF'

structure TextsFit (l : List String) : Prop where
  count : l.length < 2 ^ 32
  each : ∀ s ∈ l, TextFits s

structure IdFits (s : String) : Prop extends TextFits s where
  separators : s.toList.count ';' = 3

def detailText (data : List (String × Variant String)) (key : String) : String :=
  match data.lookup key with
  | some (.string s) => s
  | _ => ""

def detailWord (data : List (String × Variant String)) (key : String) : UInt64 :=
  match data.lookup key with
  | some (.uint64 n) => n
  | _ => 0

/-- The types PackageKit documents for the entries of a Details dictionary. -/
structure DetailsFit (data : List (String × Variant String)) : Prop where
  texts : ∀ key ∈ ["package-id", "summary", "description", "url", "license", "group"],
    ∀ v, data.lookup key = some v → ∃ s, v = .string s ∧ TextFits s
  size : ∀ v, data.lookup "size" = some v → ∃ n : UInt64, v = .uint64 n ∧ n.toNat < 2 ^ 63
  id : (detailText data "package-id").toList.count ';' = 3

/-- The signals of a transaction before its Finished that the client can decode. Their texts are
shorter than `2 ^ 32` bytes and do not start with a byte order mark, their lists are shorter than
`2 ^ 32`, the ids of Package, Packages and Details have three separators, and a Details dictionary
has the documented types and a size below `2 ^ 63`. -/
def Deliverable : Signal String → Prop
  | .package _ pkgId summary => IdFits pkgId ∧ TextFits summary
  | .packages ps => ∀ p ∈ ps, IdFits p.2.1 ∧ TextFits p.2.2
  | .progress pkgId _ _ => TextFits pkgId
  | .itemProgress id _ _ => TextFits id
  | .statusChanged _ => True
  | .details data => DetailsFit data
  | .updateDetail pkgId updates obsoletes vendorUrls bugzillaUrls cveUrls _ updateText changelog
      _ issued updated =>
    TextFits pkgId ∧ TextsFit updates ∧ TextsFit obsoletes ∧ TextsFit vendorUrls ∧
      TextsFit bugzillaUrls ∧ TextsFit cveUrls ∧ TextFits updateText ∧ TextFits changelog ∧
      TextFits issued ∧ TextFits updated
  | .repoDetail repoId desc _ => TextFits repoId ∧ TextFits desc
  | .repoSignatureRequired pkgId repoName keyUrl keyUserid keyId fingerprint timestamp _ =>
    TextFits pkgId ∧ TextFits repoName ∧ TextFits keyUrl ∧ TextFits keyUserid ∧ TextFits keyId ∧
      TextFits fingerprint ∧ TextFits timestamp
  | .eulaRequired eulaId pkgId vendor license =>
    TextFits eulaId ∧ TextFits pkgId ∧ TextFits vendor ∧ TextFits license
  | .files pkgId fs => TextFits pkgId ∧ TextsFit fs
  | .errorCode _ text => TextFits text
  | .requireRestart _ pkgId => TextFits pkgId
  | .message _ text => TextFits text
  | .finished _ _ => False
  | .destroy => True

def packageEvent (info : UInt32) (pkgId summary : String) : List StreamEvent :=
  (PkPackageId.parse pkgId).toOption.toList.map (fun id ↦
    ⟨.packages, { info := PkInfo.fromInt info.toNat, id := id, summary := summary }⟩)

def progressEvent (pkgId : String) (status : UInt32) (percentage : ℕ) (isItem : Bool) :
    StreamEvent :=
  ⟨.progress, {
    packageId := pkgId
    status := PkStatus.fromInt status.toNat
    percentage := percentage
    isItem := isItem }⟩

def detailsEvent (data : List (String × Variant String)) (id : PkPackageId) : PkPackageDetail where
  id := id
  summary := detailText data "summary"
  description := detailText data "description"
  url := detailText data "url"
  license := detailText data "license"
  group := detailText data "group"
  size := (detailWord data "size").toNat

def signalEvents : Signal String → List StreamEvent
  | .package info pkgId summary => packageEvent info pkgId summary
  | .packages ps => ps.flatMap (fun p ↦ packageEvent p.1 p.2.1 p.2.2)
  | .progress pkgId status pct => [progressEvent pkgId status pct.toNat false]
  | .itemProgress id status pct => [progressEvent id status pct.toNat true]
  | .statusChanged status => [progressEvent "" status 101 false]
  | .details data =>
    (PkPackageId.parse (detailText data "package-id")).toOption.toList.map (fun id ↦
      ⟨.details, detailsEvent data id⟩)
  | .updateDetail pkgId updates obsoletes vendorUrls bugzillaUrls cveUrls restart updateText
      changelog state issued updated =>
    [⟨.updateDetails, {
      packageId := pkgId
      updates := updates
      obsoletes := obsoletes
      vendorUrls := vendorUrls
      bugzillaUrls := bugzillaUrls
      cveUrls := cveUrls
      restart := restart.toNat
      updateText := updateText
      changelog := changelog
      state := state.toNat
      issued := issued
      updated := updated }⟩]
  | .repoDetail repoId desc enabled =>
    [⟨.repoDetails, { repoId := repoId, description := desc, enabled := enabled }⟩]
  | .repoSignatureRequired pkgId repoName keyUrl keyUserid keyId fingerprint timestamp type =>
    [⟨.repoSigRequired, {
      packageId := pkgId
      repositoryName := repoName
      keyUrl := keyUrl
      keyUserId := keyUserid
      keyId := keyId
      keyFingerprint := fingerprint
      keyTimestamp := timestamp
      type := type.toNat }⟩]
  | .eulaRequired eulaId pkgId vendor license =>
    [⟨.eulaRequired, {
      eulaId := eulaId
      packageId := pkgId
      vendorName := vendor
      licenseAgreement := license }⟩]
  | .files pkgId fs => [⟨.files, { packageId := pkgId, files := fs }⟩]
  | .errorCode code text => [⟨.errors, { code := code.toNat, details := text }⟩]
  | .requireRestart type pkgId =>
    [⟨.requireRestart, { type := type.toNat, packageId := pkgId }⟩]
  | .message type text => [⟨.messages, { type := type.toNat, details := text }⟩]
  | .finished _ _ => []
  | .destroy => []

theorem decoded_text {s t : String} (hs : TextFits s)
    (ht : Decoded .string (Utf8.bytes s) t) : t = s := by
  have h := utf8Decode_bytes hs.head
  rw [Decoded, h] at ht
  cases ht
  rfl

theorem decoded_texts {l ts : List String} (hl : TextsFit l)
    (ht : Decoded .strings (l.map Utf8.bytes) ts) : ts = l := by
  obtain ⟨-, hl⟩ := hl
  induction l generalizing ts with
  | nil => exact List.forall₂_nil_left_iff.mp ht
  | cons s l ih =>
    obtain ⟨t, ts', hst, hrest, rfl⟩ := List.forall₂_cons_left_iff.mp ht
    rw [decoded_text (hl s List.mem_cons_self) hst,
      ih hrest (fun x hx ↦ hl x (List.mem_cons_of_mem s hx))]

theorem decoded_id {s : String} {id : PkPackageId} (hs : TextFits s)
    (h : DecodedId (Utf8.bytes s) id) : PkPackageId.parse s = .ok id := by
  obtain ⟨t, ht, hparse⟩ := h
  rwa [decoded_text hs ht] at hparse

theorem fits_text {s : String} (hs : TextFits s) : Fits .string (Utf8.bytes s) :=
  ⟨Utf8.valid_bytes s, hs.size⟩

theorem fits_texts {l : List String} (hl : TextsFit l) : Fits .strings (l.map Utf8.bytes) := by
  refine ⟨by simpa using hl.count, ?_⟩
  intro b hb
  obtain ⟨s, hs, rfl⟩ := List.mem_map.mp hb
  exact fits_text (hl.each s hs)

theorem separators_bytes {s : String} (hs : s.toList.count ';' = 3) :
    (Utf8.bytes s).count 0x3B = 3 := by
  rw [← hs]
  exact Utf8.count_bytes s ';' (by decide)

theorem reading_eq_of_agrees {s : StreamName} {n : s.type.Native} {v : s.Event}
    (h : Transmissible s.type n) (hv : ∀ w, Agrees s.type n w → w = v) :
    postedReading (s.type.posted n) = StreamEvent.asReading ⟨s, v⟩ := by
  obtain ⟨w, hread, hagrees⟩ := reading_posted h
  rw [hread, hv w hagrees, StreamEvent.asReading]

theorem reading_onPackage (info : UInt32) {pkgId summary : String} (hid : IdFits pkgId)
    (hsummary : TextFits summary) :
    [postedReading (onPackage info (Utf8.bytes pkgId) (Utf8.bytes summary))] =
      (packageEvent info pkgId summary).map StreamEvent.asReading := by
  obtain ⟨id, hparse⟩ := (PkPackageId.parse_isOk_iff pkgId).mpr hid.separators
  have hfit : Transmissible .pkPackage
      { info := info, packageId := Utf8.bytes pkgId, summary := Utf8.bytes summary } := by
    refine ⟨?_, separators_bytes hid.separators⟩
    simp only [FieldsFit, Glz.Meta.fields, List.forall_mem_cons]
    exact ⟨trivial, fits_text hid.toTextFits, fits_text hsummary, List.forall_mem_nil _⟩
  have hread := reading_eq_of_agrees (s := .packages) hfit
    (v := { info := PkInfo.fromInt info.toNat, id := id, summary := summary }) (by
      intro w hw
      obtain ⟨i, d, t⟩ := w
      obtain ⟨h₁, h₂, h₃⟩ := hw
      have hd := decoded_id hid.toTextFits h₂
      rw [hparse, Except.ok.injEq] at hd
      exact PkPackage.mk.injEq .. |>.mpr ⟨h₁, hd.symm, decoded_text hsummary h₃⟩)
  simp only [packageEvent, hparse, Except.toOption, Option.toList_some, List.map_cons,
    List.map_nil, ← hread]
  rfl

theorem reading_progress {pkgId : String} (hid : TextFits pkgId) (status pct : UInt32)
    (isItem : Bool) :
    postedReading (post kProgress ({
      packageId := Utf8.bytes pkgId
      status := status
      percentage := pct
      isItem := isItem } : Native.PkProgress)) =
    (progressEvent pkgId status pct.toNat isItem).asReading := by
  refine reading_eq_of_agrees (s := .progress) ?_ ?_
  · simp only [Transmissible, FieldsFit, Glz.Meta.fields, List.forall_mem_cons]
    exact ⟨fits_text hid, trivial, trivial, trivial, List.forall_mem_nil _⟩
  · intro w hw
    obtain ⟨_, _, _, _⟩ := w
    obtain ⟨h₁, h₂, h₃, h₄⟩ := hw
    obtain rfl := decoded_text hid h₁
    simp only [Decoded] at h₂ h₃ h₄
    rw [h₂, h₃, h₄]

theorem reading_updateDetail {pkgId updateText changelog issued updated : String}
    {updates obsoletes vendorUrls bugzillaUrls cveUrls : List String} (restart state : UInt32)
    (hpkgId : TextFits pkgId) (hupdates : TextsFit updates) (hobsoletes : TextsFit obsoletes)
    (hvendorUrls : TextsFit vendorUrls) (hbugzillaUrls : TextsFit bugzillaUrls)
    (hcveUrls : TextsFit cveUrls) (hupdateText : TextFits updateText)
    (hchangelog : TextFits changelog) (hissued : TextFits issued) (hupdated : TextFits updated) :
    (handle ((Signal.updateDetail pkgId updates obsoletes vendorUrls bugzillaUrls cveUrls restart
        updateText changelog state issued updated).map Utf8.bytes)).map postedReading =
      (signalEvents (.updateDetail pkgId updates obsoletes vendorUrls bugzillaUrls cveUrls restart
        updateText changelog state issued updated)).map StreamEvent.asReading := by
  refine congrArg (fun r ↦ [r]) (reading_eq_of_agrees (s := .updateDetails) ?_ ?_)
  · simp only [Transmissible, FieldsFit, Glz.Meta.fields, List.forall_mem_cons]
    exact ⟨fits_text hpkgId, fits_texts hupdates, fits_texts hobsoletes, fits_texts hvendorUrls,
      fits_texts hbugzillaUrls, fits_texts hcveUrls, trivial, fits_text hupdateText,
      fits_text hchangelog, trivial, fits_text hissued, fits_text hupdated, List.forall_mem_nil _⟩
  · intro w hw
    obtain ⟨_, _, _, _, _, _, _, _, _, _, _, _⟩ := w
    obtain ⟨h₁, h₂, h₃, h₄, h₅, h₆, h₇, h₈, h₉, h₁₀, h₁₁, h₁₂⟩ := hw
    obtain rfl := decoded_text hpkgId h₁
    obtain rfl := decoded_texts hupdates h₂
    obtain rfl := decoded_texts hobsoletes h₃
    obtain rfl := decoded_texts hvendorUrls h₄
    obtain rfl := decoded_texts hbugzillaUrls h₅
    obtain rfl := decoded_texts hcveUrls h₆
    obtain rfl := decoded_text hupdateText h₈
    obtain rfl := decoded_text hchangelog h₉
    obtain rfl := decoded_text hissued h₁₁
    obtain rfl := decoded_text hupdated h₁₂
    simp only [Decoded] at h₇ h₁₀
    rw [h₇, h₁₀]

theorem reading_repoDetail {repoId desc : String} (hrepoId : TextFits repoId)
    (hdesc : TextFits desc) (enabled : Bool) :
    postedReading (onRepoDetail (Utf8.bytes repoId) (Utf8.bytes desc) enabled) =
      StreamEvent.asReading
        ⟨.repoDetails, { repoId := repoId, description := desc, enabled := enabled }⟩ := by
  refine reading_eq_of_agrees (s := .repoDetails) ?_ ?_
  · simp only [Transmissible, FieldsFit, Glz.Meta.fields, List.forall_mem_cons]
    exact ⟨fits_text hrepoId, fits_text hdesc, trivial, List.forall_mem_nil _⟩
  · intro w hw
    obtain ⟨_, _, _⟩ := w
    obtain ⟨h₁, h₂, h₃⟩ := hw
    obtain rfl := decoded_text hrepoId h₁
    obtain rfl := decoded_text hdesc h₂
    simp only [Decoded] at h₃
    rw [h₃]

theorem reading_repoSignatureRequired
    {pkgId repoName keyUrl keyUserid keyId fingerprint timestamp : String} (type : UInt32)
    (hpkgId : TextFits pkgId) (hrepoName : TextFits repoName) (hkeyUrl : TextFits keyUrl)
    (hkeyUserid : TextFits keyUserid) (hkeyId : TextFits keyId)
    (hfingerprint : TextFits fingerprint) (htimestamp : TextFits timestamp) :
    (handle ((Signal.repoSignatureRequired pkgId repoName keyUrl keyUserid keyId fingerprint
        timestamp type).map Utf8.bytes)).map postedReading =
      (signalEvents (.repoSignatureRequired pkgId repoName keyUrl keyUserid keyId fingerprint
        timestamp type)).map StreamEvent.asReading := by
  refine congrArg (fun r ↦ [r]) (reading_eq_of_agrees (s := .repoSigRequired) ?_ ?_)
  · simp only [Transmissible, FieldsFit, Glz.Meta.fields, List.forall_mem_cons]
    exact ⟨fits_text hpkgId, fits_text hrepoName, fits_text hkeyUrl, fits_text hkeyUserid,
      fits_text hkeyId, fits_text hfingerprint, fits_text htimestamp, trivial,
      List.forall_mem_nil _⟩
  · intro w hw
    obtain ⟨_, _, _, _, _, _, _, _⟩ := w
    obtain ⟨h₁, h₂, h₃, h₄, h₅, h₆, h₇, h₈⟩ := hw
    obtain rfl := decoded_text hpkgId h₁
    obtain rfl := decoded_text hrepoName h₂
    obtain rfl := decoded_text hkeyUrl h₃
    obtain rfl := decoded_text hkeyUserid h₄
    obtain rfl := decoded_text hkeyId h₅
    obtain rfl := decoded_text hfingerprint h₆
    obtain rfl := decoded_text htimestamp h₇
    simp only [Decoded] at h₈
    rw [h₈]

theorem reading_eulaRequired {eulaId pkgId vendor license : String} (heulaId : TextFits eulaId)
    (hpkgId : TextFits pkgId) (hvendor : TextFits vendor) (hlicense : TextFits license) :
    (handle ((Signal.eulaRequired eulaId pkgId vendor license).map Utf8.bytes)).map postedReading =
      (signalEvents (.eulaRequired eulaId pkgId vendor license)).map StreamEvent.asReading := by
  refine congrArg (fun r ↦ [r]) (reading_eq_of_agrees (s := .eulaRequired) ?_ ?_)
  · simp only [Transmissible, FieldsFit, Glz.Meta.fields, List.forall_mem_cons]
    exact ⟨fits_text heulaId, fits_text hpkgId, fits_text hvendor, fits_text hlicense,
      List.forall_mem_nil _⟩
  · intro w hw
    obtain ⟨_, _, _, _⟩ := w
    obtain ⟨h₁, h₂, h₃, h₄⟩ := hw
    obtain rfl := decoded_text heulaId h₁
    obtain rfl := decoded_text hpkgId h₂
    obtain rfl := decoded_text hvendor h₃
    obtain rfl := decoded_text hlicense h₄
    rfl

theorem reading_files {pkgId : String} {fs : List String} (hpkgId : TextFits pkgId)
    (hfs : TextsFit fs) :
    postedReading (onFiles (Utf8.bytes pkgId) (fs.map Utf8.bytes)) =
      StreamEvent.asReading ⟨.files, { packageId := pkgId, files := fs }⟩ := by
  refine reading_eq_of_agrees (s := .files) ?_ ?_
  · simp only [Transmissible, FieldsFit, Glz.Meta.fields, List.forall_mem_cons]
    exact ⟨fits_text hpkgId, fits_texts hfs, List.forall_mem_nil _⟩
  · intro w hw
    obtain ⟨_, _⟩ := w
    obtain ⟨h₁, h₂⟩ := hw
    obtain rfl := decoded_text hpkgId h₁
    obtain rfl := decoded_texts hfs h₂
    rfl

theorem reading_errorCode {text : String} (htext : TextFits text) (code : UInt32) :
    postedReading (onErrorCode code (Utf8.bytes text)) =
      StreamEvent.asReading ⟨.errors, { code := code.toNat, details := text }⟩ := by
  refine reading_eq_of_agrees (s := .errors) ?_ ?_
  · simp only [Transmissible, FieldsFit, Glz.Meta.fields, List.forall_mem_cons]
    exact ⟨trivial, fits_text htext, List.forall_mem_nil _⟩
  · intro w hw
    obtain ⟨_, _⟩ := w
    obtain ⟨h₁, h₂⟩ := hw
    obtain rfl := decoded_text htext h₂
    simp only [Decoded] at h₁
    rw [h₁]

theorem reading_message {text : String} (htext : TextFits text) (type : UInt32) :
    postedReading (onMessage type (Utf8.bytes text)) =
      StreamEvent.asReading ⟨.messages, { type := type.toNat, details := text }⟩ := by
  refine reading_eq_of_agrees (s := .messages) ?_ ?_
  · simp only [Transmissible, FieldsFit, Glz.Meta.fields, List.forall_mem_cons]
    exact ⟨trivial, fits_text htext, List.forall_mem_nil _⟩
  · intro w hw
    obtain ⟨_, _⟩ := w
    obtain ⟨h₁, h₂⟩ := hw
    obtain rfl := decoded_text htext h₂
    simp only [Decoded] at h₁
    rw [h₁]

theorem reading_requireRestart {pkgId : String} (hpkgId : TextFits pkgId) (type : UInt32) :
    postedReading (onRequireRestart type (Utf8.bytes pkgId)) =
      StreamEvent.asReading ⟨.requireRestart, { type := type.toNat, packageId := pkgId }⟩ := by
  refine reading_eq_of_agrees (s := .requireRestart) ?_ ?_
  · simp only [Transmissible, FieldsFit, Glz.Meta.fields, List.forall_mem_cons]
    exact ⟨trivial, fits_text hpkgId, List.forall_mem_nil _⟩
  · intro w hw
    obtain ⟨_, _⟩ := w
    obtain ⟨h₁, h₂⟩ := hw
    obtain rfl := decoded_text hpkgId h₂
    simp only [Decoded] at h₁
    rw [h₁]

section Details

variable (data : List (String × Variant String))

def dictionaryBytes : List (CString × Variant CString) :=
  data.map (fun e ↦ (Utf8.bytes e.1, e.2.map Utf8.bytes))

theorem lookup_dictionaryBytes (key : String) :
    (dictionaryBytes data).lookup (Utf8.bytes key) =
      (data.lookup key).map (Variant.map Utf8.bytes) := by
  unfold dictionaryBytes
  induction data with
  | nil => rfl
  | cons e data ih =>
    obtain ⟨k, v⟩ := e
    by_cases hk : key = k
    · subst hk
      simp
    · have hne : Utf8.bytes key ≠ Utf8.bytes k := fun h ↦ hk (Utf8.bytes_injective h)
      simp only [List.map_cons, List.lookup_cons, beq_eq_false_iff_ne.mpr hne,
        beq_eq_false_iff_ne.mpr hk]
      exact ih

variable {data}

theorem getStr_dictionaryBytes {key : String}
    (h : ∀ v, data.lookup key = some v → ∃ s, v = .string s ∧ TextFits s) :
    getStr (dictionaryBytes data) key = some (Utf8.bytes (detailText data key)) ∧
      TextFits (detailText data key) := by
  unfold getStr detailText
  rw [lookup_dictionaryBytes]
  cases hlookup : data.lookup key with
  | none => exact ⟨rfl, ⟨by decide, by decide⟩⟩
  | some v =>
    obtain ⟨s, rfl, hs⟩ := h v hlookup
    exact ⟨rfl, hs⟩

theorem getU64_dictionaryBytes
    (h : ∀ v, data.lookup "size" = some v → ∃ n : UInt64, v = .uint64 n ∧ n.toNat < 2 ^ 63) :
    getU64 (dictionaryBytes data) "size" = some (detailWord data "size") ∧
      (detailWord data "size").toNat < 2 ^ 63 := by
  unfold getU64 detailWord
  rw [lookup_dictionaryBytes]
  cases hlookup : data.lookup "size" with
  | none => exact ⟨rfl, by decide⟩
  | some v =>
    obtain ⟨n, rfl, hn⟩ := h v hlookup
    exact ⟨rfl, hn⟩

theorem decoded_word {n : UInt64} {z : ℤ} (hn : n.toNat < 2 ^ 63) (hz : Decoded .uint64 n z) :
    z = n.toNat := by
  have hlt : 2 * n.toBitVec.toNat < 2 ^ 64 := by
    have h : n.toBitVec.toNat = n.toNat := rfl
    omega
  rw [Decoded, BitVec.toInt_eq_toNat_of_lt hlt] at hz
  exact hz

theorem reading_details (h : DetailsFit data) :
    (onDetails (dictionaryBytes data)).toList.map postedReading =
      (signalEvents (.details data)).map StreamEvent.asReading := by
  obtain ⟨hpackageId, hid⟩ := getStr_dictionaryBytes (h.texts "package-id" (by simp))
  obtain ⟨hsummary, hsummary'⟩ := getStr_dictionaryBytes (h.texts "summary" (by simp))
  obtain ⟨hdescription, hdescription'⟩ := getStr_dictionaryBytes (h.texts "description" (by simp))
  obtain ⟨hurl, hurl'⟩ := getStr_dictionaryBytes (h.texts "url" (by simp))
  obtain ⟨hlicense, hlicense'⟩ := getStr_dictionaryBytes (h.texts "license" (by simp))
  obtain ⟨hgroup, hgroup'⟩ := getStr_dictionaryBytes (h.texts "group" (by simp))
  obtain ⟨hsize, hsize'⟩ := getU64_dictionaryBytes h.size
  obtain ⟨id, hparse⟩ := (PkPackageId.parse_isOk_iff _).mpr h.id
  let n : Native.PkDetails := {
    packageId := Utf8.bytes (detailText data "package-id")
    summary := Utf8.bytes (detailText data "summary")
    description := Utf8.bytes (detailText data "description")
    url := Utf8.bytes (detailText data "url")
    license := Utf8.bytes (detailText data "license")
    group := Utf8.bytes (detailText data "group")
    size := detailWord data "size" }
  have hfit : Transmissible .pkPackageDetail n := by
    refine ⟨?_, separators_bytes h.id⟩
    simp only [FieldsFit, Glz.Meta.fields, List.forall_mem_cons]
    exact ⟨fits_text hid, fits_text hsummary', fits_text hdescription', fits_text hurl',
      fits_text hlicense', fits_text hgroup', trivial, List.forall_mem_nil _⟩
  have hvalue (w : PkPackageDetail) (hw : Agrees .pkPackageDetail n w) :
      w = detailsEvent data id := by
    obtain ⟨_, _, _, _, _, _, _⟩ := w
    obtain ⟨h₁, h₂, h₃, h₄, h₅, h₆, h₇⟩ := hw
    have hd := decoded_id hid h₁
    rw [hparse, Except.ok.injEq] at hd
    obtain rfl := hd
    obtain rfl := decoded_text hsummary' h₂
    obtain rfl := decoded_text hdescription' h₃
    obtain rfl := decoded_text hurl' h₄
    obtain rfl := decoded_text hlicense' h₅
    obtain rfl := decoded_text hgroup' h₆
    obtain rfl := decoded_word hsize' h₇
    rfl
  have hpost : onDetails (dictionaryBytes data) = some (post kDetails n) := by
    simp only [onDetails, hpackageId, hsummary, hdescription, hurl, hlicense, hgroup, hsize]
    rfl
  have hevents : signalEvents (.details data) = [⟨.details, detailsEvent data id⟩] := by
    simp only [signalEvents, hparse, Except.toOption, Option.toList_some, List.map_cons,
      List.map_nil]
  rw [hpost, hevents]
  exact congrArg (fun r ↦ [r]) (reading_eq_of_agrees (s := .details) hfit hvalue)

end Details

theorem reading_handle {sg : Signal String} (h : Deliverable sg) :
    (handle (sg.map Utf8.bytes)).map postedReading =
      (signalEvents sg).map StreamEvent.asReading := by
  cases sg with
  | package info pkgId summary => exact reading_onPackage info h.1 h.2
  | packages ps =>
    induction ps with
    | nil => rfl
    | cons p ps ih =>
      have hp := reading_onPackage p.1 (h p List.mem_cons_self).1 (h p List.mem_cons_self).2
      have hrest := ih (fun q hq ↦ h q (List.mem_cons_of_mem p hq))
      simp only [signalEvents, List.flatMap_cons, List.map_append] at hrest ⊢
      rw [← hp, ← hrest]
      rfl
  | progress pkgId status pct => exact congrArg (fun r ↦ [r]) (reading_progress h status pct false)
  | itemProgress id status pct => exact congrArg (fun r ↦ [r]) (reading_progress h status pct true)
  | statusChanged status =>
    have hempty : TextFits "" := ⟨by decide, by decide⟩
    exact congrArg (fun r ↦ [r]) (reading_progress hempty status 101 false)
  | details data => exact reading_details h
  | updateDetail pkgId updates obsoletes vendorUrls bugzillaUrls cveUrls restart updateText
      changelog state issued updated =>
    obtain ⟨h₁, h₂, h₃, h₄, h₅, h₆, h₇, h₈, h₉, h₁₀⟩ := h
    exact reading_updateDetail restart state h₁ h₂ h₃ h₄ h₅ h₆ h₇ h₈ h₉ h₁₀
  | repoDetail repoId desc enabled =>
    exact congrArg (fun r ↦ [r]) (reading_repoDetail h.1 h.2 enabled)
  | repoSignatureRequired pkgId repoName keyUrl keyUserid keyId fingerprint timestamp type =>
    obtain ⟨h₁, h₂, h₃, h₄, h₅, h₆, h₇⟩ := h
    exact reading_repoSignatureRequired type h₁ h₂ h₃ h₄ h₅ h₆ h₇
  | eulaRequired eulaId pkgId vendor license =>
    obtain ⟨h₁, h₂, h₃, h₄⟩ := h
    exact reading_eulaRequired h₁ h₂ h₃ h₄
  | files pkgId fs => exact congrArg (fun r ↦ [r]) (reading_files h.1 h.2)
  | errorCode code text => exact congrArg (fun r ↦ [r]) (reading_errorCode h code)
  | requireRestart type pkgId => exact congrArg (fun r ↦ [r]) (reading_requireRestart h type)
  | message type text => exact congrArg (fun r ↦ [r]) (reading_message h type)
  | finished exitCode runtime => exact h.elim
  | destroy => rfl

theorem reading_eventPosts {signals : List (Signal String)} (h : ∀ sg ∈ signals, Deliverable sg) :
    (eventPosts (signals.map (Signal.map Utf8.bytes))).map postedReading =
      (signals.flatMap signalEvents).map StreamEvent.asReading := by
  induction signals with
  | nil => rfl
  | cons sg signals ih =>
    have hsg := reading_handle (h sg List.mem_cons_self)
    have hrest := ih (fun x hx ↦ h x (List.mem_cons_of_mem sg hx))
    simp only [eventPosts, List.map_cons, List.flatMap_cons, List.map_append] at hrest ⊢
    rw [hsg, hrest]

theorem quiet_asReading (e : StreamEvent) :
    e.asReading.closes = false ∧ e.asReading.verdict lateOutcome false = none := ⟨rfl, rfl⟩

theorem fresh_of_events {msgs : List Posted} {events : List StreamEvent}
    (h : msgs.map postedReading = events.map StreamEvent.asReading) (exitCode runtime : UInt32) :
    ∃ d, TransactionDispatcher.deliverAll {}
        ((msgs ++ postFinished exitCode runtime).map arrived) = .ok d ∧
      (∀ s, (d.streams s).events = events.filterMap (StreamEvent.on? s)) ∧
      (∀ s, (d.streams s).isClosed = true) ∧
      d.done.outcome = some (finishedOutcome ⟨exitCode.toNat, runtime.toNat⟩) := by
  have hread : ((msgs ++ postFinished exitCode runtime).map arrived).map reading =
      events.map StreamEvent.asReading ++
        [.final (finishedOutcome ⟨exitCode.toNat, runtime.toNat⟩), .stop] := by
    rw [map_reading_arrived, List.map_append]
    refine congrArg₂ (· ++ ·) h ?_
    exact congrArg (fun r ↦ [r, Item.stop]) (reading_finishedMessage exitCode runtime)
  have hquiet : ∀ i ∈ events.map StreamEvent.asReading,
      i.closes = false ∧ i.verdict lateOutcome false = none := by
    intro i hi
    obtain ⟨e, _, rfl⟩ := List.mem_map.mp hi
    exact quiet_asReading e
  obtain ⟨d, hd, hu, hout, hfin, hres⟩ := TransactionDispatcher.deliverAll_fresh
    ((msgs ++ postFinished exitCode runtime).map arrived)
  refine ⟨d, hd, ?_, ?_, ?_⟩
  · intro s
    rw [hout s, hread, live_append (fun i hi ↦ (hquiet i hi).1), List.filterMap_append,
      List.filterMap_map]
    exact List.append_nil _
  · intro s
    rw [hu s, hfin, ← any_closes_map, hread]
    simp [Item.closes]
  · rw [hres, hread, firstVerdict_append, firstVerdict_of_quiet lateOutcome hquiet, Option.none_or]
    simp [firstVerdict, Item.verdict]

def packageIds : Signal String → List String
  | .package _ pkgId _ => [pkgId]
  | .packages ps => ps.map (fun p ↦ p.2.1)
  | _ => []

def detailIds : Signal String → List String
  | .details data => [detailText data "package-id"]
  | _ => []

theorem packageIds_events {sg : Signal String} (h : Deliverable sg) :
    ((signalEvents sg).filterMap (StreamEvent.on? .packages)).map (fun p ↦ p.id.raw) =
      packageIds sg := by
  have hpackage (info : UInt32) (pkgId summary : String) (hid : IdFits pkgId) :
      ((packageEvent info pkgId summary).filterMap (StreamEvent.on? .packages)).map
        (fun p ↦ p.id.raw) = [pkgId] := by
    obtain ⟨id, hparse⟩ := (PkPackageId.parse_isOk_iff pkgId).mpr hid.separators
    rw [packageEvent, hparse]
    exact congrArg (fun r ↦ [r]) (PkPackageId.raw_of_parse hparse)
  cases sg with
  | package info pkgId summary => exact hpackage info pkgId summary h.1
  | packages ps =>
    induction ps with
    | nil => rfl
    | cons p ps ih =>
      have hp := hpackage p.1 p.2.1 p.2.2 (h p List.mem_cons_self).1
      have hrest := ih (fun q hq ↦ h q (List.mem_cons_of_mem p hq))
      simp only [signalEvents, List.flatMap_cons, List.filterMap_append, List.map_append] at hrest ⊢
      rw [hp, hrest]
      rfl
  | details data =>
    simp only [signalEvents, packageIds, List.filterMap_map, List.map_eq_nil_iff,
      List.filterMap_eq_nil_iff]
    intro id _
    rfl
  | finished exitCode runtime => exact h.elim
  | _ => rfl

theorem detailIds_events {sg : Signal String} (h : Deliverable sg) :
    ((signalEvents sg).filterMap (StreamEvent.on? .details)).map (fun p ↦ p.id.raw) =
      detailIds sg := by
  have hpackage (info : UInt32) (pkgId summary : String) :
      (packageEvent info pkgId summary).filterMap (StreamEvent.on? .details) = [] := by
    simp only [packageEvent, List.filterMap_map, List.filterMap_eq_nil_iff]
    intro id _
    rfl
  cases sg with
  | package info pkgId summary => exact congrArg (List.map _) (hpackage info pkgId summary)
  | packages ps =>
    have hnone : (signalEvents (.packages ps)).filterMap (StreamEvent.on? .details) = [] := by
      simp only [signalEvents, List.filterMap_flatMap, hpackage, List.flatMap_eq_nil_iff]
      intro p _
      trivial
    rw [hnone]
    rfl
  | details data =>
    obtain ⟨id, hparse⟩ := (PkPackageId.parse_isOk_iff _).mpr h.id
    rw [signalEvents, hparse]
    exact congrArg (fun r ↦ [r]) (PkPackageId.raw_of_parse hparse)
  | finished exitCode runtime => exact h.elim
  | _ => rfl

/-- Every signal reaches the streams of its own events, in order, whatever the mix, and each word
of an enumeration arrives as the member it stands for. -/
theorem faithful_delivery (signals : List (Signal String))
    (h : ∀ sg ∈ signals, Deliverable sg) (exitCode runtime : UInt32) :
    (∀ v, StandsFor PkInfo.value .unknown v (PkInfo.fromInt v)) ∧
      (∀ v, StandsFor PkStatus.value .unknown v (PkStatus.fromInt v)) ∧
      (∀ v, StandsFor PkExit.value .unknown v (PkExit.fromInt v)) ∧
    ∃ d, TransactionDispatcher.deliverAll {}
        ((eventPosts ((signals ++ [Signal.finished exitCode runtime]).map
          (Signal.map Utf8.bytes))).map arrived) = .ok d ∧
      (∀ s, (d.streams s).events = (signals.flatMap signalEvents).filterMap (StreamEvent.on? s)) ∧
      (d.streams .packages).events.map (fun p ↦ p.id.raw) = signals.flatMap packageIds ∧
      (d.streams .details).events.map (fun p ↦ p.id.raw) = signals.flatMap detailIds ∧
      (∀ s, (d.streams s).isClosed = true) ∧
      d.done.outcome = some (if exitCode = 1 then
          .ok { exit := .success, runtimeMs := runtime.toNat }
        else
          let exit := PkExit.fromInt exitCode.toNat
          .error (.transaction ("Transaction failed: " ++ exit.name) exit runtime.toNat)) := by
  refine ⟨fun v ↦ PkInfo.fromInt_eq_iff.mp rfl, fun v ↦ PkStatus.fromInt_eq_iff.mp rfl,
    fun v ↦ PkExit.fromInt_eq_iff.mp rfl, ?_⟩
  obtain ⟨d, hd, hout, hclosed, hres⟩ := fresh_of_events (reading_eventPosts h) exitCode runtime
  have hposts : eventPosts ((signals ++ [Signal.finished exitCode runtime]).map
      (Signal.map Utf8.bytes)) =
      eventPosts (signals.map (Signal.map Utf8.bytes)) ++ postFinished exitCode runtime := by
    simp [eventPosts, Signal.map, handle, onFinished]
  rw [← hposts] at hd
  refine ⟨d, hd, hout, ?_, ?_, hclosed, ?_⟩
  · rw [hout, List.filterMap_flatMap, List.map_flatMap]
    exact List.flatMap_congr (fun sg hsg ↦ packageIds_events (h sg hsg))
  · rw [hout, List.filterMap_flatMap, List.map_flatMap]
    exact List.flatMap_congr (fun sg hsg ↦ detailIds_events (h sg hsg))
  · rw [hres]
    have hone : exitCode = 1 ↔ PkExit.fromInt exitCode.toNat = .success := by
      rw [PkExit.fromInt_eq_success, ← UInt32.toNat_inj]
      rfl
    by_cases hexit : PkExit.fromInt exitCode.toNat = .success
    · rw [if_pos (hone.mpr hexit), finishedOutcome, if_pos hexit, hexit]
    · rw [if_neg (fun h1 ↦ hexit (hone.mp h1)), finishedOutcome, if_neg hexit]

theorem faithful_delivery_vim :
    ∃ d, TransactionDispatcher.deliverAll {}
        ((eventPosts (([Signal.package 2 "vim;9.1;x86_64;core" "editor", .statusChanged 3] ++
          [Signal.finished 1 5]).map (Signal.map Utf8.bytes))).map arrived) = .ok d ∧
      (d.streams .packages).events.map (fun p ↦ p.id.raw) = ["vim;9.1;x86_64;core"] ∧
      d.done.outcome = some (.ok { exit := .success, runtimeMs := 5 }) := by
  have hid : IdFits "vim;9.1;x86_64;core" :=
    { size := by decide, head := by decide, separators := by decide }
  have hsummary : TextFits "editor" := ⟨by decide, by decide⟩
  have hall : ∀ sg ∈ [Signal.package 2 "vim;9.1;x86_64;core" "editor", .statusChanged 3],
      Deliverable sg :=
    List.forall_mem_cons.mpr ⟨⟨hid, hsummary⟩, List.forall_mem_singleton.mpr trivial⟩
  obtain ⟨-, -, -, d, hd, _, hids, _, _, hres⟩ := faithful_delivery _ hall 1 5
  exact ⟨d, hd, hids, hres⟩

end PackageKitDart.Client
