import PackageKitDart.Client.PostedReadings

namespace PackageKitDart.Client

open Dart LatchedDemux Native PkTransactionBridge

/-- `toNativeUtf8`: the string in UTF-8 and a NUL behind it. -/
def toNativeUtf8 (s : String) : List UInt8 := Utf8.bytes s ++ [0]

/-- What a Dart `int` becomes when it is passed as `Int32`. -/
@[irreducible]
def int32 (n : ℕ) : ℤ := (n : ℤ).bmod (2 ^ 32)

namespace PkBindings

/-- The memory that the pointers in the array point to. -/
def allocStringArray (strings : List String) : List (List UInt8) := strings.map toNativeUtf8

/-- The bridge function is called with the array and its length, and puts the
vector it makes of them where `op` has it. -/
def callIds (op : List CString → Operation) (ids : List String) : Option Operation :=
  (toVec (allocStringArray ids) (int32 ids.length)).map op

def resolve (filter : UInt64) : List String → Option Operation := callIds (.resolve filter)

def getDetails : List String → Option Operation := callIds .getDetails

def getUpdateDetail : List String → Option Operation := callIds .getUpdateDetail

def getFiles : List String → Option Operation := callIds .getFiles

def dependsOn (filter : UInt64) (ids : List String) (recursive : Bool) : Option Operation :=
  callIds (.dependsOn filter · recursive) ids

def requiredBy (filter : UInt64) (ids : List String) (recursive : Bool) : Option Operation :=
  callIds (.requiredBy filter · recursive) ids

def installPackages (flags : UInt64) : List String → Option Operation :=
  callIds (.installPackages flags)

def removePackages (flags : UInt64) (ids : List String) (allowDeps autoremove : Bool) :
    Option Operation :=
  callIds (.removePackages flags · allowDeps autoremove) ids

def updatePackages (flags : UInt64) : List String → Option Operation :=
  callIds (.updatePackages flags)

def downloadPackages (storeInCache : Bool) : List String → Option Operation :=
  callIds (.downloadPackages storeInCache)

/-- `_callStringList` does the same with other lists of strings. -/
def searchName (filter : UInt64) : List String → Option Operation := callIds (.searchName filter)

def searchDetails (filter : UInt64) : List String → Option Operation :=
  callIds (.searchDetails filter)

def searchFiles (filter : UInt64) : List String → Option Operation := callIds (.searchFiles filter)

def whatProvides (filter : UInt64) : List String → Option Operation :=
  callIds (.whatProvides filter)

def installFiles (flags : UInt64) : List String → Option Operation := callIds (.installFiles flags)

def getPackages (filter : UInt64) : Option Operation := some (.getPackages filter)

def getUpdates (filter : UInt64) : Option Operation := some (.getUpdates filter)

def getRepoList (filter : UInt64) : Option Operation := some (.getRepoList filter)

def getDistroUpgrades : Option Operation := some .getDistroUpgrades

def refreshCache (force : Bool) : Option Operation := some (.refreshCache force)

/-- The bridge makes a `std::string` of the memory that is passed. -/
def repoEnable (repoId : String) (enabled : Bool) : Option Operation :=
  some (.repoEnable (ofCStr (toNativeUtf8 repoId)) enabled)

def acceptEula (eulaId : String) : Option Operation :=
  some (.acceptEula (ofCStr (toNativeUtf8 eulaId)))

end PkBindings

/-- The bindings that take package ids, with their other arguments. -/
inductive IdOperation
  | resolve (filter : UInt64)
  | getDetails
  | getUpdateDetail
  | getFiles
  | dependsOn (filter : UInt64) (recursive : Bool)
  | requiredBy (filter : UInt64) (recursive : Bool)
  | installPackages (flags : UInt64)
  | removePackages (flags : UInt64) (allowDeps autoremove : Bool)
  | updatePackages (flags : UInt64)
  | downloadPackages (storeInCache : Bool)

namespace IdOperation

def call (ids : List String) : IdOperation → Option Operation
  | .resolve filter => PkBindings.resolve filter ids
  | .getDetails => PkBindings.getDetails ids
  | .getUpdateDetail => PkBindings.getUpdateDetail ids
  | .getFiles => PkBindings.getFiles ids
  | .dependsOn filter recursive => PkBindings.dependsOn filter ids recursive
  | .requiredBy filter recursive => PkBindings.requiredBy filter ids recursive
  | .installPackages flags => PkBindings.installPackages flags ids
  | .removePackages flags allowDeps autoremove =>
    PkBindings.removePackages flags ids allowDeps autoremove
  | .updatePackages flags => PkBindings.updatePackages flags ids
  | .downloadPackages storeInCache => PkBindings.downloadPackages storeInCache ids

end IdOperation

/-- The vectors of strings that a bridge function hands to D-Bus. -/
def vectors (effects : Effects) : List (List CString) :=
  effects.sent.flatMap (fun c ↦ c.1.arguments.filterMap
    (fun | .strings values => some values | _ => none))

/-- What is made of the array, once it is made, is the only vector that is handed over. -/
theorem vectors_call (op : IdOperation) (ids : List String) (outcome : CallOutcome) :
    (op.call ids).map (fun operation ↦ vectors (pkOperation operation outcome)) =
      (toVec (PkBindings.allocStringArray ids) (int32 ids.length)).map (fun v ↦ [v]) := by
  have hop (f : List CString → Operation) (hf : ∀ v, vectors (pkOperation (f v) outcome) = [v]) :
      (PkBindings.callIds f ids).map (fun operation ↦ vectors (pkOperation operation outcome)) =
        (toVec (PkBindings.allocStringArray ids) (int32 ids.length)).map (fun v ↦ [v]) := by
    rw [PkBindings.callIds, Option.map_map]
    exact congrArg (Option.map · _) (funext hf)
  cases op <;> exact hop _ (fun _ ↦ rfl)

theorem ofCStr_toNativeUtf8 {s : String} (h : 0 ∉ Utf8.bytes s) :
    ofCStr (toNativeUtf8 s) = Utf8.bytes s := by
  have hbytes : ∀ b ∈ Utf8.bytes s, decide (b ≠ 0) = true := by
    intro b hb
    exact decide_eq_true (ne_of_mem_of_not_mem hb h)
  rw [ofCStr, toNativeUtf8, List.takeWhile_append_of_pos hbytes]
  simp

theorem int32_lt (n : ℕ) : int32 n < 2 ^ 31 := by
  unfold int32
  exact Int.bmod_lt (by decide)

theorem int32_of_lt {n : ℕ} (h : n < 2 ^ 31) : int32 n = n := by
  unfold int32
  apply Int.bmod_eq_of_le <;> omega

/-- The bridge gets the strings back exactly when their number fits an `int`. -/
theorem toVec_allocStringArray {ids : List String} (h : ∀ s ∈ ids, 0 ∉ Utf8.bytes s) :
    toVec (PkBindings.allocStringArray ids) (int32 ids.length) = some (ids.map Utf8.bytes) ↔
      ids.length < 2 ^ 31 := by
  constructor
  · intro hvec
    have hlt := int32_lt ids.length
    rw [toVec] at hvec
    split at hvec
    · cases hvec
    · have hlen := congrArg List.length (Option.some.inj hvec)
      simp only [List.length_map, List.length_take, PkBindings.allocStringArray] at hlen
      omega
  · intro hfew
    have hnonneg : ¬ (ids.length : ℤ) < 0 := by omega
    have hall : (PkBindings.allocStringArray ids).length ≤ ids.length := by
      rw [PkBindings.allocStringArray, List.length_map]
    rw [int32_of_lt hfew, toVec, if_neg hnonneg, Int.toNat_natCast, List.take_of_length_le hall,
      PkBindings.allocStringArray, List.map_map]
    exact congrArg some (List.map_congr_left (fun s hs ↦ ofCStr_toNativeUtf8 (h s hs)))

/-- The packages that a signal announces. -/
def announced : Signal CString → List (UInt32 × CString × CString)
  | .package info pkgId summary => [(info, pkgId, summary)]
  | .packages packages => packages
  | _ => []

structure WellFormedId (id : CString) : Prop where
  utf8 : Utf8.Valid id
  noNul : 0 ∉ id
  noBom : ¬ Utf8.bom <+: id
  parts : id.count 0x3B = 3

/-- A package with a well-formed id and texts as D-Bus has them. -/
structure Announceable (p : UInt32 × CString × CString) : Prop where
  id : WellFormedId p.2.1
  idFits : Fits .string p.2.1
  summaryFits : Fits .string p.2.2

/-- The package an item of the `packages` stream is about. -/
def packageOf (m : Posted) : Option PkPackage := (postedReading m).at? .packages

theorem reading_announceable {p : UInt32 × CString × CString} (h : Announceable p) :
    ∃ v : PkPackage, postedReading (onPackage p.1 p.2.1 p.2.2) = .data .packages v ∧
      Utf8.bytes v.id.raw = p.2.1 := by
  have hfit : Transmissible .pkPackage { info := p.1, packageId := p.2.1, summary := p.2.2 } := by
    refine ⟨?_, h.id.parts⟩
    simp only [FieldsFit, Glz.Meta.fields, List.forall_mem_cons]
    exact ⟨trivial, h.idFits, h.summaryFits, List.forall_mem_nil _⟩
  obtain ⟨v, hreading, hagrees⟩ := reading_posted (s := .packages) hfit
  obtain ⟨_, hid, _⟩ := hagrees
  obtain ⟨t, ht, hparse⟩ := hid
  refine ⟨v, hreading, ?_⟩
  rw [PkPackageId.raw_of_parse hparse, bytes_of_utf8Decode ht]
  rcases dropBom_eq p.2.1 with hbom | ⟨rest, hbom, _⟩
  · exact hbom
  · exact absurd ⟨rest, hbom.symm⟩ h.id.noBom

theorem head_of_packageOf {m : Posted} {v : PkPackage} (h : packageOf m = some v) :
    m.head? = some kPackage := by
  obtain ⟨hget, -⟩ := data_of_reading (Item.data_of_at? h)
  cases m with
  | nil => cases hget
  | cons disc bs => exact congrArg some (Except.ok.inj hget)

theorem handle_announced {sg : Signal CString} (h : announced sg ≠ []) :
    handle sg = (announced sg).map (fun p ↦ onPackage p.1 p.2.1 p.2.2) := by
  cases sg with
  | package info pkgId summary => rfl
  | packages packages => rfl
  | _ => exact absurd rfl h

/-- No other signal is posted under the discriminator of a package. -/
theorem head_of_unannounced {sg : Signal CString} (h : announced sg = []) {m : Posted}
    (hm : m ∈ handle sg) : m.head? ≠ some kPackage := by
  cases sg with
  | package info pkgId summary => cases h
  | packages packages =>
    have hnone : packages = [] := h
    subst hnone
    cases hm
  | details data =>
    obtain ⟨rfl, _⟩ := onDetails_eq_some_iff.mp (Option.mem_toList.mp hm)
    intro hhead
    exact absurd (Option.some.inj hhead) (by decide)
  | finished exitCode runtime =>
    intro hhead
    rcases List.mem_pair.mp hm with rfl | rfl
    · exact absurd (Option.some.inj hhead) (by decide)
    · exact absurd (Option.some.inj hhead) (by decide)
  | destroy => cases hm
  | _ =>
    obtain rfl := List.mem_singleton.mp hm
    intro hhead
    exact absurd (Option.some.inj hhead) (by decide)

theorem packageOf_of_unannounced {sg : Signal CString} (h : announced sg = []) {m : Posted}
    (hm : m ∈ handle sg) : packageOf m = none := by
  cases hpackage : packageOf m with
  | none => rfl
  | some v => exact absurd (head_of_packageOf hpackage) (head_of_unannounced h hm)

/-- The ids in the packages that the client gets, in UTF-8. -/
def rawIds (packages : List PkPackage) : List CString :=
  packages.map (fun p ↦ Utf8.bytes p.id.raw)

theorem rawIds_posted {ps : List (UInt32 × CString × CString)} (h : ∀ p ∈ ps, Announceable p) :
    rawIds ((ps.map (fun p ↦ onPackage p.1 p.2.1 p.2.2)).filterMap packageOf) =
      ps.map (fun p ↦ p.2.1) := by
  induction ps with
  | nil => rfl
  | cons p ps ih =>
    obtain ⟨hp, hps⟩ := List.forall_mem_cons.mp h
    obtain ⟨v, hreading, hraw⟩ := reading_announceable hp
    have hpackage : packageOf (onPackage p.1 p.2.1 p.2.2) = some v := by
      rw [packageOf, hreading]
      exact Item.at?_data_self _ _
    rw [List.map_cons, List.filterMap_cons_some hpackage, rawIds, List.map_cons, hraw,
      List.map_cons]
    exact congrArg _ (ih hps)

theorem rawIds_handle {sg : Signal CString} (h : ∀ p ∈ announced sg, Announceable p) :
    rawIds ((handle sg).filterMap packageOf) = (announced sg).map (fun p ↦ p.2.1) := by
  by_cases hnone : announced sg = []
  · have hall : (handle sg).filterMap packageOf = [] :=
      List.filterMap_eq_nil_iff.mpr (fun m hm ↦ packageOf_of_unannounced hnone hm)
    rw [hall, hnone]
    rfl
  · rw [handle_announced hnone]
    exact rawIds_posted h

/-- A signal up to the last package: it announces packages that survive the round trip, or it
leaves the streams open. -/
structure Announces (sg : Signal CString) : Prop where
  announceable : ∀ p ∈ announced sg, Announceable p
  keepsOpen : announced sg = [] → ∀ m ∈ handle sg, closing (arrived m) = false

def announcedIds (signals : List (Signal CString)) : List CString :=
  signals.flatMap (fun sg ↦ (announced sg).map (fun p ↦ p.2.1))

section Received

variable {signals rest : List (Signal CString)}

theorem rawIds_eventPosts (h : ∀ sg ∈ signals, Announces sg) :
    rawIds ((eventPosts signals).filterMap packageOf) = announcedIds signals := by
  induction signals with
  | nil => rfl
  | cons sg signals ih =>
    obtain ⟨hsg, hsignals⟩ := List.forall_mem_cons.mp h
    rw [eventPosts, List.flatMap_cons, List.filterMap_append, rawIds, List.map_append,
      announcedIds, List.flatMap_cons]
    exact congrArg₂ _ (rawIds_handle hsg.announceable) (ih hsignals)

theorem open_eventPosts (h : ∀ sg ∈ signals, Announces sg) {m : Posted}
    (hm : m ∈ eventPosts signals) : (postedReading m).closes = false := by
  obtain ⟨sg, hsg, hm⟩ := List.mem_flatMap.mp hm
  by_cases hnone : announced sg = []
  · exact (h sg hsg).keepsOpen hnone m hm
  · rw [handle_announced hnone] at hm
    obtain ⟨p, hp, rfl⟩ := List.mem_map.mp hm
    obtain ⟨v, hreading, _⟩ := reading_announceable ((h sg hsg).announceable p hp)
    rw [hreading]
    rfl

/-- The `packages` stream brings the announced ids, byte for byte and in order, whatever comes
after the last of them: the daemon's Finished, or signals that fail to decode. -/
theorem received_ids (h : ∀ sg ∈ signals, Announces sg) (hrest : ∀ sg ∈ rest, announced sg = []) :
    ∃ d, TransactionDispatcher.deliverAll {} ((eventPosts (signals ++ rest)).map arrived) = .ok d ∧
      rawIds (d.streams .packages).events = announcedIds signals := by
  obtain ⟨d, hd, _, hevents, _⟩ :=
    TransactionDispatcher.deliverAll_fresh ((eventPosts (signals ++ rest)).map arrived)
  have hsplit : (eventPosts (signals ++ rest)).map postedReading =
      (eventPosts signals).map postedReading ++ (eventPosts rest).map postedReading := by
    rw [eventPosts, List.flatMap_append, List.map_append]
    rfl
  have hopen : ∀ i ∈ (eventPosts signals).map postedReading, i.closes = false := by
    intro i hi
    obtain ⟨m, hm, rfl⟩ := List.mem_map.mp hi
    exact open_eventPosts h hm
  have hnone : (live ((eventPosts rest).map postedReading)).filterMap (Item.at? .packages) = [] := by
    refine List.filterMap_eq_nil_iff.mpr (fun i hi ↦ ?_)
    obtain ⟨m, hm, rfl⟩ := List.mem_map.mp ((List.takeWhile_sublist _).subset hi)
    obtain ⟨sg, hsg, hm⟩ := List.mem_flatMap.mp hm
    exact packageOf_of_unannounced (hrest sg hsg) hm
  refine ⟨d, hd, ?_⟩
  rw [hevents, map_reading_arrived, hsplit, live_append hopen, List.filterMap_append, hnone,
    List.append_nil, List.filterMap_map, ← rawIds_eventPosts h]
  rfl

end Received

section Passed

variable {signals : List (Signal CString)} {d : TransactionDispatcher}

theorem noNul_of_announced (h : ∀ sg ∈ signals, Announces sg) {id : CString}
    (hid : id ∈ announcedIds signals) : 0 ∉ id := by
  obtain ⟨sg, hsg, hid⟩ := List.mem_flatMap.mp hid
  obtain ⟨p, hp, rfl⟩ := List.mem_map.mp hid
  exact ((h sg hsg).announceable p hp).id.noNul

/-- The array made of received ids becomes the vector of these ids, if an `int` can count them. -/
theorem toVec_received (h : ∀ sg ∈ signals, Announces sg)
    (hids : rawIds (d.streams .packages).events = announcedIds signals) :
    toVec (PkBindings.allocStringArray ((d.streams .packages).events.map (fun p ↦ p.id.raw)))
        (int32 ((d.streams .packages).events.map (fun p ↦ p.id.raw)).length) =
      some (announcedIds signals) ↔ (announcedIds signals).length < 2 ^ 31 := by
  have hraw : ((d.streams .packages).events.map (fun p ↦ p.id.raw)).map Utf8.bytes =
      announcedIds signals := by
    rw [List.map_map]
    exact hids
  have hnul : ∀ s ∈ (d.streams .packages).events.map (fun p ↦ p.id.raw), 0 ∉ Utf8.bytes s := by
    intro s hs
    apply noNul_of_announced h
    rw [← hraw]
    exact List.mem_map_of_mem hs
  rw [← hraw, toVec_allocStringArray hnul]
  simp only [List.length_map]

end Passed

/-- A package id that went through the client comes back to the daemon as it was, also when the
run goes on after the last package, as it does with the daemon's Finished. -/
theorem ids_round_trip :
    (∀ signals rest : List (Signal CString), (∀ sg ∈ signals, Announces sg) →
      (∀ sg ∈ rest, announced sg = []) → (announcedIds signals).length < 2 ^ 31 →
      ∃ d, TransactionDispatcher.deliverAll {} ((eventPosts (signals ++ rest)).map arrived) =
          .ok d ∧
        ∀ op : IdOperation, ∃ operation,
          op.call ((d.streams .packages).events.map (fun p ↦ p.id.raw)) = some operation ∧
            ∀ outcome, vectors (pkOperation operation outcome) = [announcedIds signals]) ∧
      ∀ id : String, id.toList.count ';' ≠ 3 →
        PkPackageId.parse id = .error (.formatException ("Invalid package_id: " ++ id)) := by
  refine ⟨?_, fun id h ↦ PkPackageId.parse_error h⟩
  intro signals rest h hrest hfew
  obtain ⟨d, hd, hids⟩ := received_ids h hrest
  have hvec := (toVec_received h hids).mpr hfew
  refine ⟨d, hd, ?_⟩
  intro op
  have hcall (outcome : CallOutcome) := vectors_call op
    ((d.streams .packages).events.map (fun p ↦ p.id.raw)) outcome
  simp only [hvec, Option.map_some, Option.map_eq_some_iff] at hcall
  obtain ⟨operation, hop, _⟩ := hcall .returned
  refine ⟨operation, hop, ?_⟩
  intro outcome
  obtain ⟨operation', hop', hvectors⟩ := hcall outcome
  rw [hop] at hop'
  cases hop'
  exact hvectors

/-- A package whose version is empty. -/
def unversioned : UInt32 × CString × CString := (1, Utf8.bytes "vim;;x86_64;core", [])

def unversionedSignal : Signal CString :=
  .package unversioned.1 unversioned.2.1 unversioned.2.2

theorem announces_unversioned : Announces unversionedSignal where
  announceable p hp := by
    obtain rfl := List.mem_singleton.mp hp
    exact
      { id := ⟨Utf8.valid_bytes _, by decide, by decide, by decide⟩
        idFits := ⟨Utf8.valid_bytes _, by decide⟩
        summaryFits := ⟨by decide, by decide⟩ }
  keepsOpen hnone := absurd hnone (List.cons_ne_nil _ _)

theorem announces_statusChanged (status : UInt32) : Announces (.statusChanged status) where
  announceable p hp := by cases hp
  keepsOpen _ m hm := by
    obtain rfl := List.mem_singleton.mp hm
    have hfit : Transmissible .pkProgress
        { packageId := [], status := status, percentage := 101, isItem := false } := by
      simp only [Transmissible, FieldsFit, Glz.Meta.fields, List.forall_mem_cons]
      exact ⟨⟨by decide, by decide⟩, trivial, trivial, trivial, List.forall_mem_nil _⟩
    obtain ⟨v, hreading, _⟩ := reading_posted (s := .progress) hfit
    exact congrArg Item.closes hreading

theorem ids_round_trip_unversioned :
    (∃ d, TransactionDispatcher.deliverAll {} ((eventPosts
        ([.statusChanged 3, unversionedSignal, unversionedSignal] ++ [.finished 1 5])).map
          arrived) = .ok d ∧
      ∀ op : IdOperation, ∃ operation,
        op.call ((d.streams .packages).events.map (fun p ↦ p.id.raw)) = some operation ∧
          ∀ outcome, vectors (pkOperation operation outcome) =
            [[Utf8.bytes "vim;;x86_64;core", Utf8.bytes "vim;;x86_64;core"]]) ∧
      PkPackageId.parse "vim;;core" =
        .error (.formatException ("Invalid package_id: vim;;core")) := by
  refine ⟨?_, ids_round_trip.2 "vim;;core" (by decide)⟩
  apply ids_round_trip.1 [.statusChanged 3, unversionedSignal, unversionedSignal] [.finished 1 5]
  · simp only [List.forall_mem_cons]
    exact ⟨announces_statusChanged 3, announces_unversioned, announces_unversioned,
      List.forall_mem_nil _⟩
  · exact List.forall_mem_singleton.mpr rfl
  · decide

/-- The same package over and over. -/
def manySignals (n : ℕ) : List (Signal CString) := List.replicate n unversionedSignal

theorem announces_manySignals (n : ℕ) : ∀ sg ∈ manySignals n, Announces sg := by
  intro sg hsg
  rw [List.eq_of_mem_replicate hsg]
  exact announces_unversioned

theorem announcedIds_manySignals (n : ℕ) :
    announcedIds (manySignals n) = List.replicate n unversioned.2.1 := by
  induction n with
  | zero => rfl
  | succ n ih =>
    rw [List.replicate_succ, ← ih]
    rfl

/-- With 2^31 ids the count turns negative, and no operation is started. -/
theorem too_many_ids :
    (∀ sg ∈ manySignals (2 ^ 31), Announces sg) ∧
      ∃ d, TransactionDispatcher.deliverAll {} ((eventPosts (manySignals (2 ^ 31))).map arrived) =
          .ok d ∧
        ∀ op : IdOperation,
          op.call ((d.streams .packages).events.map (fun p ↦ p.id.raw)) = none := by
  refine ⟨announces_manySignals _, ?_⟩
  obtain ⟨d, hd, hids⟩ :=
    received_ids (announces_manySignals (2 ^ 31)) (List.forall_mem_nil (announced · = []))
  rw [List.append_nil] at hd
  refine ⟨d, hd, ?_⟩
  intro op
  have hlen : ((d.streams .packages).events.map (fun p ↦ p.id.raw)).length = 2 ^ 31 := by
    have hlen := congrArg List.length hids
    rw [announcedIds_manySignals, List.length_replicate] at hlen
    rw [List.length_map, ← hlen]
    exact (List.length_map _).symm
  have hcount : int32 (2 ^ 31) < 0 := by
    unfold int32
    decide
  have hcall := vectors_call op
    ((d.streams .packages).events.map (fun p ↦ p.id.raw)) .returned
  rw [hlen, toVec, if_pos hcount] at hcall
  exact Option.map_eq_none_iff.mp hcall

end PackageKitDart.Client
