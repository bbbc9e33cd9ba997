import PackageKitDart.Client.ClientOperations

namespace PackageKitDart.Native.Operation

def mapFlags (f : UInt64 → UInt64) : Operation → Operation
  | .installPackages flags ids => .installPackages (f flags) ids
  | .removePackages flags ids allowDeps autoremove =>
    .removePackages (f flags) ids allowDeps autoremove
  | .updatePackages flags ids => .updatePackages (f flags) ids
  | .installFiles flags paths => .installFiles (f flags) paths
  | op => op

/-- The operation carries the bit of `PkTransactionFlag.simulate`. -/
def simulates : Operation → Bool
  | .installPackages flags _ | .removePackages flags _ _ _ | .updatePackages flags _
  | .installFiles flags _ => flags.toNat.testBit 2
  | _ => false

end PackageKitDart.Native.Operation

namespace PackageKitDart.Client

open Dart Native

/-- What an argument of a D-Bus method stands for. -/
inductive ArgumentKind
  | filters | flags | texts | text | bool
  deriving DecidableEq

inductive Method
  | searchNames | searchDetails | searchFiles | getPackages | getUpdates | resolve | whatProvides
  | getDetails | getUpdateDetail | getFiles | getRepoList | dependsOn | requiredBy
  | getDistroUpgrades | installPackages | removePackages | updatePackages | refreshCache
  | downloadPackages | installFiles | repoEnable | acceptEula
  deriving DecidableEq

namespace Method

def name : Method → String
  | .searchNames => "SearchNames"
  | .searchDetails => "SearchDetails"
  | .searchFiles => "SearchFiles"
  | .getPackages => "GetPackages"
  | .getUpdates => "GetUpdates"
  | .resolve => "Resolve"
  | .whatProvides => "WhatProvides"
  | .getDetails => "GetDetails"
  | .getUpdateDetail => "GetUpdateDetail"
  | .getFiles => "GetFiles"
  | .getRepoList => "GetRepoList"
  | .dependsOn => "DependsOn"
  | .requiredBy => "RequiredBy"
  | .getDistroUpgrades => "GetDistroUpgrades"
  | .installPackages => "InstallPackages"
  | .removePackages => "RemovePackages"
  | .updatePackages => "UpdatePackages"
  | .refreshCache => "RefreshCache"
  | .downloadPackages => "DownloadPackages"
  | .installFiles => "InstallFiles"
  | .repoEnable => "RepoEnable"
  | .acceptEula => "AcceptEula"

def signature : Method → List ArgumentKind
  | .searchNames | .searchDetails | .searchFiles | .resolve | .whatProvides => [.filters, .texts]
  | .getPackages | .getUpdates | .getRepoList => [.filters]
  | .getDetails | .getUpdateDetail | .getFiles => [.texts]
  | .dependsOn | .requiredBy => [.filters, .texts, .bool]
  | .getDistroUpgrades => []
  | .installPackages | .updatePackages | .installFiles => [.flags, .texts]
  | .removePackages => [.flags, .texts, .bool, .bool]
  | .refreshCache => [.bool]
  | .downloadPackages => [.bool, .texts]
  | .repoEnable => [.text, .bool]
  | .acceptEula => [.text]

def all : List Method := [
  .searchNames, .searchDetails, .searchFiles, .getPackages, .getUpdates, .resolve, .whatProvides,
  .getDetails, .getUpdateDetail, .getFiles, .getRepoList, .dependsOn, .requiredBy,
  .getDistroUpgrades, .installPackages, .removePackages, .updatePackages, .refreshCache,
  .downloadPackages, .installFiles, .repoEnable, .acceptEula]

theorem mem_all (m : Method) : m ∈ all := by cases m <;> decide

theorem name_injective {m m' : Method} (h : m.name = m'.name) : m = m' := by
  have hnodup : (all.map name).Nodup := by decide
  exact List.inj_on_of_nodup_map hnodup (mem_all m) (mem_all m') h

end Method

/-- An argument as the caller gives it. -/
inductive Asked
  | filters (l : List PkFilter)
  | flags (l : List PkTransactionFlag)
  | texts (l : List String)
  | text (s : String)
  | bool (b : Bool)

namespace Asked

def kind : Asked → ArgumentKind
  | .filters _ => .filters
  | .flags _ => .flags
  | .texts _ => .texts
  | .text _ => .text
  | .bool _ => .bool

def wire : Asked → Argument
  | .filters l => .uint64 (uint64 (PkFilter.combine l))
  | .flags l => .uint64 (uint64 (PkTransactionFlag.combine l))
  | .texts l => .strings (l.map Utf8.bytes)
  | .text s => .string (Utf8.bytes s)
  | .bool b => .bool b

/-- Filters and flags count as sets, in which `none` is nothing. -/
def Same : Asked → Asked → Prop
  | .filters l, .filters l' => BitFlags.Same PkFilter.value l l'
  | .flags l, .flags l' => BitFlags.Same PkTransactionFlag.value l l'
  | .texts l, .texts l' => l = l'
  | .text s, .text s' => s = s'
  | .bool b, .bool b' => b = b'
  | _, _ => False

/-- No string is cut off at a NUL, and an `int` can count the strings. -/
def Passable : Asked → Prop
  | .texts l => l.length < 2 ^ 31 ∧ ∀ s ∈ l, 0 ∉ Utf8.bytes s
  | .text s => 0 ∉ Utf8.bytes s
  | .filters _ | .flags _ | .bool _ => True

theorem uint64_inj {n n' : ℕ} (hn : n < 2 ^ 64) (hn' : n' < 2 ^ 64) :
    uint64 n = uint64 n' ↔ n = n' := by
  constructor
  · intro h
    have hnat := congrArg UInt64.toNat h
    rwa [uint64, uint64, UInt64.toNat_ofNat_of_lt' hn, UInt64.toNat_ofNat_of_lt' hn'] at hnat
  · exact congrArg uint64

theorem wire_eq_iff {a b : Asked} (h : a.kind = b.kind) : a.wire = b.wire ↔ a.Same b := by
  cases a with
  | filters l =>
    cases b with
    | filters l' =>
      rw [wire, wire, Argument.uint64.injEq,
        uint64_inj (PkFilter.combine_lt l) (PkFilter.combine_lt l')]
      exact PkFilter.separate_value.combine_eq_iff
    | _ => cases h
  | flags l =>
    cases b with
    | flags l' =>
      rw [wire, wire, Argument.uint64.injEq,
        uint64_inj (PkTransactionFlag.combine_lt l) (PkTransactionFlag.combine_lt l')]
      exact PkTransactionFlag.separate_value.combine_eq_iff
    | _ => cases h
  | texts l =>
    cases b with
    | texts l' =>
      rw [wire, wire, Argument.strings.injEq]
      exact (List.map_injective_iff.mpr Utf8.bytes_injective).eq_iff
    | _ => cases h
  | text s =>
    cases b with
    | text s' =>
      rw [wire, wire, Argument.string.injEq]
      exact Utf8.bytes_injective.eq_iff
    | _ => cases h
  | bool b' =>
    cases b with
    | bool b'' =>
      rw [wire, wire, Argument.bool.injEq]
      rfl
    | _ => cases h

theorem map_wire_eq_iff {l l' : List Asked} (h : l.map kind = l'.map kind) :
    l.map wire = l'.map wire ↔ List.Forall₂ Same l l' := by
  induction l generalizing l' with
  | nil =>
    obtain rfl := List.map_eq_nil_iff.mp h.symm
    exact iff_of_true rfl .nil
  | cons a l ih =>
    cases l' with
    | nil => cases h
    | cons b l' =>
      obtain ⟨hkind, hkinds⟩ := List.cons.inj h
      rw [List.map_cons, List.map_cons, List.cons.injEq, wire_eq_iff hkind, ih hkinds,
        List.forall₂_cons]

end Asked

namespace Request

def method : Request → Method
  | .searchName _ _ => .searchNames
  | .searchDetails _ _ => .searchDetails
  | .searchFiles _ _ => .searchFiles
  | .getPackages _ => .getPackages
  | .getUpdates _ => .getUpdates
  | .resolve _ _ => .resolve
  | .whatProvides _ _ => .whatProvides
  | .getDetails _ => .getDetails
  | .getUpdateDetail _ => .getUpdateDetail
  | .getFiles _ => .getFiles
  | .getRepoList _ => .getRepoList
  | .dependsOn _ _ _ => .dependsOn
  | .requiredBy _ _ _ => .requiredBy
  | .getDistroUpgrades => .getDistroUpgrades
  | .simulateInstall _ _ | .installPackages _ _ => .installPackages
  | .simulateRemove _ _ _ _ | .removePackages _ _ _ _ => .removePackages
  | .simulateUpdate _ _ | .updatePackages _ _ => .updatePackages
  | .refreshCache _ => .refreshCache
  | .installFiles _ _ => .installFiles
  | .downloadPackages _ _ => .downloadPackages
  | .repoEnable _ _ => .repoEnable
  | .acceptEula _ => .acceptEula

def arguments : Request → List Asked
  | .searchName text filters | .searchDetails text filters | .searchFiles text filters =>
    [.filters filters, .texts [text]]
  | .getPackages filters | .getUpdates filters | .getRepoList filters => [.filters filters]
  | .resolve texts filters | .whatProvides texts filters => [.filters filters, .texts texts]
  | .getDetails texts | .getUpdateDetail texts | .getFiles texts => [.texts texts]
  | .dependsOn texts filters recursive | .requiredBy texts filters recursive =>
    [.filters filters, .texts texts, .bool recursive]
  | .getDistroUpgrades => []
  | .simulateInstall texts flags | .simulateUpdate texts flags =>
    [.flags (flags ++ [.simulate]), .texts texts]
  | .simulateRemove texts allowDeps autoremove flags =>
    [.flags (flags ++ [.simulate]), .texts texts, .bool allowDeps, .bool autoremove]
  | .installPackages texts flags | .updatePackages texts flags | .installFiles texts flags =>
    [.flags flags, .texts texts]
  | .removePackages texts allowDeps autoremove flags =>
    [.flags flags, .texts texts, .bool allowDeps, .bool autoremove]
  | .refreshCache force => [.bool force]
  | .downloadPackages texts storeInCache => [.bool storeInCache, .texts texts]
  | .repoEnable repoId enabled => [.text repoId, .bool enabled]
  | .acceptEula eulaId => [.text eulaId]

def Passable (r : Request) : Prop := ∀ a ∈ r.arguments, a.Passable

theorem map_kind_arguments (r : Request) : r.arguments.map Asked.kind = r.method.signature := by
  cases r <;> rfl

theorem callIds_of_passable {texts : List String} (h : (Asked.texts texts).Passable)
    (op : List CString → Operation) :
    PkBindings.callIds op texts = some (op (texts.map Utf8.bytes)) := by
  obtain ⟨hfew, hnul⟩ := h
  rw [PkBindings.callIds, (toVec_allocStringArray hnul).mpr hfew]
  rfl

theorem invoke_of_passable {r : Request} (h : r.Passable) :
    r.invoke.map Operation.methodCall = some ⟨r.method.name, r.arguments.map Asked.wire⟩ := by
  have htexts {texts : List String} (hmem : .texts texts ∈ r.arguments)
      (op : List CString → Operation) :
      (PkBindings.callIds op texts).map Operation.methodCall =
        some (op (texts.map Utf8.bytes)).methodCall := by
    rw [callIds_of_passable (h _ hmem) op]
    rfl
  have htext {s : String} (hmem : .text s ∈ r.arguments) :
      ofCStr (toNativeUtf8 s) = Utf8.bytes s := ofCStr_toNativeUtf8 (h (.text s) hmem)
  cases r with
  | getPackages filters => rfl
  | getUpdates filters => rfl
  | getRepoList filters => rfl
  | getDistroUpgrades => rfl
  | refreshCache force => rfl
  | repoEnable repoId enabled =>
    have hid := htext List.mem_cons_self
    rw [invoke, PkClient.repoEnable, PkBindings.repoEnable, hid]
    rfl
  | acceptEula eulaId =>
    have hid := htext List.mem_cons_self
    rw [invoke, PkClient.acceptEula, PkBindings.acceptEula, hid]
    rfl
  | getDetails texts => exact htexts List.mem_cons_self _
  | getUpdateDetail texts => exact htexts List.mem_cons_self _
  | getFiles texts => exact htexts List.mem_cons_self _
  | _ => exact htexts (List.mem_cons_of_mem _ List.mem_cons_self) _

end Request

/-- A request whose strings can be passed reaches the daemon as it was made, and two requests
are the same call only if they ask for the same. -/
theorem requests_reach_daemon (r : Request) (h : r.Passable) :
    (∃ op, r.invoke = some op ∧ op.methodCall = ⟨r.method.name, r.arguments.map Asked.wire⟩) ∧
      ∀ r' : Request, r'.Passable →
        (r.invoke.map Operation.methodCall = r'.invoke.map Operation.methodCall ↔
          r.method = r'.method ∧ List.Forall₂ Asked.Same r.arguments r'.arguments) := by
  refine ⟨Option.map_eq_some_iff.mp (Request.invoke_of_passable h), ?_⟩
  intro r' h'
  rw [Request.invoke_of_passable h, Request.invoke_of_passable h', Option.some.injEq,
    MethodCall.mk.injEq]
  constructor
  · intro hcall
    obtain ⟨hname, harguments⟩ := hcall
    have hmethod := Method.name_injective hname
    refine ⟨hmethod, (Asked.map_wire_eq_iff ?_).mp harguments⟩
    rw [r.map_kind_arguments, r'.map_kind_arguments, hmethod]
  · intro hsame
    obtain ⟨hmethod, harguments⟩ := hsame
    refine ⟨congrArg Method.name hmethod, (Asked.map_wire_eq_iff ?_).mpr harguments⟩
    rw [r.map_kind_arguments, r'.map_kind_arguments, hmethod]

theorem passable_ids {ids : List String} (hids : (Asked.texts ids).Passable)
    (flags : List PkTransactionFlag) : (Request.installPackages ids flags).Passable :=
  List.forall_mem_cons.mpr ⟨trivial, List.forall_mem_singleton.mpr hids⟩

/-- To simulate an installation is to install with the flag, wherever it stands. -/
theorem requests_reach_daemon_simulated :
    (Request.simulateInstall ["vim;9.1;x86_64;core"] [.onlyTrusted]).invoke.map
        Operation.methodCall =
      (Request.installPackages ["vim;9.1;x86_64;core"]
        [.simulate, .onlyTrusted, .simulate]).invoke.map Operation.methodCall ∧
    (Request.simulateInstall ["vim;9.1;x86_64;core"] [.onlyTrusted]).invoke.map
        Operation.methodCall ≠
      (Request.installPackages ["vim;9.1;x86_64;core"] [.onlyTrusted]).invoke.map
        Operation.methodCall := by
  have hids : (Asked.texts ["vim;9.1;x86_64;core"]).Passable :=
    ⟨by decide, List.forall_mem_singleton.mpr (by decide)⟩
  have hsimulate : (Request.simulateInstall ["vim;9.1;x86_64;core"] [.onlyTrusted]).Passable :=
    passable_ids hids [.onlyTrusted, .simulate]
  obtain ⟨-, hsame⟩ := requests_reach_daemon _ hsimulate
  constructor
  · rw [hsame _ (passable_ids hids _)]
    refine ⟨rfl, .cons ?_ (.cons rfl .nil)⟩
    intro f _
    cases f <;> decide
  · rw [Ne, hsame _ (passable_ids hids _)]
    intro h
    obtain ⟨-, harguments⟩ := h
    obtain ⟨hflags, -⟩ := List.forall₂_cons.mp harguments
    exact absurd ((hflags .simulate (by decide)).mp (by decide)) (by decide)

section Simulations

namespace Request

/-- The write that a simulation tries out. -/
def real? : Request → Option Request
  | .simulateInstall packageIds flags => some (.installPackages packageIds flags)
  | .simulateRemove packageIds allowDeps autoremove flags =>
    some (.removePackages packageIds allowDeps autoremove flags)
  | .simulateUpdate packageIds flags => some (.updatePackages packageIds flags)
  | _ => none

/-- The caller wants no changes: it simulates, or passes the flag for it. -/
def asksSimulation : Request → Bool
  | .simulateInstall _ _ | .simulateRemove _ _ _ _ | .simulateUpdate _ _ => true
  | .installPackages _ flags | .removePackages _ _ _ flags | .updatePackages _ flags
  | .installFiles _ flags => flags.contains .simulate
  | _ => false

theorem uint64_combine_simulate (flags : List PkTransactionFlag) :
    uint64 (PkTransactionFlag.combine (flags ++ [.simulate])) =
      uint64 (PkTransactionFlag.combine flags) ||| 4 := by
  rw [PkTransactionFlag.combine, BitFlags.combine_append, uint64, UInt64.ofNat_or]
  rfl

theorem testBit_uint64_combine (flags : List PkTransactionFlag) :
    (uint64 (PkTransactionFlag.combine flags)).toNat.testBit 2 = flags.contains .simulate := by
  have hbit : PkTransactionFlag.value .simulate = 2 ^ 2 := rfl
  rw [uint64, UInt64.toNat_ofNat_of_lt' (PkTransactionFlag.combine_lt flags), Bool.eq_iff_iff,
    PkTransactionFlag.combine, PkTransactionFlag.separate_value.testBit_iff hbit,
    List.contains_iff_mem]

theorem invoke_of_real {r real : Request} (h : r.real? = some real) :
    r.invoke = real.invoke.map (Operation.mapFlags (· ||| 4)) := by
  have hids (op : UInt64 → List CString → Operation) (flags : List PkTransactionFlag)
      (ids : List String)
      (hop : ∀ flags v, (op flags v).mapFlags (· ||| 4) = op (flags ||| 4) v) :
      PkBindings.callIds (op (uint64 (PkTransactionFlag.combine (flags ++ [.simulate])))) ids =
        (PkBindings.callIds (op (uint64 (PkTransactionFlag.combine flags))) ids).map
          (Operation.mapFlags (· ||| 4)) := by
    rw [uint64_combine_simulate, PkBindings.callIds, PkBindings.callIds, Option.map_map]
    exact congrArg (Option.map · _) (funext (fun v ↦ (hop _ v).symm))
  cases r with
  | simulateInstall packageIds flags =>
    cases h
    exact hids .installPackages flags packageIds (fun _ _ ↦ rfl)
  | simulateRemove packageIds allowDeps autoremove flags =>
    cases h
    exact hids (.removePackages · · allowDeps autoremove) flags packageIds (fun _ _ ↦ rfl)
  | simulateUpdate packageIds flags =>
    cases h
    exact hids .updatePackages flags packageIds (fun _ _ ↦ rfl)
  | _ => cases h

theorem simulates_invoke {r : Request} {op : Operation} (h : r.invoke = some op) :
    op.simulates = r.asksSimulation := by
  have hids {f : List CString → Operation} {ids : List String} {b : Bool}
      (hop : PkBindings.callIds f ids = some op) (hf : ∀ v, (f v).simulates = b) :
      op.simulates = b := by
    obtain ⟨v, -, rfl⟩ := Option.map_eq_some_iff.mp hop
    exact hf v
  have hsimulate (flags : List PkTransactionFlag) :
      (uint64 (PkTransactionFlag.combine (flags ++ [.simulate]))).toNat.testBit 2 = true := by
    rw [testBit_uint64_combine, List.contains_iff_mem]
    exact List.mem_append_right _ List.mem_cons_self
  cases r with
  | simulateInstall packageIds flags => exact hids h (fun _ ↦ hsimulate flags)
  | simulateRemove packageIds allowDeps autoremove flags => exact hids h (fun _ ↦ hsimulate flags)
  | simulateUpdate packageIds flags => exact hids h (fun _ ↦ hsimulate flags)
  | installPackages packageIds flags => exact hids h (fun _ ↦ testBit_uint64_combine flags)
  | removePackages packageIds allowDeps autoremove flags =>
    exact hids h (fun _ ↦ testBit_uint64_combine flags)
  | updatePackages packageIds flags => exact hids h (fun _ ↦ testBit_uint64_combine flags)
  | installFiles paths flags => exact hids h (fun _ ↦ testBit_uint64_combine flags)
  | getPackages filters => cases h; rfl
  | getUpdates filters => cases h; rfl
  | getRepoList filters => cases h; rfl
  | getDistroUpgrades => cases h; rfl
  | refreshCache force => cases h; rfl
  | repoEnable repoId enabled => cases h; rfl
  | acceptEula eulaId => cases h; rfl
  | _ => exact hids h (fun _ ↦ rfl)

end Request

theorem operation_of_protocol {x : Option Start} {t : Option ClientTransaction}
    {calls : List BridgeCall} (h : HandleProtocol x t calls) {op : Operation}
    (hop : .operation op ∈ calls) : ∃ start, x = some start ∧ op = start.op := by
  cases h with
  | absent => cases hop
  | null _ =>
    cases List.mem_singleton.mp hop
  | @valid start t _ cancels =>
    refine ⟨start, rfl, ?_⟩
    simp only [List.mem_cons, List.mem_append, List.mem_replicate] at hop
    rcases hop with hop | hop | hop | hop | hop
    · cases hop
    · cases hop
    · cases hop
      rfl
    · cases hop.2
    · split at hop
      · cases List.mem_singleton.mp hop
      · cases hop

/-- A simulation is the write it tries out, with the flag set; and in every life of a client, a
handle on which a simulation was asked for never sees an operation without the flag, nor one on
which it was not asked for an operation with it. -/
theorem simulations_stay_dry :
    (∀ r real : Request, r.real? = some real →
      r.invoke = real.invoke.map (Operation.mapFlags (· ||| 4))) ∧
    ∀ (life : Lifetime) (i : ℕ) (x : Start) (r : Request), life.starts[i]? = some x →
      r.invoke = some x.op → ∀ op, .operation op ∈ life.client.callsOn i →
        op.simulates = r.asksSimulation := by
  refine ⟨fun _ _ ↦ Request.invoke_of_real, ?_⟩
  intro life i x r hx hinvoke op hop
  have hnumbered := life.client_numbered
  rw [life.client_logged i] at hop
  cases ht : life.client.transactions[i]? with
  | none =>
    rw [ht] at hop
    cases hop
  | some t =>
    rw [ht] at hop
    obtain ⟨start, hstart, rfl⟩ :=
      operation_of_protocol (hnumbered.follows i x t hx ht).protocol hop
    obtain rfl := Option.some.inj hstart
    exact Request.simulates_invoke hinvoke

theorem simulations_stay_dry_install :
    let r : Request := .simulateInstall ["vim;9.1;x86_64;core"] []
    let x : Start :=
      ⟨.installPackages 4 [Utf8.bytes "vim;9.1;x86_64;core"], true, ⟨.returned, .returned, .returned⟩⟩
    let life : Lifetime :=
      ⟨[.start x.op true x.outcomes], true, [.cancel 0 .returned], fun _ s hs ↦ by
        rw [List.mem_singleton.mp hs]; rfl⟩
    r.invoke = some x.op ∧ .operation x.op ∈ life.client.callsOn 0 ∧ x.op.simulates = true := by
  intro r x life
  have hop : .operation x.op ∈ life.client.callsOn 0 :=
    List.mem_cons_of_mem _ (List.mem_cons_of_mem _ List.mem_cons_self)
  have hids : (Asked.texts ["vim;9.1;x86_64;core"]).Passable :=
    ⟨by decide, List.forall_mem_singleton.mpr (by decide)⟩
  have hinvoke : r.invoke = some x.op := Request.callIds_of_passable hids (.installPackages 4)
  exact ⟨hinvoke, hop, simulations_stay_dry.2 life 0 x r rfl hinvoke x.op hop⟩

end Simulations

end PackageKitDart.Client
