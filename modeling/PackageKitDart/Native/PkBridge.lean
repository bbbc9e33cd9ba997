import PackageKitDart.Native.PkManager

namespace PackageKitDart.Native

inductive CallOutcome
  | returned
  | raised (e : SdbusError)

inductive Argument
  | uint64 (n : UInt64)
  | bool (b : Bool)
  | string (s : CString)
  | strings (values : List CString)
  deriving DecidableEq

structure MethodCall where
  method : String
  arguments : List Argument
  deriving DecidableEq

namespace PkTransactionBridge

def buildHints (locale : CString) (interactive : Bool) : List CString := [
  Utf8.bytes "locale=" ++ locale,
  Utf8.bytes "background=false",
  Utf8.bytes "supports-plural-signals=true",
  Utf8.bytes "interactive=" ++ Utf8.bytes (if interactive then "true" else "false")]

def setHints (locale : CString) (interactive : Bool) : MethodCall :=
  ⟨"SetHints", [.strings (buildHints locale interactive)]⟩

def cancel : MethodCall := ⟨"Cancel", []⟩

end PkTransactionBridge

/-- `std::string(const char *)`: the bytes up to the first NUL. -/
def ofCStr (memory : List UInt8) : CString := memory.takeWhile (· ≠ 0)

/-- `to_vec`. As a size, a negative count is more than `reserve` can give: it throws
`std::length_error`, which no function of the bridge catches. -/
def toVec (arr : List (List UInt8)) (n : ℤ) : Option (List CString) :=
  if n < 0 then none else some ((arr.take n.toNat).map ofCStr)

/-- The bridge functions that start an operation and that the client uses. -/
inductive Operation
  | searchName (filter : UInt64) (values : List CString)
  | searchDetails (filter : UInt64) (values : List CString)
  | searchFiles (filter : UInt64) (values : List CString)
  | getPackages (filter : UInt64)
  | getUpdates (filter : UInt64)
  | resolve (filter : UInt64) (packageIds : List CString)
  | whatProvides (filter : UInt64) (values : List CString)
  | getDetails (packageIds : List CString)
  | getUpdateDetail (packageIds : List CString)
  | getFiles (packageIds : List CString)
  | getRepoList (filter : UInt64)
  | dependsOn (filter : UInt64) (ids : List CString) (recursive : Bool)
  | requiredBy (filter : UInt64) (ids : List CString) (recursive : Bool)
  | getDistroUpgrades
  | installPackages (flags : UInt64) (ids : List CString)
  | removePackages (flags : UInt64) (ids : List CString) (allowDeps autoremove : Bool)
  | updatePackages (flags : UInt64) (ids : List CString)
  | refreshCache (force : Bool)
  | downloadPackages (storeInCache : Bool) (ids : List CString)
  | installFiles (flags : UInt64) (paths : List CString)
  | repoEnable (repoId : CString) (enabled : Bool)
  | acceptEula (eulaId : CString)

def Operation.methodCall : Operation → MethodCall
  | .searchName filter values => ⟨"SearchNames", [.uint64 filter, .strings values]⟩
  | .searchDetails filter values => ⟨"SearchDetails", [.uint64 filter, .strings values]⟩
  | .searchFiles filter values => ⟨"SearchFiles", [.uint64 filter, .strings values]⟩
  | .getPackages filter => ⟨"GetPackages", [.uint64 filter]⟩
  | .getUpdates filter => ⟨"GetUpdates", [.uint64 filter]⟩
  | .resolve filter packageIds => ⟨"Resolve", [.uint64 filter, .strings packageIds]⟩
  | .whatProvides filter values => ⟨"WhatProvides", [.uint64 filter, .strings values]⟩
  | .getDetails packageIds => ⟨"GetDetails", [.strings packageIds]⟩
  | .getUpdateDetail packageIds => ⟨"GetUpdateDetail", [.strings packageIds]⟩
  | .getFiles packageIds => ⟨"GetFiles", [.strings packageIds]⟩
  | .getRepoList filter => ⟨"GetRepoList", [.uint64 filter]⟩
  | .dependsOn filter ids recursive =>
    ⟨"DependsOn", [.uint64 filter, .strings ids, .bool recursive]⟩
  | .requiredBy filter ids recursive =>
    ⟨"RequiredBy", [.uint64 filter, .strings ids, .bool recursive]⟩
  | .getDistroUpgrades => ⟨"GetDistroUpgrades", []⟩
  | .installPackages flags ids => ⟨"InstallPackages", [.uint64 flags, .strings ids]⟩
  | .removePackages flags ids allowDeps autoremove =>
    ⟨"RemovePackages", [.uint64 flags, .strings ids, .bool allowDeps, .bool autoremove]⟩
  | .updatePackages flags ids => ⟨"UpdatePackages", [.uint64 flags, .strings ids]⟩
  | .refreshCache force => ⟨"RefreshCache", [.bool force]⟩
  | .downloadPackages storeInCache ids =>
    ⟨"DownloadPackages", [.bool storeInCache, .strings ids]⟩
  | .installFiles flags paths => ⟨"InstallFiles", [.uint64 flags, .strings paths]⟩
  | .repoEnable repoId enabled => ⟨"RepoEnable", [.string repoId, .bool enabled]⟩
  | .acceptEula eulaId => ⟨"AcceptEula", [.string eulaId]⟩

theorem Operation.method_ne_setHints (op : Operation) (locale : CString) (interactive : Bool) :
    op.methodCall ≠ PkTransactionBridge.setHints locale interactive := by
  intro h
  have hmethod := congrArg MethodCall.method h
  revert hmethod
  cases op <;> simp [Operation.methodCall, PkTransactionBridge.setHints]

/-- What one bridge function does: the method calls it makes, with how they
end, and the messages it posts to the transaction's port. -/
structure Effects where
  sent : List (MethodCall × CallOutcome) := []
  posted : List Posted := []

/-- `PK_TX_TRY`. -/
def pkTxTry (call : MethodCall) (outcome : CallOutcome) : Effects where
  sent := [(call, outcome)]
  posted :=
    match outcome with
    | .returned => []
    | .raised e => PkTransactionBridge.postError e.message

def pkTransactionSetHints (locale : Option CString) (interactive : Bool) (outcome : CallOutcome) :
    Effects :=
  pkTxTry (PkTransactionBridge.setHints (locale.getD (Utf8.bytes "en_US.UTF-8")) interactive)
    outcome

def pkOperation (op : Operation) (outcome : CallOutcome) : Effects := pkTxTry op.methodCall outcome

def pkCancel (outcome : CallOutcome) : Effects := pkTxTry PkTransactionBridge.cancel outcome

/-- `pk_manager_create` turns an error into a null handle. -/
def pkManagerCreate : CallOutcome → Bool
  | .returned => true
  | .raised _ => false

/-- `PK_TRY` swallows an error, and nothing is posted. -/
def pkManagerReadProperties (reads : PropertyReads) : List Posted :=
  match PkManager.readProperties reads with
  | .ok m => [m]
  | .error _ => []

/-- `pk_transaction_create` turns an error into a null handle. -/
def pkTransactionCreate : CallOutcome → Bool
  | .returned => true
  | .raised _ => false

def pkTransactionDestroy : Effects := {}

end PackageKitDart.Native
