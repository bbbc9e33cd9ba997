import PackageKitDart.Client.Bindings
import PackageKitDart.Client.Isolation

namespace PackageKitDart.Client

open Dart Native

/-- An `int` passed as `Uint64`. -/
def uint64 (n : ℕ) : UInt64 := UInt64.ofNat n

namespace PkClient

/-- What this method gives to `_startQuery` to call; so for the others. -/
def searchName (query : String) (filters : List PkFilter := [.none]) : Option Operation :=
  PkBindings.searchName (uint64 (PkFilter.combine filters)) [query]

def searchDetails (query : String) (filters : List PkFilter := [.none]) : Option Operation :=
  PkBindings.searchDetails (uint64 (PkFilter.combine filters)) [query]

def searchFiles (path : String) (filters : List PkFilter := [.none]) : Option Operation :=
  PkBindings.searchFiles (uint64 (PkFilter.combine filters)) [path]

def getPackages (filters : List PkFilter := [.installed]) : Option Operation :=
  PkBindings.getPackages (uint64 (PkFilter.combine filters))

def getUpdates (filters : List PkFilter := [.none]) : Option Operation :=
  PkBindings.getUpdates (uint64 (PkFilter.combine filters))

def resolve (names : List String) (filters : List PkFilter := [.none]) : Option Operation :=
  PkBindings.resolve (uint64 (PkFilter.combine filters)) names

def whatProvides (values : List String) (filters : List PkFilter := [.none]) : Option Operation :=
  PkBindings.whatProvides (uint64 (PkFilter.combine filters)) values

def getDetails (packageIds : List String) : Option Operation := PkBindings.getDetails packageIds

def getUpdateDetail (packageIds : List String) : Option Operation :=
  PkBindings.getUpdateDetail packageIds

def getFiles (packageIds : List String) : Option Operation := PkBindings.getFiles packageIds

def getRepoList (filters : List PkFilter := [.none]) : Option Operation :=
  PkBindings.getRepoList (uint64 (PkFilter.combine filters))

def dependsOn (packageIds : List String) (filters : List PkFilter := [.none])
    (recursive : Bool := false) : Option Operation :=
  PkBindings.dependsOn (uint64 (PkFilter.combine filters)) packageIds recursive

def requiredBy (packageIds : List String) (filters : List PkFilter := [.none])
    (recursive : Bool := false) : Option Operation :=
  PkBindings.requiredBy (uint64 (PkFilter.combine filters)) packageIds recursive

def getDistroUpgrades : Option Operation := PkBindings.getDistroUpgrades

def simulateInstall (packageIds : List String)
    (flags : List PkTransactionFlag := [.onlyTrusted]) : Option Operation :=
  PkBindings.installPackages (uint64 (PkTransactionFlag.combine (flags ++ [.simulate]))) packageIds

def simulateRemove (packageIds : List String) (allowDeps autoremove : Bool := false)
    (flags : List PkTransactionFlag := [.onlyTrusted]) : Option Operation :=
  PkBindings.removePackages (uint64 (PkTransactionFlag.combine (flags ++ [.simulate]))) packageIds
    allowDeps autoremove

def simulateUpdate (packageIds : List String)
    (flags : List PkTransactionFlag := [.onlyTrusted]) : Option Operation :=
  PkBindings.updatePackages (uint64 (PkTransactionFlag.combine (flags ++ [.simulate]))) packageIds

def installPackages (packageIds : List String)
    (flags : List PkTransactionFlag := [.onlyTrusted]) : Option Operation :=
  PkBindings.installPackages (uint64 (PkTransactionFlag.combine flags)) packageIds

def removePackages (packageIds : List String) (allowDeps autoremove : Bool := false)
    (flags : List PkTransactionFlag := [.onlyTrusted]) : Option Operation :=
  PkBindings.removePackages (uint64 (PkTransactionFlag.combine flags)) packageIds allowDeps
    autoremove

def updatePackages (packageIds : List String)
    (flags : List PkTransactionFlag := [.onlyTrusted]) : Option Operation :=
  PkBindings.updatePackages (uint64 (PkTransactionFlag.combine flags)) packageIds

def refreshCache (force : Bool := false) : Option Operation := PkBindings.refreshCache force

def installFiles (paths : List String) (flags : List PkTransactionFlag := [.onlyTrusted]) :
    Option Operation :=
  PkBindings.installFiles (uint64 (PkTransactionFlag.combine flags)) paths

def downloadPackages (packageIds : List String) (storeInCache : Bool := true) : Option Operation :=
  PkBindings.downloadPackages storeInCache packageIds

def repoEnable (repoId : String) (enabled : Bool) : Option Operation :=
  PkBindings.repoEnable repoId enabled

def acceptEula (eulaId : String) : Option Operation := PkBindings.acceptEula eulaId

end PkClient

/-- A call of one of these methods. -/
inductive Request
  | searchName (query : String) (filters : List PkFilter)
  | searchDetails (query : String) (filters : List PkFilter)
  | searchFiles (path : String) (filters : List PkFilter)
  | getPackages (filters : List PkFilter)
  | getUpdates (filters : List PkFilter)
  | resolve (names : List String) (filters : List PkFilter)
  | whatProvides (values : List String) (filters : List PkFilter)
  | getDetails (packageIds : List String)
  | getUpdateDetail (packageIds : List String)
  | getFiles (packageIds : List String)
  | getRepoList (filters : List PkFilter)
  | dependsOn (packageIds : List String) (filters : List PkFilter) (recursive : Bool)
  | requiredBy (packageIds : List String) (filters : List PkFilter) (recursive : Bool)
  | getDistroUpgrades
  | simulateInstall (packageIds : List String) (flags : List PkTransactionFlag)
  | simulateRemove (packageIds : List String) (allowDeps autoremove : Bool)
      (flags : List PkTransactionFlag)
  | simulateUpdate (packageIds : List String) (flags : List PkTransactionFlag)
  | installPackages (packageIds : List String) (flags : List PkTransactionFlag)
  | removePackages (packageIds : List String) (allowDeps autoremove : Bool)
      (flags : List PkTransactionFlag)
  | updatePackages (packageIds : List String) (flags : List PkTransactionFlag)
  | refreshCache (force : Bool)
  | installFiles (paths : List String) (flags : List PkTransactionFlag)
  | downloadPackages (packageIds : List String) (storeInCache : Bool)
  | repoEnable (repoId : String) (enabled : Bool)
  | acceptEula (eulaId : String)

namespace Request

def invoke : Request → Option Operation
  | .searchName query filters => PkClient.searchName query filters
  | .searchDetails query filters => PkClient.searchDetails query filters
  | .searchFiles path filters => PkClient.searchFiles path filters
  | .getPackages filters => PkClient.getPackages filters
  | .getUpdates filters => PkClient.getUpdates filters
  | .resolve names filters => PkClient.resolve names filters
  | .whatProvides values filters => PkClient.whatProvides values filters
  | .getDetails packageIds => PkClient.getDetails packageIds
  | .getUpdateDetail packageIds => PkClient.getUpdateDetail packageIds
  | .getFiles packageIds => PkClient.getFiles packageIds
  | .getRepoList filters => PkClient.getRepoList filters
  | .dependsOn packageIds filters recursive => PkClient.dependsOn packageIds filters recursive
  | .requiredBy packageIds filters recursive => PkClient.requiredBy packageIds filters recursive
  | .getDistroUpgrades => PkClient.getDistroUpgrades
  | .simulateInstall packageIds flags => PkClient.simulateInstall packageIds flags
  | .simulateRemove packageIds allowDeps autoremove flags =>
    PkClient.simulateRemove packageIds allowDeps autoremove flags
  | .simulateUpdate packageIds flags => PkClient.simulateUpdate packageIds flags
  | .installPackages packageIds flags => PkClient.installPackages packageIds flags
  | .removePackages packageIds allowDeps autoremove flags =>
    PkClient.removePackages packageIds allowDeps autoremove flags
  | .updatePackages packageIds flags => PkClient.updatePackages packageIds flags
  | .refreshCache force => PkClient.refreshCache force
  | .installFiles paths flags => PkClient.installFiles paths flags
  | .downloadPackages packageIds storeInCache => PkClient.downloadPackages packageIds storeInCache
  | .repoEnable repoId enabled => PkClient.repoEnable repoId enabled
  | .acceptEula eulaId => PkClient.acceptEula eulaId

end Request

end PackageKitDart.Client
