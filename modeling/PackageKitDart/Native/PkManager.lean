import PackageKitDart.Native.PkTransaction

namespace PackageKitDart.Native

/-- How reading each property of the daemon ends. -/
structure PropertyReads where
  backendName : Except SdbusError CString
  backendDescription : Except SdbusError CString
  backendAuthor : Except SdbusError CString
  roles : Except SdbusError UInt64
  filters : Except SdbusError UInt64
  groups : Except SdbusError UInt64
  mimeTypes : Except SdbusError (List CString)
  distroId : Except SdbusError CString
  networkState : Except SdbusError UInt32
  locked : Except SdbusError Bool
  versionMajor : Except SdbusError UInt32
  versionMinor : Except SdbusError UInt32
  versionMicro : Except SdbusError UInt32

/-- The signals the manager object is registered for. -/
inductive ManagerSignal
  | updatesChanged
  | repoListChanged
  | networkStateChanged (state : UInt32)
  | transactionListChanged (transactions : List CString)

namespace PkManager

def kManagerProps : UInt8 := 0x0C
def kUpdatesChanged : UInt8 := 0xD0
def kRepoListChanged : UInt8 := 0xD1
def kNetworkStateChanged : UInt8 := 0xD2

def post {C : Type} [Glz.Meta C] (discriminator : UInt8) (value : C) : Posted :=
  discriminator :: Glz.encode value

def postEvent (eventByte : UInt8) : Posted := [eventByte]

/-- The message `readProperties` ends with when every property could be read. -/
def propsMessage (props : PkManagerProps) : Posted := post kManagerProps props

/-- The properties one after the other, up to the first that cannot be read. -/
def readAll (reads : PropertyReads) : Except SdbusError PkManagerProps := do
  let backendName ← reads.backendName
  let backendDescription ← reads.backendDescription
  let backendAuthor ← reads.backendAuthor
  let roles ← reads.roles
  let filters ← reads.filters
  let groups ← reads.groups
  let mimeTypes ← reads.mimeTypes
  let distroId ← reads.distroId
  let networkState ← reads.networkState
  let locked ← reads.locked
  let versionMajor ← reads.versionMajor
  let versionMinor ← reads.versionMinor
  let versionMicro ← reads.versionMicro
  return {
    backendName := backendName
    backendDescription := backendDescription
    backendAuthor := backendAuthor
    roles := roles
    filters := filters
    groups := groups
    mimeTypes := mimeTypes
    distroId := distroId
    networkState := networkState
    locked := locked
    versionMajor := versionMajor
    versionMinor := versionMinor
    versionMicro := versionMicro }

def readProperties (reads : PropertyReads) : Except SdbusError Posted := do
  let props ← readAll reads
  return propsMessage props

def onUpdatesChanged : Posted := postEvent kUpdatesChanged

def onRepoListChanged : Posted := postEvent kRepoListChanged

def onNetworkStateChanged (state : UInt32) : Posted :=
  kNetworkStateChanged :: Glz.encodeField .uint32 state

/-- What the handler registered for a signal posts; the list of transactions is not forwarded. -/
def handle : ManagerSignal → List Posted
  | .updatesChanged => [onUpdatesChanged]
  | .repoListChanged => [onRepoListChanged]
  | .networkStateChanged state => [onNetworkStateChanged state]
  | .transactionListChanged _ => []

end PkManager

end PackageKitDart.Native
