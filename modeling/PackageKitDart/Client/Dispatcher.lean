import PackageKitDart.Client.Codec
import PackageKitDart.Dart.Async
import PackageKitDart.Library.TaskQueue

namespace PackageKitDart.Client

open Dart TaskQueue

/-- The stream controllers of a `TransactionDispatcher`. -/
inductive StreamName
  | packages | details | updateDetails | repoDetails | files | progress | messages
  | eulaRequired | repoSigRequired | requireRestart | errors
  deriving DecidableEq, Repr

namespace StreamName

def type : StreamName → WireType
  | .packages => .pkPackage
  | .details => .pkPackageDetail
  | .updateDetails => .pkUpdateDetail
  | .repoDetails => .pkRepoDetail
  | .files => .pkFiles
  | .progress => .pkProgress
  | .messages => .pkMessage
  | .eulaRequired => .pkEulaRequired
  | .repoSigRequired => .pkRepoSigRequired
  | .requireRestart => .pkRequireRestart
  | .errors => .pkErrorCode

abbrev Event (s : StreamName) : Type := s.type.Val

/-- The stream of each data case of the switch in `dispatch`. -/
def ofDiscriminator : UInt8 → Option StreamName
  | 0x01 => some .packages
  | 0x02 => some .progress
  | 0x03 => some .details
  | 0x04 => some .updateDetails
  | 0x05 => some .repoDetails
  | 0x06 => some .files
  | 0x07 => some .errors
  | 0x08 => some .messages
  | 0x09 => some .eulaRequired
  | 0x0A => some .repoSigRequired
  | 0x0B => some .requireRestart
  | _ => none

/-- The order in which `close` goes through the controllers. -/
def all : List StreamName := [
  .packages, .details, .updateDetails, .repoDetails, .files, .progress, .messages,
  .eulaRequired, .repoSigRequired, .requireRestart, .errors]

theorem mem_all (s : StreamName) : s ∈ all := by cases s <;> decide

end StreamName

structure TransactionDispatcher where
  streams : (s : StreamName) → StreamController s.Event := fun _ ↦ {}
  done : Completer PkTransactionResult PkException := {}
  finished : Bool := false

/-- What a dispatch leaves in the microtask queue: the listeners of `done`
still to be told, or a `close` still to be run. -/
inductive Microtask
  | propagate
  | close
  deriving DecidableEq, Repr

def decodeError (e : DartError) : PkException := .exception "Internal decode error: " e

namespace TransactionDispatcher

def add (d : TransactionDispatcher) (s : StreamName) (event : s.Event) :
    Except DartError TransactionDispatcher := do
  let controller ← (d.streams s).add event
  return { d with streams := Function.update d.streams s controller }

/-- The Finished case, once the message is decoded. -/
def finishedBody (d : TransactionDispatcher) (result : PkFinished) :
    Except DartError (TransactionDispatcher × List Microtask) := do
  let exit := PkExit.fromInt result.exitCode
  if !d.done.isCompleted then
    if exit = .success then
      let done ← d.done.complete { exit := exit, runtimeMs := result.runtimeMs }
      return ({ d with done := done }, [.propagate])
    else
      let done ← d.done.completeError
        (.transaction ("Transaction failed: " ++ exit.name) exit result.runtimeMs)
      return ({ d with done := done }, [.propagate])
  else return (d, [])

/-- The `try` block of `dispatch`. -/
def dispatchBody (d : TransactionDispatcher) (msg : Uint8List) :
    Except DartError (TransactionDispatcher × List Microtask) := do
  let disc ← msg.get 0
  match StreamName.ofDiscriminator disc with
  | some s =>
    let event ← GlazeCodec.decode s.type msg 1
    return (← d.add s event, [])
  | none =>
    if disc = 0x20 then
      let result ← GlazeCodec.decode .pkFinished msg 1
      d.finishedBody result
    else if disc = 0xFF then return (d, [.close])
    else return (d, [])

/-- The `catch` clause of `dispatch`, which may itself throw. -/
def dispatchCatch (d : TransactionDispatcher) (e : DartError) :
    Except DartError (TransactionDispatcher × List Microtask) := do
  if !d.done.isCompleted then
    let done ← d.done.completeError (decodeError e)
    return ({ d with done := done }, [.propagate, .close])
  else return (d, [.close])

/-- The body changes nothing before it throws, so the clause starts from `d`.
`Future.microtask(close)` comes after any completion and is queued behind it. -/
def dispatch (d : TransactionDispatcher) (msg : Uint8List) :
    Except DartError (TransactionDispatcher × List Microtask) :=
  match d.dispatchBody msg with
  | .ok r => .ok r
  | .error e => d.dispatchCatch e

def closeStream (d : TransactionDispatcher) (s : StreamName) : TransactionDispatcher :=
  if !(d.streams s).isClosed then
    { d with streams := Function.update d.streams s (d.streams s).close }
  else d

def close (d : TransactionDispatcher) : TransactionDispatcher :=
  StreamName.all.foldl closeStream { d with finished := true }

/-- Running a microtask; telling the listeners of `done` changes nothing here. -/
def microtasks : Tasks TransactionDispatcher Microtask where
  exec
    | .propagate, d => (d, [])
    | .close, d => (d.close, [])
  weight _ := 1
  spawn_lt t _ := by cases t <;> simp

def deliver (d : TransactionDispatcher) (msg : Uint8List) :
    Except DartError TransactionDispatcher := do
  let (d', tasks) ← d.dispatch msg
  return microtasks.drain d' tasks

def deliverAll (d : TransactionDispatcher) (msgs : List Uint8List) :
    Except DartError TransactionDispatcher := msgs.foldlM deliver d

end TransactionDispatcher

inductive ManagerEvent
  | props (props : PkManagerProps)
  | updatesChanged
  | repoListChanged
  | networkStateChanged (state : ℕ)

/-- Of a `Uint8List` message; any other message gives no event. -/
def dispatchManagerEvent (msg : Uint8List) : Except DartError (Option ManagerEvent) := do
  match ← msg.get 0 with
  | 0x0C => return some (.props (← GlazeCodec.decode .pkManagerProps msg 1))
  | 0xD0 => return some .updatesChanged
  | 0xD1 => return some .repoListChanged
  | 0xD2 => return some (.networkStateChanged (← msg.asByteData.getUint32 1))
  | _ => return none

end PackageKitDart.Client
