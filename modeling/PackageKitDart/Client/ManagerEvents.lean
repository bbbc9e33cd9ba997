import PackageKitDart.Client.ManagerMessages
import PackageKitDart.Client.PostedReadings

namespace PackageKitDart.Client

open Dart TaskQueue Native

/-- The subscription of `first` that `_loadProperties` makes. -/
inductive Waiter
  | waiting | found | failed
  deriving DecidableEq

/-- A client as `connect`, `_onManagerEvent` and `close` see it. `loaded` is the
completer `_loadProperties` waits for, and `connected` whether `connect` has
returned; `uncaught` are the errors given to the zone. -/
structure ManagerClient where
  props : Option PkManagerProps := none
  portOpen : Bool := true
  daemonEvents : StreamController ManagerEvent := {}
  waiter : Waiter := .waiting
  loaded : Completer Unit DartError := {}
  connected : Bool := false
  uncaught : List DartError := []

/-- What the streams and futures still have to tell: an event or the end of the
broadcast stream, the callback of `first.then`, an error nobody listens to, and
the end of the `await` in `_loadProperties`. -/
inductive ManagerTask
  | event (event : ManagerEvent)
  | done
  | found
  | unhandled (e : DartError)
  | resume

namespace ManagerClient

def onEvent (c : ManagerClient) (event : ManagerEvent) : ManagerClient × List ManagerTask :=
  match c.waiter, event with
  | .waiting, .props _ => ({ c with waiter := .found }, [.found])
  | _, _ => (c, [])

/-- `first` fails when its stream ends without an element, and `then` was given no `onError`. -/
def onDone (c : ManagerClient) : ManagerClient × List ManagerTask :=
  match c.waiter with
  | .waiting => ({ c with waiter := .failed }, [.unhandled (.stateError "No element")])
  | _ => (c, [])

/-- `if (!c.isCompleted) c.complete();`, in the callback of `then` and in `onTimeout`. -/
def completeLoaded (c : ManagerClient) : ManagerClient × List ManagerTask :=
  if !c.loaded.isCompleted then ({ c with loaded := { outcome := some (.ok ()) } }, [.resume])
  else (c, [])

def microtasks : Tasks ManagerClient ManagerTask where
  exec
    | .event event, c => c.onEvent event
    | .done, c => c.onDone
    | .found, c => c.completeLoaded
    | .unhandled e, c => ({ c with uncaught := c.uncaught ++ [e] }, [])
    | .resume, c => ({ c with connected := true }, [])
  weight
    | .event _ => 3
    | .done | .found => 2
    | .unhandled _ | .resume => 1
  spawn_lt t c := by
    cases t with
    | event event =>
      simp only [onEvent]
      split <;> simp
    | done =>
      simp only [onDone]
      split <;> simp
    | found =>
      simp only [completeLoaded]
      split <;> simp
    | unhandled e => simp
    | resume => simp

/-- `PkClient._onManagerEvent`. What it throws leaves the listener of the port. -/
def onManagerEvent (c : ManagerClient) (msg : Uint8List) : ManagerClient × List ManagerTask :=
  match dispatchManagerEvent msg with
  | .error e => ({ c with uncaught := c.uncaught ++ [e] }, [])
  | .ok none => (c, [])
  | .ok (some event) =>
    let c := match event with
      | .props props => { c with props := some props }
      | _ => c
    match c.daemonEvents.add event with
    | .error e => ({ c with uncaught := c.uncaught ++ [e] }, [])
    | .ok controller => ({ c with daemonEvents := controller }, [.event event])

def deliver (c : ManagerClient) (msg : Uint8List) : ManagerClient :=
  if !c.portOpen then c
  else
    let (c, tasks) := c.onManagerEvent msg
    microtasks.drain c tasks

/-- The ten seconds are over; the timer does nothing once `loaded` has completed. -/
def timeout (c : ManagerClient) : ManagerClient :=
  let (c, tasks) := c.completeLoaded
  microtasks.drain c tasks

/-- `PkClient.close`. -/
def close (c : ManagerClient) : ManagerClient :=
  microtasks.drain { c with portOpen := false, daemonEvents := c.daemonEvents.close } [.done]

end ManagerClient

/-- `PkClient.connect` up to its `await`: the properties it asks for come as a message. -/
def connect (create : CallOutcome) : Except PkException ManagerClient :=
  if !pkManagerCreate create then
    .error (.serviceUnavailable
      "Failed to connect to org.freedesktop.PackageKit on the system bus.")
  else .ok {}

inductive ManagerStep
  | message (msg : Uint8List)
  | timeout

def messages (steps : List ManagerStep) : List Uint8List :=
  steps.filterMap (fun | .message msg => some msg | .timeout => none)

namespace ManagerClient

def step (c : ManagerClient) : ManagerStep → ManagerClient
  | .message msg => c.deliver msg
  | .timeout => c.timeout

def run (c : ManagerClient) (steps : List ManagerStep) : ManagerClient := steps.foldl step c

def eventSnapshot : ManagerEvent → Option PkManagerProps
  | .props props => some props
  | _ => none

/-- The snapshot a message brings. -/
def snapshot? (msg : Uint8List) : Option PkManagerProps :=
  match dispatchManagerEvent msg with
  | .ok (some event) => eventSnapshot event
  | _ => none

def thrown? (msg : Uint8List) : Option DartError :=
  match dispatchManagerEvent msg with
  | .error e => some e
  | .ok _ => none

/-- The last property snapshot of the messages. -/
def lastSnapshot (msgs : List Uint8List) : Option PkManagerProps :=
  (msgs.filterMap snapshot?).getLast?

/-- What a client that is not closed has made of the messages delivered to it. -/
structure Listening (c : ManagerClient) (msgs : List Uint8List) : Prop where
  portOpen : c.portOpen = true
  streamOpen : c.daemonEvents.isClosed = false
  props : c.props = lastSnapshot msgs
  waiter : c.waiter = if msgs.filterMap snapshot? = [] then .waiting else .found
  uncaught : c.uncaught = msgs.filterMap thrown?

variable {c : ManagerClient} {msgs : List Uint8List}

theorem Listening.append {c' : ManagerClient} {msg : Uint8List} (h : c.Listening msgs)
    (hport : c'.portOpen = true) (hstream : c'.daemonEvents.isClosed = false)
    (hprops : c'.props = (snapshot? msg).or c.props)
    (hwaiter : c'.waiter = if snapshot? msg = none then c.waiter else .found)
    (huncaught : c'.uncaught = c.uncaught ++ (thrown? msg).toList) :
    c'.Listening (msgs ++ [msg]) := by
  have hsnapshots : (msgs ++ [msg]).filterMap snapshot? =
      msgs.filterMap snapshot? ++ (snapshot? msg).toList := by
    rw [List.filterMap_append]
    cases hs : snapshot? msg <;> simp [hs]
  have hthrown : (msgs ++ [msg]).filterMap thrown? =
      msgs.filterMap thrown? ++ (thrown? msg).toList := by
    rw [List.filterMap_append]
    cases ht : thrown? msg <;> simp [ht]
  refine ⟨hport, hstream, ?_, ?_, ?_⟩
  · rw [hprops, h.props, lastSnapshot, lastSnapshot, hsnapshots, List.getLast?_append]
    cases snapshot? msg <;> rfl
  · rw [hwaiter, h.waiter, hsnapshots]
    cases snapshot? msg <;> simp
  · rw [huncaught, h.uncaught, hthrown]

/-- Completing `loaded` lets `connect` go on, and touches nothing else. -/
theorem completeLoaded_listening (h : c.Listening msgs) :
    (microtasks.drain c.completeLoaded.1 c.completeLoaded.2).Listening msgs := by
  rw [completeLoaded]
  split
  · exact ⟨h.portOpen, h.streamOpen, h.props, h.waiter, h.uncaught⟩
  · exact h

theorem onManagerEvent_some {msg : Uint8List} {event : ManagerEvent}
    (hopen : c.daemonEvents.isClosed = false) (hd : dispatchManagerEvent msg = .ok (some event)) :
    c.onManagerEvent msg =
      ({ c with
          props := (eventSnapshot event).or c.props
          daemonEvents := { events := c.daemonEvents.events ++ [event], isClosed := false } },
        [.event event]) := by
  rw [onManagerEvent, hd]
  cases event <;> simp [StreamController.add, hopen, eventSnapshot]

/-- Only the first snapshot meets a listener that does something with it. -/
theorem drain_event (c : ManagerClient) (event : ManagerEvent) :
    microtasks.drain c [.event event] =
      if c.waiter = .waiting ∧ eventSnapshot event ≠ none then
        microtasks.drain { c with waiter := .found } [.found]
      else c := by
  rw [Tasks.drain_singleton]
  cases event <;> cases hw : c.waiter <;> simp [microtasks, onEvent, hw, eventSnapshot]

/-- A snapshot finds the first listener at its first delivery, and no other event finds it. -/
theorem event_listening (h : c.Listening msgs) {msg : Uint8List} {event : ManagerEvent}
    (hd : dispatchManagerEvent msg = .ok (some event)) :
    (microtasks.drain (c.onManagerEvent msg).1 (c.onManagerEvent msg).2).Listening
      (msgs ++ [msg]) := by
  have hs : snapshot? msg = eventSnapshot event := by rw [snapshot?, hd]
  have ht : thrown? msg = none := by rw [thrown?, hd]
  rw [onManagerEvent_some h.streamOpen hd, drain_event]
  split
  · rename_i hfirst
    rw [Tasks.drain_singleton]
    apply completeLoaded_listening
    exact h.append h.portOpen rfl (by rw [hs]) (by rw [hs, if_neg hfirst.2]) (by rw [ht]; simp)
  · rename_i hlater
    refine h.append h.portOpen rfl (by rw [hs]) ?_ (by rw [ht]; simp)
    rw [hs]
    split
    · rfl
    · rename_i hsnapshot
      have hwaiter : c.waiter ≠ .waiting := fun hw ↦ hlater ⟨hw, hsnapshot⟩
      have hall := h.waiter
      split at hall
      · exact absurd hall hwaiter
      · exact hall

theorem deliver_listening (h : c.Listening msgs) (msg : Uint8List) :
    (c.deliver msg).Listening (msgs ++ [msg]) := by
  have hdeliver : c.deliver msg =
      microtasks.drain (c.onManagerEvent msg).1 (c.onManagerEvent msg).2 := by
    rw [deliver, h.portOpen]
    rfl
  rw [hdeliver]
  match hd : dispatchManagerEvent msg with
  | .error e =>
    have hs : snapshot? msg = none := by rw [snapshot?, hd]
    have ht : thrown? msg = some e := by rw [thrown?, hd]
    have hevent : c.onManagerEvent msg = ({ c with uncaught := c.uncaught ++ [e] }, []) := by
      rw [onManagerEvent, hd]
    rw [hevent]
    exact h.append h.portOpen h.streamOpen (by rw [hs]; rfl) (by rw [hs]; rfl) (by rw [ht]; rfl)
  | .ok none =>
    have hs : snapshot? msg = none := by rw [snapshot?, hd]
    have ht : thrown? msg = none := by rw [thrown?, hd]
    have hevent : c.onManagerEvent msg = (c, []) := by rw [onManagerEvent, hd]
    rw [hevent]
    exact h.append h.portOpen h.streamOpen (by rw [hs]; rfl) (by rw [hs]; rfl) (by rw [ht]; simp)
  | .ok (some event) => exact event_listening h hd

theorem run_listening (h : c.Listening msgs) (steps : List ManagerStep) :
    (c.run steps).Listening (msgs ++ messages steps) := by
  induction steps generalizing c msgs with
  | nil => simpa [messages, run] using h
  | cons s steps ih =>
    cases s with
    | message msg => simpa [messages, run, step] using ih (deliver_listening h msg)
    | timeout => exact ih (completeLoaded_listening h)

theorem start_listening : Listening {} [] := ⟨rfl, rfl, rfl, rfl, rfl⟩

/-- The end of the stream reaches a `first` that still waits as an error. -/
theorem close_eq (h : c.Listening msgs) :
    c.close.props = lastSnapshot msgs ∧
      c.close.uncaught = msgs.filterMap thrown? ++
        (if msgs.filterMap snapshot? = [] then [.stateError "No element"] else []) := by
  have hwaiter := h.waiter
  rw [close, Tasks.drain_singleton]
  split at hwaiter
  · rename_i hnone
    rw [if_pos hnone, ← h.uncaught, ← h.props]
    simp only [microtasks, onDone, hwaiter]
    exact ⟨rfl, rfl⟩
  · rename_i hsome
    rw [if_neg hsome, List.append_nil, ← h.uncaught, ← h.props]
    simp only [microtasks, onDone, hwaiter]
    exact ⟨rfl, rfl⟩

end ManagerClient

open ManagerClient PkManager Reader

/-- A run of `connect` and of the client it returns, up to the call of `close`: the
bridge posts the snapshot, if there is one, between signals of the daemon. -/
structure ManagerRun where
  reads : PropertyReads
  before : List ManagerSignal
  after : List ManagerSignal
  start : ManagerClient
  started : connect .returned = .ok start
  steps : List ManagerStep
  inOrder : messages steps <+:
    (before.flatMap handle ++ pkManagerReadProperties reads ++ after.flatMap handle).map arrived
  returned : (start.run steps).connected = true

def ManagerRun.closed (r : ManagerRun) : ManagerClient := (r.start.run r.steps).close

/-- No error is left to the zone, and `properties` is the last snapshot all along. -/
structure Orderly (r : ManagerRun) : Prop where
  quiet : r.closed.uncaught = []
  current : ∀ steps, steps <+: r.steps →
    (r.start.run steps).props = lastSnapshot (messages steps)
  currentAtEnd : r.closed.props = lastSnapshot (messages r.steps)

/-- A signal of the daemon is read without an error and is no snapshot. -/
theorem signal_plain {sg : ManagerSignal} {m : Posted} (hm : m ∈ handle sg) :
    snapshot? (arrived m) = none ∧ thrown? (arrived m) = none := by
  cases sg with
  | updatesChanged =>
    obtain rfl := List.mem_singleton.mp hm
    exact ⟨rfl, rfl⟩
  | repoListChanged =>
    obtain rfl := List.mem_singleton.mp hm
    exact ⟨rfl, rfl⟩
  | networkStateChanged state =>
    obtain rfl := List.mem_singleton.mp hm
    have hd : dispatchManagerEvent (arrived (onNetworkStateChanged state)) = _ :=
      networkState_posted state
    rw [snapshot?, thrown?, hd]
    exact ⟨rfl, rfl⟩
  | transactionListChanged transactions => cases hm

theorem mem_pkManagerReadProperties {reads : PropertyReads} {m : Posted} :
    m ∈ pkManagerReadProperties reads ↔
      ∃ props, readAll reads = .ok props ∧ m = propsMessage props := by
  rw [pkManagerReadProperties, readProperties]
  cases readAll reads with
  | error e => simp
  | ok props => simp

theorem dispatch_propsMessage (props : Native.PkManagerProps) :
    dispatchManagerEvent (arrived (propsMessage props)) =
      (GlazeCodec.decode .pkManagerProps (arrived (propsMessage props)) 1).map
        (fun v ↦ some (.props v)) :=
  dispatch_managerProps rfl

theorem decode_propsMessage (props : Native.PkManagerProps) :
    (∃ v, GlazeCodec.decode .pkManagerProps (arrived (propsMessage props)) 1 = .ok v) ↔
      HoldsPayload Texts kManagerProps (Glz.encode props) := by
  have h := managerProps_accepted (arrived (propsMessage props))
  rw [arrived, Uint8List.toBytes_ofBytes] at h
  exact h

theorem snapshot_propsMessage {props : Native.PkManagerProps} :
    snapshot? (arrived (propsMessage props)) ≠ none ↔
      HoldsPayload Texts kManagerProps (Glz.encode props) := by
  rw [← decode_propsMessage, snapshot?, dispatch_propsMessage]
  cases GlazeCodec.decode .pkManagerProps (arrived (propsMessage props)) 1 with
  | error e => simp [Except.map]
  | ok v => simp [Except.map, eventSnapshot]

theorem thrown_propsMessage {props : Native.PkManagerProps} :
    thrown? (arrived (propsMessage props)) = none ↔
      HoldsPayload Texts kManagerProps (Glz.encode props) := by
  rw [← decode_propsMessage, thrown?, dispatch_propsMessage]
  cases GlazeCodec.decode .pkManagerProps (arrived (propsMessage props)) 1 with
  | error e => simp [Except.map]
  | ok v => simp [Except.map]

namespace ManagerRun

variable (r : ManagerRun)

theorem start_eq : r.start = {} := (Except.ok.inj r.started).symm

theorem listening : (r.start.run r.steps).Listening (messages r.steps) := by
  have h := run_listening start_listening r.steps
  rwa [List.nil_append, ← r.start_eq] at h

/-- What is delivered was posted for a signal, or is the snapshot that was read. -/
theorem plain_or_props {msg : Uint8List} (hmsg : msg ∈ messages r.steps) :
    (snapshot? msg = none ∧ thrown? msg = none) ∨
      ∃ props, readAll r.reads = .ok props ∧ msg = arrived (propsMessage props) := by
  obtain ⟨m, hm, rfl⟩ := List.mem_map.mp (r.inOrder.subset hmsg)
  rcases List.mem_append.mp hm with hm | hm
  · rcases List.mem_append.mp hm with hm | hm
    · obtain ⟨sg, _, hsg⟩ := List.mem_flatMap.mp hm
      exact .inl (signal_plain hsg)
    · obtain ⟨props, hread, rfl⟩ := mem_pkManagerReadProperties.mp hm
      exact .inr ⟨props, hread, rfl⟩
  · obtain ⟨sg, _, hsg⟩ := List.mem_flatMap.mp hm
    exact .inl (signal_plain hsg)

theorem hasSnapshot_iff : (messages r.steps).filterMap snapshot? ≠ [] ↔
    ∃ props, readAll r.reads = .ok props ∧ arrived (propsMessage props) ∈ messages r.steps ∧
      HoldsPayload Texts kManagerProps (Glz.encode props) := by
  rw [Ne, List.filterMap_eq_nil_iff]
  constructor
  · intro h
    simp only [not_forall] at h
    obtain ⟨msg, hmsg, hs⟩ := h
    rcases r.plain_or_props hmsg with ⟨hnone, _⟩ | ⟨props, hread, rfl⟩
    · exact absurd hnone hs
    · exact ⟨props, hread, hmsg, snapshot_propsMessage.mp hs⟩
  · intro h hnone
    obtain ⟨props, _, hmem, hpayload⟩ := h
    exact snapshot_propsMessage.mpr hpayload (hnone _ hmem)

theorem thrown_eq_nil {props : Native.PkManagerProps} (hread : readAll r.reads = .ok props)
    (hpayload : HoldsPayload Texts kManagerProps (Glz.encode props)) :
    (messages r.steps).filterMap thrown? = [] := by
  rw [List.filterMap_eq_nil_iff]
  intro msg hmsg
  rcases r.plain_or_props hmsg with ⟨_, hnone⟩ | ⟨props', hread', rfl⟩
  · exact hnone
  · rw [hread] at hread'
    cases hread'
    exact thrown_propsMessage.mpr hpayload

end ManagerRun

/-- The client is left without an error exactly when all properties could be read,
and their snapshot, with texts that can be decoded, arrives before the call of `close`. -/
theorem orderly_iff (r : ManagerRun) :
    Orderly r ↔ ∃ props, readAll r.reads = .ok props ∧
      arrived (propsMessage props) ∈ messages r.steps ∧
      HoldsPayload Texts kManagerProps (Glz.encode props) := by
  obtain ⟨hprops, huncaught⟩ := close_eq r.listening
  constructor
  · intro h
    have hquiet := h.quiet
    rw [ManagerRun.closed, huncaught, List.append_eq_nil_iff] at hquiet
    rw [← r.hasSnapshot_iff]
    intro hnone
    rw [if_pos hnone] at hquiet
    exact absurd hquiet.2 (List.cons_ne_nil _ _)
  · intro h
    have hsome := r.hasSnapshot_iff.mpr h
    obtain ⟨props, hread, _, hpayload⟩ := h
    refine ⟨?_, ?_, hprops⟩
    · rw [ManagerRun.closed, huncaught, r.thrown_eq_nil hread hpayload, if_neg hsome,
        List.append_nil]
    · intro steps _
      rw [r.start_eq]
      exact (run_listening start_listening steps).props

/-- The daemon refuses the first property that is read of it. -/
def refusedReads : PropertyReads where
  backendName := .error ⟨Utf8.bytes "Access denied"⟩
  backendDescription := .ok []
  backendAuthor := .ok []
  roles := .ok 0
  filters := .ok 0
  groups := .ok 0
  mimeTypes := .ok []
  distroId := .ok []
  networkState := .ok 2
  locked := .ok false
  versionMajor := .ok 1
  versionMinor := .ok 3
  versionMicro := .ok 4

/-- `connect` returns after its ten seconds, and the client is closed. -/
def refusedRun : ManagerRun where
  reads := refusedReads
  before := []
  after := []
  start := {}
  started := rfl
  steps := [.timeout]
  inOrder := List.nil_prefix
  returned := rfl

theorem refusedRun_uncaught :
    pkManagerReadProperties refusedRun.reads = [] ∧
      refusedRun.closed.uncaught = [.stateError "No element"] ∧ ¬ Orderly refusedRun := by
  have huncaught : refusedRun.closed.uncaught = [.stateError "No element"] := rfl
  refine ⟨rfl, huncaught, ?_⟩
  intro h
  have hquiet := h.quiet
  rw [huncaught] at hquiet
  exact List.cons_ne_nil _ _ hquiet

end PackageKitDart.Client
