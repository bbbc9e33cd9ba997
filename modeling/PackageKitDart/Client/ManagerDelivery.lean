import PackageKitDart.Client.DecoderLanguage
import PackageKitDart.Client.ManagerEvents

namespace PackageKitDart.Client

open Dart TaskQueue Native Glz PkManager

theorem dispatch_cases (msg : Uint8List) : (∃ e, dispatchManagerEvent msg = .error e) ∨
    dispatchManagerEvent msg = .ok none ∨ ∃ event, dispatchManagerEvent msg = .ok (some event) := by
  cases hd : dispatchManagerEvent msg with
  | error e => exact .inl ⟨e, rfl⟩
  | ok event? =>
    cases event? with
    | none => exact .inr (.inl rfl)
    | some event => exact .inr (.inr ⟨event, rfl⟩)

namespace ManagerClient

/-- The event a message brings. -/
def event? (msg : Uint8List) : Option ManagerEvent :=
  match dispatchManagerEvent msg with
  | .ok event => event
  | .error _ => none

def eventsOf (msgs : List Uint8List) : List ManagerEvent := msgs.filterMap event?

theorem eventsOf_singleton (msg : Uint8List) : eventsOf [msg] = (event? msg).toList := by
  rw [eventsOf, List.filterMap_cons]
  cases event? msg <;> rfl

/-- Listeners learn of events; they add none, and leave the port alone. -/
theorem drain_kept (c : ManagerClient) (tasks : List ManagerTask) :
    (microtasks.drain c tasks).daemonEvents = c.daemonEvents ∧
      (microtasks.drain c tasks).portOpen = c.portOpen := by
  refine microtasks.drain_invariant
    (I := fun s ↦ s.daemonEvents = c.daemonEvents ∧ s.portOpen = c.portOpen) ?_ ⟨rfl, rfl⟩ tasks
  intro t s hs
  cases t with
  | event event =>
    simp only [microtasks, onEvent]
    split <;> exact hs
  | done =>
    simp only [microtasks, onDone]
    split <;> exact hs
  | found =>
    simp only [microtasks, completeLoaded]
    split <;> exact hs
  | unhandled e => exact hs
  | resume => exact hs

variable {c : ManagerClient} {msgs : List Uint8List}

theorem timeout_kept (c : ManagerClient) :
    c.timeout.daemonEvents = c.daemonEvents ∧ c.timeout.portOpen = c.portOpen := by
  obtain ⟨hevents, hport⟩ := drain_kept c.completeLoaded.1 c.completeLoaded.2
  rw [timeout, hevents, hport, completeLoaded]
  split <;> exact ⟨rfl, rfl⟩

theorem deliver_events (h : c.Listening msgs) (msg : Uint8List) :
    (c.deliver msg).daemonEvents.events = c.daemonEvents.events ++ (event? msg).toList := by
  have hdeliver : c.deliver msg =
      microtasks.drain (c.onManagerEvent msg).1 (c.onManagerEvent msg).2 := by
    rw [deliver, h.portOpen]
    rfl
  rw [hdeliver, (drain_kept _ _).1, event?]
  rcases dispatch_cases msg with ⟨e, hd⟩ | hd | ⟨event, hd⟩
  · rw [onManagerEvent, hd]
    exact (List.append_nil _).symm
  · rw [onManagerEvent, hd]
    exact (List.append_nil _).symm
  · rw [onManagerEvent_some h.streamOpen hd, hd]
    rfl

theorem run_events (h : c.Listening msgs) (steps : List ManagerStep) :
    (c.run steps).daemonEvents.events = c.daemonEvents.events ++ eventsOf (messages steps) := by
  induction steps generalizing c msgs with
  | nil => exact (List.append_nil _).symm
  | cons s steps ih =>
    cases s with
    | message msg =>
      have hcons : eventsOf (msg :: messages steps) =
          (event? msg).toList ++ eventsOf (messages steps) := by
        rw [eventsOf, List.filterMap_cons]
        cases event? msg <;> rfl
      have hmessages : messages (.message msg :: steps) = msg :: messages steps := rfl
      rw [hmessages, hcons, ← List.append_assoc, ← deliver_events h msg]
      exact ih (deliver_listening h msg)
    | timeout =>
      have hrest : (c.timeout.run steps).daemonEvents.events =
          c.timeout.daemonEvents.events ++ eventsOf (messages steps) :=
        ih (completeLoaded_listening h)
      rw [(timeout_kept c).1] at hrest
      exact hrest

/-- A closed port brings nothing, and a timer that goes off then adds no event. -/
theorem run_of_port_closed (h : c.portOpen = false) (steps : List ManagerStep) :
    (c.run steps).daemonEvents = c.daemonEvents := by
  induction steps generalizing c with
  | nil => rfl
  | cons s steps ih =>
    cases s with
    | message msg =>
      have hsame : c.deliver msg = c := by
        rw [deliver, h]
        rfl
      rw [run, List.foldl_cons, step, hsame]
      exact ih h
    | timeout => exact (ih ((timeout_kept c).2.trans h)).trans (timeout_kept c).1

theorem close_kept (c : ManagerClient) :
    c.close.daemonEvents = c.daemonEvents.close ∧ c.close.portOpen = false := drain_kept _ _

/-- Whether a run lets `connect` return. -/
def Returns (steps : List ManagerStep) : Prop :=
  .timeout ∈ steps ∨ ∃ msg ∈ messages steps, snapshot? msg ≠ none

/-- The completer that `connect` waits for. -/
structure Loading (c : ManagerClient) (steps : List ManagerStep) : Prop where
  listening : c.Listening (messages steps)
  loaded : c.loaded.isCompleted = c.connected
  returned : c.connected = true ↔ Returns steps

theorem messages_append (steps steps' : List ManagerStep) :
    messages (steps ++ steps') = messages steps ++ messages steps' := List.filterMap_append

theorem returns_concat_timeout (steps : List ManagerStep) : Returns (steps ++ [.timeout]) :=
  .inl (List.mem_append_right steps List.mem_cons_self)

theorem returns_concat_message (steps : List ManagerStep) (msg : Uint8List) :
    Returns (steps ++ [.message msg]) ↔ Returns steps ∨ snapshot? msg ≠ none := by
  have hmessages : messages [ManagerStep.message msg] = [msg] := rfl
  have htimeout : ManagerStep.timeout ∉ [ManagerStep.message msg] := by
    intro h
    cases List.mem_singleton.mp h
  simp only [Returns, messages_append, hmessages, List.mem_append, htimeout, or_false,
    or_and_right, exists_or, List.mem_singleton, exists_eq_left, or_assoc]

theorem drain_completeLoaded (h : c.loaded.isCompleted = c.connected) :
    (microtasks.drain c.completeLoaded.1 c.completeLoaded.2).connected = true ∧
      (microtasks.drain c.completeLoaded.1 c.completeLoaded.2).loaded.isCompleted = true := by
  cases hc : c.loaded.isCompleted with
  | true =>
    simp only [completeLoaded, hc, Bool.not_true]
    exact ⟨h.symm.trans hc, hc⟩
  | false =>
    simp only [completeLoaded, hc, Bool.not_false, if_true]
    exact ⟨rfl, rfl⟩

variable {steps : List ManagerStep}

theorem Loading.timeout (h : c.Loading steps) : c.timeout.Loading (steps ++ [.timeout]) := by
  obtain ⟨hconnected, hloaded⟩ := drain_completeLoaded h.loaded
  refine ⟨?_, hloaded.trans hconnected.symm, ?_⟩
  · have hmessages : messages (steps ++ [.timeout]) = messages steps := by
      rw [messages_append]
      exact List.append_nil _
    rw [hmessages]
    exact completeLoaded_listening h.listening
  · exact iff_of_true hconnected (returns_concat_timeout steps)

/-- A message that is no snapshot, or not the first one, leaves `connect` where it is. -/
theorem Loading.same {c' : ManagerClient} {msg : Uint8List} (h : c.Loading steps)
    (hlistening : c'.Listening (messages steps ++ [msg])) (hloaded : c'.loaded = c.loaded)
    (hconnected : c'.connected = c.connected) (hmsg : snapshot? msg ≠ none → Returns steps) :
    c'.Loading (steps ++ [.message msg]) := by
  refine ⟨?_, ?_, ?_⟩
  · rw [messages_append]
    exact hlistening
  · rw [hloaded, hconnected]
    exact h.loaded
  · rw [hconnected, returns_concat_message, h.returned, or_iff_left_of_imp hmsg]

theorem Loading.message (h : c.Loading steps) (msg : Uint8List) :
    (c.deliver msg).Loading (steps ++ [.message msg]) := by
  have hlistening := deliver_listening h.listening msg
  have hdeliver : c.deliver msg =
      microtasks.drain (c.onManagerEvent msg).1 (c.onManagerEvent msg).2 := by
    rw [deliver, h.listening.portOpen]
    rfl
  rcases dispatch_cases msg with ⟨e, hd⟩ | hd | ⟨event, hd⟩
  · have hs : snapshot? msg = none := by rw [snapshot?, hd]
    have hsame : c.deliver msg = { c with uncaught := c.uncaught ++ [e] } := by
      rw [hdeliver, onManagerEvent, hd]
      rfl
    exact h.same hlistening (by rw [hsame]) (by rw [hsame]) (fun hne ↦ absurd hs hne)
  · have hs : snapshot? msg = none := by rw [snapshot?, hd]
    have hsame : c.deliver msg = c := by
      rw [hdeliver, onManagerEvent, hd]
      rfl
    exact h.same hlistening (by rw [hsame]) (by rw [hsame]) (fun hne ↦ absurd hs hne)
  · have hs : snapshot? msg = eventSnapshot event := by rw [snapshot?, hd]
    have hrun := hdeliver
    rw [onManagerEvent_some h.listening.streamOpen hd, drain_event] at hrun
    split at hrun
    · rename_i hfirst
      rw [Tasks.drain_singleton] at hrun
      have hdone : (c.deliver msg).connected = true ∧
          (c.deliver msg).loaded.isCompleted = true := by
        rw [hrun]
        exact drain_completeLoaded h.loaded
      refine ⟨?_, hdone.2.trans hdone.1.symm, iff_of_true hdone.1 ?_⟩
      · rw [messages_append]
        exact hlistening
      · apply (returns_concat_message steps msg).mpr
        rw [hs]
        exact .inr hfirst.2
    · rename_i hlater
      refine h.same hlistening (by rw [hrun]) (by rw [hrun]) ?_
      intro hne
      have hwaiter := h.listening.waiter
      split at hwaiter
      · exact absurd ⟨hwaiter, hs ▸ hne⟩ hlater
      · rename_i hsome
        right
        by_contra hnone
        apply hsome
        rw [List.filterMap_eq_nil_iff]
        intro m hm
        by_contra hm'
        exact hnone ⟨m, hm, hm'⟩

theorem run_loading {before : List ManagerStep} (h : c.Loading before)
    (steps : List ManagerStep) : (c.run steps).Loading (before ++ steps) := by
  induction steps generalizing c before with
  | nil => simpa [run] using h
  | cons s steps ih =>
    have hsplit : before ++ s :: steps = (before ++ [s]) ++ steps := by simp
    rw [hsplit]
    cases s with
    | message msg => exact ih (h.message msg)
    | timeout => exact ih h.timeout

theorem start_loading : Loading {} [] where
  listening := start_listening
  loaded := rfl
  returned := by simp [Returns, messages]

end ManagerClient

open ManagerClient

/-- The event that a signal of the daemon gives; the list of transactions is kept back. -/
def signalEvent : ManagerSignal → Option ManagerEvent
  | .updatesChanged => some .updatesChanged
  | .repoListChanged => some .repoListChanged
  | .networkStateChanged state => some (.networkStateChanged state.toNat)
  | .transactionListChanged _ => none

theorem eventsOf_handle (sg : ManagerSignal) :
    eventsOf ((handle sg).map arrived) = (signalEvent sg).toList := by
  cases sg with
  | networkStateChanged state =>
    have hd : dispatchManagerEvent (arrived (onNetworkStateChanged state)) = _ :=
      networkState_posted state
    rw [handle, List.map_singleton, eventsOf_singleton, event?, hd]
    rfl
  | _ => rfl

theorem eventsOf_signals (signals : List ManagerSignal) :
    eventsOf ((signals.flatMap handle).map arrived) = signals.filterMap signalEvent := by
  induction signals with
  | nil => rfl
  | cons sg signals ih =>
    have hsg := eventsOf_handle sg
    rw [eventsOf] at ih hsg ⊢
    rw [List.flatMap_cons, List.map_append, List.filterMap_append, ih, hsg, List.filterMap_cons]
    cases signalEvent sg <;> rfl

/-- The snapshot that is posted, as the event it gives: none if the daemon refuses a
property, or if one of the strings it sends is malformed. -/
def snapshotEvents (reads : PropertyReads) : List ManagerEvent :=
  eventsOf ((pkManagerReadProperties reads).map arrived)

theorem snapshotEvents_of_refused {reads : PropertyReads} {e : SdbusError}
    (h : readAll reads = .error e) : snapshotEvents reads = [] := by
  rw [snapshotEvents, pkManagerReadProperties, readProperties, h]
  rfl

theorem snapshotEvents_of_read {reads : PropertyReads} {props : Native.PkManagerProps}
    (h : readAll reads = .ok props) :
    snapshotEvents reads =
      (GlazeCodec.decode .pkManagerProps (arrived (propsMessage props)) 1).toOption.toList.map
        ManagerEvent.props := by
  have hposts : pkManagerReadProperties reads = [propsMessage props] := by
    rw [pkManagerReadProperties, readProperties, h]
    rfl
  rw [snapshotEvents, hposts, List.map_singleton, eventsOf_singleton, event?,
    dispatch_propsMessage]
  cases GlazeCodec.decode .pkManagerProps (arrived (propsMessage props)) 1 <;> rfl

section Snapshot

variable {reads : PropertyReads} {props : Native.PkManagerProps}

theorem decode_snapshot (hsized : WireType.AllSized .pkManagerProps props)
    (hread : WireType.Readable .pkManagerProps props) :
    ∃ v, Agrees .pkManagerProps props v ∧
      GlazeCodec.decode .pkManagerProps (arrived (propsMessage props)) 1 = .ok v := by
  have hglz := glzDecode_posted hsized props []
  rw [List.append_nil] at hglz
  rcases decode_of_readable hglz hread with ⟨v, r, hdecode, -, hagrees⟩ | ⟨e, he, -⟩
  · exact ⟨v, hagrees, congrArg (Except.map Prod.fst) hdecode⟩
  · exact absurd he not_false

theorem decode_unreadable_snapshot (hsized : WireType.AllSized .pkManagerProps props)
    (hread : ¬ WireType.Readable .pkManagerProps props) :
    GlazeCodec.decode .pkManagerProps (arrived (propsMessage props)) 1 = .error .malformedUtf8 := by
  have hglz := glzDecode_posted hsized props []
  rw [List.append_nil] at hglz
  exact decode_of_unreadable hglz hread

theorem snapshotEvents_of_readable (h : readAll reads = .ok props)
    (hsized : WireType.AllSized .pkManagerProps props)
    (hread : WireType.Readable .pkManagerProps props) :
    ∃ v, Agrees .pkManagerProps props v ∧ snapshotEvents reads = [.props v] := by
  obtain ⟨v, hagrees, hv⟩ := decode_snapshot hsized hread
  refine ⟨v, hagrees, ?_⟩
  rw [snapshotEvents_of_read h, hv]
  rfl

theorem snapshotEvents_of_unreadable (h : readAll reads = .ok props)
    (hsized : WireType.AllSized .pkManagerProps props)
    (hread : ¬ WireType.Readable .pkManagerProps props) : snapshotEvents reads = [] := by
  rw [snapshotEvents_of_read h, decode_unreadable_snapshot hsized hread]
  rfl

/-- A delivered message is a snapshot when it is the one that was read, and readable. -/
theorem snapshot_delivered {before after : List ManagerSignal} {msg : Uint8List}
    (hsized : ∀ props, readAll reads = .ok props → WireType.AllSized .pkManagerProps props)
    (hmsg : msg ∈ (before.flatMap handle ++ pkManagerReadProperties reads ++
      after.flatMap handle).map arrived) :
    snapshot? msg ≠ none ↔ ∃ props, readAll reads = .ok props ∧
      WireType.Readable .pkManagerProps props ∧ msg = arrived (propsMessage props) := by
  constructor
  · intro hsnapshot
    obtain ⟨m, hm, rfl⟩ := List.mem_map.mp hmsg
    have hplain (signals : List ManagerSignal) (hm : m ∈ signals.flatMap handle) : False := by
      obtain ⟨sg, -, hm⟩ := List.mem_flatMap.mp hm
      exact hsnapshot (signal_plain hm).1
    rcases List.mem_append.mp hm with hm | hm
    · rcases List.mem_append.mp hm with hm | hm
      · exact absurd hm (hplain before)
      · obtain ⟨props, hprops, rfl⟩ := mem_pkManagerReadProperties.mp hm
        refine ⟨props, hprops, ?_, rfl⟩
        by_contra hread
        apply hsnapshot
        rw [snapshot?, dispatch_propsMessage,
          decode_unreadable_snapshot (hsized props hprops) hread]
        rfl
    · exact absurd hm (hplain after)
  · intro h
    obtain ⟨props, hprops, hread, rfl⟩ := h
    obtain ⟨v, -, hv⟩ := decode_snapshot (hsized props hprops) hread
    rw [snapshot?, dispatch_propsMessage, hv]
    exact Option.some_ne_none v

end Snapshot

/-- What a listener of `daemonEvents` gets. -/
structure EventsDelivered (reads : PropertyReads) (before after : List ManagerSignal)
    (steps : List ManagerStep) : Prop where
  /-- The events are those of the daemon's signals and of the snapshot, in this order. -/
  complete : (run {} steps).daemonEvents.events =
    before.filterMap signalEvent ++ snapshotEvents reads ++ after.filterMap signalEvent
  /-- Subscribing at any point misses what came before and nothing else. -/
  later : ∀ p q, steps = p ++ q → (run {} steps).daemonEvents.events =
    (run {} p).daemonEvents.events ++ eventsOf (messages q)
  /-- Nothing follows the end of the stream. -/
  closed : ∀ more, ((run {} steps).close.run more).daemonEvents =
    (run {} steps).daemonEvents.close

/-- Every UpdatesChanged, RepoListChanged and NetworkStateChanged of the daemon reaches
`daemonEvents` once and in order, with the snapshot where it was read: one event with the daemon's
properties, or none if they cannot be had. TransactionListChanged gives no event. -/
theorem daemon_events_delivered (reads : PropertyReads) (before after : List ManagerSignal)
    {steps : List ManagerStep} (h : messages steps =
      (before.flatMap handle ++ pkManagerReadProperties reads ++ after.flatMap handle).map arrived) :
    EventsDelivered reads before after steps ∧
      ((∃ e, readAll reads = .error e) → snapshotEvents reads = []) ∧
      ∀ props, readAll reads = .ok props → WireType.AllSized .pkManagerProps props →
        (WireType.Readable .pkManagerProps props →
          ∃ v, Agrees .pkManagerProps props v ∧ snapshotEvents reads = [.props v]) ∧
        (¬ WireType.Readable .pkManagerProps props → snapshotEvents reads = []) := by
  have hrun (steps : List ManagerStep) :
      (run {} steps).daemonEvents.events = eventsOf (messages steps) :=
    run_events start_listening steps
  refine ⟨⟨?_, ?_, ?_⟩, ?_, ?_⟩
  · rw [hrun, h, List.map_append, List.map_append, eventsOf, List.filterMap_append,
      List.filterMap_append]
    exact congrArg₂ _ (congrArg (· ++ _) (eventsOf_signals before)) (eventsOf_signals after)
  · intro p q hsplit
    rw [hrun, hrun, hsplit, messages_append, eventsOf, List.filterMap_append]
    rfl
  · intro more
    obtain ⟨hevents, hport⟩ := close_kept (run {} steps)
    rw [run_of_port_closed hport, hevents]
  · intro hrefused
    obtain ⟨e, he⟩ := hrefused
    exact snapshotEvents_of_refused he
  · intro props hprops hsized
    exact ⟨snapshotEvents_of_readable hprops hsized, snapshotEvents_of_unreadable hprops hsized⟩

theorem daemon_events_delivered_refused :
    let steps : List ManagerStep := [.message (arrived onUpdatesChanged), .timeout,
      .message (arrived (onNetworkStateChanged 3))]
    EventsDelivered refusedReads [.updatesChanged, .transactionListChanged []]
      [.networkStateChanged 3] steps ∧ snapshotEvents refusedReads = [] := by
  intro steps
  obtain ⟨hdelivered, hrefused, -⟩ := daemon_events_delivered refusedReads
    [.updatesChanged, .transactionListChanged []] [.networkStateChanged 3] (rfl : messages steps = _)
  exact ⟨hdelivered, hrefused ⟨_, rfl⟩⟩

theorem mem_lastSnapshot {msgs : List Uint8List} {v : PkManagerProps}
    (h : lastSnapshot msgs = some v) : ∃ msg ∈ msgs, snapshot? msg = some v :=
  List.mem_filterMap.mp (List.mem_of_getLast? h)

theorem lastSnapshot_ne_none {msgs : List Uint8List} {msg : Uint8List} (hmsg : msg ∈ msgs)
    (h : snapshot? msg ≠ none) : lastSnapshot msgs ≠ none := by
  obtain ⟨v, hv⟩ := Option.ne_none_iff_exists'.mp h
  intro hnone
  have hnil : msgs.filterMap snapshot? = [] := List.getLast?_eq_none_iff.mp hnone
  have hmem : v ∈ msgs.filterMap snapshot? := List.mem_filterMap.mpr ⟨msg, hmsg, hv⟩
  rw [hnil] at hmem
  cases hmem

/-- `connect` returns when the daemon's properties have come or its ten seconds are over,
whichever is first, and stays there; before the timer it has the properties. -/
theorem connect_returns (reads : PropertyReads) (before after : List ManagerSignal)
    {start : ManagerClient} (hstart : connect .returned = .ok start)
    (hsized : ∀ props, readAll reads = .ok props → WireType.AllSized .pkManagerProps props)
    {steps : List ManagerStep} (h : messages steps <+:
      (before.flatMap handle ++ pkManagerReadProperties reads ++ after.flatMap handle).map arrived) :
    ((start.run steps).connected = true ↔ .timeout ∈ steps ∨
      ∃ props, readAll reads = .ok props ∧ WireType.Readable .pkManagerProps props ∧
        arrived (propsMessage props) ∈ messages steps) ∧
    ((start.run steps).connected = true → .timeout ∉ steps →
      ∃ props v, readAll reads = .ok props ∧ Agrees .pkManagerProps props v ∧
        (start.run steps).props = some v) ∧
    ∀ more, (start.run steps).connected = true ∨ .timeout ∈ more →
      (start.run (steps ++ more)).connected = true := by
  obtain rfl : {} = start := Except.ok.inj hstart
  have hload (steps : List ManagerStep) : (run {} steps).Loading steps := run_loading start_loading steps
  have hdelivered (msg : Uint8List) (hmsg : msg ∈ messages steps) :=
    snapshot_delivered hsized (h.subset hmsg)
  have hiff : (∃ msg ∈ messages steps, snapshot? msg ≠ none) ↔
      ∃ props, readAll reads = .ok props ∧ WireType.Readable .pkManagerProps props ∧
        arrived (propsMessage props) ∈ messages steps := by
    constructor
    · intro hsome
      obtain ⟨msg, hmsg, hsnapshot⟩ := hsome
      obtain ⟨props, hprops, hread, rfl⟩ := (hdelivered msg hmsg).mp hsnapshot
      exact ⟨props, hprops, hread, hmsg⟩
    · intro hsome
      obtain ⟨props, hprops, hread, hmsg⟩ := hsome
      exact ⟨_, hmsg, (hdelivered _ hmsg).mpr ⟨props, hprops, hread, rfl⟩⟩
  refine ⟨?_, ?_, ?_⟩
  · rw [(hload steps).returned, Returns, hiff]
  · intro hconnected htimeout
    obtain ⟨msg, hmsg, hsnapshot⟩ := ((hload steps).returned.mp hconnected).resolve_left htimeout
    obtain ⟨w, hw⟩ := Option.ne_none_iff_exists'.mp (lastSnapshot_ne_none hmsg hsnapshot)
    obtain ⟨msg', hmsg', hw'⟩ := mem_lastSnapshot hw
    obtain ⟨props, hprops, hread, rfl⟩ :=
      (hdelivered msg' hmsg').mp (by rw [hw']; exact Option.some_ne_none w)
    obtain ⟨v, hagrees, hv⟩ := decode_snapshot (hsized props hprops) hread
    rw [snapshot?, dispatch_propsMessage, hv] at hw'
    obtain rfl : v = w := Option.some.inj hw'
    exact ⟨props, v, hprops, hagrees, (hload steps).listening.props.trans hw⟩
  · intro more hmore
    rw [(hload (steps ++ more)).returned]
    rcases hmore with hconnected | htimeout
    · rcases (hload steps).returned.mp hconnected with htimeout | ⟨msg, hmsg, hsnapshot⟩
      · exact .inl (List.mem_append_left more htimeout)
      · refine .inr ⟨msg, ?_, hsnapshot⟩
        rw [messages_append]
        exact List.mem_append_left _ hmsg
    · exact .inl (List.mem_append_right steps htimeout)

/-- A daemon that has all its properties. -/
def plainProps : Native.PkManagerProps where
  backendName := Utf8.bytes "dnf"
  networkState := 2
  versionMajor := 1

def plainReads : PropertyReads :=
  { refusedReads with
    backendName := .ok plainProps.backendName
    versionMinor := .ok 0
    versionMicro := .ok 0 }

theorem connect_returns_plain :
    let steps : List ManagerStep :=
      [.message (arrived onUpdatesChanged), .message (arrived (propsMessage plainProps))]
    ((run {} steps).connected = true ↔ .timeout ∈ steps ∨
      ∃ props, readAll plainReads = .ok props ∧ WireType.Readable .pkManagerProps props ∧
        arrived (propsMessage props) ∈ messages steps) ∧
    ((run {} steps).connected = true → .timeout ∉ steps →
      ∃ props v, readAll plainReads = .ok props ∧ Agrees .pkManagerProps props v ∧
        (run {} steps).props = some v) := by
  intro steps
  have hsized : ∀ props, readAll plainReads = .ok props →
      WireType.AllSized .pkManagerProps props := by
    intro props hprops
    obtain rfl : plainProps = props := Except.ok.inj hprops
    rw [WireType.AllSized]
    decide
  obtain ⟨hiff, hprops, -⟩ := connect_returns plainReads [.updatesChanged] []
    (rfl : connect .returned = .ok {}) hsized (List.prefix_refl _ : messages steps <+: _)
  exact ⟨hiff, hprops⟩

end PackageKitDart.Client
