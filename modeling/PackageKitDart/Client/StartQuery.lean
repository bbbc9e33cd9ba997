import PackageKitDart.Client.PostedReadings

namespace PackageKitDart.Client

open Dart TaskQueue LatchedDemux Native PkTransactionBridge

inductive BridgeCall
  | transactionCreate
  | transactionSetHints (interactive : Bool)
  | operation (op : Operation)
  | transactionCancel
  | transactionDestroy

namespace BridgeCall

/-- What such a call does on the native side, given how its D-Bus call ends. -/
def effects : BridgeCall → CallOutcome → Effects
  | .transactionCreate, _ => {}
  | .transactionSetHints interactive, outcome =>
    pkTransactionSetHints (some (Utf8.bytes "en_US.UTF-8")) interactive outcome
  | .operation op, outcome => pkOperation op outcome
  | .transactionCancel, outcome => pkCancel outcome
  | .transactionDestroy, _ => pkTransactionDestroy

def isDestroy : BridgeCall → Bool
  | .transactionDestroy => true
  | _ => false

end BridgeCall

/-- What `_startQuery` leaves behind: the objects its closures share, the
microtasks still queued, and every bridge call made so far. -/
structure StartedQuery where
  dispatcher : TransactionDispatcher := {}
  portOpen : Bool := true
  validHandle : Bool
  microtasks : List Microtask := []
  calls : List (BridgeCall × CallOutcome) := []

structure StartOutcomes where
  create : CallOutcome
  setHints : CallOutcome
  method : CallOutcome

namespace StartedQuery

def closeAll (q : StartedQuery) : StartedQuery :=
  { q with
    dispatcher := q.dispatcher.close
    portOpen := false
    calls := if q.validHandle then q.calls ++ [(.transactionDestroy, .returned)] else q.calls }

/-- The port listener. A closed port delivers nothing, and an error thrown by
`dispatch` would leave the listener at once. -/
def onMessage (q : StartedQuery) (msg : Uint8List) : StartedQuery :=
  if !q.portOpen then q
  else
    match q.dispatcher.dispatch msg with
    | .error _ => q
    | .ok (d, tasks) =>
      let q' := { q with dispatcher := d, microtasks := q.microtasks ++ tasks }
      if d.finished then q'.closeAll else q'

def drain (q : StartedQuery) : StartedQuery :=
  { q with
    dispatcher := TransactionDispatcher.microtasks.drain q.dispatcher q.microtasks
    microtasks := [] }

/-- The `cancel` closure of the returned `PkTransaction`. -/
def cancel (q : StartedQuery) (outcome : CallOutcome) : StartedQuery :=
  if !q.dispatcher.finished then { q with calls := q.calls ++ [(.transactionCancel, outcome)] }
  else q

def deliver (q : StartedQuery) (msg : Uint8List) : StartedQuery := (q.onMessage msg).drain

def deliverAll (q : StartedQuery) (msgs : List Uint8List) : StartedQuery := msgs.foldl deliver q

def destroys (q : StartedQuery) : ℕ := q.calls.countP (fun c ↦ c.1.isDestroy)

def sent (q : StartedQuery) : List (MethodCall × CallOutcome) :=
  q.calls.flatMap (fun c ↦ (c.1.effects c.2).sent)

/-- What the Dart thread has posted to the port so far. -/
def posted (q : StartedQuery) : List Posted := q.calls.flatMap (fun c ↦ (c.1.effects c.2).posted)

end StartedQuery

/-- `PkClient._startQuery`, for an operation that `invoke` passes on. -/
def startQuery (op : Operation) (interactive : Bool) (outcomes : StartOutcomes) :
    Except DartError StartedQuery := do
  let validHandle := pkTransactionCreate outcomes.create
  let q : StartedQuery :=
    { validHandle := validHandle, calls := [(.transactionCreate, outcomes.create)] }
  if !validHandle then
    let q := q.closeAll
    let done ← q.dispatcher.done.completeError
      (.serviceUnavailable "Failed to create PackageKit transaction.")
    return { q with
      dispatcher := { q.dispatcher with done := done }
      microtasks := q.microtasks ++ [.propagate] }
  else
    return { q with
      calls := q.calls ++
        [(.transactionSetHints interactive, outcomes.setHints), (.operation op, outcomes.method)] }

/-- A start on a valid handle, and one that got a null handle. -/
def startedValid (op : Operation) (interactive : Bool) (outcomes : StartOutcomes) :
    StartedQuery where
  validHandle := true
  calls := [(.transactionCreate, outcomes.create),
    (.transactionSetHints interactive, outcomes.setHints), (.operation op, outcomes.method)]

def startedNull (outcomes : StartOutcomes) : StartedQuery where
  dispatcher := { ({} : TransactionDispatcher).close with
    done := { outcome := some (.error
      (.serviceUnavailable "Failed to create PackageKit transaction.")) } }
  portOpen := false
  validHandle := false
  microtasks := [.propagate]
  calls := [(.transactionCreate, outcomes.create)]

theorem startQuery_valid (op : Operation) (interactive : Bool) {outcomes : StartOutcomes}
    (h : outcomes.create = .returned) :
    startQuery op interactive outcomes = .ok (startedValid op interactive outcomes) := by
  simp [startQuery, h, pkTransactionCreate, startedValid]

theorem startQuery_null (op : Operation) (interactive : Bool) {outcomes : StartOutcomes}
    (h : outcomes.create ≠ .returned) :
    startQuery op interactive outcomes = .ok (startedNull outcomes) := by
  have hnull : pkTransactionCreate outcomes.create = false := by
    cases hc : outcomes.create with
    | returned => exact absurd hc h
    | raised e => rfl
  have hnone : (({} : TransactionDispatcher).close).done.outcome = none := by simp
  simp only [startQuery, hnull, StartedQuery.closeAll, Completer.completeError,
    Completer.settle_of_none hnone, Bool.not_false, if_true, ok_bind, pure_eq_ok]
  rfl

namespace StartedQuery

/-- No microtask is pending, and the port is only closed once the dispatcher has finished. -/
structure Ready (q : StartedQuery) : Prop where
  uniform : q.dispatcher.Uniform
  idle : q.microtasks = []
  finished : q.portOpen = false → q.dispatcher.finished = true

theorem ready_startedValid (op : Operation) (interactive : Bool) (outcomes : StartOutcomes) :
    (startedValid op interactive outcomes).Ready where
  uniform := TransactionDispatcher.fresh_uniform
  idle := rfl
  finished h := absurd h (by simp [startedValid])

variable {q : StartedQuery}

/-- What the dispatcher makes of a message, before the listener looks whether it has finished. -/
def responded (q : StartedQuery) (msg : Uint8List) : StartedQuery :=
  { q with
    dispatcher := (q.dispatcher.respond (reading msg)).1
    microtasks := q.microtasks ++ (q.dispatcher.respond (reading msg)).2 }

theorem onMessage_open (hu : q.dispatcher.Uniform) (hport : q.portOpen = true) (msg : Uint8List) :
    q.onMessage msg =
      if q.dispatcher.finished then (q.responded msg).closeAll else q.responded msg := by
  have hfin := TransactionDispatcher.respond_finished q.dispatcher (reading msg)
  have hopen : ¬ (!q.portOpen) = true := by simp [hport]
  rw [onMessage, if_neg hopen, TransactionDispatcher.dispatch_eq hu, ← hfin]
  rfl

theorem deliver_of_port_closed (h : q.Ready) (hport : q.portOpen = false) (msg : Uint8List) :
    q.deliver msg = q := by
  obtain ⟨d, portOpen, validHandle, tasks, calls⟩ := q
  obtain rfl : tasks = [] := h.idle
  obtain rfl : portOpen = false := hport
  rfl

/-- The bridge is destroyed by the first message that finds the dispatcher finished. -/
theorem deliver_open (h : q.Ready) (hport : q.portOpen = true) (msg : Uint8List) :
    (q.deliver msg).dispatcher =
        TransactionDispatcher.microtasks.drain (q.dispatcher.respond (reading msg)).1
          (q.dispatcher.respond (reading msg)).2 ∧
      (q.deliver msg).portOpen = !q.dispatcher.finished ∧
      (q.deliver msg).validHandle = q.validHandle ∧ (q.deliver msg).microtasks = [] ∧
      (q.deliver msg).calls =
        q.calls ++ if q.dispatcher.finished && q.validHandle then [(.transactionDestroy, .returned)]
          else [] := by
  have hfin := TransactionDispatcher.respond_finished q.dispatcher (reading msg)
  have hunif := TransactionDispatcher.respond_uniform h.uniform (reading msg)
  rw [deliver, onMessage_open h.uniform hport]
  cases hf : q.dispatcher.finished with
  | false => simp [drain, responded, h.idle, hport]
  | true =>
    have hclose := TransactionDispatcher.close_of_finished hunif (hfin.trans hf)
    cases hvalid : q.validHandle <;> simp [drain, closeAll, responded, h.idle, hclose, hvalid]

theorem deliver_ready (h : q.Ready) (msg : Uint8List) : (q.deliver msg).Ready := by
  cases hport : q.portOpen with
  | false => rwa [deliver_of_port_closed h hport]
  | true =>
    obtain ⟨hd, hp, -, ht, -⟩ := deliver_open h hport msg
    have hview := TransactionDispatcher.view_drain_respond q.dispatcher (reading msg)
    refine ⟨?_, ht, ?_⟩
    · rw [hd]
      exact TransactionDispatcher.drain_uniform
        (TransactionDispatcher.respond_uniform h.uniform (reading msg)) _
    · intro hclosed
      have hfin : q.dispatcher.finished = true := by simpa [hp] using hclosed
      have hclosed := congrArg State.closed hview
      rw [step_closed] at hclosed
      rw [hd]
      exact hclosed.trans (by simp [TransactionDispatcher.view, hfin])

theorem deliver_finished (h : q.Ready) (msg : Uint8List) :
    (q.deliver msg).dispatcher.finished =
      (q.dispatcher.finished || (q.portOpen && closing msg)) := by
  cases hport : q.portOpen with
  | false => simp [deliver_of_port_closed h hport]
  | true =>
    obtain ⟨hd, -⟩ := deliver_open h hport msg
    have hclosed := congrArg State.closed
      (TransactionDispatcher.view_drain_respond q.dispatcher (reading msg))
    rw [step_closed] at hclosed
    rw [hd, Bool.true_and]
    exact hclosed

/-- What the messages sent to the port so far say about the transaction. -/
structure Tracked (q : StartedQuery) (msgs : List Uint8List) : Prop where
  ready : q.Ready
  finished : q.validHandle = true →
    (q.dispatcher.finished = true ↔ ∃ m ∈ msgs, closing m = true)
  port : q.validHandle = true → (q.portOpen = false ↔ ∃ m ∈ msgs.dropLast, closing m = true)
  null : q.validHandle = false → q.portOpen = false
  destroys : q.destroys = if q.validHandle && !q.portOpen then 1 else 0

theorem tracked_startedValid (op : Operation) (interactive : Bool) (outcomes : StartOutcomes) :
    (startedValid op interactive outcomes).Tracked [] where
  ready := ready_startedValid op interactive outcomes
  finished _ := by simp [startedValid]
  port _ := by simp [startedValid]
  null hnull := by cases hnull
  destroys := rfl

theorem tracked_startedNull (outcomes : StartOutcomes) :
    (startedNull outcomes).drain.Tracked [] where
  ready := ⟨TransactionDispatcher.close_uniform {}, rfl, fun _ ↦ rfl⟩
  finished hvalid := by cases hvalid
  port hvalid := by cases hvalid
  null _ := rfl
  destroys := rfl

theorem deliver_validHandle (h : q.Ready) (msg : Uint8List) :
    (q.deliver msg).validHandle = q.validHandle := by
  cases hport : q.portOpen with
  | false => rw [deliver_of_port_closed h hport]
  | true =>
    obtain ⟨-, -, hv, -⟩ := deliver_open h hport msg
    exact hv

theorem deliverAll_validHandle (h : q.Ready) (msgs : List Uint8List) :
    (q.deliverAll msgs).validHandle = q.validHandle := by
  induction msgs generalizing q with
  | nil => rfl
  | cons m msgs ih => exact (ih (deliver_ready h m)).trans (deliver_validHandle h m)

variable {msgs : List Uint8List}

theorem cancel_spec (q : StartedQuery) (outcome : CallOutcome) :
    ∃ more, q.cancel outcome = { q with calls := q.calls ++ more } ∧
      more.countP (fun c ↦ c.1.isDestroy) = 0 := by
  unfold cancel
  split
  · exact ⟨_, rfl, rfl⟩
  · refine ⟨[], ?_, rfl⟩
    rw [List.append_nil]

theorem Tracked.cancel (h : q.Tracked msgs) (outcome : CallOutcome) :
    (q.cancel outcome).Tracked msgs := by
  obtain ⟨more, hcancel, hmore⟩ := q.cancel_spec outcome
  rw [hcancel]
  refine ⟨⟨h.ready.uniform, h.ready.idle, h.ready.finished⟩, h.finished, h.port, h.null, ?_⟩
  have hcount := h.destroys
  rw [StartedQuery.destroys] at hcount ⊢
  rw [List.countP_append, hmore]
  exact hcount

theorem Tracked.deliver (h : q.Tracked msgs) (msg : Uint8List) :
    (q.deliver msg).Tracked (msgs ++ [msg]) := by
  cases hport : q.portOpen with
  | false =>
    have hfin := h.ready.finished hport
    rw [deliver_of_port_closed h.ready hport]
    refine ⟨h.ready, ?_, ?_, h.null, h.destroys⟩
    · intro hvalid
      obtain ⟨m, hm, hclosing⟩ := (h.finished hvalid).mp hfin
      exact iff_of_true hfin ⟨m, List.mem_append_left _ hm, hclosing⟩
    · intro hvalid
      rw [List.dropLast_concat]
      exact iff_of_true hport ((h.finished hvalid).mp hfin)
  | true =>
    obtain ⟨-, hp, hv, -, hcalls⟩ := deliver_open h.ready hport msg
    have hfin := deliver_finished h.ready msg
    have hvalid : q.validHandle = true := by
      cases hv : q.validHandle with
      | true => rfl
      | false => rw [h.null hv] at hport; cases hport
    have hcount : (q.deliver msg).destroys =
        q.destroys + if q.dispatcher.finished then 1 else 0 := by
      rw [StartedQuery.destroys, hcalls, hvalid, List.countP_append, StartedQuery.destroys]
      cases q.dispatcher.finished <;> rfl
    have hzero := h.destroys
    rw [hport, hvalid] at hzero
    refine ⟨deliver_ready h.ready msg, ?_, ?_, ?_, ?_⟩
    · intro _
      simp only [hfin, hport, Bool.true_and, Bool.or_eq_true, h.finished hvalid, List.mem_append,
        List.mem_singleton, or_and_right, exists_or, exists_eq_left]
    · intro _
      simp only [hp, List.dropLast_concat, Bool.not_eq_false', h.finished hvalid]
    · intro hnull
      rw [hv, hvalid] at hnull
      cases hnull
    · rw [hcount, hzero, hp, hv, hvalid]
      cases q.dispatcher.finished <;> rfl

theorem Tracked.deliverAll (h : q.Tracked msgs) (more : List Uint8List) :
    (q.deliverAll more).Tracked (msgs ++ more) := by
  induction more generalizing q msgs with
  | nil => simpa [StartedQuery.deliverAll] using h
  | cons m more ih =>
    have hsplit : msgs ++ m :: more = (msgs ++ [m]) ++ more := by simp
    rw [hsplit]
    exact ih (h.deliver m)

end StartedQuery

/-- Cleanup happens exactly when something before the final Finished pair is
itself a sentinel or does not decode. -/
theorem cleanup_iff (op : Operation) (interactive : Bool) {outcomes : StartOutcomes}
    (hcreate : outcomes.create = .returned) (ms : List Posted) (exitCode runtime : UInt32) :
    ∃ q, startQuery op interactive outcomes = .ok q ∧
      (((q.deliverAll ((ms ++ postFinished exitCode runtime).map arrived)).portOpen = false ∧
        (q.deliverAll ((ms ++ postFinished exitCode runtime).map arrived)).destroys = 1) ↔
      ∃ m ∈ ms, closing (arrived m) = true) := by
  refine ⟨_, startQuery_valid op interactive hcreate, ?_⟩
  have htracked := (StartedQuery.tracked_startedValid op interactive outcomes).deliverAll
    ((ms ++ postFinished exitCode runtime).map arrived)
  have hvalid : ((startedValid op interactive outcomes).deliverAll
      ((ms ++ postFinished exitCode runtime).map arrived)).validHandle = true :=
    StartedQuery.deliverAll_validHandle
      (StartedQuery.ready_startedValid op interactive outcomes) _
  have hlast : ((ms ++ postFinished exitCode runtime).map arrived).dropLast =
      (ms ++ [finishedMessage exitCode runtime]).map arrived := by
    have hsplit : ms ++ postFinished exitCode runtime =
        (ms ++ [finishedMessage exitCode runtime]) ++ [sentinelMessage] := by
      simp [postFinished]
    rw [hsplit, List.map_append, List.map_singleton, List.dropLast_concat]
  have hfinished : closing (arrived (finishedMessage exitCode runtime)) = false :=
    congrArg Item.closes (reading_finishedMessage exitCode runtime)
  have hport := htracked.port hvalid
  rw [List.nil_append, hlast] at hport
  have hcount := htracked.destroys
  constructor
  · intro hcleanup
    obtain ⟨hclosed, -⟩ := hcleanup
    obtain ⟨m, hm, hclosing⟩ := hport.mp hclosed
    rw [List.map_append, List.map_singleton, List.mem_append, List.mem_singleton] at hm
    rcases hm with hm | rfl
    · obtain ⟨posted, hposted, rfl⟩ := List.mem_map.mp hm
      exact ⟨posted, hposted, hclosing⟩
    · rw [hfinished] at hclosing
      cases hclosing
  · intro ⟨m, hm, hclosing⟩
    have hclosed := hport.mpr ⟨arrived m, List.mem_map_of_mem (List.mem_append_left _ hm), hclosing⟩
    refine ⟨hclosed, ?_⟩
    rw [hcount, hvalid, hclosed]
    rfl

theorem cleanup_iff_refused_hints :
    let ms := postError (Utf8.bytes "denied")
    ∃ q, startQuery .getDistroUpgrades true ⟨.returned, .returned, .returned⟩ = .ok q ∧
      (((q.deliverAll ((ms ++ postFinished 1 0).map arrived)).portOpen = false ∧
        (q.deliverAll ((ms ++ postFinished 1 0).map arrived)).destroys = 1) ↔
      ∃ m ∈ ms, closing (arrived m) = true) :=
  cleanup_iff .getDistroUpgrades true rfl _ 1 0

/-- After a plain Finished pair the port stays open and the bridge is never destroyed. -/
theorem no_cleanup_after_finished :
    ∃ q, startQuery .getDistroUpgrades true ⟨.returned, .returned, .returned⟩ = .ok q ∧
      eventPosts [.finished 1 0] = [] ++ postFinished 1 0 ∧
      (q.deliverAll ((eventPosts [.finished 1 0]).map arrived)).portOpen = true ∧
      (q.deliverAll ((eventPosts [.finished 1 0]).map arrived)).destroys = 0 := by
  refine ⟨_, startQuery_valid .getDistroUpgrades true rfl, rfl, ?_, ?_⟩
  · decide
  · decide

end PackageKitDart.Client
