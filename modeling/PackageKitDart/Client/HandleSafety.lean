import PackageKitDart.Client.StartQuery

namespace PackageKitDart.Client

open Dart TaskQueue LatchedDemux Native PkTransactionBridge

/-- What the code of a started query does: it hands a message to `dispatch`, or calls the bridge. -/
inductive HandleAction
  | dispatch (msg : Uint8List)
  | bridge (call : BridgeCall)

namespace HandleAction

def destroys : HandleAction → Bool
  | .bridge call => call.isDestroy
  | .dispatch _ => false

/-- What must not be done with a handle that is null or destroyed. -/
def touches : HandleAction → Bool
  | .bridge .transactionCreate => false
  | .bridge _ | .dispatch _ => true

theorem touches_of_destroys {a : HandleAction} (h : a.destroys = true) : a.touches = true := by
  cases a with
  | dispatch msg => rfl
  | bridge call =>
    cases call with
    | transactionCreate => cases h
    | _ => rfl

end HandleAction

/-- What can happen to a started query from outside, and its next microtask. -/
inductive QueryStep
  | message (msg : Uint8List)
  | microtask
  | drain
  | cancel (outcome : CallOutcome)

namespace StartedQuery

def runMicrotask (q : StartedQuery) : StartedQuery :=
  match q.microtasks with
  | [] => q
  | task :: rest =>
    let (d, more) := TransactionDispatcher.microtasks.exec task q.dispatcher
    { q with dispatcher := d, microtasks := rest ++ more }

def step : QueryStep → StartedQuery → StartedQuery
  | .message msg, q => q.onMessage msg
  | .microtask, q => q.runMicrotask
  | .drain, q => q.drain
  | .cancel outcome, q => q.cancel outcome

def bridged (calls : List (BridgeCall × CallOutcome)) : List HandleAction :=
  calls.map (fun c ↦ .bridge c.1)

/-- The listener of an open port calls `dispatch` first. -/
def actions : QueryStep → StartedQuery → List HandleAction
  | .message msg, q =>
    (if q.portOpen then [.dispatch msg] else []) ++
      bridged ((q.onMessage msg).calls.drop q.calls.length)
  | s, q => bridged ((q.step s).calls.drop q.calls.length)

def actionsOf : List QueryStep → StartedQuery → List HandleAction
  | [], _ => []
  | s :: steps, q => q.actions s ++ (q.step s).actionsOf steps

/-- Everything done since `_startQuery` was called. -/
def history (q : StartedQuery) (steps : List QueryStep) : List HandleAction :=
  bridged q.calls ++ q.actionsOf steps

/-- What has been done does not touch a dead handle, and what can still be done does not either. -/
structure HandleSafe (q : StartedQuery) (valid : Bool) (log : List HandleAction) : Prop where
  handle : q.validHandle = valid
  uniform : q.dispatcher.Uniform
  finished : q.portOpen = false → q.dispatcher.finished = true
  alive : q.portOpen = true → valid = true ∧ ∀ a ∈ log, a.destroys = false
  ordered : log.Pairwise (fun a b ↦ a.destroys = true → b.touches = false)
  null : valid = false → ∀ a ∈ log, a.touches = false

variable {q : StartedQuery} {valid : Bool} {log : List HandleAction}

/-- A live handle can be used further, and destroyed at last. -/
theorem HandleSafe.append (h : q.HandleSafe valid log) (hport : q.portOpen = true)
    {q' : StartedQuery} {more : List HandleAction} (hu : q'.dispatcher.Uniform)
    (hvalid : q'.validHandle = q.validHandle)
    (hfinished : q'.portOpen = false → q'.dispatcher.finished = true)
    (halive : q'.portOpen = true → ∀ a ∈ more, a.destroys = false)
    (hmore : more.Pairwise (fun a b ↦ a.destroys = true → b.touches = false)) :
    q'.HandleSafe valid (log ++ more) := by
  obtain ⟨htrue, hlog⟩ := h.alive hport
  have hnone : ∀ a ∈ log, ∀ b : HandleAction, a.destroys = true → b.touches = false := by
    intro a ha b hdestroys
    rw [hlog a ha] at hdestroys
    cases hdestroys
  refine ⟨hvalid.trans h.handle, hu, hfinished, ?_, ?_, ?_⟩
  · intro hopen
    refine ⟨htrue, ?_⟩
    intro a ha
    exact (List.mem_append.mp ha).elim (hlog a) (halive hopen a)
  · rw [List.pairwise_append]
    exact ⟨List.pairwise_of_forall_mem_list (fun a ha b _ ↦ hnone a ha b), hmore,
      fun a ha b _ ↦ hnone a ha b⟩
  · intro hnull
    rw [htrue] at hnull
    cases hnull

/-- A step that calls nothing, and after which a finished dispatcher is still finished. -/
theorem HandleSafe.quiet (h : q.HandleSafe valid log) {d : TransactionDispatcher}
    (hu : d.Uniform) (hfinished : q.dispatcher.finished = true → d.finished = true)
    (tasks : List Microtask) :
    ({ q with dispatcher := d, microtasks := tasks } : StartedQuery).HandleSafe valid log :=
  ⟨h.handle, hu, fun hport ↦ hfinished (h.finished hport), h.alive, h.ordered, h.null⟩

theorem exec_uniform {d : TransactionDispatcher} (hu : d.Uniform) (task : Microtask) :
    (TransactionDispatcher.microtasks.exec task d).1.Uniform := by
  cases task with
  | propagate => exact hu
  | close => exact d.close_uniform

theorem exec_finished {d : TransactionDispatcher} (hf : d.finished = true) (task : Microtask) :
    (TransactionDispatcher.microtasks.exec task d).1.finished = true := by
  cases task with
  | propagate => exact hf
  | close => exact d.close_finished

theorem HandleSafe.message (h : q.HandleSafe valid log) (msg : Uint8List) :
    (q.onMessage msg).HandleSafe valid (log ++ q.actions (.message msg)) := by
  cases hport : q.portOpen with
  | false =>
    have hsame : q.onMessage msg = q := by simp [onMessage, hport]
    simpa [actions, hsame, hport, bridged] using h
  | true =>
    obtain ⟨htrue, -⟩ := h.alive hport
    have hvalid := h.handle.trans htrue
    have hnext := onMessage_open h.uniform hport msg
    cases hf : q.dispatcher.finished with
    | false =>
      rw [hf, if_neg Bool.false_ne_true] at hnext
      have hactions : q.actions (.message msg) = [.dispatch msg] := by
        simp [actions, hport, hnext, responded, bridged]
      rw [hactions, hnext]
      refine h.append hport (TransactionDispatcher.respond_uniform h.uniform _) rfl ?_ ?_
        (List.pairwise_singleton _ _)
      · intro hclosed
        rw [responded, hport] at hclosed
        cases hclosed
      · intro _ a ha
        rw [List.mem_singleton.mp ha]
        rfl
    | true =>
      rw [hf, if_pos rfl] at hnext
      have hactions : q.actions (.message msg) =
          [.dispatch msg, .bridge .transactionDestroy] := by
        simp [actions, hport, hnext, closeAll, responded, hvalid, bridged]
      rw [hactions, hnext]
      refine h.append hport (TransactionDispatcher.close_uniform _) rfl ?_ ?_ ?_
      · intro _
        exact TransactionDispatcher.close_finished _
      · intro hopen
        cases hopen
      · simp [HandleAction.destroys]

theorem HandleSafe.cancel (h : q.HandleSafe valid log) (outcome : CallOutcome) :
    (q.cancel outcome).HandleSafe valid (log ++ q.actions (.cancel outcome)) := by
  cases hf : q.dispatcher.finished with
  | true =>
    have hsame : q.cancel outcome = q := by simp [StartedQuery.cancel, hf]
    simpa [actions, StartedQuery.step, hsame, bridged] using h
  | false =>
    have hport : q.portOpen = true := by
      cases hport : q.portOpen with
      | true => rfl
      | false => rw [h.finished hport] at hf; cases hf
    have hnext : q.cancel outcome =
        { q with calls := q.calls ++ [(.transactionCancel, outcome)] } := by
      simp [StartedQuery.cancel, hf]
    have hactions : q.actions (.cancel outcome) = [.bridge .transactionCancel] := by
      simp [actions, StartedQuery.step, hnext, bridged]
    rw [hactions, hnext]
    refine h.append hport h.uniform rfl h.finished ?_ (List.pairwise_singleton _ _)
    intro _ a ha
    rw [List.mem_singleton.mp ha]
    rfl

theorem HandleSafe.microtask (h : q.HandleSafe valid log) :
    q.runMicrotask.HandleSafe valid (log ++ q.actions .microtask) := by
  have hactions : q.actions .microtask = [] := by
    simp only [actions, StartedQuery.step, runMicrotask]
    split <;> simp [bridged]
  rw [hactions, List.append_nil, runMicrotask]
  split
  · exact h
  · exact h.quiet (exec_uniform h.uniform _) (fun hf ↦ exec_finished hf _) _

theorem HandleSafe.drain (h : q.HandleSafe valid log) :
    q.drain.HandleSafe valid (log ++ q.actions .drain) := by
  have hactions : q.actions .drain = [] := by
    simp [actions, StartedQuery.step, StartedQuery.drain, bridged]
  rw [hactions, List.append_nil]
  refine h.quiet (TransactionDispatcher.drain_uniform h.uniform _) ?_ _
  intro hf
  exact TransactionDispatcher.microtasks.drain_invariant
    (I := fun d ↦ d.finished = true) (fun task _ hd ↦ exec_finished hd task) hf _

theorem HandleSafe.step (h : q.HandleSafe valid log) :
    (s : QueryStep) → (q.step s).HandleSafe valid (log ++ q.actions s)
  | .message msg => h.message msg
  | .microtask => h.microtask
  | .drain => h.drain
  | .cancel outcome => h.cancel outcome

theorem HandleSafe.run (h : q.HandleSafe valid log) (steps : List QueryStep) :
    ∃ q' : StartedQuery, q'.HandleSafe valid (log ++ q.actionsOf steps) := by
  induction steps generalizing q log with
  | nil => exact ⟨q, by rwa [actionsOf, List.append_nil]⟩
  | cons s steps ih =>
    obtain ⟨q', hq'⟩ := ih (h.step s)
    exact ⟨q', by rwa [actionsOf, ← List.append_assoc]⟩

theorem safe_startedValid (op : Operation) (interactive : Bool) (outcomes : StartOutcomes) :
    (startedValid op interactive outcomes).HandleSafe true
      (bridged (startedValid op interactive outcomes).calls) where
  handle := rfl
  uniform := TransactionDispatcher.fresh_uniform
  finished h := by cases h
  alive _ := ⟨rfl, by simp [startedValid, bridged, HandleAction.destroys, BridgeCall.isDestroy]⟩
  ordered := by simp [startedValid, bridged, HandleAction.destroys, BridgeCall.isDestroy]
  null h := by cases h

theorem safe_startedNull (outcomes : StartOutcomes) :
    (startedNull outcomes).HandleSafe false (bridged (startedNull outcomes).calls) where
  handle := rfl
  uniform := TransactionDispatcher.close_uniform {}
  finished _ := TransactionDispatcher.close_finished {}
  alive h := by cases h
  ordered := List.pairwise_singleton _ _
  null _ := by simp [startedNull, bridged, HandleAction.touches]

end StartedQuery

theorem countP_destroys_le_one {log : List HandleAction}
    (h : log.Pairwise (fun a b ↦ a.destroys = true → b.touches = false)) :
    log.countP HandleAction.destroys ≤ 1 := by
  induction h with
  | nil => exact Nat.zero_le 1
  | @cons a log ha _ ih =>
    rw [List.countP_cons]
    cases hdestroys : a.destroys with
    | false => simpa using ih
    | true =>
      have hnone : log.countP HandleAction.destroys = 0 := by
        rw [List.countP_eq_zero]
        intro b hb hdestroys'
        have htouches := HandleAction.touches_of_destroys hdestroys'
        rw [ha b hb hdestroys] at htouches
        cases htouches
      simp [hnone]

theorem safe_startQuery (op : Operation) (interactive : Bool) (outcomes : StartOutcomes) :
    ∃ q, startQuery op interactive outcomes = .ok q ∧
      q.HandleSafe (pkTransactionCreate outcomes.create) (StartedQuery.bridged q.calls) := by
  cases hcreate : outcomes.create with
  | returned =>
    exact ⟨_, startQuery_valid op interactive hcreate,
      StartedQuery.safe_startedValid op interactive outcomes⟩
  | raised e =>
    refine ⟨_, startQuery_null op interactive ?_, StartedQuery.safe_startedNull outcomes⟩
    rw [hcreate]
    exact fun h ↦ by cases h

/-- The handle is destroyed at most once, is not touched any more after that,
and is never touched when it is null. -/
theorem handle_safety (op : Operation) (interactive : Bool) (outcomes : StartOutcomes)
    (steps : List QueryStep) :
    ∃ q, startQuery op interactive outcomes = .ok q ∧
      (q.history steps).countP HandleAction.destroys ≤ 1 ∧
      (q.history steps).Pairwise (fun a b ↦ a.destroys = true → b.touches = false) ∧
      (pkTransactionCreate outcomes.create = false → ∀ a ∈ q.history steps, a.touches = false) := by
  obtain ⟨q, hstart, hsafe⟩ := safe_startQuery op interactive outcomes
  obtain ⟨q', hsafe'⟩ := hsafe.run steps
  exact ⟨q, hstart, countP_destroys_le_one hsafe'.ordered, hsafe'.ordered, hsafe'.null⟩

end PackageKitDart.Client
