import PackageKitDart.Client.InstallPlan
import PackageKitDart.Client.PortTraffic

namespace PackageKitDart.Client

open Dart LatchedDemux MergedTrace TaskQueue Native PkTransactionBridge

/-- Where the body of `_collectPlan` stands: in the `await for` loop, at
`await tx.result` with the packages it has, or at its end. -/
inductive PlanPhase
  | collecting
  | awaiting (pkgs : List PkPackage)
  | completed (plan : Except PkException PkInstallPlan)

/-- A simulation under way: the transaction, the caller of `_collectPlan`,
whether the result's future has completed, and the errors given to the zone. -/
structure PlanRun where
  query : StartedQuery
  phase : PlanPhase := .collecting
  propagated : Bool := false
  uncaught : List PkException := []

/-- The dispatcher's microtasks, the done event of the packages stream, and the
end of `await tx.result`. -/
inductive PlanTask
  | propagate
  | close
  | packagesDone
  | resume
  deriving DecidableEq, Repr

def PlanTask.ofMicrotask : Microtask → PlanTask
  | .propagate => .propagate
  | .close => .close

def PlanTask.toMicrotask? : PlanTask → Option Microtask
  | .propagate => some .propagate
  | .close => some .close
  | .packagesDone | .resume => none

namespace PlanRun

def propagate (r : PlanRun) : PlanRun × List PlanTask :=
  match r.phase, r.query.dispatcher.done.outcome with
  | .collecting, some (.error e) =>
    ({ r with propagated := true, uncaught := r.uncaught ++ [e] }, [])
  | .awaiting _, _ => ({ r with propagated := true }, [.resume])
  | _, _ => ({ r with propagated := true }, [])

/-- The loop over `tx.packages` learns of the end only if it comes now. -/
def close (r : PlanRun) : PlanRun × List PlanTask :=
  ({ r with query := { r.query with dispatcher := r.query.dispatcher.close } },
    if (r.query.dispatcher.streams .packages).isClosed then [] else [.packagesDone])

def packagesDone (r : PlanRun) : PlanRun × List PlanTask :=
  ({ r with phase := .awaiting (r.query.dispatcher.streams .packages).events },
    if r.propagated then [.resume] else [])

def resume (r : PlanRun) : PlanRun × List PlanTask :=
  match r.phase, r.query.dispatcher.done.outcome with
  | .awaiting pkgs, some outcome =>
    ({ r with phase := .completed (outcome.map (fun _ ↦ planFromPackages pkgs)) }, [])
  | _, _ => (r, [])

def microtasks : Tasks PlanRun PlanTask where
  exec
    | .propagate, r => r.propagate
    | .close, r => r.close
    | .packagesDone, r => r.packagesDone
    | .resume, r => r.resume
  weight
    | .close => 3
    | .packagesDone | .propagate => 2
    | .resume => 1
  spawn_lt t r := by
    cases t with
    | propagate =>
      simp only [propagate]
      split <;> simp
    | close =>
      simp only [close]
      split <;> simp
    | packagesDone =>
      simp only [packagesDone]
      split <;> simp
    | resume =>
      simp only [resume]
      split <;> simp

def deliver (r : PlanRun) (msg : Uint8List) : PlanRun :=
  let q := r.query.onMessage msg
  microtasks.drain { r with query := { q with microtasks := [] } }
    (q.microtasks.map .ofMicrotask)

def deliverAll (r : PlanRun) (msgs : List Uint8List) : PlanRun := msgs.foldl deliver r

end PlanRun

/-- `_collectPlan` called on a fresh transaction, and the microtasks drained
before the first message. A stream closed already tells its listener in a
microtask of its own. -/
def collectPlan (q : StartedQuery) : PlanRun :=
  PlanRun.microtasks.drain { query := { q with microtasks := [] } }
    (q.microtasks.map .ofMicrotask ++
      if (q.dispatcher.streams .packages).isClosed then [.packagesDone] else [])

namespace PlanRun

theorem toMicrotask?_ofMicrotask (tasks : List Microtask) :
    (tasks.map PlanTask.ofMicrotask).filterMap PlanTask.toMicrotask? = tasks := by
  have hid : PlanTask.toMicrotask? ∘ PlanTask.ofMicrotask = some := by
    funext t
    cases t <;> rfl
  rw [List.filterMap_map, hid, List.filterMap_some]

/-- Under the caller, the dispatcher runs its own microtasks. -/
theorem drain_dispatcher (r : PlanRun) (tasks : List PlanTask) :
    (microtasks.drain r tasks).query.dispatcher =
      TransactionDispatcher.microtasks.drain r.query.dispatcher
        (tasks.filterMap PlanTask.toMicrotask?) := by
  refine microtasks.drain_simulation TransactionDispatcher.microtasks
    (fun r ↦ r.query.dispatcher) PlanTask.toMicrotask? ?_ ?_ r tasks
  · intro t r ht
    cases t with
    | propagate => cases ht
    | close => cases ht
    | packagesDone =>
      refine ⟨rfl, ?_⟩
      simp only [microtasks, packagesDone]
      split <;> rfl
    | resume =>
      simp only [microtasks, resume]
      split <;> exact ⟨rfl, rfl⟩
  · intro t t' r ht
    cases t with
    | propagate =>
      cases ht
      simp only [microtasks, propagate]
      split <;> exact ⟨rfl, rfl⟩
    | close =>
      cases ht
      refine ⟨rfl, ?_⟩
      simp only [microtasks, close]
      split <;> rfl
    | packagesDone => cases ht
    | resume => cases ht

theorem drain_query (r : PlanRun) (tasks : List PlanTask) :
    ∃ d, (microtasks.drain r tasks).query = { r.query with dispatcher := d } := by
  refine microtasks.drain_invariant
    (I := fun s ↦ ∃ d, s.query = { r.query with dispatcher := d }) ?_ ⟨_, rfl⟩ tasks
  intro t s hs
  obtain ⟨d, hd⟩ := hs
  cases t with
  | propagate =>
    simp only [microtasks, propagate]
    split <;> exact ⟨d, hd⟩
  | close => exact ⟨d.close, by simp only [microtasks, close, hd]⟩
  | packagesDone => exact ⟨d, hd⟩
  | resume =>
    simp only [microtasks, resume]
    split <;> exact ⟨d, hd⟩

theorem deliver_query (r : PlanRun) (msg : Uint8List) :
    (r.deliver msg).query = r.query.deliver msg := by
  obtain ⟨d, hd⟩ := drain_query
    { r with query := { r.query.onMessage msg with microtasks := [] } }
    ((r.query.onMessage msg).microtasks.map .ofMicrotask)
  have hdispatcher := drain_dispatcher
    { r with query := { r.query.onMessage msg with microtasks := [] } }
    ((r.query.onMessage msg).microtasks.map .ofMicrotask)
  rw [hd, toMicrotask?_ofMicrotask] at hdispatcher
  rw [deliver, hd, StartedQuery.deliver, StartedQuery.drain, ← hdispatcher]

def failures : Option Outcome → List PkException
  | some (.error e) => [e]
  | some (.ok _) | none => []

/-- Where `_collectPlan` stands, going by the transaction. -/
def settledPhase (d : TransactionDispatcher) : PlanPhase :=
  match d.finished, d.done.outcome with
  | true, some outcome =>
    .completed (outcome.map (fun _ ↦ planFromPackages (d.streams .packages).events))
  | _, _ => .collecting

variable {r : PlanRun}

theorem drain_propagate (hphase : r.phase = .collecting) (tasks : List PlanTask) :
    microtasks.drain r (.propagate :: tasks) =
      microtasks.drain
        { r with
          propagated := true
          uncaught := r.uncaught ++ failures r.query.dispatcher.done.outcome } tasks := by
  have hexec : microtasks.exec .propagate r =
      ({ r with
          propagated := true
          uncaught := r.uncaught ++ failures r.query.dispatcher.done.outcome }, []) := by
    simp only [microtasks, propagate, hphase]
    cases ho : r.query.dispatcher.done.outcome with
    | none => simp [failures]
    | some o => cases o <;> simp [failures]
  rw [Tasks.drain_cons, hexec, List.append_nil]

theorem drain_close_of_open {o : Outcome}
    (hopen : (r.query.dispatcher.streams .packages).isClosed = false)
    (hpropagated : r.propagated = true) (ho : r.query.dispatcher.done.outcome = some o) :
    microtasks.drain r [.close] =
      { r with
        query := { r.query with dispatcher := r.query.dispatcher.close }
        phase := settledPhase r.query.dispatcher.close } := by
  have hphase : settledPhase r.query.dispatcher.close = .completed
      (o.map (fun _ ↦ planFromPackages (r.query.dispatcher.streams .packages).events)) := by
    simp [settledPhase, ho]
  have hclose : microtasks.exec .close r =
      ({ r with query := { r.query with dispatcher := r.query.dispatcher.close } },
        [.packagesDone]) := by
    simp [microtasks, close, hopen]
  rw [Tasks.drain_cons, hclose, hphase]
  simp [Tasks.drain_cons, microtasks, packagesDone, resume, hpropagated, ho]

theorem drain_close_of_closed
    (hclosed : (r.query.dispatcher.streams .packages).isClosed = true) :
    microtasks.drain r [.close] =
      { r with query := { r.query with dispatcher := r.query.dispatcher.close } } := by
  have hclose : microtasks.exec .close r =
      ({ r with query := { r.query with dispatcher := r.query.dispatcher.close } }, []) := by
    simp [microtasks, close, hclosed]
  rw [Tasks.drain_cons, hclose]
  rfl

end PlanRun

/-- A dispatch completes the result. -/
def newlyDecided (d d' : TransactionDispatcher) : Bool := !d.done.isCompleted && d'.done.isCompleted

theorem record_tasks (d : TransactionDispatcher) (o : Outcome) :
    (d.record o).2 = if newlyDecided d (d.record o).1 then [.propagate] else [] := by
  unfold TransactionDispatcher.record newlyDecided
  cases hdone : d.done.isCompleted with
  | true => simp [hdone]
  | false => rfl

theorem respond_tasks (d : TransactionDispatcher) (i : Reading) :
    ∃ closes : Bool, (d.respond i).2 =
      (if newlyDecided d (d.respond i).1 then [.propagate] else []) ++
        if closes then [.close] else [] := by
  have hself : newlyDecided d d = false := by simp [newlyDecided]
  cases i with
  | data s event =>
    cases hf : d.finished with
    | true =>
      refine ⟨true, ?_⟩
      simp only [TransactionDispatcher.respond, hf, if_true, record_tasks]
    | false =>
      have hpush : newlyDecided d (d.push s event) = false := hself
      refine ⟨false, ?_⟩
      simp [TransactionDispatcher.respond, hf, hpush]
  | final o => exact ⟨false, (record_tasks d o).trans (List.append_nil _).symm⟩
  | stop =>
    refine ⟨true, ?_⟩
    simp [TransactionDispatcher.respond, hself]
  | fault o =>
    refine ⟨true, ?_⟩
    simp only [TransactionDispatcher.respond, if_true, record_tasks]
  | noise =>
    refine ⟨false, ?_⟩
    simp [TransactionDispatcher.respond, hself]

namespace PlanRun

structure Consistent (r : PlanRun) : Prop where
  propagated : r.propagated = r.query.dispatcher.done.isCompleted
  uncaught : r.uncaught = failures r.query.dispatcher.done.outcome
  phase : r.phase = settledPhase r.query.dispatcher

structure Tracks (r : PlanRun) (msgs : List Posted) : Prop extends Consistent r where
  ready : r.query.Ready
  view : r.query.dispatcher.view = run lateOutcome init (msgs.map postedReading)

variable {r : PlanRun}

theorem settledPhase_of_open {d : TransactionDispatcher} (h : d.finished = false) :
    settledPhase d = .collecting := by
  simp [settledPhase, h]

/-- The tasks of one dispatch, run for the caller as well. -/
theorem deliver_eq_of_open (h : r.query.Ready) (hport : r.query.portOpen = true) (msg : Uint8List) :
    ∃ q : StartedQuery, q.dispatcher = (r.query.dispatcher.respond (reading msg)).1 ∧
      r.deliver msg = microtasks.drain { r with query := q }
        ((r.query.dispatcher.respond (reading msg)).2.map .ofMicrotask) := by
  have hfin := TransactionDispatcher.respond_finished r.query.dispatcher (reading msg)
  have hunif := TransactionDispatcher.respond_uniform h.uniform (reading msg)
  rw [deliver, StartedQuery.onMessage_open h.uniform hport]
  cases hf : r.query.dispatcher.finished with
  | false => exact ⟨{ r.query.responded msg with microtasks := [] }, rfl, by
      simp [StartedQuery.responded, h.idle]⟩
  | true =>
    refine ⟨{ (r.query.responded msg).closeAll with microtasks := [] }, ?_, ?_⟩
    · exact TransactionDispatcher.close_of_finished hunif (hfin.trans hf)
    · simp [StartedQuery.closeAll, StartedQuery.responded, h.idle]

theorem deliver_eq_of_port_closed (h : r.query.Ready) (hport : r.query.portOpen = false)
    (msg : Uint8List) : r.deliver msg = r := by
  obtain ⟨⟨d, portOpen, validHandle, tasks, calls⟩, phase, propagated, uncaught⟩ := r
  obtain rfl : tasks = [] := h.idle
  obtain rfl : portOpen = false := hport
  rfl

theorem Consistent.close (h : r.Consistent) (hu : r.query.dispatcher.Uniform)
    (hdone : r.query.dispatcher.done.isCompleted = true) :
    (microtasks.drain r [.close]).Consistent := by
  obtain ⟨o, ho⟩ := Option.isSome_iff_exists.mp hdone
  have hpackages := hu .packages
  cases hf : r.query.dispatcher.finished with
  | true =>
    rw [hf] at hpackages
    rw [drain_close_of_closed hpackages, TransactionDispatcher.close_of_finished hu hf]
    exact h
  | false =>
    rw [hf] at hpackages
    rw [drain_close_of_open hpackages (h.propagated.trans hdone) ho]
    refine ⟨?_, ?_, rfl⟩
    · simpa using h.propagated
    · simpa using h.uncaught

section Respond

variable {q : StartedQuery} {i : Reading}

theorem Consistent.respond_of_same (h : r.Consistent)
    (hdecided : r.query.dispatcher.finished = true → r.query.dispatcher.done.isCompleted = true)
    (hq : q.dispatcher = (r.query.dispatcher.respond i).1)
    (hsame : newlyDecided r.query.dispatcher q.dispatcher = false) :
    Consistent { r with query := q } := by
  have hfin := TransactionDispatcher.respond_finished r.query.dispatcher i
  rw [← hq] at hfin
  have hdone : q.dispatcher.done.outcome = r.query.dispatcher.done.outcome := by
    cases hold : r.query.dispatcher.done.isCompleted with
    | true => rw [hq, TransactionDispatcher.respond_done_of_completed hold]
    | false =>
      have hnew : q.dispatcher.done.isCompleted = false := by simpa [newlyDecided, hold] using hsame
      rw [Completer.isCompleted_eq_false.mp hold, Completer.isCompleted_eq_false.mp hnew]
  refine ⟨?_, ?_, ?_⟩
  · rw [h.propagated, Completer.isCompleted, Completer.isCompleted, hdone]
  · rw [h.uncaught, hdone]
  · cases hf : r.query.dispatcher.finished with
    | true => rw [h.phase, hq, TransactionDispatcher.respond_of_settled hf (hdecided hf)]
    | false => rw [h.phase, settledPhase_of_open hf, settledPhase_of_open (hfin.trans hf)]

theorem Consistent.respond_of_new (h : r.Consistent)
    (hdecided : r.query.dispatcher.finished = true → r.query.dispatcher.done.isCompleted = true)
    (hq : q.dispatcher = (r.query.dispatcher.respond i).1)
    (hnew : newlyDecided r.query.dispatcher q.dispatcher = true) :
    ∃ s : PlanRun, s.query = q ∧ s.Consistent ∧ ∀ tasks,
      microtasks.drain { r with query := q } (.propagate :: tasks) = microtasks.drain s tasks := by
  obtain ⟨hold, hdone⟩ : r.query.dispatcher.done.isCompleted = false ∧
      q.dispatcher.done.isCompleted = true := by simpa [newlyDecided] using hnew
  -- nothing was decided before, so the streams are open and the loop still runs
  have hf : r.query.dispatcher.finished = false := by
    cases hf : r.query.dispatcher.finished with
    | true => rw [hdecided hf] at hold; cases hold
    | false => rfl
  have hnone := Completer.isCompleted_eq_false.mp hold
  have huncaught : r.uncaught = [] := by rw [h.uncaught, hnone, failures]
  have hphase : r.phase = .collecting := by rw [h.phase, settledPhase_of_open hf]
  have hopen : q.dispatcher.finished = false := by
    rw [hq, TransactionDispatcher.respond_finished, hf]
  refine ⟨{ r with
    query := q
    propagated := true
    uncaught := failures q.dispatcher.done.outcome }, rfl, ⟨hdone.symm, rfl, ?_⟩, ?_⟩
  · rw [settledPhase_of_open hopen]
    exact hphase
  · intro tasks
    refine (drain_propagate (r := { r with query := q }) hphase tasks).trans ?_
    simp only [huncaught, List.nil_append]

theorem Consistent.respond (h : r.Consistent)
    (hdecided : r.query.dispatcher.finished = true → r.query.dispatcher.done.isCompleted = true)
    (hq : q.dispatcher = (r.query.dispatcher.respond i).1) :
    ∃ s : PlanRun, s.query = q ∧ s.Consistent ∧ ∀ tasks,
      microtasks.drain { r with query := q }
        ((if newlyDecided r.query.dispatcher q.dispatcher then [.propagate] else []) ++ tasks) =
          microtasks.drain s tasks := by
  cases hnew : newlyDecided r.query.dispatcher q.dispatcher with
  | true => exact h.respond_of_new hdecided hq hnew
  | false =>
    exact ⟨{ r with query := q }, rfl, h.respond_of_same hdecided hq hnew, fun tasks ↦ rfl⟩

end Respond

theorem Tracks.deliver {msgs : List Posted} (h : r.Tracks msgs) {m : Posted}
    (hg : SentinelGuarded (msgs ++ [m])) : (r.deliver (arrived m)).Tracks (msgs ++ [m]) := by
  obtain ⟨hready, hview⟩ := view_deliver h.ready h.view hg.left m
  have hquery := r.deliver_query (arrived m)
  suffices hconsistent : (r.deliver (arrived m)).Consistent from
    { hconsistent with
      ready := hquery ▸ hready
      view := hquery ▸ hview }
  cases hport : r.query.portOpen with
  | false =>
    rw [deliver_eq_of_port_closed h.ready hport]
    exact h.toConsistent
  | true =>
    obtain ⟨q, hq, hdeliver⟩ := deliver_eq_of_open h.ready hport (arrived m)
    obtain ⟨closes, htasks⟩ := respond_tasks r.query.dispatcher (reading (arrived m))
    obtain ⟨s, hs, hconsistent, hdrain⟩ := h.toConsistent.respond
      (decided_of_finished hg.left h.view) hq
    have hmap : ((r.query.dispatcher.respond (reading (arrived m))).2.map PlanTask.ofMicrotask) =
        (if newlyDecided r.query.dispatcher q.dispatcher then [.propagate] else []) ++
          if closes then [.close] else [] := by
      rw [htasks, ← hq]
      cases newlyDecided r.query.dispatcher q.dispatcher <;> cases closes <;> rfl
    rw [hmap, hdrain] at hdeliver
    rw [hdeliver]
    cases closes with
    | false => exact hconsistent
    | true =>
      refine hconsistent.close ?_ ?_
      · rw [hs, hq]
        exact TransactionDispatcher.respond_uniform h.ready.uniform _
      · -- the streams get closed, so the result is there
        have hdispatcher := drain_dispatcher s [.close]
        have hclose : (r.deliver (arrived m)).query.dispatcher = s.query.dispatcher.close := by
          rw [hdeliver]
          exact hdispatcher
        have hdone := decided_of_finished hg (hquery ▸ hview)
          (by rw [hclose, TransactionDispatcher.close_finished])
        rwa [hclose, TransactionDispatcher.close_done] at hdone

theorem Tracks.deliverAll {before : List Posted} (h : r.Tracks before) (msgs : List Posted)
    (hg : SentinelGuarded (before ++ msgs)) :
    (r.deliverAll (msgs.map arrived)).Tracks (before ++ msgs) := by
  induction msgs generalizing r before with
  | nil => simpa [PlanRun.deliverAll] using h
  | cons m msgs ih =>
    have hsplit : before ++ m :: msgs = (before ++ [m]) ++ msgs := by simp
    rw [hsplit] at hg ⊢
    exact ih (h.deliver hg.left) hg

theorem tracks_startedValid (op : Operation) (interactive : Bool) (outcomes : StartOutcomes) :
    (collectPlan (startedValid op interactive outcomes)).Tracks [] where
  ready := StartedQuery.ready_startedValid op interactive outcomes
  view := rfl
  propagated := rfl
  uncaught := rfl
  phase := rfl

theorem deliverAll_of_port_closed (h : r.query.Ready) (hport : r.query.portOpen = false)
    (msgs : List Uint8List) : r.deliverAll msgs = r := by
  induction msgs with
  | nil => rfl
  | cons m msgs ih =>
    rwa [PlanRun.deliverAll, List.foldl_cons, deliver_eq_of_port_closed h hport]

/-- A failure reaches the caller of `_collectPlan` and nobody else. -/
structure ErrorsContained (r : PlanRun) : Prop where
  uncaught : r.uncaught = []
  completed : ∀ e, r.query.dispatcher.done.outcome = some (.error e) →
    r.phase = .completed (.error e)

theorem Consistent.errorsContained_iff (h : r.Consistent) :
    r.ErrorsContained ↔ ∀ e, r.query.dispatcher.done.outcome ≠ some (.error e) := by
  constructor
  · intro hc e he
    have huncaught := hc.uncaught
    rw [h.uncaught, he] at huncaught
    cases huncaught
  · intro hne
    refine ⟨?_, fun e he ↦ absurd he (hne e)⟩
    rw [h.uncaught]
    cases ho : r.query.dispatcher.done.outcome with
    | none => rfl
    | some o =>
      cases o with
      | ok v => rfl
      | error e => exact absurd ho (hne e)

end PlanRun

/-- The first message that decides the result, if any, is a success. -/
def FirstDecisionSucceeds (msgs : List Uint8List) : Prop :=
  ∀ m, msgs.find? deciding = some m → Succeeds m

theorem deciding_eq (msg : Uint8List) : deciding msg = (reading msg).own.isSome := by
  unfold deciding
  cases reading msg <;> rfl

theorem succeeds_iff_own {msg : Uint8List} {o : Outcome} (h : (reading msg).own = some o) :
    Succeeds msg ↔ ∀ e, o ≠ .error e := by
  rw [succeeds_iff]
  cases hread : reading msg with
  | final outcome =>
    rw [hread] at h
    obtain rfl : outcome = o := Option.some.inj h
    cases outcome <;> simp
  | fault outcome =>
    obtain ⟨e, he⟩ := error_of_reading hread
    rw [hread] at h
    obtain rfl : outcome = o := Option.some.inj h
    simp [he]
  | data s event => rw [hread] at h; cases h
  | stop => rw [hread] at h; cases h
  | noise => rw [hread] at h; cases h

theorem firstDecisionSucceeds_iff (msgs : List Uint8List) :
    FirstDecisionSucceeds msgs ↔
      ∀ e, (msgs.map reading).findSome? Item.own ≠ some (.error e) := by
  induction msgs with
  | nil => simp [FirstDecisionSucceeds]
  | cons m msgs ih =>
    unfold FirstDecisionSucceeds at ih ⊢
    rw [List.find?_cons, deciding_eq, List.map_cons, List.findSome?_cons]
    cases hown : (reading m).own with
    | none => exact ih
    | some o =>
      simp only [Option.isSome_some, Option.some.injEq, forall_eq', succeeds_iff_own hown, ne_eq]

/-- When the failure of a simulation reaches its caller only. -/
theorem plan_errors_iff (op : Operation) (interactive : Bool) (outcomes : StartOutcomes)
    (signals : List (Signal CString)) (trace : PortTrace) :
    ∃ q, startQuery op interactive outcomes = .ok q ∧
      (Interleaves q.posted (eventPosts signals) trace →
        (((collectPlan q).deliverAll (delivered trace)).ErrorsContained ↔
          outcomes.create = .returned ∧ FirstDecisionSucceeds (delivered trace))) := by
  by_cases hcreate : outcomes.create = .returned
  · refine ⟨_, startQuery_valid op interactive hcreate, ?_⟩
    intro htrace
    have hg : SentinelGuarded (trace.map Prod.snd) := guarded_trace htrace
    have hreadings : (delivered trace).map reading = (trace.map Prod.snd).map postedReading := by
      rw [delivered_eq, map_reading_arrived]
    have htracks := (PlanRun.tracks_startedValid op interactive outcomes).deliverAll
      (trace.map Prod.snd) hg
    rw [← delivered_eq, List.nil_append] at htracks
    have hresult : ((collectPlan (startedValid op interactive outcomes)).deliverAll
        (delivered trace)).query.dispatcher.done.outcome =
        ((delivered trace).map reading).findSome? Item.own := by
      rw [hreadings, ← result_of_guarded lateOutcome (guarded_readings hg), ← htracks.view]
      rfl
    rw [htracks.toConsistent.errorsContained_iff, hresult, firstDecisionSucceeds_iff,
      and_iff_right hcreate]
  · refine ⟨_, startQuery_null op interactive hcreate, ?_⟩
    intro _
    have hready : (collectPlan (startedNull outcomes)).query.Ready :=
      ⟨TransactionDispatcher.close_uniform {}, rfl, fun _ ↦ rfl⟩
    rw [PlanRun.deliverAll_of_port_closed hready rfl]
    refine ⟨?_, fun h ↦ absurd h.1 hcreate⟩
    intro hc
    cases hc.uncaught

theorem plan_errors_iff_success :
    ∃ q, startQuery (.installPackages 6 [Utf8.bytes "vim;9.1;x86_64;fedora"]) true
        ⟨.returned, .returned, .returned⟩ = .ok q ∧
      (((collectPlan q).deliverAll (delivered ((eventPosts [.finished 1 20]).map
          (Thread.eventLoop, ·)))).ErrorsContained ↔
        CallOutcome.returned = .returned ∧ FirstDecisionSucceeds (delivered
          ((eventPosts [.finished 1 20]).map (Thread.eventLoop, ·)))) := by
  obtain ⟨q, hq, h⟩ := plan_errors_iff (.installPackages 6 [Utf8.bytes "vim;9.1;x86_64;fedora"])
    true ⟨.returned, .returned, .returned⟩ [.finished 1 20]
    ((eventPosts [.finished 1 20]).map (Thread.eventLoop, ·))
  have hq' := hq
  rw [startQuery_valid _ true rfl] at hq'
  obtain rfl := Except.ok.inj hq'
  exact ⟨_, hq, h ⟨rfl, rfl⟩⟩

/-- The daemon fails a simulated installation: the error goes to the zone. -/
theorem uncaught_failure_of_simulation :
    ∃ q, startQuery (.installPackages 6 [Utf8.bytes "vim;9.1;x86_64;fedora"]) true
        ⟨.returned, .returned, .returned⟩ = .ok q ∧
      Interleaves q.posted (eventPosts [.finished 2 20])
        ((eventPosts [.finished 2 20]).map (Thread.eventLoop, ·)) ∧
      ((collectPlan q).deliverAll (delivered ((eventPosts [.finished 2 20]).map
        (Thread.eventLoop, ·)))).uncaught =
          [.transaction "Transaction failed: failed" .failed 20] ∧
      ¬ ((collectPlan q).deliverAll (delivered ((eventPosts [.finished 2 20]).map
        (Thread.eventLoop, ·)))).ErrorsContained := by
  refine ⟨_, startQuery_valid _ true rfl, ⟨rfl, rfl⟩, rfl, ?_⟩
  intro h
  cases h.uncaught

end PackageKitDart.Client
