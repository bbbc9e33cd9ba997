import PackageKitDart.Client.Dispatcher
import PackageKitDart.Library.LatchedDemux

namespace PackageKitDart.Client

open Dart TaskQueue LatchedDemux

abbrev Outcome := Except PkException PkTransactionResult

/-- What a message says to the dispatcher, whatever state that is in. -/
abbrev Reading := Item StreamName StreamName.Event Outcome

def finishedOutcome (result : PkFinished) : Outcome :=
  let exit := PkExit.fromInt result.exitCode
  if exit = .success then .ok { exit := exit, runtimeMs := result.runtimeMs }
  else .error (.transaction ("Transaction failed: " ++ exit.name) exit result.runtimeMs)

/-- The result left by data that arrives after the end. -/
def lateOutcome : Outcome := .error (decodeError (.stateError "Cannot add event after closing"))

/-- The byte that the messages for a stream start with. -/
def StreamName.byte : StreamName → UInt8
  | .packages => 0x01
  | .progress => 0x02
  | .details => 0x03
  | .updateDetails => 0x04
  | .repoDetails => 0x05
  | .files => 0x06
  | .errors => 0x07
  | .messages => 0x08
  | .eulaRequired => 0x09
  | .repoSigRequired => 0x0A
  | .requireRestart => 0x0B

theorem StreamName.ofDiscriminator_eq_some {disc : UInt8} {s : StreamName} :
    ofDiscriminator disc = some s ↔ disc = s.byte := by
  constructor
  · intro h
    unfold ofDiscriminator at h
    split at h <;> cases h <;> rfl
  · rintro rfl
    cases s <;> rfl

@[simp]
theorem StreamName.ofDiscriminator_byte (s : StreamName) : ofDiscriminator s.byte = some s :=
  ofDiscriminator_eq_some.mpr rfl

theorem StreamName.byte_injective {s s' : StreamName} (h : s.byte = s'.byte) : s = s' := by
  have hs := congrArg ofDiscriminator h
  rw [ofDiscriminator_byte, ofDiscriminator_byte] at hs
  exact Option.some.inj hs

/-- The message is empty, or its decoder throws. -/
inductive Fails (msg : Uint8List) : DartError → Prop
  | empty {e : DartError} (hget : msg.get 0 = .error e) : Fails msg e
  | data {s : StreamName} {e : DartError} (hget : msg.get 0 = .ok s.byte)
      (hdecode : GlazeCodec.decode s.type msg 1 = .error e) : Fails msg e
  | finished {e : DartError} (hget : msg.get 0 = .ok 0x20)
      (hdecode : GlazeCodec.decode .pkFinished msg 1 = .error e) : Fails msg e

/-- The message is a sentinel or fails to decode. -/
def Ends (msg : Uint8List) : Prop := msg.get 0 = .ok 0xFF ∨ ∃ e, Fails msg e

/-- The decoded value of a message that carries the byte of the stream. -/
def valueFor (s : StreamName) (msg : Uint8List) : Option s.Event :=
  match msg.get 0 with
  | .ok disc => if disc = s.byte then (GlazeCodec.decode s.type msg 1).toOption else none
  | .error _ => none

/-- The outcome that a message decides, be it before or after the streams ended. -/
inductive Decides (ended : Prop) (msg : Uint8List) : Outcome → Prop
  | finished {result : PkFinished} (hget : msg.get 0 = .ok 0x20)
      (hdecode : GlazeCodec.decode .pkFinished msg 1 = .ok result) :
      Decides ended msg (finishedOutcome result)
  | failed {e : DartError} (h : Fails msg e) : Decides ended msg (.error (decodeError e))
  | late {s : StreamName} {event : s.Event} (hended : ended) (hget : msg.get 0 = .ok s.byte)
      (hdecode : GlazeCodec.decode s.type msg 1 = .ok event) : Decides ended msg lateOutcome

def reading (msg : Uint8List) : Reading :=
  match msg.get 0 with
  | .error e => .fault (.error (decodeError e))
  | .ok disc =>
    match StreamName.ofDiscriminator disc with
    | some s =>
      match GlazeCodec.decode s.type msg 1 with
      | .ok event => .data s event
      | .error e => .fault (.error (decodeError e))
    | none =>
      if disc = 0x20 then
        match GlazeCodec.decode .pkFinished msg 1 with
        | .ok result => .final (finishedOutcome result)
        | .error e => .fault (.error (decodeError e))
      else if disc = 0xFF then .stop
      else .noise

def closing (msg : Uint8List) : Bool := (reading msg).closes

/-- The message is a well-formed Finished or fails to decode. -/
def deciding (msg : Uint8List) : Bool := ((reading msg).verdict lateOutcome false).isSome

theorem finishedOutcome_isOk (result : PkFinished) :
    (∃ v, finishedOutcome result = .ok v) ↔ result.exitCode = 1 := by
  rw [← PkExit.fromInt_eq_success]
  by_cases h : PkExit.fromInt result.exitCode = .success
  · simp [finishedOutcome, h]
  · simp [finishedOutcome, h]

namespace TransactionDispatcher

/-- All streams are open until the dispatcher has finished, and closed from then on. -/
def Uniform (d : TransactionDispatcher) : Prop := ∀ s, (d.streams s).isClosed = d.finished

def view (d : TransactionDispatcher) : State StreamName StreamName.Event Outcome where
  out s := (d.streams s).events
  closed := d.finished
  result := d.done.outcome

theorem view_result (d : TransactionDispatcher) : d.view.result = d.done.outcome := rfl

theorem closeStream_streams (d : TransactionDispatcher) (a s : StreamName) :
    (d.closeStream a).streams s = if s = a then (d.streams s).close else d.streams s := by
  unfold closeStream
  by_cases ha : s = a
  · subst ha
    cases hc : (d.streams s).isClosed with
    | true => simp [StreamController.close_of_isClosed hc]
    | false => simp
  · split <;> simp [ha]

theorem foldl_closeStream (l : List StreamName) (d : TransactionDispatcher) (s : StreamName) :
    (l.foldl closeStream d).streams s =
      if s ∈ l then (d.streams s).close else d.streams s := by
  induction l generalizing d with
  | nil => simp
  | cons a l ih =>
    rw [List.foldl_cons, ih, closeStream_streams]
    by_cases ha : s = a <;> simp [ha]

theorem foldl_closeStream_rest (l : List StreamName) (d : TransactionDispatcher) :
    (l.foldl closeStream d).done = d.done ∧ (l.foldl closeStream d).finished = d.finished := by
  induction l generalizing d with
  | nil => exact ⟨rfl, rfl⟩
  | cons a l ih =>
    have h : (d.closeStream a).done = d.done ∧ (d.closeStream a).finished = d.finished := by
      unfold closeStream
      split <;> exact ⟨rfl, rfl⟩
    rw [List.foldl_cons, (ih _).1, (ih _).2]
    exact h

@[simp]
theorem close_streams (d : TransactionDispatcher) (s : StreamName) :
    d.close.streams s = (d.streams s).close := by
  rw [close, foldl_closeStream, if_pos s.mem_all]

@[simp]
theorem close_done (d : TransactionDispatcher) : d.close.done = d.done :=
  (foldl_closeStream_rest _ _).1

@[simp]
theorem close_finished (d : TransactionDispatcher) : d.close.finished = true :=
  (foldl_closeStream_rest _ _).2

theorem close_uniform (d : TransactionDispatcher) : d.close.Uniform := by
  intro s
  simp

@[ext]
theorem ext {d e : TransactionDispatcher} (hs : ∀ s, d.streams s = e.streams s)
    (hd : d.done = e.done) (hf : d.finished = e.finished) : d = e := by
  cases d
  cases e
  simp_all [funext_iff]

theorem close_of_finished {d : TransactionDispatcher} (hu : d.Uniform) (hf : d.finished = true) :
    d.close = d := by
  refine TransactionDispatcher.ext ?_ (by simp) (by simp [hf])
  intro s
  have hs : (d.streams s).isClosed = true := by rw [hu s, hf]
  rw [close_streams, StreamController.close_of_isClosed hs]

theorem drain_microtasks (d : TransactionDispatcher) (tasks : List Microtask) :
    microtasks.drain d tasks = if .close ∈ tasks then d.close else d := by
  induction tasks generalizing d with
  | nil => simp
  | cons t tasks ih =>
    rw [Tasks.drain_cons]
    cases t with
    | propagate => simp [microtasks, ← ih]
    | close =>
      have h := ih d.close
      rw [close_of_finished d.close_uniform d.close_finished, ite_self] at h
      simpa [microtasks] using h

/-- Completing the result, unless it is complete already. -/
def record (d : TransactionDispatcher) (outcome : Outcome) :
    TransactionDispatcher × List Microtask :=
  if d.done.isCompleted then (d, [])
  else ({ d with done := { outcome := some outcome } }, [.propagate])

def push (d : TransactionDispatcher) (s : StreamName) (event : s.Event) : TransactionDispatcher :=
  { d with
    streams := Function.update d.streams s
      { d.streams s with events := (d.streams s).events ++ [event] } }

/-- What a dispatch does, by what the message says. -/
def respond (d : TransactionDispatcher) : Reading → TransactionDispatcher × List Microtask
  | .data s event =>
    if d.finished then ((d.record lateOutcome).1, (d.record lateOutcome).2 ++ [.close])
    else (d.push s event, [])
  | .final outcome => d.record outcome
  | .stop => (d, [.close])
  | .fault outcome => ((d.record outcome).1, (d.record outcome).2 ++ [.close])
  | .noise => (d, [])

theorem dispatchCatch_eq (d : TransactionDispatcher) (e : DartError) :
    d.dispatchCatch e =
      .ok ((d.record (.error (decodeError e))).1,
        (d.record (.error (decodeError e))).2 ++ [.close]) := by
  unfold dispatchCatch record
  cases h : d.done.outcome with
  | none => simp [Completer.isCompleted, h, Completer.completeError, Completer.settle_of_none h]
  | some r => simp [Completer.isCompleted, h]

theorem finishedBody_eq (d : TransactionDispatcher) (result : PkFinished) :
    d.finishedBody result = .ok (d.record (finishedOutcome result)) := by
  unfold finishedBody record finishedOutcome
  cases h : d.done.outcome with
  | none =>
    by_cases hexit : PkExit.fromInt result.exitCode = .success
    · simp [Completer.isCompleted, h, hexit, Completer.complete, Completer.settle_of_none h]
    · simp [Completer.isCompleted, h, hexit, Completer.completeError, Completer.settle_of_none h]
  | some r => simp [Completer.isCompleted, h]

/-- Dispatching never throws. -/
theorem dispatch_eq {d : TransactionDispatcher} (hu : d.Uniform) (msg : Uint8List) :
    d.dispatch msg = .ok (d.respond (reading msg)) := by
  unfold dispatch dispatchBody reading
  cases hget : msg.get 0 with
  | error e => simp [dispatchCatch_eq, respond]
  | ok disc =>
    cases hs : StreamName.ofDiscriminator disc with
    | some s =>
      simp only [ok_bind, hs]
      cases hdecode : GlazeCodec.decode s.type msg 1 with
      | error e => simp [dispatchCatch_eq, respond]
      | ok event =>
        cases hf : d.finished with
        | true => simp [add, StreamController.add, hu s, hf, dispatchCatch_eq, respond, lateOutcome]
        | false => simp [add, StreamController.add, hu s, hf, respond, push]
    | none =>
      simp only [ok_bind, hs]
      by_cases hfin : disc = 0x20
      · simp only [if_pos hfin]
        cases hdecode : GlazeCodec.decode .pkFinished msg 1 with
        | error e => simp [dispatchCatch_eq, respond]
        | ok result =>
          simp only [ok_bind, respond, finishedBody_eq]
      · by_cases hstop : disc = 0xFF <;> simp [hfin, hstop, respond]

theorem record_fst (d : TransactionDispatcher) (outcome : Outcome) :
    (d.record outcome).1 = { d with done := { outcome := d.done.outcome.or (some outcome) } } := by
  cases d with
  | mk streams done finished =>
    obtain ⟨_ | r⟩ := done <;> rfl

theorem record_snd (d : TransactionDispatcher) (outcome : Outcome) :
    (d.record outcome).2 = if d.done.outcome = none then [.propagate] else [] := by
  cases h : d.done.outcome <;> simp [record, Completer.isCompleted, h]

theorem close_not_mem_record (d : TransactionDispatcher) (outcome : Outcome) :
    Microtask.close ∉ (d.record outcome).2 := by
  rw [record_snd]
  split <;> simp

theorem respond_finished (d : TransactionDispatcher) (i : Reading) :
    (d.respond i).1.finished = d.finished := by
  cases i with
  | data s event => cases hf : d.finished <;> simp [respond, push, record_fst, hf]
  | final outcome => simp [respond, record_fst]
  | stop => rfl
  | fault outcome => simp [respond, record_fst]
  | noise => rfl

theorem respond_uniform {d : TransactionDispatcher} (hu : d.Uniform) (i : Reading) :
    (d.respond i).1.Uniform := by
  intro s
  rw [respond_finished, ← hu s]
  cases i with
  | data j event =>
    cases hf : d.finished with
    | true => simp [respond, record_fst, hf]
    | false =>
      by_cases hj : s = j
      · subst hj
        simp [respond, push, hf]
      · simp [respond, push, hf, hj]
  | final outcome => simp [respond, record_fst]
  | stop => rfl
  | fault outcome => simp [respond, record_fst]
  | noise => rfl

theorem respond_done_of_completed {d : TransactionDispatcher} (h : d.done.isCompleted = true)
    (i : Reading) : (d.respond i).1.done = d.done := by
  have hrecord (o : Outcome) : d.record o = (d, []) := by simp [record, h]
  cases i with
  | data s event => cases hf : d.finished <;> simp [respond, hf, hrecord, push]
  | final outcome => simp [respond, hrecord]
  | stop => rfl
  | fault outcome => simp [respond, hrecord]
  | noise => rfl

theorem respond_of_settled {d : TransactionDispatcher} (hf : d.finished = true)
    (h : d.done.isCompleted = true) (i : Reading) : (d.respond i).1 = d := by
  have hrecord (o : Outcome) : d.record o = (d, []) := by simp [record, h]
  cases i <;> simp [respond, hf, hrecord]

theorem view_close (d : TransactionDispatcher) : d.close.view = { d.view with closed := true } := by
  simp [view]

theorem view_record (d : TransactionDispatcher) (outcome : Outcome) :
    (d.record outcome).1.view = { d.view with result := d.view.result.or (some outcome) } := by
  rw [record_fst]
  rfl

theorem view_push (d : TransactionDispatcher) (s : StreamName) (event : s.Event) :
    (d.push s event).view =
      { d.view with out := Function.update d.view.out s (d.view.out s ++ [event]) } := by
  have hout (k : StreamName) : ((d.push s event).streams k).events =
      Function.update d.view.out s (d.view.out s ++ [event]) k := by
    by_cases hk : k = s
    · subst hk
      simp [push, view]
    · simp [push, view, hk]
  rw [view, funext hout]
  rfl

/-- A message delivered is one step of the abstract demultiplexer. -/
theorem view_drain_respond (d : TransactionDispatcher) (i : Reading) :
    (microtasks.drain (d.respond i).1 (d.respond i).2).view = step lateOutcome d.view i := by
  have hclosed : d.view.closed = d.finished := rfl
  rw [drain_microtasks]
  cases i with
  | data s event =>
    cases hf : d.finished with
    | true => simp [respond, hf, view_close, view_record, step, hclosed]
    | false => simp [respond, hf, view_push, step, hclosed]
  | final outcome => simp [respond, close_not_mem_record, view_record, step]
  | stop => simp [respond, view_close, step]
  | fault outcome => simp [respond, view_close, view_record, step]
  | noise => simp [respond, step]

theorem drain_uniform {d : TransactionDispatcher} (hu : d.Uniform) (tasks : List Microtask) :
    (microtasks.drain d tasks).Uniform := by
  rw [drain_microtasks]
  split
  · exact d.close_uniform
  · exact hu

theorem deliver_spec {d : TransactionDispatcher} (hu : d.Uniform) (msg : Uint8List) :
    ∃ d', d.deliver msg = .ok d' ∧ d'.Uniform ∧
      d'.view = step lateOutcome d.view (reading msg) := by
  refine ⟨_, ?_, drain_uniform (respond_uniform hu (reading msg)) _, view_drain_respond d _⟩
  rw [deliver, dispatch_eq hu]
  rfl

/-- Delivery refines the abstract demultiplexer, and nothing is ever thrown. -/
theorem deliverAll_spec {d : TransactionDispatcher} (hu : d.Uniform) (msgs : List Uint8List) :
    ∃ d', d.deliverAll msgs = .ok d' ∧ d'.Uniform ∧
      d'.view = run lateOutcome d.view (msgs.map reading) := by
  induction msgs generalizing d with
  | nil => exact ⟨d, rfl, hu, rfl⟩
  | cons msg msgs ih =>
    obtain ⟨d₁, h₁, hu₁, hv₁⟩ := deliver_spec hu msg
    obtain ⟨d₂, h₂, hu₂, hv₂⟩ := ih hu₁
    refine ⟨d₂, ?_, hu₂, ?_⟩
    · rw [deliverAll, List.foldlM_cons, h₁]
      exact h₂
    · rw [hv₂, hv₁]
      rfl

theorem fresh_uniform : ({} : TransactionDispatcher).Uniform := fun _ ↦ rfl

theorem deliverAll_fresh (msgs : List Uint8List) :
    ∃ d, deliverAll {} msgs = .ok d ∧ d.Uniform ∧
      (∀ s, (d.streams s).events = (live (msgs.map reading)).filterMap (Item.at? s)) ∧
      d.finished = msgs.any closing ∧
      d.done.outcome = firstVerdict lateOutcome false (msgs.map reading) := by
  obtain ⟨d, hd, hu, hv⟩ := deliverAll_spec fresh_uniform msgs
  refine ⟨d, hd, hu, ?_, ?_, ?_⟩
  · intro s
    have h := congrFun (congrArg State.out hv) s
    rw [run_out] at h
    simpa [view, received] using h
  · have h := congrArg State.closed hv
    have hany : (msgs.map reading).any Item.closes = msgs.any closing := List.any_map
    rw [run_closed, hany] at h
    simpa [view] using h
  · have h := congrArg State.result hv
    rw [run_result] at h
    simpa [view] using h

end TransactionDispatcher

/-- The result that `msg` decides, if any, when it arrives after `before`. -/
def proposal (before : List Uint8List) (msg : Uint8List) : Option Outcome :=
  (reading msg).verdict lateOutcome (before.any closing)

/-- The message is a Finished with exit code 1. -/
def Succeeds (msg : Uint8List) : Prop :=
  ∃ result, msg.get 0 = .ok 0x20 ∧ GlazeCodec.decode .pkFinished msg 1 = .ok result ∧
    result.exitCode = 1

theorem any_closes_map (msgs : List Uint8List) :
    (msgs.map reading).any Item.closes = msgs.any closing := List.any_map

theorem firstVerdict_readings_eq_none (msgs : List Uint8List) :
    firstVerdict lateOutcome false (msgs.map reading) = none ↔
      ∀ p m q, msgs = p ++ m :: q → proposal p m = none := by
  rw [firstVerdict_eq_none]
  constructor
  · intro h p m q hsplit
    subst hsplit
    have hp := h (p.map reading) (reading m) (q.map reading) (by simp)
    simpa only [any_closes_map, Bool.false_or, proposal] using hp
  · intro h p i q hl
    obtain ⟨p, t, rfl, rfl, ht⟩ := List.map_eq_append_iff.mp hl
    obtain ⟨m, q, rfl, rfl, rfl⟩ := List.map_eq_cons_iff.mp ht
    simpa only [any_closes_map, Bool.false_or, proposal] using h p m q rfl

theorem firstVerdict_readings_of_first {p q : List Uint8List} {m : Uint8List} {r : Outcome}
    (hbefore : ∀ p' m' q', p = p' ++ m' :: q' → proposal p' m' = none)
    (hm : proposal p m = some r) :
    firstVerdict lateOutcome false ((p ++ m :: q).map reading) = some r := by
  rw [firstVerdict_eq_some]
  refine ⟨p.map reading, reading m, q.map reading, by simp,
    (firstVerdict_readings_eq_none p).mpr hbefore, ?_⟩
  simpa only [any_closes_map, Bool.false_or, proposal] using hm

section Readings

variable {msg : Uint8List}

theorem reading_of_data {s : StreamName} {event : s.Event} (hget : msg.get 0 = .ok s.byte)
    (hdecode : GlazeCodec.decode s.type msg 1 = .ok event) : reading msg = .data s event := by
  simp [reading, hget, hdecode]

theorem reading_of_finished {result : PkFinished} (hget : msg.get 0 = .ok 0x20)
    (hdecode : GlazeCodec.decode .pkFinished msg 1 = .ok result) :
    reading msg = .final (finishedOutcome result) := by
  have hs : StreamName.ofDiscriminator 0x20 = none := rfl
  simp [reading, hget, hs, hdecode]

theorem reading_of_sentinel (hget : msg.get 0 = .ok 0xFF) : reading msg = .stop := by
  have hs : StreamName.ofDiscriminator 0xFF = none := rfl
  simp [reading, hget, hs]

theorem reading_of_fails {e : DartError} (h : Fails msg e) :
    reading msg = .fault (.error (decodeError e)) := by
  cases h with
  | empty hget => simp [reading, hget]
  | data hget hdecode => simp [reading, hget, hdecode]
  | finished hget hdecode =>
    have hs : StreamName.ofDiscriminator 0x20 = none := rfl
    simp [reading, hget, hs, hdecode]

/-- What a message says, in terms of its first byte and of the decoders. -/
inductive Says (msg : Uint8List) : Reading → Prop
  | data {s : StreamName} {event : s.Event} (hget : msg.get 0 = .ok s.byte)
      (hdecode : GlazeCodec.decode s.type msg 1 = .ok event) : Says msg (.data s event)
  | final {result : PkFinished} (hget : msg.get 0 = .ok 0x20)
      (hdecode : GlazeCodec.decode .pkFinished msg 1 = .ok result) :
      Says msg (.final (finishedOutcome result))
  | stop (hget : msg.get 0 = .ok 0xFF) : Says msg .stop
  | fault {e : DartError} (h : Fails msg e) : Says msg (.fault (.error (decodeError e)))
  | noise {disc : UInt8} (hget : msg.get 0 = .ok disc) (hdata : ∀ s : StreamName, disc ≠ s.byte)
      (hfinished : disc ≠ 0x20) (hstop : disc ≠ 0xFF) : Says msg .noise

theorem says_reading (msg : Uint8List) : Says msg (reading msg) := by
  cases hget : msg.get 0 with
  | error e =>
    rw [reading_of_fails (.empty hget)]
    exact .fault (.empty hget)
  | ok disc =>
    cases hs : StreamName.ofDiscriminator disc with
    | some s =>
      rw [StreamName.ofDiscriminator_eq_some.mp hs] at hget
      cases hdecode : GlazeCodec.decode s.type msg 1 with
      | ok event =>
        rw [reading_of_data hget hdecode]
        exact .data hget hdecode
      | error e =>
        rw [reading_of_fails (.data hget hdecode)]
        exact .fault (.data hget hdecode)
    | none =>
      by_cases hfinished : disc = 0x20
      · subst hfinished
        cases hdecode : GlazeCodec.decode .pkFinished msg 1 with
        | ok result =>
          rw [reading_of_finished hget hdecode]
          exact .final hget hdecode
        | error e =>
          rw [reading_of_fails (.finished hget hdecode)]
          exact .fault (.finished hget hdecode)
      · by_cases hstop : disc = 0xFF
        · subst hstop
          rw [reading_of_sentinel hget]
          exact .stop hget
        · have hdata (s : StreamName) (h : disc = s.byte) : False := by
            rw [StreamName.ofDiscriminator_eq_some.mpr h] at hs
            cases hs
          have hnoise : reading msg = .noise := by simp [reading, hget, hs, hfinished, hstop]
          rw [hnoise]
          exact .noise hget hdata hfinished hstop

theorem data_of_reading {s : StreamName} {event : s.Event} (h : reading msg = .data s event) :
    msg.get 0 = .ok s.byte ∧ GlazeCodec.decode s.type msg 1 = .ok event := by
  have hsays := says_reading msg
  rw [h] at hsays
  cases hsays with
  | data hget hdecode => exact ⟨hget, hdecode⟩

theorem finished_of_reading {outcome : Outcome} (h : reading msg = .final outcome) :
    ∃ result, msg.get 0 = .ok 0x20 ∧ GlazeCodec.decode .pkFinished msg 1 = .ok result ∧
      outcome = finishedOutcome result := by
  have hsays := says_reading msg
  rw [h] at hsays
  cases hsays with
  | final hget hdecode => exact ⟨_, hget, hdecode, rfl⟩

theorem error_of_reading {outcome : Outcome} (h : reading msg = .fault outcome) :
    ∃ e, outcome = .error (decodeError e) := by
  have hsays := says_reading msg
  rw [h] at hsays
  cases hsays with
  | fault => exact ⟨_, rfl⟩

theorem closing_iff : closing msg = true ↔ Ends msg := by
  constructor
  · intro h
    have hsays := says_reading msg
    rw [closing] at h
    generalize reading msg = i at h hsays
    cases hsays with
    | stop hget => exact .inl hget
    | fault hfails => exact .inr ⟨_, hfails⟩
    | data => cases h
    | final => cases h
    | noise => cases h
  · intro h
    rcases h with hget | ⟨e, hfails⟩
    · rw [closing, reading_of_sentinel hget]
      rfl
    · rw [closing, reading_of_fails hfails]
      rfl

theorem any_closing_iff {msgs : List Uint8List} : msgs.any closing = true ↔ ∃ c ∈ msgs, Ends c := by
  simp only [List.any_eq_true, closing_iff]

theorem valueFor_of_ne {s : StreamName} {disc : UInt8} (hget : msg.get 0 = .ok disc)
    (hne : disc ≠ s.byte) : valueFor s msg = none := by
  simp [valueFor, hget, hne]

theorem at?_reading (s : StreamName) (msg : Uint8List) : (reading msg).at? s = valueFor s msg := by
  have hfinished : 0x20 ≠ s.byte := by cases s <;> decide
  have hsentinel : 0xFF ≠ s.byte := by cases s <;> decide
  have hsays := says_reading msg
  generalize reading msg = i at hsays
  cases hsays with
  | @data s' event hget hdecode =>
    by_cases hs : s' = s
    · subst hs
      simp [valueFor, hget, hdecode, Except.toOption]
    · rw [Item.at?_data_of_ne hs, valueFor_of_ne hget (fun h ↦ hs (StreamName.byte_injective h))]
  | final hget => exact (valueFor_of_ne hget hfinished).symm
  | stop hget => exact (valueFor_of_ne hget hsentinel).symm
  | fault hfails =>
    cases hfails with
    | empty hget => simp [valueFor, hget, Item.at?]
    | @data s' e hget hdecode =>
      by_cases hs : s' = s
      · subst hs
        simp [valueFor, hget, hdecode, Except.toOption, Item.at?]
      · exact (valueFor_of_ne hget (fun h ↦ hs (StreamName.byte_injective h))).symm
    | finished hget => exact (valueFor_of_ne hget hfinished).symm
  | noise hget hdata => exact (valueFor_of_ne hget (hdata s)).symm

theorem proposal_eq_some {before : List Uint8List} {r : Outcome} :
    proposal before msg = some r ↔ Decides (∃ c ∈ before, Ends c) msg r := by
  unfold proposal
  constructor
  · intro h
    have hsays := says_reading msg
    generalize reading msg = i at h hsays
    cases hsays with
    | data hget hdecode =>
      rw [Item.verdict] at h
      split at h
      · next hended =>
        cases h
        exact .late (any_closing_iff.mp hended) hget hdecode
      · cases h
    | final hget hdecode =>
      cases h
      exact .finished hget hdecode
    | stop => cases h
    | fault hfails =>
      cases h
      exact .failed hfails
    | noise => cases h
  · intro h
    cases h with
    | finished hget hdecode =>
      rw [reading_of_finished hget hdecode]
      rfl
    | failed hfails =>
      rw [reading_of_fails hfails]
      rfl
    | late hended hget hdecode =>
      rw [reading_of_data hget hdecode, Item.verdict, if_pos (any_closing_iff.mpr hended)]

theorem proposal_eq_none {before : List Uint8List} :
    proposal before msg = none ↔ ∀ r, ¬ Decides (∃ c ∈ before, Ends c) msg r := by
  simp only [Option.eq_none_iff_forall_ne_some, ne_eq, proposal_eq_some]

end Readings

theorem succeeds_iff (msg : Uint8List) :
    Succeeds msg ↔ ∃ v, reading msg = .final (.ok v) := by
  constructor
  · intro hsucceeds
    obtain ⟨result, hget, hdecode, hexit⟩ := hsucceeds
    obtain ⟨v, hv⟩ := (finishedOutcome_isOk result).mpr hexit
    exact ⟨v, by rw [reading_of_finished hget hdecode, hv]⟩
  · intro hfinal
    obtain ⟨v, hv⟩ := hfinal
    obtain ⟨result, hget, hdecode, hout⟩ := finished_of_reading hv
    exact ⟨result, hget, hdecode, (finishedOutcome_isOk result).mp ⟨v, hout.symm⟩⟩

theorem proposal_isOk {before : List Uint8List} {msg : Uint8List} {r : Outcome}
    (h : proposal before msg = some r) : (∃ v, r = .ok v) ↔ Succeeds msg := by
  rw [succeeds_iff]
  unfold proposal at h
  cases hread : reading msg with
  | data s event =>
    rw [hread, Item.verdict] at h
    split at h <;> cases h
    simp [lateOutcome]
  | final outcome =>
    rw [hread, Item.verdict] at h
    cases h
    simp
  | stop => simp [hread, Item.verdict] at h
  | fault outcome =>
    obtain ⟨e, rfl⟩ := error_of_reading hread
    rw [hread, Item.verdict] at h
    cases h
    simp
  | noise => simp [hread, Item.verdict] at h

/-- The dispatcher on any messages at all, up to and after the first one
that is a sentinel or fails to decode. -/
theorem dispatch_semantics (msgs : List Uint8List) :
    ∃ d, TransactionDispatcher.deliverAll {} msgs = .ok d ∧
      (∃ before rest, msgs = before ++ rest ∧ (∀ m ∈ before, ¬ Ends m) ∧
        (∀ c ∈ rest.head?, Ends c) ∧
        ∀ s, (d.streams s).events = before.filterMap (valueFor s)) ∧
      (∀ s, (d.streams s).isClosed = true ↔ ∃ c ∈ msgs, Ends c) ∧
      (d.done.outcome = none ↔
        ∀ p m q r, msgs = p ++ m :: q → ¬ Decides (∃ c ∈ p, Ends c) m r) ∧
      (∀ p m q r, msgs = p ++ m :: q →
        (∀ p' m' q' r', p = p' ++ m' :: q' → ¬ Decides (∃ c ∈ p', Ends c) m' r') →
        Decides (∃ c ∈ p, Ends c) m r →
        d.done.outcome = some r ∧ ((∃ v, r = .ok v) ↔ Succeeds m) ∧
        ∀ more, ∃ d', TransactionDispatcher.deliverAll {} (msgs ++ more) = .ok d' ∧
          d'.done.outcome = some r) := by
  obtain ⟨d, hd, hu, hout, hfin, hres⟩ := TransactionDispatcher.deliverAll_fresh msgs
  refine ⟨d, hd, ⟨msgs.takeWhile (fun m ↦ !closing m), msgs.dropWhile (fun m ↦ !closing m),
    List.takeWhile_append_dropWhile.symm, ?_, ?_, ?_⟩, ?_, ?_, ?_⟩
  · intro m hm
    have hopen := List.all_eq_true.mp List.all_takeWhile m hm
    rw [← closing_iff]
    simpa using hopen
  · intro c hc
    have hclosing := List.head?_dropWhile_not (fun m ↦ !closing m) msgs
    rw [hc] at hclosing
    rw [← closing_iff]
    simpa using hclosing
  · intro s
    have hlive : live (msgs.map reading) =
        (msgs.takeWhile (fun m ↦ !closing m)).map reading := List.takeWhile_map ..
    rw [hout s, hlive, List.filterMap_map]
    exact List.filterMap_congr (fun m _ ↦ at?_reading s m)
  · intro s
    rw [hu s, hfin]
    exact any_closing_iff
  · rw [hres, firstVerdict_readings_eq_none]
    simp only [proposal_eq_none]
    exact ⟨fun h p m q r hsplit ↦ h p m q hsplit r, fun h p m q hsplit r ↦ h p m q r hsplit⟩
  · intro p m q r hsplit hbefore hdecides
    subst hsplit
    have hm := proposal_eq_some.mpr hdecides
    have hnone : ∀ p' m' q', p = p' ++ m' :: q' → proposal p' m' = none :=
      fun p' m' q' hsplit ↦ proposal_eq_none.mpr (fun r' ↦ hbefore p' m' q' r' hsplit)
    refine ⟨?_, proposal_isOk hm, ?_⟩
    · rw [hres]
      exact firstVerdict_readings_of_first hnone hm
    · intro more
      obtain ⟨d', hd', _, _, _, hres'⟩ :=
        TransactionDispatcher.deliverAll_fresh ((p ++ m :: q) ++ more)
      refine ⟨d', hd', ?_⟩
      rw [hres', List.append_assoc, List.cons_append]
      exact firstVerdict_readings_of_first hnone hm

end PackageKitDart.Client
