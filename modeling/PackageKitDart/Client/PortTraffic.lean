import PackageKitDart.Client.StartQuery

namespace PackageKitDart.Client

open Dart LatchedDemux MergedTrace Native PkTransactionBridge

inductive Thread
  | dart
  | eventLoop
  deriving DecidableEq, Repr

abbrev PortTrace := List (Thread × Posted)

/-- Each thread posts its own messages in order; the trace mixes them somehow. -/
structure Interleaves (dart eventLoop : List Posted) (trace : PortTrace) : Prop where
  dart : proj .dart trace = dart
  eventLoop : proj .eventLoop trace = eventLoop

def clientCalls (op : Operation) (interactive : Bool) (hints method : CallOutcome)
    (cancels : List CallOutcome) : List (BridgeCall × CallOutcome) :=
  (.transactionSetHints interactive, hints) :: (.operation op, method) ::
    cancels.map (fun c ↦ (.transactionCancel, c))

def callsPosted (calls : List (BridgeCall × CallOutcome)) : List Posted :=
  calls.flatMap (fun c ↦ (c.1.effects c.2).posted)

def delivered (trace : PortTrace) : List Uint8List := trace.map (fun x ↦ arrived x.2)

theorem delivered_eq (trace : PortTrace) : delivered trace = (trace.map Prod.snd).map arrived := by
  rw [List.map_map]
  rfl

theorem effects_posted (call : BridgeCall) (outcome : CallOutcome) :
    (call.effects outcome).posted = [] ∨
      ∃ e, outcome = .raised e ∧ (call.effects outcome).posted = postError e.message := by
  cases call with
  | transactionCreate => exact .inl rfl
  | transactionDestroy => exact .inl rfl
  | transactionSetHints interactive =>
    cases outcome with
    | returned => exact .inl rfl
    | raised e => exact .inr ⟨e, rfl, rfl⟩
  | operation op =>
    cases outcome with
    | returned => exact .inl rfl
    | raised e => exact .inr ⟨e, rfl, rfl⟩
  | transactionCancel =>
    cases outcome with
    | returned => exact .inl rfl
    | raised e => exact .inr ⟨e, rfl, rfl⟩

section Guard

/-- No sentinel comes before a Finished message. -/
abbrev SentinelGuarded (msgs : List Posted) : Prop :=
  Guarded (fun m ↦ postedReading m = .stop) (fun m ↦ ∃ r, postedReading m = .final r) msgs

theorem not_sentinel_of_isData {m : Posted} (h : IsData m) : postedReading m ≠ .stop := by
  rcases reading_of_isData h with ⟨s, v, hm⟩ | ⟨o, hm⟩
  · simp [hm]
  · simp [hm]

theorem guarded_postFinished (exitCode runtime : UInt32) :
    SentinelGuarded (postFinished exitCode runtime) := by
  have hfinal := reading_finishedMessage exitCode runtime
  intro p m q hl hm
  cases p with
  | nil =>
    obtain ⟨rfl, -⟩ := List.cons.inj hl
    rw [hfinal] at hm
    cases hm
  | cons m' p =>
    obtain ⟨rfl, -⟩ := List.cons.inj hl
    exact ⟨_, List.mem_cons_self, _, hfinal⟩

theorem guarded_postError (message : CString) : SentinelGuarded (postError message) := by
  have herror : SentinelGuarded [errorMessage message] := by
    apply Guarded.of_forall_not
    intro m hm
    obtain rfl := List.mem_singleton.mp hm
    exact not_sentinel_of_isData (isData_errorMessage message)
  exact herror.append (guarded_postFinished 2 0)

theorem guarded_callsPosted (calls : List (BridgeCall × CallOutcome)) :
    SentinelGuarded (callsPosted calls) := by
  apply Guarded.flatMap
  intro c _
  rcases effects_posted c.1 c.2 with h | ⟨e, _, h⟩
  · rw [h]
    exact Guarded.nil
  · rw [h]
    exact guarded_postError e.message

theorem guarded_eventPosts (signals : List (Signal CString)) :
    SentinelGuarded (eventPosts signals) := by
  apply Guarded.flatMap
  intro sg _
  by_cases hsg : ∃ e t, sg = .finished e t
  · obtain ⟨e, t, rfl⟩ := hsg
    exact guarded_postFinished e t
  · refine Guarded.of_forall_not (fun m hm ↦ not_sentinel_of_isData ?_)
    exact isData_of_mem_handle (fun e t h ↦ hsg ⟨e, t, h⟩) hm

/-- The rule holds on the port although two threads post to it. -/
theorem guarded_trace {calls : List (BridgeCall × CallOutcome)} {signals : List (Signal CString)}
    {trace : PortTrace} (h : Interleaves (callsPosted calls) (eventPosts signals) trace) :
    SentinelGuarded (trace.map Prod.snd) := by
  apply Guarded.merge
  intro i
  cases i with
  | dart =>
    rw [h.dart]
    exact guarded_callsPosted calls
  | eventLoop =>
    rw [h.eventLoop]
    exact guarded_eventPosts signals

theorem guarded_readings {msgs : List Posted} (hg : SentinelGuarded msgs) :
    Guarded (fun i ↦ i = .stop) (fun i ↦ ∃ r, i = .final r) (msgs.map postedReading) :=
  Guarded.map hg

theorem decided_of_finished {d : TransactionDispatcher} {msgs : List Posted}
    (hg : SentinelGuarded msgs) (hview : d.view = run lateOutcome init (msgs.map postedReading))
    (hfin : d.finished = true) : d.done.isCompleted = true := by
  have hdecided := result_of_closed lateOutcome (guarded_readings hg)
  rw [← hview] at hdecided
  exact hdecided hfin

/-- Closing the port early loses nothing that the dispatcher would still have taken in. -/
theorem view_deliver {q : StartedQuery} (h : q.Ready) {msgs : List Posted}
    (hview : q.dispatcher.view = run lateOutcome init (msgs.map postedReading))
    (hg : SentinelGuarded msgs) (m : Posted) :
    (q.deliver (arrived m)).Ready ∧ (q.deliver (arrived m)).dispatcher.view =
      run lateOutcome init ((msgs ++ [m]).map postedReading) := by
  refine ⟨StartedQuery.deliver_ready h _, ?_⟩
  cases hp : q.portOpen with
  | true =>
    obtain ⟨hd, -⟩ := StartedQuery.deliver_open h hp (arrived m)
    rw [hd, TransactionDispatcher.view_drain_respond, List.map_append, run_append, ← hview]
    rfl
  | false =>
    have hfin := h.finished hp
    have hsettled : run lateOutcome q.dispatcher.view ([m].map postedReading) = q.dispatcher.view :=
      run_of_settled (s := q.dispatcher.view) lateOutcome hfin (decided_of_finished hg hview hfin) _
    rw [StartedQuery.deliver_of_port_closed h hp, List.map_append, run_append, ← hview, hsettled]

theorem view_deliverAll {q : StartedQuery} (h : q.Ready) {before : List Posted}
    (hview : q.dispatcher.view = run lateOutcome init (before.map postedReading))
    (msgs : List Posted) (hg : SentinelGuarded (before ++ msgs)) :
    (q.deliverAll (msgs.map arrived)).dispatcher.view =
      run lateOutcome init ((before ++ msgs).map postedReading) := by
  induction msgs generalizing q before with
  | nil => simpa [StartedQuery.deliverAll] using hview
  | cons m msgs ih =>
    obtain ⟨hready, hnext⟩ := view_deliver h hview hg.left m
    have hsplit : before ++ m :: msgs = (before ++ [m]) ++ msgs := by simp
    rw [hsplit] at hg ⊢
    exact ih hready hnext hg

end Guard

/-- Whatever the two threads post, in whatever order: once a stream is closed
all of them are, and the result is there. -/
theorem closed_implies_decided (calls : List (BridgeCall × CallOutcome))
    (signals : List (Signal CString)) (op : Operation) (interactive : Bool) :
    (∀ trace p : PortTrace, Interleaves (callsPosted calls) (eventPosts signals) trace →
      p <+: trace →
      ∃ d, TransactionDispatcher.deliverAll {} (delivered p) = .ok d ∧
        ((∃ s, (d.streams s).isClosed = true) →
          (∀ s, (d.streams s).isClosed = true) ∧ d.finished = true ∧ d.done.isCompleted = true)) ∧
    ∀ outcomes : StartOutcomes, outcomes.create ≠ .returned →
      ∃ q, startQuery op interactive outcomes = .ok q ∧
        (∀ s, (q.dispatcher.streams s).isClosed = true) ∧ q.dispatcher.finished = true ∧
        q.dispatcher.done.isCompleted = true := by
  refine ⟨?_, ?_⟩
  · intro trace p htrace hp
    have hg : SentinelGuarded (p.map Prod.snd) :=
      (guarded_trace htrace).of_initial (hp.map Prod.snd)
    obtain ⟨d, hd, hu, hview⟩ := TransactionDispatcher.deliverAll_spec
      TransactionDispatcher.fresh_uniform ((p.map Prod.snd).map arrived)
    rw [map_reading_arrived] at hview
    rw [← delivered_eq] at hd
    refine ⟨d, hd, fun ⟨s, hs⟩ ↦ ?_⟩
    have hfin : d.finished = true := by rw [← hu s, hs]
    exact ⟨fun k ↦ by rw [hu k, hfin], hfin, decided_of_finished hg hview hfin⟩
  · intro outcomes hnull
    refine ⟨_, startQuery_null op interactive hnull, ?_, ?_, rfl⟩
    · intro s
      simp [startedNull]
    · simp [startedNull]

theorem closed_implies_decided_refused_hints :
    let calls : List (BridgeCall × CallOutcome) :=
      [(.transactionSetHints true, .raised ⟨Utf8.bytes "denied"⟩),
        (.operation .getDistroUpgrades, .returned)]
    let trace : PortTrace := (callsPosted calls).map (Thread.dart, ·) ++
      (eventPosts [.finished 1 0]).map (Thread.eventLoop, ·)
    (∃ d, TransactionDispatcher.deliverAll {} (delivered trace) = .ok d ∧
      (∀ s, (d.streams s).isClosed = true) ∧ d.finished = true ∧ d.done.isCompleted = true) ∧
    ∃ q, startQuery .getDistroUpgrades true ⟨.raised ⟨[]⟩, .returned, .returned⟩ = .ok q ∧
      (∀ s, (q.dispatcher.streams s).isClosed = true) ∧ q.dispatcher.finished = true ∧
      q.dispatcher.done.isCompleted = true := by
  intro calls trace
  obtain ⟨hport, hnull⟩ := closed_implies_decided calls [.finished 1 0] .getDistroUpgrades true
  refine ⟨?_, hnull _ (by simp)⟩
  obtain ⟨d, hd, h⟩ := hport trace trace ⟨rfl, rfl⟩ (List.prefix_refl trace)
  have hclosed : (TransactionDispatcher.deliverAll {} (delivered trace)).map
      (fun d ↦ (d.streams .packages).isClosed) = .ok true := rfl
  rw [hd] at hclosed
  exact ⟨d, hd, h ⟨.packages, Except.ok.inj hclosed⟩⟩

section Grammar

/-- Data messages, then at most one Finished with the sentinel right behind it. -/
def PortGrammar (msgs : List Posted) : Prop :=
  ∃ data, (∀ m ∈ data, IsData m) ∧
    (msgs = data ∨ ∃ exitCode runtime, msgs = data ++ postFinished exitCode runtime)

def isFinished (m : Posted) : Bool := m.head? == some kFinished

def isRaised : CallOutcome → Bool
  | .returned => false
  | .raised _ => true

def raisedCount (calls : List (BridgeCall × CallOutcome)) : ℕ :=
  calls.countP (fun c ↦ isRaised c.2)

def isFinishedSignal : Signal CString → Bool
  | .finished _ _ => true
  | _ => false

/-- At most one Finished, and it is the last signal. -/
def FinishedLast (signals : List (Signal CString)) : Prop :=
  ∀ sg ∈ signals.dropLast, isFinishedSignal sg = false

theorem not_isFinished_of_isData {m : Posted} (h : IsData m) : isFinished m = false := by
  obtain ⟨disc, bs, s, rfl, hs⟩ := h
  rw [isFinished, List.head?_cons, beq_eq_false_iff_ne]
  intro hdisc
  obtain rfl := Option.some.inj hdisc
  cases hs

theorem countP_isData {data : List Posted} (h : ∀ m ∈ data, IsData m) :
    data.countP isFinished = 0 := by
  rw [List.countP_eq_zero]
  intro m hm
  simp [not_isFinished_of_isData (h m hm)]

theorem countP_postFinished (exitCode runtime : UInt32) :
    (postFinished exitCode runtime).countP isFinished = 1 := rfl

theorem countP_callsPosted {calls : List (BridgeCall × CallOutcome)}
    (h : ∀ c ∈ calls, ∀ e, c.2 = .raised e → (c.1.effects c.2).posted = postError e.message) :
    (callsPosted calls).countP isFinished = raisedCount calls := by
  induction calls with
  | nil => rfl
  | cons c calls ih =>
    have hrest := ih (fun x hx ↦ h x (List.mem_cons_of_mem c hx))
    have hc : ((c.1.effects c.2).posted).countP isFinished = if isRaised c.2 then 1 else 0 := by
      cases ho : c.2 with
      | raised e =>
        have hpost := h c List.mem_cons_self e ho
        rw [ho] at hpost
        rw [hpost, postError, List.countP_cons, countP_postFinished,
          not_isFinished_of_isData (isData_errorMessage e.message)]
        rfl
      | returned =>
        rcases effects_posted c.1 .returned with hnil | ⟨e, he, _⟩
        · rw [hnil]
          rfl
        · cases he
    rw [callsPosted, raisedCount] at *
    rw [List.flatMap_cons, List.countP_append, List.countP_cons, hrest, hc, Nat.add_comm]

theorem posted_clientCalls (op : Operation) (interactive : Bool) (hints method : CallOutcome)
    (cancels : List CallOutcome) :
    ∀ c ∈ clientCalls op interactive hints method cancels, ∀ e, c.2 = .raised e →
      (c.1.effects c.2).posted = postError e.message := by
  intro c hc e he
  simp only [clientCalls, List.mem_cons, List.mem_map] at hc
  rcases hc with rfl | rfl | ⟨o, _, rfl⟩
  · obtain rfl : hints = .raised e := he
    rfl
  · obtain rfl : method = .raised e := he
    rfl
  · obtain rfl : o = .raised e := he
    rfl

theorem callsPosted_of_raisedCount {calls : List (BridgeCall × CallOutcome)}
    (h : ∀ c ∈ calls, ∀ e, c.2 = .raised e → (c.1.effects c.2).posted = postError e.message) :
    (raisedCount calls = 0 → callsPosted calls = []) ∧
      (raisedCount calls = 1 → ∃ message, callsPosted calls = postError message) := by
  induction calls with
  | nil => exact ⟨fun _ ↦ rfl, fun h1 ↦ absurd h1 (by decide)⟩
  | cons c calls ih =>
    obtain ⟨hzero, hone⟩ := ih (fun x hx ↦ h x (List.mem_cons_of_mem c hx))
    have hcons : callsPosted (c :: calls) = (c.1.effects c.2).posted ++ callsPosted calls := rfl
    rw [hcons, raisedCount, List.countP_cons]
    cases ho : c.2 with
    | returned =>
      have hnil : (c.1.effects .returned).posted = [] := by
        rcases effects_posted c.1 .returned with hnil | ⟨e, he, _⟩
        · exact hnil
        · cases he
      rw [hnil]
      exact ⟨hzero, hone⟩
    | raised e =>
      have hpost := h c List.mem_cons_self e ho
      rw [ho] at hpost
      refine ⟨fun h0 ↦ absurd h0 (by simp [isRaised]), fun h1 ↦ ⟨e.message, ?_⟩⟩
      have hcalls : raisedCount calls = 0 := Nat.succ.inj h1
      rw [hpost, hzero hcalls, List.append_nil]

theorem countP_handle (sg : Signal CString) :
    (handle sg).countP isFinished = if isFinishedSignal sg then 1 else 0 := by
  by_cases hsg : ∃ e t, sg = .finished e t
  · obtain ⟨e, t, rfl⟩ := hsg
    rfl
  · have hdata := countP_isData (fun m hm ↦ isData_of_mem_handle (fun e t h ↦ hsg ⟨e, t, h⟩) hm)
    have hnot : isFinishedSignal sg = false := by
      cases sg with
      | finished e t => exact absurd ⟨e, t, rfl⟩ hsg
      | _ => rfl
    rw [hdata, hnot]
    rfl

theorem countP_eventPosts (signals : List (Signal CString)) :
    (eventPosts signals).countP isFinished = signals.countP isFinishedSignal := by
  induction signals with
  | nil => rfl
  | cons sg signals ih =>
    rw [eventPosts] at *
    rw [List.flatMap_cons, List.countP_append, List.countP_cons, ih, countP_handle, Nat.add_comm]

theorem isData_eventPosts {signals : List (Signal CString)}
    (h : signals.countP isFinishedSignal = 0) : ∀ m ∈ eventPosts signals, IsData m := by
  intro m hm
  obtain ⟨sg, hsg, hm⟩ := List.mem_flatMap.mp hm
  refine isData_of_mem_handle ?_ hm
  intro e t hf
  exact absurd (List.countP_eq_zero.mp h sg hsg) (by simp [hf, isFinishedSignal])

theorem grammar_eventPosts {signals : List (Signal CString)} (h : FinishedLast signals) :
    PortGrammar (eventPosts signals) := by
  rcases List.eq_nil_or_concat signals with rfl | ⟨front, last, rfl⟩
  · exact ⟨[], by simp, .inl rfl⟩
  · have hfront : ∀ m ∈ eventPosts front, IsData m := by
      refine isData_eventPosts (List.countP_eq_zero.mpr ?_)
      intro sg hsg
      rw [h sg (by simpa using hsg)]
      decide
    have hsplit : eventPosts (front ++ [last]) = eventPosts front ++ handle last := by
      simp [eventPosts]
    rw [List.concat_eq_append, hsplit]
    by_cases hlast : ∃ e t, last = .finished e t
    · obtain ⟨e, t, rfl⟩ := hlast
      exact ⟨eventPosts front, hfront, .inr ⟨e, t, rfl⟩⟩
    · refine ⟨eventPosts front ++ handle last, ?_, .inl rfl⟩
      intro m hm
      rcases List.mem_append.mp hm with hm | hm
      · exact hfront m hm
      · exact isData_of_mem_handle (fun e t hf ↦ hlast ⟨e, t, hf⟩) hm

theorem thread_cases (x : Thread × Posted) : x.1 = .dart ∨ x.1 = .eventLoop := by
  cases x.1 with
  | dart => exact .inl rfl
  | eventLoop => exact .inr rfl

/-- No message of the event loop comes behind the Finished of a failed call. -/
def QuietAfterError (trace : PortTrace) : Prop :=
  ∀ p q, trace = p ++ (.dart, finishedMessage 2 0) :: q → ∀ x ∈ q, x.1 = .dart

theorem split_finished {data rest p q : List Posted} {m m' : Posted}
    (hdata : data.countP isFinished = 0) (hrest : rest.countP isFinished = 0)
    (hm : isFinished m = true) (h : data ++ m' :: rest = p ++ m :: q) : p = data ∧ q = rest := by
  rcases List.append_eq_append_iff.mp h with ⟨l, hp, hl⟩ | ⟨l, hp, hl⟩
  · cases l with
    | nil =>
      obtain ⟨-, hrest⟩ := List.cons.inj hl
      exact ⟨by simpa using hp, hrest.symm⟩
    | cons x l =>
      obtain ⟨-, rfl⟩ := List.cons.inj hl
      simp [List.countP_append, hm] at hrest
  · cases l with
    | nil =>
      obtain ⟨-, hrest⟩ := List.cons.inj hl
      exact ⟨by simpa using hp.symm, hrest⟩
    | cons x l =>
      obtain ⟨rfl, -⟩ := List.cons.inj hl
      simp [hp, List.countP_append, hm] at hdata

theorem not_isData_sentinel : ¬ IsData sentinelMessage := fun h ↦ not_sentinel_of_isData h rfl

variable {signals : List (Signal CString)} {trace : PortTrace}

theorem grammar_of_one_error {message : CString}
    (h : Interleaves (postError message) (eventPosts signals) trace)
    (hfin : signals.countP isFinishedSignal = 0) (hquiet : QuietAfterError trace) :
    PortGrammar (trace.map Prod.snd) := by
  have hmem : (Thread.dart, finishedMessage 2 0) ∈ trace := by
    rw [← mem_proj, h.dart]
    simp [postError, postFinished]
  obtain ⟨p, q, rfl⟩ := List.append_of_mem hmem
  have hdart := h.dart
  rw [proj_append, proj_cons_self, proj_of_forall (hquiet p q rfl)] at hdart
  have herror : [errorMessage message].countP isFinished = 0 :=
    countP_isData (List.forall_mem_singleton.mpr (isData_errorMessage message))
  have hsplit : [errorMessage message] ++ finishedMessage 2 0 :: [sentinelMessage] =
      proj .dart p ++ finishedMessage 2 0 :: q.map Prod.snd := hdart.symm
  obtain ⟨hp, hq⟩ := split_finished herror rfl rfl hsplit
  refine ⟨p.map Prod.snd, ?_, .inr ⟨2, 0, ?_⟩⟩
  · intro m hm
    obtain ⟨⟨i, m⟩, hx, rfl⟩ := List.mem_map.mp hm
    have hi : m ∈ proj i p := mem_proj.mpr hx
    cases i with
    | dart =>
      obtain rfl : m = errorMessage message := by simpa [hp] using hi
      exact isData_errorMessage message
    | eventLoop =>
      apply isData_eventPosts hfin m
      rw [← h.eventLoop, proj_append]
      exact List.mem_append_left _ hi
  · rw [List.map_append, List.map_cons, hq]
    rfl

theorem quiet_of_grammar {data : List Posted} {exitCode runtime : UInt32}
    (hevents : proj .eventLoop trace = eventPosts signals)
    (hfin : signals.countP isFinishedSignal = 0) (hdata : data.countP isFinished = 0)
    (htrace : trace.map Prod.snd = data ++ postFinished exitCode runtime) :
    QuietAfterError trace := by
  intro p q hsplit x hx
  subst hsplit
  have hsplit : data ++ finishedMessage exitCode runtime :: [sentinelMessage] =
      p.map Prod.snd ++ finishedMessage 2 0 :: q.map Prod.snd := by
    rw [List.map_append, List.map_cons] at htrace
    exact htrace.symm
  obtain ⟨-, hq⟩ := split_finished hdata rfl rfl hsplit
  have hsentinel : x.2 = sentinelMessage := by
    have hmem : x.2 ∈ q.map Prod.snd := List.mem_map_of_mem hx
    rw [hq] at hmem
    exact List.mem_singleton.mp hmem
  rcases thread_cases x with hdart | hloop
  · exact hdart
  · -- the event loop only posts data here
    have hmem : x.2 ∈ eventPosts signals := by
      rw [← hevents, mem_proj, ← hloop]
      exact List.mem_append_right _ (List.mem_cons_of_mem _ hx)
    exact absurd (isData_eventPosts hfin x.2 hmem) (hsentinel ▸ not_isData_sentinel)

/-- When the port carries one terminal pair at most, at its end. -/
theorem port_grammar_iff (op : Operation) (interactive : Bool) (hints method : CallOutcome)
    (cancels : List CallOutcome) (signals : List (Signal CString)) (trace : PortTrace)
    (hlast : FinishedLast signals)
    (h : Interleaves (callsPosted (clientCalls op interactive hints method cancels))
      (eventPosts signals) trace) :
    PortGrammar (trace.map Prod.snd) ↔
      raisedCount (clientCalls op interactive hints method cancels) = 0 ∨
        raisedCount (clientCalls op interactive hints method cancels) = 1 ∧
          signals.countP isFinishedSignal = 0 ∧ QuietAfterError trace := by
  have hcalls := posted_clientCalls op interactive hints method cancels
  obtain ⟨hzero, hone⟩ := callsPosted_of_raisedCount hcalls
  have hcount : (trace.map Prod.snd).countP isFinished =
      raisedCount (clientCalls op interactive hints method cancels) +
        signals.countP isFinishedSignal := by
    rw [countP_snd (i := .dart) (j := .eventLoop) (by decide) (fun x _ ↦ thread_cases x),
      h.dart, h.eventLoop, countP_callsPosted hcalls, countP_eventPosts]
  constructor
  · intro hgrammar
    obtain ⟨data, hdata, htrace | ⟨exitCode, runtime, htrace⟩⟩ := hgrammar
    · rw [htrace, countP_isData hdata] at hcount
      exact .inl (by omega)
    · have hpair := hcount
      rw [htrace, List.countP_append, countP_isData hdata, countP_postFinished] at hpair
      by_cases hr : raisedCount (clientCalls op interactive hints method cancels) = 0
      · exact .inl hr
      · have hfin : signals.countP isFinishedSignal = 0 := by omega
        refine .inr ⟨by omega, hfin, ?_⟩
        exact quiet_of_grammar h.eventLoop hfin (countP_isData hdata) htrace
  · intro hcases
    rcases hcases with hr | ⟨hr, hfin, hquiet⟩
    · have hdart := h.dart
      rw [hzero hr] at hdart
      have hall : ∀ x ∈ trace, x.1 = .eventLoop := by
        intro x hx
        rcases thread_cases x with hi | hi
        · have hmem : x.2 ∈ proj .dart trace := mem_proj.mpr (hi ▸ hx)
          rw [hdart] at hmem
          exact absurd hmem List.not_mem_nil
        · exact hi
      rw [← proj_of_forall hall, h.eventLoop]
      exact grammar_eventPosts hlast
    · obtain ⟨message, hpost⟩ := hone hr
      rw [hpost] at h
      exact grammar_of_one_error h hfin hquiet

theorem port_grammar_iff_no_error :
    PortGrammar ([(Thread.eventLoop, finishedMessage 1 0), (.eventLoop, sentinelMessage)].map
        Prod.snd) ↔
      raisedCount (clientCalls .getDistroUpgrades true .returned .returned [.returned]) = 0 ∨
        raisedCount (clientCalls .getDistroUpgrades true .returned .returned [.returned]) = 1 ∧
          [Signal.finished 1 0].countP isFinishedSignal = 0 ∧
          QuietAfterError [(.eventLoop, finishedMessage 1 0), (.eventLoop, sentinelMessage)] :=
  port_grammar_iff .getDistroUpgrades true .returned .returned [.returned] [.finished 1 0] _
    (by simp [FinishedLast]) ⟨rfl, rfl⟩

theorem countP_le_of_grammar {msgs : List Posted} (h : PortGrammar msgs) :
    msgs.countP isFinished ≤ 1 := by
  obtain ⟨data, hdata, rfl | ⟨exitCode, runtime, rfl⟩⟩ := h
  · rw [countP_isData hdata]
    omega
  · rw [List.countP_append, countP_isData hdata, countP_postFinished]

/-- SetHints fails, the operation is accepted all the same, and the daemon
finishes it: the port carries two terminal pairs. -/
theorem two_terminal_pairs :
    let trace : PortTrace := (postError (Utf8.bytes "denied")).map (Thread.dart, ·) ++
      (postFinished 1 0).map (Thread.eventLoop, ·)
    FinishedLast [Signal.finished 1 0] ∧
      Interleaves
        (callsPosted (clientCalls .getDistroUpgrades true (.raised ⟨Utf8.bytes "denied"⟩)
          .returned []))
        (eventPosts [.finished 1 0]) trace ∧
      ¬ PortGrammar (trace.map Prod.snd) := by
  refine ⟨by simp [FinishedLast], ⟨rfl, rfl⟩, ?_⟩
  intro h
  exact absurd (countP_le_of_grammar h) (by decide)

end Grammar

section Hints

/-- The result that this port traffic leads to is decided by a message that
SetHints posted, the first of the Dart thread's. -/
def DecidedByHints (hints : CallOutcome) (trace : PortTrace) : Prop :=
  ∃ p m q, trace = p ++ (.dart, m) :: q ∧
    (∀ p' x q', p = p' ++ x :: q' → proposal (delivered p') (arrived x.2) = none) ∧
    (∃ e, proposal (delivered p) (arrived m) = some (.error e)) ∧
    (proj .dart p).length <
      (pkTransactionSetHints (some (Utf8.bytes "en_US.UTF-8")) true hints).posted.length

/-- Wherever the operation stands among the calls that were sent, a SetHints that succeeded stands
before it, and no run has the daemon accept the operation although SetHints already decided the
result. -/
def HintsFirst (op : Operation) (interactive : Bool) (outcomes : StartOutcomes)
    (q : StartedQuery) : Prop :=
  (∀ before r after, q.sent = before ++ (op.methodCall, r) :: after →
    (PkTransactionBridge.setHints (Utf8.bytes "en_US.UTF-8") interactive, .returned) ∈ before) ∧
  ∀ signals trace, Interleaves q.posted (eventPosts signals) trace →
    ¬ ((op.methodCall, .returned) ∈ q.sent ∧ DecidedByHints outcomes.setHints trace)

/-- With a valid handle the calls are SetHints and then the operation, and only SetHints stands
before the operation. -/
theorem sent_before_operation {op : Operation} {interactive : Bool} {outcomes : StartOutcomes}
    {before after : List (MethodCall × CallOutcome)} {r : CallOutcome}
    (h : (startedValid op interactive outcomes).sent = before ++ (op.methodCall, r) :: after) :
    before =
      [(PkTransactionBridge.setHints (Utf8.bytes "en_US.UTF-8") interactive, outcomes.setHints)] := by
  have hsent : (startedValid op interactive outcomes).sent = [
      (PkTransactionBridge.setHints (Utf8.bytes "en_US.UTF-8") interactive, outcomes.setHints),
      (op.methodCall, outcomes.method)] := rfl
  rw [hsent] at h
  cases before with
  | nil =>
    obtain ⟨hhead, -⟩ := List.cons.inj h
    exact absurd (congrArg Prod.fst hhead).symm (op.method_ne_setHints _ interactive)
  | cons x before =>
    obtain ⟨rfl, htail⟩ := List.cons.inj h
    cases before with
    | nil => rfl
    | cons y before => simp at htail

theorem hints_first_iff (op : Operation) (interactive : Bool) (outcomes : StartOutcomes) :
    ∃ q, startQuery op interactive outcomes = .ok q ∧
      (HintsFirst op interactive outcomes q ↔
        outcomes.create ≠ .returned ∨ outcomes.setHints = .returned) := by
  by_cases hcreate : outcomes.create = .returned
  · refine ⟨_, startQuery_valid op interactive hcreate, ?_⟩
    constructor
    · intro hhints
      obtain ⟨hfirst, -⟩ := hhints
      have hmem := hfirst
        [(PkTransactionBridge.setHints (Utf8.bytes "en_US.UTF-8") interactive, outcomes.setHints)]
        outcomes.method [] rfl
      exact .inr (congrArg Prod.snd (List.mem_singleton.mp hmem)).symm
    · intro hcases
      rcases hcases with hnull | hhints
      · exact absurd hcreate hnull
      · refine ⟨?_, ?_⟩
        · intro before r after hsplit
          rw [sent_before_operation hsplit, hhints]
          exact List.mem_singleton_self _
        · intro signals trace _ hrun
          obtain ⟨-, p, m, q, -, -, -, hlen⟩ := hrun
          rw [hhints] at hlen
          exact absurd hlen (Nat.not_lt_zero _)
  · refine ⟨_, startQuery_null op interactive hcreate, ?_⟩
    have hsent : (startedNull outcomes).sent = [] := rfl
    refine ⟨fun _ ↦ .inl hcreate, fun _ ↦ ⟨?_, ?_⟩⟩
    · intro before r after hsplit
      rw [hsent] at hsplit
      exact absurd hsplit.symm (List.append_ne_nil_of_right_ne_nil _ (List.cons_ne_nil _ _))
    · intro signals trace _ hrun
      rw [hsent] at hrun
      cases hrun.1

/-- SetHints fails, the operation is sent and accepted, and the result is already lost. -/
theorem operation_sent_after_failed_hints :
    let op := Operation.installPackages 0 []
    let outcomes : StartOutcomes := ⟨.returned, .raised ⟨Utf8.bytes "denied"⟩, .returned⟩
    ∃ q, startQuery op true outcomes = .ok q ∧
      (op.methodCall, .returned) ∈ q.sent ∧
      (PkTransactionBridge.setHints (Utf8.bytes "en_US.UTF-8") true, .returned) ∉ q.sent ∧
      (∃ trace, Interleaves q.posted (eventPosts [.finished 1 0]) trace ∧
        DecidedByHints (.raised ⟨Utf8.bytes "denied"⟩) trace) ∧
      ¬ HintsFirst op true outcomes q := by
  have hdecided : DecidedByHints (.raised ⟨Utf8.bytes "denied"⟩)
      ((postError (Utf8.bytes "denied")).map (Thread.dart, ·) ++
        (postFinished 1 0).map (Thread.eventLoop, ·)) := by
    refine ⟨[(.dart, errorMessage (Utf8.bytes "denied"))], finishedMessage 2 0,
      (.dart, sentinelMessage) :: (postFinished 1 0).map (Thread.eventLoop, ·), rfl, ?_, ?_, ?_⟩
    · intro p' x q' hp
      cases p' with
      | nil =>
        obtain ⟨rfl, -⟩ := List.cons.inj hp
        rfl
      | cons y p' => simp at hp
    · exact ⟨_, rfl⟩
    · decide
  refine ⟨_, startQuery_valid (.installPackages 0 []) true rfl, ?_, ?_, ?_, ?_⟩
  · exact List.mem_cons_of_mem _ List.mem_cons_self
  · intro hmem
    rcases List.mem_cons.mp hmem with heq | hmem
    · cases congrArg Prod.snd heq
    · have heq := congrArg Prod.fst (List.mem_singleton.mp hmem)
      exact (Operation.installPackages 0 []).method_ne_setHints _ true heq.symm
  · exact ⟨_, ⟨rfl, rfl⟩, hdecided⟩
  · intro hfirst
    obtain ⟨-, hnever⟩ := hfirst
    exact hnever [.finished 1 0] _ ⟨rfl, rfl⟩ ⟨List.mem_cons_of_mem _ List.mem_cons_self, hdecided⟩

end Hints

end PackageKitDart.Client
