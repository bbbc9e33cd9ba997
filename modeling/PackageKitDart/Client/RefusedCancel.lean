import PackageKitDart.Client.PortTraffic

namespace PackageKitDart.Client

open Dart LatchedDemux MergedTrace Native PkTransactionBridge

/-- A transaction under way: the client's side of it, everything posted to its
port, and how much of that was delivered. -/
structure TransactionRun where
  query : StartedQuery
  trace : PortTrace
  delivered : ℕ := 0

/-- The event loop posts, the port delivers, or the user cancels; a call that
posts lets the event loop post `d₁` and `d₂` between its own three messages. -/
inductive RunStep
  | post (m : Posted)
  | deliver
  | cancel (outcome : CallOutcome) (d₁ d₂ : List Posted)

def fromLoop (msgs : List Posted) : PortTrace := msgs.map (fun m ↦ (.eventLoop, m))

def RunStep.events : RunStep → List Posted
  | .post m => [m]
  | .deliver => []
  | .cancel _ d₁ d₂ => d₁ ++ d₂

def cancelTraffic (outcome : CallOutcome) (d₁ d₂ : List Posted) : PortTrace :=
  match outcome with
  | .returned => fromLoop (d₁ ++ d₂)
  | .raised e =>
    (.dart, errorMessage e.message) :: (fromLoop d₁ ++
      (.dart, finishedMessage 2 0) :: (fromLoop d₂ ++ [(.dart, sentinelMessage)]))

theorem proj_dart_fromLoop (msgs : List Posted) : proj .dart (fromLoop msgs) = [] := by
  simp [proj, fromLoop]

theorem proj_eventLoop_fromLoop (msgs : List Posted) : proj .eventLoop (fromLoop msgs) = msgs := by
  rw [proj_of_forall (by simp [fromLoop])]
  simp [fromLoop]

theorem map_snd_fromLoop (msgs : List Posted) : (fromLoop msgs).map Prod.snd = msgs := by
  simp [fromLoop]

theorem interleaves_cancelTraffic (outcome : CallOutcome) (d₁ d₂ : List Posted) :
    Interleaves (pkCancel outcome).posted (d₁ ++ d₂) (cancelTraffic outcome d₁ d₂) := by
  cases outcome with
  | returned => exact ⟨proj_dart_fromLoop _, proj_eventLoop_fromLoop _⟩
  | raised e =>
    refine ⟨?_, ?_⟩
    · simp only [cancelTraffic, proj_cons_self, proj_append, proj_dart_fromLoop]
      rfl
    · have hne : Thread.dart ≠ .eventLoop := by decide
      simp only [cancelTraffic, proj_cons_of_ne hne, proj_append, proj_eventLoop_fromLoop]
      simp [proj]

namespace TransactionRun

def step (r : TransactionRun) : RunStep → TransactionRun
  | .post m => { r with trace := r.trace ++ [(.eventLoop, m)] }
  | .deliver =>
    match r.trace[r.delivered]? with
    | none => r
    | some x =>
      { r with query := r.query.deliver (arrived x.2), delivered := r.delivered + 1 }
  | .cancel outcome d₁ d₂ =>
    -- a finished transaction makes no call, and only the event loop posts
    if r.query.dispatcher.finished then { r with trace := r.trace ++ fromLoop (d₁ ++ d₂) }
    else
      { r with query := r.query.cancel outcome, trace := r.trace ++ cancelTraffic outcome d₁ d₂ }

def runSteps (r : TransactionRun) (steps : List RunStep) : TransactionRun := steps.foldl step r

def final (r : TransactionRun) : StartedQuery :=
  r.query.deliverAll (Client.delivered (r.trace.drop r.delivered))

/-- The run goes on without the call, or with a call that the daemon refuses. -/
def without (r : TransactionRun) (d₁ d₂ : List Posted) (steps : List RunStep) : TransactionRun :=
  r.runSteps ((d₁ ++ d₂).map .post ++ steps)

def withRefused (r : TransactionRun) (e : SdbusError) (d₁ d₂ : List Posted)
    (steps : List RunStep) : TransactionRun :=
  r.runSteps (.cancel (.raised e) d₁ d₂ :: steps)

/-- What the undisturbed run posts after the place of the call. -/
def laterPosts (r : TransactionRun) (d₁ d₂ : List Posted) (steps : List RunStep) : List Posted :=
  ((r.without d₁ d₂ steps).trace.map Prod.snd).drop (r.trace.length + d₁.length + d₂.length)

theorem runSteps_append (r : TransactionRun) (steps steps' : List RunStep) :
    r.runSteps (steps ++ steps') = (r.runSteps steps).runSteps steps' := List.foldl_append

/-- A step only ever adds to the traffic, and of the event loop's messages just its own. -/
theorem step_trace (r : TransactionRun) (s : RunStep) :
    ∃ more, (r.step s).trace = r.trace ++ more ∧ proj .eventLoop more = s.events := by
  cases s with
  | post m => exact ⟨[(.eventLoop, m)], rfl, rfl⟩
  | deliver =>
    refine ⟨[], ?_, rfl⟩
    simp only [step]
    split <;> simp
  | cancel outcome d₁ d₂ =>
    simp only [step]
    split
    · exact ⟨_, rfl, proj_eventLoop_fromLoop _⟩
    · exact ⟨_, rfl, (interleaves_cancelTraffic outcome d₁ d₂).eventLoop⟩

theorem runSteps_trace (r : TransactionRun) (steps : List RunStep) :
    ∃ more, (r.runSteps steps).trace = r.trace ++ more ∧
      proj .eventLoop more = steps.flatMap RunStep.events := by
  induction steps generalizing r with
  | nil => exact ⟨[], by simp [runSteps], rfl⟩
  | cons s steps ih =>
    obtain ⟨more, htrace, hevents⟩ := r.step_trace s
    obtain ⟨more', htrace', hevents'⟩ := ih (r.step s)
    refine ⟨more ++ more', ?_, ?_⟩
    · have hcons : r.runSteps (s :: steps) = (r.step s).runSteps steps := rfl
      rw [hcons, htrace', htrace, List.append_assoc]
    · rw [proj_append, hevents, hevents', List.flatMap_cons]

theorem runSteps_posts (r : TransactionRun) (msgs : List Posted) :
    r.runSteps (msgs.map .post) = { r with trace := r.trace ++ fromLoop msgs } := by
  induction msgs generalizing r with
  | nil => simp [runSteps, fromLoop]
  | cons m msgs ih =>
    have hcons : r.runSteps ((m :: msgs).map .post) =
        (r.step (.post m)).runSteps (msgs.map .post) :=
      rfl
    rw [hcons, ih]
    simp [step, fromLoop]

/-- The dispatcher holds what the delivered part of the traffic leads to. -/
structure Sound (signals : List (Signal CString)) (r : TransactionRun) : Prop where
  ready : r.query.Ready
  view : r.query.dispatcher.view =
    run lateOutcome init (((r.trace.take r.delivered).map Prod.snd).map postedReading)
  delivered_le : r.delivered ≤ r.trace.length
  dart : proj .dart r.trace = r.query.posted
  eventLoop : proj .eventLoop r.trace <+: eventPosts signals

variable {signals : List (Signal CString)} {r : TransactionRun}

theorem Sound.guarded (h : r.Sound signals) : SentinelGuarded (r.trace.map Prod.snd) := by
  apply Guarded.merge
  intro i
  cases i with
  | dart =>
    rw [h.dart]
    exact guarded_callsPosted r.query.calls
  | eventLoop => exact (guarded_eventPosts signals).of_initial h.eventLoop

theorem Sound.post (h : r.Sound signals) {m : Posted}
    (hev : proj .eventLoop (r.step (.post m)).trace <+: eventPosts signals) :
    (r.step (.post m)).Sound signals where
  ready := h.ready
  view := by
    have htake : (r.trace ++ [(Thread.eventLoop, m)]).take r.delivered =
        r.trace.take r.delivered := List.take_append_of_le_length h.delivered_le
    simpa only [step, htake] using h.view
  delivered_le := by
    have hle := h.delivered_le
    simp only [step, List.length_append]
    omega
  dart := by
    have hne : Thread.eventLoop ≠ .dart := by decide
    simp only [step, proj_append, proj_cons_of_ne hne, h.dart]
    simp [proj]
  eventLoop := hev

theorem deliver_posted {q : StartedQuery} (h : q.Ready) (msg : Uint8List) :
    (q.deliver msg).posted = q.posted := by
  cases hp : q.portOpen with
  | false => rw [StartedQuery.deliver_of_port_closed h hp]
  | true =>
    obtain ⟨-, -, -, -, hcalls⟩ := StartedQuery.deliver_open h hp msg
    rw [StartedQuery.posted, hcalls, List.flatMap_append, StartedQuery.posted]
    split
    · exact List.append_nil _
    · exact List.append_nil _

theorem Sound.deliver (h : r.Sound signals) : (r.step .deliver).Sound signals := by
  simp only [step]
  split
  · exact h
  · next x hx =>
    obtain ⟨hlt, rfl⟩ := List.getElem?_eq_some_iff.mp hx
    have hprefix : SentinelGuarded ((r.trace.take r.delivered).map Prod.snd) :=
      h.guarded.of_initial ((List.take_prefix _ _).map Prod.snd)
    obtain ⟨hready, hview⟩ := view_deliver h.ready h.view hprefix r.trace[r.delivered].2
    refine ⟨hready, ?_, hlt, ?_, h.eventLoop⟩
    · have htake : (r.trace.take (r.delivered + 1)).map Prod.snd =
          (r.trace.take r.delivered).map Prod.snd ++ [r.trace[r.delivered].2] := by
        rw [List.take_add_one, hx, List.map_append]
        rfl
      rw [hview, htake]
    · rw [deliver_posted h.ready]
      exact h.dart

theorem Sound.cancel (h : r.Sound signals) {outcome : CallOutcome} {d₁ d₂ : List Posted}
    (hev : proj .eventLoop (r.step (.cancel outcome d₁ d₂)).trace <+: eventPosts signals) :
    (r.step (.cancel outcome d₁ d₂)).Sound signals := by
  have hle := h.delivered_le
  have htake (more : PortTrace) : (r.trace ++ more).take r.delivered = r.trace.take r.delivered :=
    List.take_append_of_le_length hle
  simp only [step] at hev ⊢
  split at hev
  · next hfin =>
    rw [if_pos hfin]
    refine ⟨h.ready, ?_, ?_, ?_, hev⟩
    · simpa only [htake] using h.view
    · simp only [List.length_append]
      omega
    · simpa only [proj_append, proj_dart_fromLoop, List.append_nil] using h.dart
  · next hfin =>
    rw [if_neg hfin]
    have hcancel : r.query.cancel outcome =
        { r.query with calls := r.query.calls ++ [(.transactionCancel, outcome)] } := by
      simp [StartedQuery.cancel, hfin]
    refine ⟨?_, ?_, ?_, ?_, hev⟩
    · rw [hcancel]
      exact ⟨h.ready.uniform, h.ready.idle, h.ready.finished⟩
    · rw [hcancel]
      simpa only [htake] using h.view
    · simp only [List.length_append]
      omega
    · simp only [proj_append, (interleaves_cancelTraffic outcome d₁ d₂).dart, h.dart, hcancel,
        StartedQuery.posted, List.flatMap_append, List.flatMap_singleton]
      rfl

theorem Sound.step (h : r.Sound signals) {s : RunStep}
    (hev : proj .eventLoop (r.step s).trace <+: eventPosts signals) :
    (r.step s).Sound signals := by
  cases s with
  | post m => exact h.post hev
  | deliver => exact h.deliver
  | cancel outcome d₁ d₂ => exact h.cancel hev

theorem Sound.runSteps (h : r.Sound signals) {steps : List RunStep}
    (hev : proj .eventLoop r.trace ++ steps.flatMap RunStep.events <+: eventPosts signals) :
    (r.runSteps steps).Sound signals := by
  induction steps generalizing r with
  | nil => exact h
  | cons s steps ih =>
    obtain ⟨more, htrace, hevents⟩ := r.step_trace s
    rw [List.flatMap_cons, ← List.append_assoc, ← hevents, ← proj_append, ← htrace] at hev
    have hstep : (r.step s).Sound signals := h.step ((List.prefix_append _ _).trans hev)
    exact ih hstep hev

/-- In the end the client holds what the whole traffic leads to. -/
theorem Sound.final (h : r.Sound signals) :
    (∀ s, (r.final.dispatcher.streams s).events =
      received s false ((r.trace.map Prod.snd).map postedReading)) ∧
    r.final.dispatcher.done.outcome =
      ((r.trace.map Prod.snd).map postedReading).findSome? Item.own := by
  have hsplit : (r.trace.take r.delivered).map Prod.snd ++ (r.trace.drop r.delivered).map Prod.snd =
      r.trace.map Prod.snd := by rw [← List.map_append, List.take_append_drop]
  have hguard := h.guarded
  rw [← hsplit] at hguard
  have hview := view_deliverAll h.ready h.view _ hguard
  rw [hsplit, ← delivered_eq] at hview
  refine ⟨?_, ?_⟩
  · intro s
    have hout := congrFun (congrArg State.out hview) s
    rw [run_out] at hout
    exact hout
  · have hres := congrArg State.result hview
    rw [run_result] at hres
    rw [← firstVerdict_of_guarded lateOutcome (guarded_readings h.guarded)]
    exact hres

end TransactionRun

/-- The result of the first Finished or undecodable message. -/
def decidedBy (msgs : List Posted) : Option Outcome :=
  (msgs.map postedReading).findSome? Item.own

/-- One of the messages is a sentinel or does not decode. -/
def closesStreams (msgs : List Posted) : Bool := msgs.any (fun m ↦ closing (arrived m))

/-- On open streams, none but `errors` receives anything from these messages. -/
def NoData (msgs : List Posted) : Prop :=
  ∀ s : StreamName, s ≠ .errors → received s false (msgs.map postedReading) = []

/-- A result `o` proposed between `kept` and `lost`, and an end of the streams
between `kept'` and `lost'`, change nothing: either they come too late, or what
they cut off says nothing else. -/
structure Unnoticed (o : Option Outcome) (kept lost kept' lost' : List Posted) : Prop where
  result : decidedBy kept ≠ none ∨ decidedBy lost = o
  streams : closesStreams kept' = true ∨ NoData lost'

/-- The second client ends up like the first, but for its `errors` stream. -/
structure Intact (q q' : StartedQuery) : Prop where
  streams : ∀ s, s ≠ .errors →
    (q'.dispatcher.streams s).events = (q.dispatcher.streams s).events
  result : q'.dispatcher.done.outcome = q.dispatcher.done.outcome

theorem closesStreams_eq (msgs : List Posted) :
    closesStreams msgs = (msgs.map postedReading).any Item.closes := by
  rw [closesStreams, List.any_map]
  rfl

theorem decidedBy_append (msgs msgs' : List Posted) :
    decidedBy (msgs ++ msgs') = (decidedBy msgs).or (decidedBy msgs') := by
  rw [decidedBy, List.map_append, List.findSome?_append]
  rfl

theorem decidedBy_append_ne_none {msgs : List Posted} (h : decidedBy msgs ≠ none)
    (msgs' : List Posted) : decidedBy (msgs ++ msgs') ≠ none := by
  obtain ⟨o, ho⟩ := Option.ne_none_iff_exists'.mp h
  rw [decidedBy_append, ho]
  simp

theorem closesStreams_append (msgs msgs' : List Posted) :
    closesStreams (msgs ++ msgs') = (closesStreams msgs || closesStreams msgs') := List.any_append

theorem received_append_posted (s : StreamName) (closed : Bool) (msgs msgs' : List Posted) :
    received s closed ((msgs ++ msgs').map postedReading) =
      received s closed (msgs.map postedReading) ++
        received s (closed || closesStreams msgs) (msgs'.map postedReading) := by
  rw [List.map_append, received_append, closesStreams_eq]

theorem unnoticed_iff {o : Option Outcome} {kept lost kept' lost' base new : List Posted}
    (hbase : base = kept ++ lost) (hbase' : base = kept' ++ lost')
    (hresult : decidedBy new = (decidedBy kept).or o)
    (hstreams : ∀ s : StreamName, s ≠ .errors →
      received s false (new.map postedReading) = received s false (kept'.map postedReading)) :
    ((∀ s : StreamName, s ≠ .errors →
      received s false (new.map postedReading) = received s false (base.map postedReading)) ∧
      decidedBy new = decidedBy base) ↔ Unnoticed o kept lost kept' lost' := by
  have hres : decidedBy new = decidedBy base ↔ decidedBy kept ≠ none ∨ decidedBy lost = o := by
    rw [hresult, hbase, decidedBy_append]
    cases decidedBy kept with
    | none => simp [eq_comm]
    | some r => simp
  have hdata : (∀ s : StreamName, s ≠ .errors → received s false (new.map postedReading) =
      received s false (base.map postedReading)) ↔
      closesStreams kept' = true ∨ NoData lost' := by
    constructor
    · intro h
      cases hc : closesStreams kept' with
      | true => exact .inl rfl
      | false =>
        refine .inr ?_
        intro s hs
        have heq := h s hs
        rw [hstreams s hs, hbase', received_append_posted, hc] at heq
        exact (List.append_cancel_left (heq.symm.trans (List.append_nil _).symm))
    · intro h s hs
      rw [hstreams s hs, hbase', received_append_posted]
      rcases h with hc | hnone
      · rw [hc]
        exact (List.append_nil _).symm
      · cases hc : closesStreams kept' with
        | true => exact (List.append_nil _).symm
        | false => rw [Bool.or_false, hnone s hs, List.append_nil]
  rw [hres, hdata]
  exact ⟨fun h ↦ ⟨h.2, h.1⟩, fun h ↦ ⟨h.streams, h.result⟩⟩

section Refused

variable {message : CString}

def disturbed (message : CString) (p d₁ d₂ rest : List Posted) : List Posted :=
  p ++ errorMessage message :: (d₁ ++ finishedMessage 2 0 :: (d₂ ++ sentinelMessage :: rest))

theorem reading_errorMessage_of_open (h : closing (arrived (errorMessage message)) = false) :
    ∃ v, postedReading (errorMessage message) = .data .errors v := by
  obtain ⟨disc, bs, s, hm, hs⟩ := isData_errorMessage message
  obtain ⟨rfl, rfl⟩ := List.cons.inj hm
  obtain rfl : StreamName.errors = s := Option.some.inj hs
  cases hv : GlazeCodec.decode StreamName.errors.type (arrived (errorMessage message)) 1 with
  | ok v => exact ⟨v, reading_data rfl hv⟩
  | error e =>
    have hfault : postedReading (errorMessage message) = .fault (.error (decodeError e)) :=
      reading_of_fails (.data rfl hv)
    have hclosing : (postedReading (errorMessage message)).closes = false := h
    rw [hfault] at hclosing
    cases hclosing

theorem decidedBy_cons (m : Posted) (msgs : List Posted) :
    decidedBy (m :: msgs) = (postedReading m).own.or (decidedBy msgs) := by
  rw [decidedBy, List.map_cons, List.findSome?_cons]
  cases (postedReading m).own <;> rfl

theorem decidedBy_errorMessage_of_closing (h : closing (arrived (errorMessage message)) = true) :
    ∃ o, decidedBy [errorMessage message] = some o := by
  rcases reading_of_isData (isData_errorMessage message) with ⟨s, v, hm⟩ | ⟨o, hm⟩
  · have hclosing : (postedReading (errorMessage message)).closes = true := h
    rw [hm] at hclosing
    cases hclosing
  · refine ⟨o, ?_⟩
    rw [decidedBy_cons, hm]
    rfl

theorem decidedBy_disturbed_of_open (h : closing (arrived (errorMessage message)) = false)
    (p d₁ d₂ rest : List Posted) : decidedBy (disturbed message p d₁ d₂ rest) =
      (decidedBy (p ++ d₁)).or (some (finishedOutcome ⟨2, 0⟩)) := by
  obtain ⟨v, hv⟩ := reading_errorMessage_of_open h
  have hfinal : postedReading (finishedMessage 2 0) = .final (finishedOutcome ⟨2, 0⟩) :=
    reading_finishedMessage 2 0
  rw [disturbed, decidedBy_append, decidedBy_cons, hv, decidedBy_append, decidedBy_cons, hfinal,
    decidedBy_append p d₁, Option.or_assoc]
  rfl

theorem decidedBy_disturbed_of_closing (h : closing (arrived (errorMessage message)) = true)
    (p d₁ d₂ rest : List Posted) : decidedBy (disturbed message p d₁ d₂ rest) =
      (decidedBy p).or (decidedBy [errorMessage message]) := by
  obtain ⟨o, ho⟩ := decidedBy_errorMessage_of_closing h
  have hown : (postedReading (errorMessage message)).own = some o := by
    rw [decidedBy_cons] at ho
    cases hm : (postedReading (errorMessage message)).own with
    | none => rw [hm] at ho; cases ho
    | some r => rwa [hm] at ho
  rw [disturbed, decidedBy_append, decidedBy_cons, ho, hown]
  rfl

theorem received_disturbed_of_open (h : closing (arrived (errorMessage message)) = false)
    (p d₁ d₂ rest : List Posted) {s : StreamName} (hs : s ≠ .errors) :
    received s false ((disturbed message p d₁ d₂ rest).map postedReading) =
      received s false ((p ++ d₁ ++ d₂).map postedReading) := by
  obtain ⟨v, hv⟩ := reading_errorMessage_of_open h
  have hfinal : postedReading (finishedMessage 2 0) = .final (finishedOutcome ⟨2, 0⟩) :=
    reading_finishedMessage 2 0
  have herror (closed : Bool) (l : List Reading) :
      received s closed (postedReading (errorMessage message) :: l) = received s closed l := by
    rw [hv]
    exact received_cons_of_blank rfl (Item.at?_data_of_ne hs.symm v) closed l
  have hfinished (closed : Bool) (l : List Reading) :
      received s closed (postedReading (finishedMessage 2 0) :: l) = received s closed l := by
    rw [hfinal]
    exact received_cons_of_blank rfl rfl closed l
  have hsentinel (closed : Bool) (l : List Reading) :
      received s closed (postedReading sentinelMessage :: l) = [] :=
    received_cons_of_closes rfl s closed l
  -- the three messages add nothing, and the sentinel ends it
  rw [disturbed, List.append_assoc, received_append_posted, received_append_posted, List.map_cons,
    herror, received_append_posted, received_append_posted, List.map_cons, hfinished,
    received_append_posted, List.map_cons, hsentinel, List.append_nil]

theorem received_disturbed_of_closing (h : closing (arrived (errorMessage message)) = true)
    (p d₁ d₂ rest : List Posted) (s : StreamName) :
    received s false ((disturbed message p d₁ d₂ rest).map postedReading) =
      received s false (p.map postedReading) := by
  have hcloses : (postedReading (errorMessage message)).closes = true := h
  rw [disturbed, received_append_posted, List.map_cons, received_cons_of_closes hcloses,
    List.append_nil]

end Refused

namespace TransactionRun

variable {signals : List (Signal CString)} {r : TransactionRun}

theorem withRefused_of_finished (h : r.query.dispatcher.finished = true) (e : SdbusError)
    (d₁ d₂ : List Posted) (steps : List RunStep) :
    r.withRefused e d₁ d₂ steps = r.without d₁ d₂ steps := by
  have hstep : r.step (.cancel (.raised e) d₁ d₂) =
      { r with trace := r.trace ++ fromLoop (d₁ ++ d₂) } := by
    simp [step, h]
  rw [without, runSteps_append, runSteps_posts, ← hstep]
  rfl

theorem without_trace (r : TransactionRun) (d₁ d₂ : List Posted) (steps : List RunStep) :
    (r.without d₁ d₂ steps).trace.map Prod.snd =
      r.trace.map Prod.snd ++ (d₁ ++ (d₂ ++ r.laterPosts d₁ d₂ steps)) := by
  have hposts := r.runSteps_posts (d₁ ++ d₂)
  obtain ⟨more, hmore, -⟩ := (r.runSteps ((d₁ ++ d₂).map .post)).runSteps_trace steps
  rw [hposts] at hmore
  have htrace : (r.without d₁ d₂ steps).trace.map Prod.snd =
      (r.trace.map Prod.snd ++ (d₁ ++ d₂)) ++ more.map Prod.snd := by
    rw [without, runSteps_append, hposts, hmore]
    simp only [List.map_append, map_snd_fromLoop]
  have hlater : r.laterPosts d₁ d₂ steps = more.map Prod.snd := by
    rw [laterPosts, htrace]
    exact List.drop_left' (by simp [Nat.add_assoc])
  rw [htrace, hlater]
  simp only [List.append_assoc]

theorem withRefused_trace (h : r.query.dispatcher.finished = false) (e : SdbusError)
    (d₁ d₂ : List Posted) (steps : List RunStep) :
    ∃ rest, (r.withRefused e d₁ d₂ steps).trace.map Prod.snd =
      disturbed e.message (r.trace.map Prod.snd) d₁ d₂ rest := by
  obtain ⟨more, hmore, -⟩ := (r.step (.cancel (.raised e) d₁ d₂)).runSteps_trace steps
  have hstep : (r.step (.cancel (.raised e) d₁ d₂)).trace =
      r.trace ++ cancelTraffic (.raised e) d₁ d₂ := by
    simp [step, h]
  refine ⟨more.map Prod.snd, ?_⟩
  have hcons : r.withRefused e d₁ d₂ steps = (r.step (.cancel (.raised e) d₁ d₂)).runSteps steps :=
    rfl
  rw [hcons, hmore, hstep, disturbed, cancelTraffic]
  simp only [List.map_append, List.map_cons, map_snd_fromLoop, List.append_assoc,
    List.cons_append, List.nil_append]

/-- The refused call goes unnoticed. Its error message may not decode, and
then it is this message that decides and closes, not the two behind it. -/
def CallUnnoticed (r : TransactionRun) (e : SdbusError) (d₁ d₂ : List Posted)
    (steps : List RunStep) : Prop :=
  let p := r.trace.map Prod.snd
  let rest := r.laterPosts d₁ d₂ steps
  if closing (arrived (errorMessage e.message)) then
    Unnoticed (decidedBy [errorMessage e.message]) p (d₁ ++ (d₂ ++ rest)) p (d₁ ++ (d₂ ++ rest))
  else
    Unnoticed (some (finishedOutcome ⟨2, 0⟩)) (p ++ d₁) (d₂ ++ rest) (p ++ d₁ ++ d₂) rest

theorem Sound.intact_iff {r' : TransactionRun} (h : r.Sound signals) (h' : r'.Sound signals) :
    Intact r.final r'.final ↔
      (∀ s : StreamName, s ≠ .errors →
        received s false ((r'.trace.map Prod.snd).map postedReading) =
          received s false ((r.trace.map Prod.snd).map postedReading)) ∧
      decidedBy (r'.trace.map Prod.snd) = decidedBy (r.trace.map Prod.snd) := by
  obtain ⟨hout, hres⟩ := h.final
  obtain ⟨hout', hres'⟩ := h'.final
  constructor
  · intro hi
    refine ⟨?_, ?_⟩
    · intro s hs
      rw [← hout s, ← hout' s, hi.streams s hs]
    · rw [decidedBy, decidedBy, ← hres, ← hres', hi.result]
  · intro hsame
    obtain ⟨hstreams, hresult⟩ := hsame
    refine ⟨?_, ?_⟩
    · intro s hs
      rw [hout s, hout' s, hstreams s hs]
    · rw [hres, hres']
      exact hresult

theorem Sound.settled_of_finished (h : r.Sound signals)
    (hfin : r.query.dispatcher.finished = true) :
    decidedBy (r.trace.map Prod.snd) ≠ none ∧ closesStreams (r.trace.map Prod.snd) = true := by
  have hsplit : r.trace.map Prod.snd =
      (r.trace.take r.delivered).map Prod.snd ++ (r.trace.drop r.delivered).map Prod.snd := by
    rw [← List.map_append, List.take_append_drop]
  have hguard := h.guarded
  rw [hsplit] at hguard
  have hdecided := decided_of_finished hguard.left h.view hfin
  have hclosed : r.query.dispatcher.view.closed = true := hfin
  rw [h.view, run_closed, init, Bool.false_or, ← closesStreams_eq] at hclosed
  rw [Completer.isCompleted, ← TransactionDispatcher.view_result, h.view,
    result_of_guarded lateOutcome (guarded_readings hguard.left)] at hdecided
  rw [hsplit, closesStreams_append, hclosed]
  exact ⟨decidedBy_append_ne_none (Option.isSome_iff_ne_none.mp hdecided) _, rfl⟩

theorem Sound.refused_iff (h : r.Sound signals) (e : SdbusError) (d₁ d₂ : List Posted)
    (steps : List RunStep)
    (hev : proj .eventLoop r.trace ++ (d₁ ++ d₂ ++ steps.flatMap RunStep.events) <+:
      eventPosts signals) :
    Intact (r.without d₁ d₂ steps).final (r.withRefused e d₁ d₂ steps).final ↔
      r.CallUnnoticed e d₁ d₂ steps := by
  have hwithout : (r.without d₁ d₂ steps).Sound signals := by
    apply h.runSteps
    have hposts : ((d₁ ++ d₂).map RunStep.post).flatMap RunStep.events = d₁ ++ d₂ := by
      rw [List.flatMap_map]
      exact List.flatMap_singleton' _
    rwa [List.flatMap_append, hposts]
  have hwith : (r.withRefused e d₁ d₂ steps).Sound signals := h.runSteps hev
  have htrace := r.without_trace d₁ d₂ steps
  cases hfin : r.query.dispatcher.finished with
  | true =>
    -- both runs are the same one
    obtain ⟨hdecided, hcloses⟩ := h.settled_of_finished hfin
    rw [withRefused_of_finished hfin]
    refine ⟨?_, fun _ ↦ ⟨fun _ _ ↦ rfl, rfl⟩⟩
    intro _
    unfold CallUnnoticed
    split
    · exact ⟨.inl hdecided, .inl hcloses⟩
    · refine ⟨.inl (decidedBy_append_ne_none hdecided d₁), .inl ?_⟩
      rw [List.append_assoc, closesStreams_append, hcloses, Bool.true_or]
  | false =>
    obtain ⟨rest, hrest⟩ := withRefused_trace hfin e d₁ d₂ steps
    rw [hwithout.intact_iff hwith, hrest, htrace]
    unfold CallUnnoticed
    cases hclosing : closing (arrived (errorMessage e.message)) with
    | true =>
      exact unnoticed_iff rfl rfl (decidedBy_disturbed_of_closing hclosing _ _ _ _)
        (fun s _ ↦ received_disturbed_of_closing hclosing _ _ _ _ s)
    | false =>
      exact unnoticed_iff (by simp) (by simp) (decidedBy_disturbed_of_open hclosing _ _ _ _)
        (fun s hs ↦ received_disturbed_of_open hclosing _ _ _ _ hs)

end TransactionRun

theorem sound_started {op : Operation} {interactive : Bool} {outcomes : StartOutcomes}
    {signals : List (Signal CString)} {posts : List Posted} {trace : PortTrace}
    (h : Interleaves (startedValid op interactive outcomes).posted posts trace)
    (hev : posts <+: eventPosts signals) :
    TransactionRun.Sound signals ⟨startedValid op interactive outcomes, trace, 0⟩ where
  ready := StartedQuery.ready_startedValid op interactive outcomes
  view := rfl
  delivered_le := Nat.zero_le _
  dart := h.dart
  eventLoop := by rwa [h.eventLoop]

/-- When a refused cancel leaves the transaction as it was. -/
theorem refused_cancel_iff (op : Operation) (interactive : Bool) (hints : CallOutcome)
    (signals : List (Signal CString)) (posts : List Posted) (trace : PortTrace)
    (htrace : Interleaves (startedValid op interactive ⟨.returned, hints, .returned⟩).posted
      posts trace)
    (before after : List RunStep) (e : SdbusError) (d₁ d₂ : List Posted)
    (hev : posts ++ (before.flatMap RunStep.events ++
      (d₁ ++ d₂ ++ after.flatMap RunStep.events)) <+: eventPosts signals) :
    ∃ q, startQuery op interactive ⟨.returned, hints, .returned⟩ = .ok q ∧
      let r := (TransactionRun.mk q trace 0).runSteps before
      (Intact (r.without d₁ d₂ after).final (r.withRefused e d₁ d₂ after).final ↔
        r.CallUnnoticed e d₁ d₂ after) := by
  refine ⟨_, startQuery_valid op interactive rfl, ?_⟩
  have hstart := sound_started htrace ((List.prefix_append posts _).trans hev)
  rw [← List.append_assoc] at hev
  obtain ⟨more, hmore, hevents⟩ := (TransactionRun.mk
    (startedValid op interactive ⟨.returned, hints, .returned⟩) trace 0).runSteps_trace before
  have hbefore := hstart.runSteps
    (by rw [htrace.eventLoop]; exact (List.prefix_append _ _).trans hev)
  refine hbefore.refused_iff e d₁ d₂ after ?_
  rwa [hmore, proj_append, hevents, htrace.eventLoop]

theorem refused_cancel_iff_before_finished :
    ∃ q, startQuery (.installPackages 0 []) true ⟨.returned, .returned, .returned⟩ = .ok q ∧
      let r := (TransactionRun.mk q [] 0).runSteps [.post (onRepoDetail [] [] true), .deliver]
      let after := (postFinished 1 0).map RunStep.post
      (Intact (r.without [] [] after).final (r.withRefused ⟨[]⟩ [] [] after).final ↔
        r.CallUnnoticed ⟨[]⟩ [] [] after) :=
  refused_cancel_iff (.installPackages 0 []) true .returned
    [.repoDetail [] [] true, .finished 1 0] [] [] ⟨rfl, rfl⟩
    [.post (onRepoDetail [] [] true), .deliver] ((postFinished 1 0).map RunStep.post) ⟨[]⟩ [] []
    ⟨[], rfl⟩

/-- The daemon accepts the installation, refuses a cancel and finishes with
success: the client reports a failure. -/
theorem refused_cancel_overrides_success :
    ∃ q, startQuery (.installPackages 0 []) true ⟨.returned, .returned, .returned⟩ = .ok q ∧
      Interleaves q.posted [] [] ∧
      let after := (eventPosts [.finished 1 0]).map RunStep.post
      let r : TransactionRun := ⟨q, [], 0⟩
      (r.without [] [] after).final.dispatcher.done.outcome =
          some (.ok { exit := .success, runtimeMs := 0 }) ∧
        (r.withRefused ⟨Utf8.bytes "not allowed"⟩ [] [] after).final.dispatcher.done.outcome =
          some (.error (.transaction "Transaction failed: failed" .failed 0)) ∧
        ¬ Intact (r.without [] [] after).final
          (r.withRefused ⟨Utf8.bytes "not allowed"⟩ [] [] after).final := by
  refine ⟨_, startQuery_valid (.installPackages 0 []) true rfl, ⟨rfl, rfl⟩, rfl, rfl, ?_⟩
  intro h
  cases h.result

end PackageKitDart.Client
