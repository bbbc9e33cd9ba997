import PackageKitDart.Client.Channels

namespace PackageKitDart.Client

open Dart LatchedDemux MergedTrace Native Population PkTransactionBridge SharedQueue

/-- What a transaction has come to when all that was posted for it is delivered: it is open and
undecided as long as nothing has ended it, and it shows every event of the daemon unless the
failure of a call came before the daemon's end. -/
structure Settled (w : Traffic) (p : PortTrace) (d : TransactionDispatcher) : Prop where
  raced : Raced w p d
  closed : ∀ s, (d.streams s).isClosed = w.ended
  decided : d.done.isCompleted = w.ended
  streams : (firstFinished p).map Prod.fst ≠ some .dart → ∀ s, s ≠ .errors →
    (d.streams s).events = w.events.filterMap (StreamEvent.on? s)
  accepted : w.refused = [] → d.done.outcome = w.verdict .eventLoop ∧
    ∀ s, (d.streams s).events = w.events.filterMap (StreamEvent.on? s)

section Whole

variable {w : Traffic} {p : PortTrace} {d : TransactionDispatcher}

theorem dart_of_accepted (h : w.refused = []) : w.dart = [] := by
  rw [Traffic.dart, h]
  rfl

theorem sentinel_mem_dart : sentinelMessage ∈ w.dart ↔ w.refused ≠ [] := by
  constructor
  · intro hmem hrefused
    rw [dart_of_accepted hrefused] at hmem
    cases hmem
  · intro hrefused
    obtain ⟨text, rest, hrefused⟩ := List.exists_cons_of_ne_nil hrefused
    refine List.mem_flatMap.mpr ⟨text, hrefused ▸ List.mem_cons_self, ?_⟩
    simp [postError, postFinished]

theorem sentinel_mem_eventLoop : sentinelMessage ∈ eventPosts w.daemon ↔ w.finish.isSome := by
  constructor
  · intro hmem
    rcases Traffic.reading_of_mem_eventLoop hmem with ⟨e, he⟩ | ⟨f, hf, -⟩
    · cases he
    · rw [hf]
      rfl
  · intro hfinish
    obtain ⟨f, hf⟩ := Option.isSome_iff_exists.mp hfinish
    refine List.mem_flatMap.mpr ⟨.finished f.1 f.2, ?_, ?_⟩
    · rw [Traffic.daemon, hf]
      exact List.mem_append_right _ (List.mem_singleton.mpr rfl)
    · simp [handle, onFinished, postFinished]

theorem ended_iff : w.ended = true ↔ w.finish.isSome ∨ w.refused ≠ [] := by
  simp [Traffic.ended]

theorem any_sentinel (h : Races w p) : p.any (fun x ↦ x.2 = sentinelMessage) = w.ended := by
  have hsources : (∃ x ∈ p, x.2 = sentinelMessage) ↔
      sentinelMessage ∈ eventPosts w.daemon ∨ sentinelMessage ∈ w.dart := by
    rw [← h.dart, ← h.eventLoop, mem_proj, mem_proj]
    constructor
    · rintro ⟨⟨thread, m⟩, hmem, rfl⟩
      cases thread with
      | dart => exact .inr hmem
      | eventLoop => exact .inl hmem
    · rintro (hmem | hmem)
      · exact ⟨_, hmem, rfl⟩
      · exact ⟨_, hmem, rfl⟩
  rw [Bool.eq_iff_iff, ended_iff, ← sentinel_mem_eventLoop, ← sentinel_mem_dart, ← hsources]
  simp

theorem isFinished_of_final (h : Races w p) {x : Thread × Posted} (hx : x ∈ p) {o : Outcome}
    (ho : postedReading x.2 = .final o) : isFinished x.2 = true := by
  have hown := own_of_races h hx
  rw [ho] at hown
  cases hfinished : isFinished x.2 with
  | true => rfl
  | false =>
    rw [hfinished] at hown
    cases hown

theorem not_isFinished_of_not_ended (h : Races w p) (hended : w.ended = false)
    {x : Thread × Posted} (hx : x ∈ p) : isFinished x.2 = false := by
  have hnone : ¬ (w.finish.isSome ∨ w.refused ≠ []) := by
    rw [← ended_iff, hended]
    exact Bool.false_ne_true
  rw [not_or, not_not] at hnone
  obtain ⟨hfinish, hrefused⟩ := hnone
  rcases mem_thread h hx with ⟨-, hm⟩ | ⟨-, hm⟩
  · rw [dart_of_accepted hrefused] at hm
    cases hm
  · rcases Traffic.reading_of_mem_eventLoop hm with ⟨e, he⟩ | ⟨f, hf, -⟩
    · exact not_isFinished_of_event he
    · rw [hf] at hfinish
      exact absurd rfl hfinish

/-- A Finished is sent exactly when something ends the transaction. -/
theorem isSome_firstFinished (h : Races w p) : (firstFinished p).isSome = w.ended := by
  cases hended : w.ended with
  | false =>
    have hnone : firstFinished p = none := List.find?_eq_none.mpr
      (fun x hx ↦ by simp [not_isFinished_of_not_ended h hended hx])
    rw [hnone]
    rfl
  | true =>
    rw [← any_sentinel h, List.any_eq_true] at hended
    obtain ⟨x, hx, hsentinel⟩ := hended
    have hguarded := guarded_of_races h (List.prefix_refl p)
    obtain ⟨before, after, rfl⟩ := List.append_of_mem hx
    obtain ⟨m, hm, o, ho⟩ := hguarded (before.map Prod.snd) x.2 (after.map Prod.snd) (by simp)
      (by rw [of_decide_eq_true hsentinel]; rfl)
    obtain ⟨y, hy, rfl⟩ := List.mem_map.mp hm
    have hy : y ∈ before ++ x :: after := List.mem_append_left _ hy
    exact List.find?_isSome.mpr ⟨y, hy, isFinished_of_final h hy ho⟩

/-- A daemon that is not overtaken is heard out. -/
theorem events_of_not_overtaken (h : Races w p)
    (hfirst : (firstFinished p).map Prod.fst ≠ some .dart) :
    w.events.length ≤ (proj .eventLoop (beforeSentinel p)).length := by
  cases hfound : firstFinished p with
  | some first =>
    have hthread : first.1 = .eventLoop := by
      rcases thread_cases first with hdart | hloop
      · rw [hfound, Option.map_some, hdart] at hfirst
        exact absurd rfl hfirst
      · exact hloop
    exact events_before_finished h (List.prefix_refl p) hfound hthread
  | none =>
    have hended := isSome_firstFinished h
    rw [hfound] at hended
    have hopen := any_sentinel h
    rw [← hended, Option.isSome_none, List.any_eq_false] at hopen
    have hwhole : beforeSentinel p = p :=
      List.takeWhile_eq_self_iff.mpr (fun x hx ↦ by simpa using hopen x hx)
    have hlength := congrArg List.length w.readings_eventLoop
    rw [List.length_append, List.length_map, List.length_map] at hlength
    rw [hwhole, h.eventLoop, hlength]
    exact Nat.le_add_right _ _

theorem not_overtaken_of_accepted (h : Races w p) (haccepted : w.refused = []) :
    (firstFinished p).map Prod.fst ≠ some .dart := by
  intro hfirst
  obtain ⟨x, hx, hdart⟩ := Option.map_eq_some_iff.mp hfirst
  rcases mem_thread h (List.mem_of_find?_eq_some hx) with ⟨-, hm⟩ | ⟨hloop, -⟩
  · rw [dart_of_accepted haccepted] at hm
    cases hm
  · rw [hdart] at hloop
    cases hloop

theorem settled_of_raced (h : Races w p) (hraced : Raced w p d) : Settled w p d := by
  have hdecided : d.done.isCompleted = w.ended := by
    rw [← isSome_firstFinished h, Completer.isCompleted, hraced.result]
    cases hfound : firstFinished p with
    | none => rfl
    | some first =>
      have hmem := List.mem_of_find?_eq_some hfound
      exact verdict_isSome h hmem
        (List.find?_some (p := fun x : Thread × Posted ↦ isFinished x.2) hfound)
  have hstreams (hfirst : (firstFinished p).map Prod.fst ≠ some .dart) (s : StreamName)
      (hs : s ≠ .errors) : (d.streams s).events = w.events.filterMap (StreamEvent.on? s) := by
    rw [hraced.streams s hs, List.take_of_length_le (events_of_not_overtaken h hfirst)]
  refine ⟨hraced, fun s ↦ (hraced.closed s).trans (any_sentinel h), hdecided, hstreams, ?_⟩
  intro haccepted
  have hfirst := not_overtaken_of_accepted h haccepted
  refine ⟨?_, ?_⟩
  · rw [hraced.result]
    cases hfound : firstFinished p with
    | none =>
      have hended := isSome_firstFinished h
      rw [hfound, Traffic.ended, haccepted] at hended
      cases hfinish : w.finish with
      | none => rw [Traffic.verdict, hfinish]; rfl
      | some f =>
        rw [hfinish] at hended
        cases hended
    | some first =>
      rcases thread_cases first with hdart | hloop
      · rw [hfound, Option.map_some, hdart] at hfirst
        exact absurd rfl hfirst
      · exact congrArg w.verdict hloop
  · intro s
    by_cases hs : s = .errors
    · subst hs
      obtain ⟨before, after, hsplit, hevents⟩ := hraced.errors
      rw [List.take_of_length_le (events_of_not_overtaken h hfirst)] at hsplit
      rw [hevents, haccepted, ← hsplit]
      split
      · exact congrArg (· ++ after) (List.append_nil before)
      · exact congrArg (· ++ after) (List.append_nil before)
    · exact hstreams hfirst s hs

end Whole

namespace Channel

variable {c : Channel}

/-- What is posted, and what is still to be. -/
def trace (c : Channel) : PortTrace :=
  c.port.taken ++ c.port.queue ++ (c.port.pending .dart).map (Thread.dart, ·) ++
    (c.port.pending .eventLoop).map (Thread.eventLoop, ·)

theorem Sound.races (h : c.Sound) : Races c.traffic c.trace where
  dart := by
    rw [trace, proj_append, proj_append, proj_tag_self, proj_tag_of_ne (by decide), ← h.dart,
      List.append_nil]
    rfl
  eventLoop := by
    rw [trace, proj_append, proj_append, proj_tag_self, proj_tag_of_ne (by decide), ← h.eventLoop,
      List.append_nil]
    rfl

theorem taken_initial (c : Channel) : c.port.taken <+: c.trace := by
  rw [trace, List.append_assoc, List.append_assoc]
  exact List.prefix_append _ _

theorem Sound.raced (h : c.Sound) (hvalid : c.transaction.query.validHandle = true) :
    Raced c.traffic c.port.taken c.transaction.query.dispatcher := by
  apply raced_of_view h.races c.taken_initial h.viewed.tracked.ready.uniform
  have hdelivered := h.delivered
  rw [delivered_eq] at hdelivered
  exact h.viewed.view hvalid _ hdelivered (guarded_of_races h.races c.taken_initial)

theorem Sound.settled (h : c.Sound) (hvalid : c.transaction.query.validHandle = true)
    (hquiet : c.port.Quiet) : Settled c.traffic c.port.taken c.transaction.query.dispatcher := by
  have hwhole : c.trace = c.port.taken := by
    rw [trace, hquiet.queue, hquiet.pending, hquiet.pending]
    simp
  exact settled_of_raced (hwhole ▸ h.races) (h.raced hvalid)

end Channel

/-- What needs neither the daemon nor the user. -/
def ChannelEvent.isDelivery : ChannelEvent → Bool
  | .post _ | .take => true
  | .signal _ _ | .finished _ _ | .cancel _ => false

namespace Channel

variable {c : Channel}

/-- As long as something is on its way, something gets ahead. -/
theorem exists_delivery (c : Channel) (h : ¬ c.port.Quiet) :
    ∃ e : ChannelEvent, e.isDelivery = true ∧ (e.apply c).port.work < c.port.work := by
  by_cases hpending : ∃ thread, c.port.pending thread ≠ []
  · obtain ⟨thread, hthread⟩ := hpending
    exact ⟨.post thread, rfl, State.work_post_lt hthread⟩
  · have hqueue := (State.exists_of_not_quiet h).resolve_left hpending
    obtain ⟨x, rest, hx⟩ := List.exists_cons_of_ne_nil hqueue
    have hidle : c.idle = true := by
      rw [idle, List.isEmpty_iff]
      exact not_not.mp (fun hdart ↦ hpending ⟨_, hdart⟩)
    refine ⟨.take, rfl, ?_⟩
    have htake : (ChannelEvent.apply .take c).port = c.port.take := by
      rw [ChannelEvent.apply, if_pos hidle, Channel.take, hx]
    rw [htake]
    exact State.work_take_lt hqueue

theorem apply_delivery (h : c.Sound) {e : ChannelEvent} (he : e.isDelivery = true) :
    (e.apply c).traffic = c.traffic ∧
      (e.apply c).transaction.query.validHandle = c.transaction.query.validHandle := by
  cases e with
  | post thread => exact ⟨rfl, rfl⟩
  | take =>
    rw [ChannelEvent.apply]
    split
    · rw [Channel.take]
      split
      · exact ⟨rfl, rfl⟩
      · exact ⟨rfl, StartedQuery.deliver_validHandle h.viewed.tracked.ready _⟩
    · exact ⟨rfl, rfl⟩
  | signal sg hsg => cases he
  | finished exitCode runtime => cases he
  | cancel reply => cases he

theorem exists_drain (h : c.Sound) : ∃ more : List ChannelEvent,
    (∀ e ∈ more, e.isDelivery = true) ∧
      let c' := more.foldl (fun c e ↦ e.apply c) c
      c'.port.Quiet ∧ c'.traffic = c.traffic ∧
        c'.transaction.query.validHandle = c.transaction.query.validHandle := by
  generalize hwork : c.port.work = n
  induction n using Nat.strong_induction_on generalizing c with
  | h n ih =>
    by_cases hquiet : c.port.Quiet
    · exact ⟨[], List.forall_mem_nil _, hquiet, rfl, rfl⟩
    · obtain ⟨e, he, hlt⟩ := c.exists_delivery hquiet
      obtain ⟨htraffic, hvalid⟩ := apply_delivery h he
      obtain ⟨more, hmore, hquiet', htraffic', hvalid'⟩ :=
        ih _ (hwork ▸ hlt) (h.apply e c) rfl
      exact ⟨e :: more, List.forall_mem_cons.mpr ⟨he, hmore⟩, hquiet',
        htraffic'.trans htraffic, hvalid'.trans hvalid⟩

end Channel

theorem system_append (events : List SystemEvent) (i : ℕ) (more : List ChannelEvent) :
    system (events ++ more.map (.reach i)) =
      (system events).modify i (fun c ↦ more.foldl (fun c e ↦ e.apply c) c) := by
  have hmap : (more.map (SystemEvent.reach i)).map SystemEvent.event = more.map (.reach i) := by
    rw [List.map_map]
    rfl
  rw [system, List.map_append, hmap, Population.run_append, run_reach]
  rfl

/-- Nothing gets stuck and nothing gets lost: from every state the system can reach, the posts
and deliveries that are due bring every transaction to where it is settled, without the daemon,
its user or any other transaction, and wherever nothing is due it is settled. -/
theorem system_settles (events : List SystemEvent) (i : ℕ) (c : Channel)
    (hc : (system events)[i]? = some c) (hvalid : c.transaction.query.validHandle = true) :
    (c.port.Quiet → Settled c.traffic c.port.taken c.transaction.query.dispatcher) ∧
      ∃ more : List ChannelEvent, (∀ e ∈ more, e.isDelivery = true) ∧
        ∃ c', (system (events ++ more.map (.reach i)))[i]? = some c' ∧ c'.port.Quiet ∧
          Settled c.traffic c'.port.taken c'.transaction.query.dispatcher := by
  have hsound := system_sound events c (List.mem_of_getElem? hc)
  refine ⟨hsound.settled hvalid, ?_⟩
  obtain ⟨more, hmore, hquiet, htraffic, hvalid'⟩ := Channel.exists_drain hsound
  have hc' : (system (events ++ more.map (.reach i)))[i]? =
      some (more.foldl (fun c e ↦ e.apply c) c) := by
    rw [system_append, List.getElem?_modify_eq, hc]
    rfl
  have hsettled := (system_sound _ _ (List.mem_of_getElem? hc')).settled
    (hvalid'.trans hvalid) hquiet
  rw [htraffic] at hsettled
  exact ⟨more, hmore, _, hc', hquiet, hsettled⟩

/-- An installation that the daemon accepts and ends, with nothing delivered yet. -/
def acceptedEvents : List SystemEvent := [
  .start ⟨.refreshCache true, true, .returned, .accepted, .accepted⟩,
  .reach 0 (.signal (.statusChanged 7) trivial), .reach 0 (.finished 1 5)]

theorem system_settles_success : ∃ more : List ChannelEvent, (∀ e ∈ more, e.isDelivery = true) ∧
    ∃ c', (system (acceptedEvents ++ more.map (.reach 0)))[0]? = some c' ∧
      c'.transaction.query.dispatcher.done.outcome =
        some (.ok { exit := .success, runtimeMs := 5 }) ∧
      (c'.transaction.query.dispatcher.streams .progress).events.length = 1 := by
  obtain ⟨c, hc⟩ : ∃ c, (system acceptedEvents)[0]? = some c := ⟨_, rfl⟩
  have hstate : ((system acceptedEvents)[0]?).map (fun c ↦
      (c.transaction.query.validHandle, c.traffic.refused, c.traffic.finish, c.traffic.signals)) =
      some (true, [], some (1, 5), [.statusChanged 7]) := rfl
  rw [hc] at hstate
  simp only [Option.map_some, Option.some.injEq, Prod.mk.injEq] at hstate
  obtain ⟨hvalid, hrefused, hfinish, hsignals⟩ := hstate
  obtain ⟨-, more, hmore, c', hc', -, hsettled⟩ := system_settles acceptedEvents 0 c hc hvalid
  obtain ⟨houtcome, hevents⟩ := hsettled.accepted hrefused
  refine ⟨more, hmore, c', hc', ?_, ?_⟩
  · rw [houtcome, Traffic.verdict, hfinish]
    rfl
  · rw [hevents, Traffic.events, hsignals]
    rfl

namespace ChannelEvent

/-- For the client an event of a channel is a message, a cancel or nothing. -/
theorem exists_transaction_events (e : ChannelEvent) (c : Channel) :
    ∃ ds : List TransactionEvent,
      (e.apply c).transaction = ds.foldl (fun t d ↦ d.apply t) c.transaction := by
  cases e with
  | signal sg hsg =>
    refine ⟨[], ?_⟩
    rw [apply]
    split <;> rfl
  | finished exitCode runtime =>
    refine ⟨[], ?_⟩
    rw [apply]
    split <;> rfl
  | post thread => exact ⟨[], rfl⟩
  | take =>
    rw [apply]
    split
    · rw [Channel.take]
      split
      · exact ⟨[], rfl⟩
      · exact ⟨[.deliver _], rfl⟩
    · exact ⟨[], rfl⟩
  | cancel reply =>
    rw [apply]
    split
    · exact ⟨[.cancel reply.outcome], rfl⟩
    · exact ⟨[], rfl⟩

end ChannelEvent

def SystemEvent.start? : SystemEvent → Option Start
  | .start o => some o.start
  | .reach _ _ => none

theorem exists_client_steps {events : List (Event ClientTransaction TransactionEvent)}
    {starts : List Start} (h : events.filterMap Event.enter? = starts.map Start.transaction) :
    ∃ steps : List ClientStep, steps.map ClientStep.event = events ∧
      steps.filterMap ClientStep.start? = starts := by
  induction events generalizing starts with
  | nil => exact ⟨[], rfl, (List.map_eq_nil_iff.mp h.symm).symm⟩
  | cons event events ih =>
    cases event with
    | enter t =>
      obtain ⟨x, rest, rfl, rfl, hrest⟩ := List.map_eq_cons_iff.mp h.symm
      obtain ⟨steps, hevents, hstarts⟩ := ih hrest.symm
      refine ⟨.start x.op x.interactive x.outcomes :: steps, ?_, ?_⟩
      · rw [List.map_cons, hevents]
        rfl
      · rw [List.filterMap_cons, hstarts]
        rfl
    | reach i e =>
      obtain ⟨steps, hevents, hstarts⟩ := ih h
      cases e with
      | deliver msg =>
        refine ⟨.deliver i msg :: steps, ?_, hstarts⟩
        rw [List.map_cons, hevents]
        rfl
      | cancel outcome =>
        refine ⟨.cancel i outcome :: steps, ?_, hstarts⟩
        rw [List.map_cons, hevents]
        rfl

theorem enters_system (events : List SystemEvent) :
    ((events.map SystemEvent.event).filterMap Event.enter?).map Channel.transaction =
      (events.filterMap SystemEvent.start?).map Start.transaction := by
  induction events with
  | nil => rfl
  | cons event events ih =>
    cases event with
    | start o => exact congrArg (o.start.transaction :: ·) ih
    | reach i e => exact ih

theorem Channel.Sound.interleaves {c : Channel} (h : c.Sound) :
    Interleaves c.transaction.query.posted (eventPosts c.traffic.daemon) c.trace where
  dart := h.races.dart.trans (dart_of_refused h.refused).symm
  eventLoop := h.races.eventLoop

/-- To the client the whole system, with its queues and the threads behind them, is a life of
calls and messages, in which the port of every transaction brings what its two threads post, the
posts of each in their order. -/
theorem system_refines_client (events : List SystemEvent) : ∃ life : Lifetime,
    life.starts = events.filterMap SystemEvent.start? ∧
      life.client.transactions = (system events).map Channel.transaction ∧
        ∀ (i : ℕ) (c : Channel), (system events)[i]? = some c →
          life.client.callsOn i = c.transaction.query.calls.map Prod.fst ∧
            ∃ trace p, Interleaves c.transaction.query.posted (eventPosts c.traffic.daemon) trace ∧
              p <+: trace ∧ c.transaction.delivered = delivered p := by
  obtain ⟨events', henters, hrun⟩ := Population.exists_run_map Channel.transaction
    ChannelEvent.exists_transaction_events [] (events.map SystemEvent.event)
  rw [enters_system] at henters
  obtain ⟨steps, rfl, hstarts⟩ := exists_client_steps henters
  let life : Lifetime := ⟨steps, false, [], fun h ↦ by cases h⟩
  have hsteps : life.steps = steps := List.append_nil _
  have htransactions : life.client.transactions = (system events).map Channel.transaction := by
    rw [life.client_transactions, hsteps, PkClient.run_transactions]
    exact hrun
  refine ⟨life, ?_, htransactions, ?_⟩
  · rw [Lifetime.starts, hsteps, hstarts]
  · intro i c hc
    have hsound := system_sound events c (List.mem_of_getElem? hc)
    refine ⟨?_, c.trace, c.port.taken, hsound.interleaves, c.taken_initial, hsound.delivered⟩
    rw [life.client_logged, htransactions, List.getElem?_map, hc]
    rfl

end PackageKitDart.Client
