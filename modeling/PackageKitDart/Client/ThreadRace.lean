import Mathlib.Data.List.TakeWhile
import PackageKitDart.Client.Delivery
import PackageKitDart.Client.Isolation
import PackageKitDart.Client.PortTraffic

namespace PackageKitDart.Client

open Dart LatchedDemux MergedTrace Native PkTransactionBridge

/-- The error that a call was refused with, which the bridge posts for it. -/
def refusal? : BridgeCall × CallOutcome → Option CString
  | (.transactionSetHints _, .raised e) => some e.message
  | (.operation _, .raised e) => some e.message
  | (.transactionCancel, .raised e) => some e.message
  | (_, _) => none

theorem effects_refusal (c : BridgeCall × CallOutcome) :
    (c.1.effects c.2).posted = (refusal? c).elim [] postError := by
  obtain ⟨call, outcome⟩ := c
  cases call <;> cases outcome <;> rfl

theorem callsPosted_eq (calls : List (BridgeCall × CallOutcome)) :
    callsPosted calls = (calls.filterMap refusal?).flatMap postError := by
  induction calls with
  | nil => rfl
  | cons c calls ih =>
    rw [callsPosted] at ih ⊢
    rw [List.flatMap_cons, ih, effects_refusal, List.filterMap_cons]
    cases refusal? c <;> rfl

/-- What the daemon and its refusals bring to the port of a transaction: signals that are
`Deliverable` (with four-part ids, Details of the documented types, texts and lists that fit), an
end if it comes to one, and the errors of refused calls, whose texts fit. -/
structure Traffic where
  signals : List (Signal String)
  finish : Option (UInt32 × UInt32)
  refused : List String
  deliverable : ∀ sg ∈ signals, Deliverable sg
  fits : ∀ text ∈ refused, TextFits text

theorem deliverable_nil : ∀ sg ∈ ([] : List (Signal String)), Deliverable sg :=
  List.forall_mem_nil _

namespace Traffic

variable (w : Traffic)

def daemon : List (Signal CString) :=
  w.signals.map (Signal.map Utf8.bytes) ++ w.finish.elim [] (fun f ↦ [.finished f.1 f.2])

def dart : List Posted := w.refused.flatMap (fun text ↦ postError (Utf8.bytes text))

def events : List StreamEvent := w.signals.flatMap signalEvents

/-- The result that the Finished message of a thread stands for. -/
def verdict : Thread → Option Outcome
  | .dart => some (.error (.transaction "Transaction failed: failed" .failed 0))
  | .eventLoop => w.finish.map (fun f ↦ finishedOutcome ⟨f.1.toNat, f.2.toNat⟩)

/-- The event of a refused call. -/
def errorEvent (text : String) : PkErrorCode where
  code := 4
  details := text

def ending : Option (UInt32 × UInt32) → List Reading
  | none => []
  | some f => [.final (finishedOutcome ⟨f.1.toNat, f.2.toNat⟩), .stop]

theorem readings_eventLoop :
    (eventPosts w.daemon).map postedReading =
      w.events.map StreamEvent.asReading ++ ending w.finish := by
  have hsplit : eventPosts w.daemon = eventPosts (w.signals.map (Signal.map Utf8.bytes)) ++
      w.finish.elim [] (fun f ↦ postFinished f.1 f.2) := by
    rw [daemon, eventPosts, List.flatMap_append]
    refine congrArg₂ _ rfl ?_
    cases w.finish <;> rfl
  rw [hsplit, List.map_append, reading_eventPosts w.deliverable]
  refine congrArg₂ _ rfl ?_
  cases w.finish with
  | none => rfl
  | some f => exact congrArg (fun r ↦ [r, Item.stop]) (reading_finishedMessage f.1 f.2)

theorem reading_refused {text : String} (h : TextFits text) :
    postedReading (errorMessage (Utf8.bytes text)) =
      StreamEvent.asReading ⟨.errors, errorEvent text⟩ :=
  reading_errorCode h 4

theorem reading_failed :
    postedReading (finishedMessage 2 0) =
      .final (.error (.transaction "Transaction failed: failed" .failed 0)) :=
  reading_finishedMessage 2 0

variable {w}

theorem mem_dart {m : Posted} (h : m ∈ w.dart) : ∃ text ∈ w.refused,
    m = errorMessage (Utf8.bytes text) ∨ m = finishedMessage 2 0 ∨ m = sentinelMessage := by
  obtain ⟨text, htext, hm⟩ := List.mem_flatMap.mp h
  refine ⟨text, htext, ?_⟩
  simpa [postError, postFinished] using hm

theorem reading_of_mem_eventLoop {m : Posted} (h : m ∈ eventPosts w.daemon) :
    (∃ e : StreamEvent, postedReading m = e.asReading) ∨
      ∃ f, w.finish = some f ∧ (m = finishedMessage f.1 f.2 ∨ m = sentinelMessage) := by
  rw [daemon, eventPosts, List.flatMap_append, List.mem_append] at h
  rcases h with h | h
  · have hreading := List.mem_map_of_mem (f := postedReading) h
    have heq := reading_eventPosts w.deliverable
    rw [eventPosts] at heq
    rw [heq] at hreading
    obtain ⟨e, -, he⟩ := List.mem_map.mp hreading
    exact .inl ⟨e, he.symm⟩
  · cases hf : w.finish with
    | none =>
      rw [hf] at h
      cases h
    | some f =>
      rw [hf] at h
      refine .inr ⟨f, rfl, ?_⟩
      simpa [handle, onFinished, postFinished] using h

end Traffic

theorem not_isFinished_of_event {m : Posted} {e : StreamEvent}
    (h : postedReading m = e.asReading) : isFinished m = false := by
  cases m with
  | nil => rfl
  | cons disc bs =>
    by_contra hfinished
    obtain rfl : disc = kFinished := by simpa [isFinished] using hfinished
    obtain ⟨s, event⟩ := e
    obtain ⟨hget, -⟩ := data_of_reading h
    have hbyte : kFinished ≠ s.byte := by cases s <;> decide
    exact hbyte (Except.ok.inj hget)

/-- What is delivered while the streams are open. -/
def beforeSentinel (p : PortTrace) : PortTrace := p.takeWhile (fun x ↦ x.2 ≠ sentinelMessage)

section Race

variable {w : Traffic} {trace p : PortTrace}

/-- The two sides of the port. -/
abbrev Races (w : Traffic) (trace : PortTrace) : Prop :=
  Interleaves w.dart (eventPosts w.daemon) trace

theorem dart_of_refused {q : StartedQuery}
    (h : q.calls.filterMap refusal? = w.refused.map Utf8.bytes) : q.posted = w.dart := by
  have hposted : q.posted = callsPosted q.calls := rfl
  rw [hposted, callsPosted_eq, h, List.flatMap_map]
  rfl

theorem races_of_refused {q : StartedQuery}
    (hrefused : q.calls.filterMap refusal? = w.refused.map Utf8.bytes)
    (htrace : Interleaves q.posted (eventPosts w.daemon) trace) : Races w trace :=
  ⟨htrace.dart.trans (dart_of_refused hrefused), htrace.eventLoop⟩

theorem mem_thread (h : Races w trace) {x : Thread × Posted} (hx : x ∈ trace) :
    x.1 = .dart ∧ x.2 ∈ w.dart ∨ x.1 = .eventLoop ∧ x.2 ∈ eventPosts w.daemon := by
  rcases thread_cases x with hdart | hloop
  · refine .inl ⟨hdart, ?_⟩
    rw [← h.dart, mem_proj, ← hdart]
    exact hx
  · refine .inr ⟨hloop, ?_⟩
    rw [← h.eventLoop, mem_proj, ← hloop]
    exact hx

theorem not_sentinel_finishedMessage (exitCode runtime : UInt32) :
    finishedMessage exitCode runtime ≠ sentinelMessage := fun h ↦ by cases (List.cons.inj h).1

theorem closes_of_races (h : Races w trace) {x : Thread × Posted} (hx : x ∈ trace) :
    (postedReading x.2).closes = decide (x.2 = sentinelMessage) := by
  have hdata (e : StreamEvent) (he : postedReading x.2 = e.asReading) :
      (postedReading x.2).closes = decide (x.2 = sentinelMessage) := by
    have hne : x.2 ≠ sentinelMessage := by
      intro hsentinel
      rw [hsentinel] at he
      cases he
    rw [decide_eq_false hne, he]
    rfl
  have hfinished (exitCode runtime : UInt32) (hm : x.2 = finishedMessage exitCode runtime) :
      (postedReading x.2).closes = decide (x.2 = sentinelMessage) := by
    rw [hm, decide_eq_false (not_sentinel_finishedMessage exitCode runtime),
      reading_finishedMessage]
    rfl
  have hsentinel (hm : x.2 = sentinelMessage) :
      (postedReading x.2).closes = decide (x.2 = sentinelMessage) := by
    rw [hm]
    rfl
  rcases mem_thread h hx with ⟨-, hm⟩ | ⟨-, hm⟩
  · obtain ⟨text, htext, hm | hm | hm⟩ := Traffic.mem_dart hm
    · exact hdata _ (hm ▸ Traffic.reading_refused (w.fits text htext))
    · exact hfinished 2 0 hm
    · exact hsentinel hm
  · rcases Traffic.reading_of_mem_eventLoop hm with ⟨e, he⟩ | ⟨f, -, hm | hm⟩
    · exact hdata e he
    · exact hfinished f.1 f.2 hm
    · exact hsentinel hm

theorem live_readings (h : ∀ x ∈ p, (postedReading x.2).closes = decide (x.2 = sentinelMessage)) :
    live ((p.map Prod.snd).map postedReading) =
      ((beforeSentinel p).map Prod.snd).map postedReading := by
  induction p with
  | nil => rfl
  | cons x p ih =>
    have hx := h x List.mem_cons_self
    have ih := ih (fun y hy ↦ h y (List.mem_cons_of_mem x hy))
    rw [List.map_cons, List.map_cons, live_cons, hx, ih, beforeSentinel, beforeSentinel,
      List.takeWhile_cons]
    by_cases hsentinel : x.2 = sentinelMessage
    · simp [hsentinel]
    · simp [hsentinel]

theorem beforeSentinel_initial (p : PortTrace) : beforeSentinel p <+: p :=
  List.takeWhile_prefix _

theorem not_mem_beforeSentinel {x : Thread × Posted} (hx : x ∈ beforeSentinel p) :
    x.2 ≠ sentinelMessage := by
  simpa using List.mem_takeWhile_imp hx

/-- Before the first sentinel the client has reported at most the first refused call. -/
theorem dart_beforeSentinel (h : Races w trace) (hp : p <+: trace) :
    proj .dart (beforeSentinel p) = [] ∨ ∃ text rest, w.refused.head? = some text ∧
      TextFits text ∧ proj .dart (beforeSentinel p) = errorMessage (Utf8.bytes text) :: rest ∧
        (rest = [] ∨ rest = [finishedMessage 2 0]) := by
  have hinitial := proj_of_initial .dart ((beforeSentinel_initial p).trans hp)
  have hopen : sentinelMessage ∉ proj .dart (beforeSentinel p) :=
    fun hmem ↦ not_mem_beforeSentinel (mem_proj.mp hmem) rfl
  rw [h.dart] at hinitial
  obtain ⟨l, hl⟩ := hinitial
  cases hrefused : w.refused with
  | nil =>
    rw [Traffic.dart, hrefused] at hl
    exact .inl (List.append_eq_nil_iff.mp hl).1
  | cons text texts =>
    have hdart : w.dart = errorMessage (Utf8.bytes text) :: finishedMessage 2 0 ::
        sentinelMessage :: texts.flatMap (fun text ↦ postError (Utf8.bytes text)) := by
      rw [Traffic.dart, hrefused]
      rfl
    have hfits := w.fits text (hrefused ▸ List.mem_cons_self)
    rw [hdart] at hl
    match hproj : proj Thread.dart (beforeSentinel p) with
    | [] => exact .inl rfl
    | [m] =>
      rw [hproj] at hl
      obtain ⟨rfl, -⟩ := List.cons.inj hl
      exact .inr ⟨text, [], rfl, hfits, rfl, .inl rfl⟩
    | [m, m'] =>
      rw [hproj] at hl
      obtain ⟨rfl, htail⟩ := List.cons.inj hl
      obtain ⟨rfl, -⟩ := List.cons.inj htail
      exact .inr ⟨text, [finishedMessage 2 0], rfl, hfits, rfl, .inr rfl⟩
    | m :: m' :: m'' :: rest =>
      rw [hproj] at hl hopen
      obtain ⟨-, htail⟩ := List.cons.inj hl
      obtain ⟨-, htail⟩ := List.cons.inj htail
      obtain ⟨rfl, -⟩ := List.cons.inj htail
      exact absurd (by simp) hopen

/-- The Finished that decides the result, and the thread it is from. -/
def firstFinished (p : PortTrace) : Option (Thread × Posted) := p.find? (fun x ↦ isFinished x.2)

/-- What the two threads' race comes to: the client sees one and the same initial part of the
daemon's signals on all streams, at most one error of its own among them, and the end that
whoever was first to send Finished had to report. -/
structure Raced (w : Traffic) (p : PortTrace) (d : TransactionDispatcher) : Prop where
  streams : ∀ s, s ≠ .errors → (d.streams s).events =
    (w.events.take (proj .eventLoop (beforeSentinel p)).length).filterMap (StreamEvent.on? s)
  errors : ∃ before after : List PkErrorCode, before ++ after =
      (w.events.take (proj .eventLoop (beforeSentinel p)).length).filterMap
        (StreamEvent.on? .errors) ∧
    (d.streams .errors).events = before ++
      (if proj .dart (beforeSentinel p) = [] then []
        else w.refused.head?.toList.map Traffic.errorEvent) ++ after
  closed : ∀ s, (d.streams s).isClosed = p.any (fun x ↦ x.2 = sentinelMessage)
  result : d.done.outcome = (firstFinished p).bind (fun x ↦ w.verdict x.1)

/-- What a message of the port has for a stream. -/
def eventAt (s : StreamName) (m : Posted) : Option s.Event := (postedReading m).at? s

theorem events_eventLoop (w : Traffic) (s : StreamName) {l : List Posted}
    (hl : l <+: eventPosts w.daemon) :
    l.filterMap (eventAt s) = (w.events.take l.length).filterMap (StreamEvent.on? s) := by
  have hmap (l : List Posted) :
      l.filterMap (eventAt s) = (l.map postedReading).filterMap (Item.at? s) := by
    rw [List.filterMap_map]
    rfl
  have hending (k : ℕ) : ((Traffic.ending w.finish).take k).filterMap (Item.at? s) = [] := by
    rw [List.filterMap_eq_nil_iff]
    intro i hi
    have hi := List.mem_of_mem_take hi
    cases hf : w.finish with
    | none =>
      rw [hf] at hi
      cases hi
    | some f =>
      rw [hf] at hi
      rcases List.mem_pair.mp hi with rfl | rfl
      · rfl
      · rfl
  have htake := congrArg (List.map postedReading) (List.prefix_iff_eq_take.mp hl)
  rw [List.map_take, w.readings_eventLoop, List.take_append] at htake
  rw [hmap, htake, List.filterMap_append, hending, List.append_nil, ← List.map_take,
    List.filterMap_map]
  rfl

theorem eventAt_refused {text : String} (h : TextFits text) :
    eventAt .errors (errorMessage (Utf8.bytes text)) = some (Traffic.errorEvent text) := by
  rw [eventAt, Traffic.reading_refused h]
  exact Item.at?_data_self _ _

theorem eventAt_dart {s : StreamName} (hs : s ≠ .errors) {m : Posted} (hm : m ∈ w.dart) :
    eventAt s m = none := by
  obtain ⟨text, htext, rfl | rfl | rfl⟩ := Traffic.mem_dart hm
  · rw [eventAt, Traffic.reading_refused (w.fits text htext)]
    exact Item.at?_data_of_ne hs.symm _
  · rw [eventAt, Traffic.reading_failed]
    rfl
  · rfl

theorem errors_of_races (h : Races w trace) (hp : p <+: trace) :
    ∃ before after : List PkErrorCode, before ++ after =
        (w.events.take (proj .eventLoop (beforeSentinel p)).length).filterMap
          (StreamEvent.on? .errors) ∧
      ((beforeSentinel p).map Prod.snd).filterMap (eventAt .errors) = before ++
        (if proj .dart (beforeSentinel p) = [] then []
          else w.refused.head?.toList.map Traffic.errorEvent) ++ after := by
  have hloop := proj_of_initial .eventLoop ((beforeSentinel_initial p).trans hp)
  rw [h.eventLoop] at hloop
  rw [← events_eventLoop w .errors hloop]
  rcases dart_beforeSentinel h hp with hnone | ⟨text, rest, htext, hfits, hproj, hrest⟩
  · refine ⟨(proj .eventLoop (beforeSentinel p)).filterMap (eventAt .errors), [],
      List.append_nil _, ?_⟩
    rw [if_pos hnone, List.append_nil, List.append_nil]
    refine filterMap_snd (j := .dart) (fun x _ ↦ (thread_cases x).symm) ?_
    intro m hm
    rw [hnone] at hm
    cases hm
  · obtain ⟨t, t', hsplit, ht, ht'⟩ := exists_of_proj_cons hproj
    have hbefore : (t.map Prod.snd).filterMap (eventAt .errors) =
        (proj .eventLoop t).filterMap (eventAt .errors) := by
      refine filterMap_snd (j := .dart) (fun x _ ↦ (thread_cases x).symm) ?_
      intro m hm
      rw [ht] at hm
      cases hm
    have hafter : (t'.map Prod.snd).filterMap (eventAt .errors) =
        (proj .eventLoop t').filterMap (eventAt .errors) := by
      refine filterMap_snd (j := .dart) (fun x _ ↦ (thread_cases x).symm) ?_
      intro m hm
      rw [ht'] at hm
      rcases hrest with rfl | rfl
      · cases hm
      · obtain rfl := List.mem_singleton.mp hm
        rw [eventAt, Traffic.reading_failed]
        rfl
    refine ⟨(proj .eventLoop t).filterMap (eventAt .errors),
      (proj .eventLoop t').filterMap (eventAt .errors), ?_, ?_⟩
    · rw [hsplit, proj_append, proj_cons_of_ne (by decide), List.filterMap_append]
      rfl
    · rw [if_neg (by rw [hproj]; exact List.cons_ne_nil _ _), hsplit, List.map_append,
        List.map_cons, List.filterMap_append, List.filterMap_cons_some (eventAt_refused hfits),
        hbefore, hafter, htext, List.append_assoc]
      rfl

theorem own_of_races (h : Races w trace) {x : Thread × Posted} (hx : x ∈ trace) :
    (postedReading x.2).own = if isFinished x.2 then w.verdict x.1 else none := by
  have hdata (e : StreamEvent) (he : postedReading x.2 = e.asReading) (hm : isFinished x.2 = false) :
      (postedReading x.2).own = if isFinished x.2 then w.verdict x.1 else none := by
    rw [he, hm]
    rfl
  have hsentinel (hm : x.2 = sentinelMessage) :
      (postedReading x.2).own = if isFinished x.2 then w.verdict x.1 else none := by
    rw [hm]
    rfl
  rcases mem_thread h hx with ⟨hthread, hm⟩ | ⟨hthread, hm⟩
  · obtain ⟨text, htext, hm | hm | hm⟩ := Traffic.mem_dart hm
    · refine hdata _ (hm ▸ Traffic.reading_refused (w.fits text htext)) ?_
      rw [hm]
      exact not_isFinished_of_isData (isData_errorMessage _)
    · rw [hm, hthread, Traffic.reading_failed]
      rfl
    · exact hsentinel hm
  · rcases Traffic.reading_of_mem_eventLoop hm with ⟨e, he⟩ | ⟨f, hf, hm | hm⟩
    · refine hdata e he ?_
      exact not_isFinished_of_event he
    · rw [hm, hthread, reading_finishedMessage, Traffic.verdict, hf]
      rfl
    · exact hsentinel hm

theorem verdict_isSome (h : Races w trace) {x : Thread × Posted} (hx : x ∈ trace)
    (hfinished : isFinished x.2 = true) : (w.verdict x.1).isSome = true := by
  rcases mem_thread h hx with ⟨hthread, -⟩ | ⟨hthread, hm⟩
  · rw [hthread]
    rfl
  · rw [hthread, Traffic.verdict, Option.isSome_map]
    rcases Traffic.reading_of_mem_eventLoop hm with ⟨e, he⟩ | ⟨f, hf, -⟩
    · rw [not_isFinished_of_event he] at hfinished
      cases hfinished
    · rw [hf]
      rfl

/-- The result is there with the first Finished message. -/
theorem result_of_races (h : Races w trace) (hp : p <+: trace) :
    ((p.map Prod.snd).map postedReading).findSome? Item.own =
      (firstFinished p).bind (fun x ↦ w.verdict x.1) := by
  have hall : ∀ x ∈ p, x ∈ trace := fun x hx ↦ hp.subset hx
  clear hp
  induction p with
  | nil => rfl
  | cons x p ih =>
    have hx := hall x List.mem_cons_self
    have ih := ih (fun y hy ↦ hall y (List.mem_cons_of_mem x hy))
    rw [List.map_cons, List.map_cons, List.findSome?_cons, own_of_races h hx, firstFinished,
      List.find?_cons]
    cases hfinished : isFinished x.2 with
    | false => exact ih
    | true =>
      obtain ⟨o, ho⟩ := Option.isSome_iff_exists.mp (verdict_isSome h hx hfinished)
      simp [ho]

theorem guarded_of_races (h : Races w trace) (hp : p <+: trace) :
    SentinelGuarded (p.map Prod.snd) := by
  have hmerge : SentinelGuarded (trace.map Prod.snd) := by
    apply Guarded.merge
    intro i
    cases i with
    | dart =>
      rw [h.dart]
      exact Guarded.flatMap (fun text _ ↦ guarded_postError (Utf8.bytes text))
    | eventLoop =>
      rw [h.eventLoop]
      exact guarded_eventPosts w.daemon
  exact hmerge.of_initial (hp.map Prod.snd)

/-- Nothing is closed before the deciding Finished. -/
theorem initial_beforeSentinel (h : Races w trace) (hp : p <+: trace) {before after : PortTrace}
    {first : Thread × Posted} (hsplit : p = before ++ first :: after)
    (hfinished : isFinished first.2 = true)
    (hbefore : ∀ x ∈ before, isFinished x.2 = false) :
    before ++ [first] <+: beforeSentinel p := by
  have hguarded := guarded_of_races h hp
  have hopen : ∀ x ∈ before ++ [first], x.2 ≠ sentinelMessage := by
    intro x hx hsentinel
    rcases List.mem_append.mp hx with hx | hx
    · obtain ⟨s, t, rfl⟩ := List.append_of_mem hx
      obtain ⟨m, hm, o, ho⟩ := hguarded (s.map Prod.snd) x.2 ((t ++ first :: after).map Prod.snd)
        (by rw [hsplit]; simp) (by rw [hsentinel]; rfl)
      obtain ⟨y, hy, rfl⟩ := List.mem_map.mp hm
      have hy' : y ∈ s ++ x :: t := List.mem_append_left _ hy
      have hown := own_of_races h (hp.subset (hsplit ▸ List.mem_append_left _ hy'))
      rw [ho, hbefore y hy'] at hown
      cases hown
    · rw [List.mem_singleton.mp hx] at hsentinel
      rw [hsentinel] at hfinished
      cases hfinished
  have htake : beforeSentinel ((before ++ [first]) ++ after) =
      (before ++ [first]) ++ beforeSentinel after :=
    List.takeWhile_append_of_pos (fun x hx ↦ decide_eq_true (hopen x hx))
  have hassoc : p = (before ++ [first]) ++ after := by rw [hsplit, List.append_assoc]; rfl
  rw [hassoc, htake]
  exact List.prefix_append _ _

/-- The daemon sends its Finished last, so all its events are before it. -/
theorem events_before_finished (h : Races w trace) (hp : p <+: trace) {first : Thread × Posted}
    (hfirst : firstFinished p = some first) (hthread : first.1 = .eventLoop) :
    w.events.length ≤ (proj .eventLoop (beforeSentinel p)).length := by
  obtain ⟨hfinished, before, after, hsplit, hbefore⟩ := List.find?_eq_some_iff_append.mp hfirst
  have hinitial := initial_beforeSentinel h hp hsplit hfinished
    (fun x hx ↦ by simpa using hbefore x hx)
  obtain ⟨i, m⟩ := first
  obtain rfl : i = .eventLoop := hthread
  have hproj := proj_of_initial .eventLoop hinitial
  rw [proj_append, proj_cons_self] at hproj
  have hdaemon := hproj.trans (proj_of_initial .eventLoop ((beforeSentinel_initial p).trans hp))
  rw [h.eventLoop] at hdaemon
  obtain ⟨rest, hrest⟩ := hdaemon.map postedReading
  rw [w.readings_eventLoop] at hrest
  -- an event in the place of the Finished would be read as one
  have hplace : w.events.length ≤ (proj .eventLoop before).length := by
    by_contra hlt
    have hlt := Nat.lt_of_not_le hlt
    have hread : (w.events.map StreamEvent.asReading)[(proj .eventLoop before).length]? =
        some (postedReading m) := by
      rw [← List.getElem?_append_left (by rwa [List.length_map]), ← hrest, List.map_append,
        List.append_assoc, List.getElem?_append_right (by rw [List.length_map])]
      simp
    rw [List.getElem?_map, Option.map_eq_some_iff] at hread
    obtain ⟨e, -, he⟩ := hread
    rw [not_isFinished_of_event he.symm] at hfinished
    cases hfinished
  have hlength := hproj.length_le
  rw [List.length_append] at hlength
  omega

theorem raced_of_view (h : Races w trace) (hp : p <+: trace) {d : TransactionDispatcher}
    (hu : d.Uniform)
    (hview : d.view = run lateOutcome init ((p.map Prod.snd).map postedReading)) :
    Raced w p d := by
  have hall : ∀ x ∈ p, (postedReading x.2).closes = decide (x.2 = sentinelMessage) :=
    fun x hx ↦ closes_of_races h (hp.subset hx)
  have hevents (s : StreamName) :
      (d.streams s).events = ((beforeSentinel p).map Prod.snd).filterMap (eventAt s) := by
    have hout := congrFun (congrArg State.out hview) s
    rw [run_out] at hout
    have hlive : (d.streams s).events =
        (live ((p.map Prod.snd).map postedReading)).filterMap (Item.at? s) := by
      simpa [TransactionDispatcher.view, received, init] using hout
    rw [hlive, live_readings hall, List.filterMap_map]
    rfl
  have hinitial := (beforeSentinel_initial p).trans hp
  refine ⟨?_, ?_, ?_, ?_⟩
  · intro s hs
    have hloop := proj_of_initial .eventLoop hinitial
    rw [h.eventLoop] at hloop
    rw [hevents s, ← events_eventLoop w s hloop]
    refine filterMap_snd (j := .dart) (fun x _ ↦ (thread_cases x).symm) ?_
    intro m hm
    apply eventAt_dart hs
    rw [← h.dart]
    exact (proj_of_initial .dart hinitial).subset hm
  · rw [hevents]
    exact errors_of_races h hp
  · intro s
    have hclosed := congrArg State.closed hview
    rw [run_closed] at hclosed
    have hany : ((p.map Prod.snd).map postedReading).any Item.closes =
        p.any (fun x ↦ x.2 = sentinelMessage) := by
      rw [List.map_map, List.any_map, Bool.eq_iff_iff, List.any_eq_true, List.any_eq_true]
      exact exists_congr (fun x ↦ and_congr_right (fun hx ↦ by rw [← hall x hx]; rfl))
    rw [hu s, ← hany]
    simpa [TransactionDispatcher.view, init] using hclosed
  · have hresult := congrArg State.result hview
    rw [result_of_guarded lateOutcome (guarded_readings (guarded_of_races h hp)),
      result_of_races h hp] at hresult
    exact hresult

end Race

namespace ClientTransaction

/-- The dispatcher has taken in all that was delivered, whether or not the port is still open. -/
structure Viewed (t : ClientTransaction) : Prop where
  tracked : t.Tracked
  view : t.query.validHandle = true → ∀ msgs, t.delivered = msgs.map arrived →
    SentinelGuarded msgs →
    t.query.dispatcher.view = run lateOutcome init (msgs.map postedReading)

variable {t : ClientTransaction}

theorem viewed_start (x : Start) : x.transaction.Viewed := by
  refine ⟨(follows_start x).tracked, ?_⟩
  intro hvalid msgs hdelivered _
  obtain rfl := List.map_eq_nil_iff.mp hdelivered.symm
  have hcreate := (follows_start x).handle.symm.trans hvalid
  rw [Start.transaction, Start.query]
  cases hc : x.outcomes.create with
  | returned => rfl
  | raised e =>
    rw [hc] at hcreate
    cases hcreate

theorem Viewed.deliver (h : t.Viewed) (msg : Uint8List) : (t.deliver msg).Viewed := by
  refine ⟨h.tracked.deliver msg, ?_⟩
  intro hvalid msgs hdelivered hg
  have hvalid' := (StartedQuery.deliver_validHandle h.tracked.ready msg).symm.trans hvalid
  obtain ⟨before, last, rfl, hbefore, hlast⟩ := List.append_eq_map_iff.mp hdelivered
  obtain ⟨m, rfl, rfl⟩ := List.map_eq_singleton_iff.mp hlast
  have hview := h.view hvalid' before hbefore.symm hg.left
  exact (view_deliver h.tracked.ready hview hg.left m).2

theorem Viewed.cancel (h : t.Viewed) (outcome : CallOutcome) : (t.cancel outcome).Viewed := by
  refine ⟨h.tracked.cancel outcome, ?_⟩
  obtain ⟨more, hcancel, -⟩ := t.query.cancel_spec outcome
  intro hvalid msgs hdelivered hg
  rw [ClientTransaction.cancel, hcancel] at hvalid ⊢
  exact h.view hvalid msgs hdelivered hg

theorem Viewed.apply (e : TransactionEvent) (t : ClientTransaction) (h : t.Viewed) :
    (e.apply t).Viewed := by
  cases e with
  | deliver msg => exact h.deliver msg
  | cancel outcome => exact h.cancel outcome

end ClientTransaction

theorem Lifetime.client_viewed (life : Lifetime) : ∀ t ∈ life.client.transactions, t.Viewed := by
  rw [life.client_transactions, PkClient.run_transactions]
  refine Population.forall_run ClientTransaction.Viewed.apply ?_ (List.forall_mem_nil _)
  intro t ht
  obtain ⟨s, -, hs⟩ := List.mem_map.mp ht
  cases s with
  | start op interactive outcomes =>
    cases hs
    exact ClientTransaction.viewed_start _
  | deliver i msg => cases hs
  | cancel i outcome => cases hs

/-- In every life of a client, and wherever in its port traffic a transaction stands: whichever
thread sends Finished first decides its result, and no stream shows more than the others. -/
theorem first_finished_wins (life : Lifetime) (i : ℕ) (t : ClientTransaction) (w : Traffic)
    (trace p : PortTrace) (ht : life.client.transactions[i]? = some t)
    (hvalid : t.query.validHandle = true)
    (hrefused : t.query.calls.filterMap refusal? = w.refused.map Utf8.bytes)
    (htrace : Interleaves t.query.posted (eventPosts w.daemon) trace) (hp : p <+: trace)
    (hdelivered : t.delivered = delivered p) : Raced w p t.query.dispatcher := by
  have hviewed := life.client_viewed t (List.mem_of_getElem? ht)
  have hraces := races_of_refused hrefused htrace
  apply raced_of_view hraces hp hviewed.tracked.ready.uniform
  rw [delivered_eq] at hdelivered
  exact hviewed.view hvalid _ hdelivered (guarded_of_races hraces hp)

theorem fits_denied : ∀ text ∈ ["denied"], TextFits text :=
  List.forall_mem_singleton.mpr ⟨by decide, by decide⟩

/-- A port on which the refusal of the hints and the daemon's success meet. -/
def refusedTraffic : Traffic where
  signals := []
  finish := some (1, 5)
  refused := ["denied"]
  deliverable := deliverable_nil
  fits := fits_denied

def refusedTrace : PortTrace := [
  (.dart, errorMessage (Utf8.bytes "denied")), (.eventLoop, finishedMessage 1 5),
  (.dart, finishedMessage 2 0), (.dart, sentinelMessage)]

def refusedLife : Lifetime where
  before :=
    .start (.refreshCache true) true ⟨.returned, .raised ⟨Utf8.bytes "denied"⟩, .returned⟩ ::
      refusedTrace.map (fun x ↦ .deliver 0 (arrived x.2))
  closed := false
  after := []
  noStart h := by cases h

/-- The daemon's success comes first, so the refusal only shows as an error event. -/
theorem first_finished_wins_success :
    ∃ d : TransactionDispatcher, d.done.outcome = some (.ok { exit := .success, runtimeMs := 5 }) ∧
      (d.streams .errors).events = [{ code := 4, details := "denied" }] := by
  obtain ⟨t, ht⟩ : ∃ t, refusedLife.client.transactions[0]? = some t := ⟨_, rfl⟩
  have hquery : (refusedLife.client.transactions[0]?).map (fun t ↦
      (t.query.validHandle, t.query.calls.filterMap refusal?, t.query.posted)) =
      some (true, [Utf8.bytes "denied"], postError (Utf8.bytes "denied")) := by decide +kernel
  have hdelivered : (refusedLife.client.transactions[0]?).map ClientTransaction.delivered =
      some (delivered refusedTrace) := rfl
  rw [ht] at hquery hdelivered
  simp only [Option.map_some, Option.some.injEq, Prod.mk.injEq] at hquery hdelivered
  obtain ⟨hvalid, hrefused, hposted⟩ := hquery
  have htrace : Interleaves t.query.posted (eventPosts refusedTraffic.daemon)
      (refusedTrace ++ [(.eventLoop, sentinelMessage)]) := ⟨hposted.symm, rfl⟩
  have hraced := first_finished_wins refusedLife 0 t refusedTraffic _ refusedTrace ht hvalid
    hrefused htrace (List.prefix_append _ _) hdelivered
  refine ⟨t.query.dispatcher, hraced.result, ?_⟩
  obtain ⟨before, after, hsplit, hevents⟩ := hraced.errors
  obtain ⟨rfl, rfl⟩ := List.append_eq_nil_iff.mp hsplit
  exact hevents

end PackageKitDart.Client
