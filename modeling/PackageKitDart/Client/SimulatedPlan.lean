import PackageKitDart.Client.CollectPlan
import PackageKitDart.Client.RequestFidelity
import PackageKitDart.Client.ThreadRace

namespace PackageKitDart.Client

open Dart LatchedDemux MergedTrace Native PkTransactionBridge

/-- Where the caller of a simulation stands, going by what was started and by the traffic on its
port. A plan has all the packages of the daemon, or it is no plan. -/
inductive PlanStands (x : Start) (w : Traffic) (p : PortTrace) : PlanPhase → Prop
  | refused (h : pkTransactionCreate x.outcomes.create = false) :
    PlanStands x w p
      (.completed (.error (.serviceUnavailable "Failed to create PackageKit transaction.")))
  | waiting (h : pkTransactionCreate x.outcomes.create = true)
      (hopen : ∀ m ∈ p, m.2 ≠ sentinelMessage) : PlanStands x w p .collecting
  | settled (h : pkTransactionCreate x.outcomes.create = true)
      (hsentinel : ∃ m ∈ p, m.2 = sentinelMessage) {first : Thread × Posted}
      (hfirst : firstFinished p = some first) {o : Outcome} (ho : w.verdict first.1 = some o) :
    PlanStands x w p (.completed (o.map (fun _ ↦
      planFromPackages (w.events.filterMap (StreamEvent.on? .packages)))))

section Settled

variable {w : Traffic} {trace p : PortTrace}

/-- The result that a plan comes with is the daemon's, or the plan is an error. -/
theorem packages_of_settled (h : Races w trace) (hp : p <+: trace) {first : Thread × Posted}
    (hfirst : firstFinished p = some first) {o : Outcome} (ho : w.verdict first.1 = some o) :
    o.map (fun _ ↦ planFromPackages ((w.events.take
        (proj .eventLoop (beforeSentinel p)).length).filterMap (StreamEvent.on? .packages))) =
      o.map (fun _ ↦ planFromPackages (w.events.filterMap (StreamEvent.on? .packages))) := by
  rcases thread_cases first with hthread | hthread
  · rw [hthread] at ho
    obtain rfl := Option.some.inj ho
    rfl
  · rw [List.take_of_length_le (events_before_finished h hp hfirst hthread)]

end Settled

section Simulated

variable {x : Start} {w : Traffic} {trace p : PortTrace}

/-- What an uncreated transaction tells its caller does not depend on any message. -/
theorem phase_of_refused (hcreate : x.outcomes.create ≠ .returned) (msgs : List Uint8List) :
    ((collectPlan x.query).deliverAll msgs).phase =
      .completed (.error (.serviceUnavailable "Failed to create PackageKit transaction.")) := by
  have hquery : x.query = startedNull x.outcomes := by
    cases h : x.outcomes.create with
    | returned => exact absurd h hcreate
    | raised e => rw [Start.query, h]
  have hready : (collectPlan (startedNull x.outcomes)).query.Ready :=
    ⟨TransactionDispatcher.close_uniform {}, rfl, fun _ ↦ rfl⟩
  rw [hquery, PlanRun.deliverAll_of_port_closed hready rfl]
  rfl

theorem tracks_of_created (hcreate : x.outcomes.create = .returned) (h : Races w trace)
    (hp : p <+: trace) :
    ((collectPlan x.query).deliverAll (delivered p)).Tracks (p.map Prod.snd) := by
  have hquery : x.query = startedValid x.op x.interactive x.outcomes := by
    rw [Start.query, hcreate]
  have htracks := (PlanRun.tracks_startedValid x.op x.interactive x.outcomes).deliverAll
    (p.map Prod.snd) (guarded_of_races h hp)
  rwa [List.nil_append, ← delivered_eq, ← hquery] at htracks

/-- The loop over the packages runs as long as no sentinel comes. -/
theorem phase_of_open (hcreate : x.outcomes.create = .returned) (h : Races w trace)
    (hp : p <+: trace) (hopen : ∀ m ∈ p, m.2 ≠ sentinelMessage) :
    ((collectPlan x.query).deliverAll (delivered p)).phase = .collecting := by
  have htracks := tracks_of_created hcreate h hp
  have hraced := raced_of_view h hp htracks.ready.uniform htracks.view
  have hfin := htracks.ready.uniform .packages
  rw [hraced.closed, List.any_eq_false.mpr (fun m hm ↦ by simpa using hopen m hm)] at hfin
  rw [htracks.phase]
  exact PlanRun.settledPhase_of_open hfin.symm

/-- With the sentinel the plan is made, of everything that the daemon reported. -/
theorem phase_of_sentinel (hcreate : x.outcomes.create = .returned) (h : Races w trace)
    (hp : p <+: trace) (hsentinel : ∃ m ∈ p, m.2 = sentinelMessage) :
    ∃ first o, firstFinished p = some first ∧ w.verdict first.1 = some o ∧
      ((collectPlan x.query).deliverAll (delivered p)).phase = .completed (o.map (fun _ ↦
        planFromPackages (w.events.filterMap (StreamEvent.on? .packages)))) := by
  have htracks := tracks_of_created hcreate h hp
  have hraced := raced_of_view h hp htracks.ready.uniform htracks.view
  have hfin := htracks.ready.uniform .packages
  rw [hraced.closed, List.any_eq_true.mpr (by simpa using hsentinel)] at hfin
  have hdone := decided_of_finished (guarded_of_races h hp) htracks.view hfin.symm
  obtain ⟨o, ho⟩ := Option.isSome_iff_exists.mp hdone
  obtain ⟨first, hfirst, hverdict⟩ :=
    Option.bind_eq_some_iff.mp (hraced.result.symm.trans ho)
  refine ⟨first, o, hfirst, hverdict, ?_⟩
  rw [htracks.phase, PlanRun.settledPhase, ← hfin, ho, hraced.streams .packages (by decide)]
  exact congrArg PlanPhase.completed (packages_of_settled h hp hfirst hverdict)

end Simulated

/-- A simulation ends with the stream of its transaction and not before, and it ends with all
packages that the daemon reported, whatever else is refused or delivered meanwhile. -/
theorem plans_are_complete (x : Start) (w : Traffic) (trace p : PortTrace)
    (hrefused : x.query.calls.filterMap refusal? = w.refused.map Utf8.bytes)
    (htrace : Interleaves x.query.posted (eventPosts w.daemon) trace) (hp : p <+: trace) :
    PlanStands x w p ((collectPlan x.query).deliverAll (delivered p)).phase := by
  have hraces := races_of_refused hrefused htrace
  by_cases hcreate : x.outcomes.create = .returned
  · have hvalid : pkTransactionCreate x.outcomes.create = true := by rw [hcreate]; rfl
    by_cases hsentinel : ∃ m ∈ p, m.2 = sentinelMessage
    · obtain ⟨first, o, hfirst, hverdict, hphase⟩ :=
        phase_of_sentinel hcreate hraces hp hsentinel
      rw [hphase]
      exact .settled hvalid hsentinel hfirst hverdict
    · have hopen : ∀ m ∈ p, m.2 ≠ sentinelMessage := fun m hm hm' ↦ hsentinel ⟨m, hm, hm'⟩
      rw [phase_of_open hcreate hraces hp hopen]
      exact .waiting hvalid hopen
  · have hnull : pkTransactionCreate x.outcomes.create = false := by
      cases h : x.outcomes.create with
      | returned => exact absurd h hcreate
      | raised e => rfl
    rw [phase_of_refused hcreate]
    exact .refused hnull

def simulatedStart : Start :=
  ⟨.installPackages 4 [Utf8.bytes "vim;9.1;x86_64;core"], true,
    ⟨.returned, .raised ⟨Utf8.bytes "denied"⟩, .returned⟩⟩

def simulatedTraffic : Traffic where
  signals := [.package 12 "vim;9.1;x86_64;core" "Vi IMproved"]
  finish := some (1, 5)
  refused := ["denied"]
  deliverable := List.forall_mem_singleton.mpr
    ⟨⟨⟨by decide, by decide⟩, by decide⟩, ⟨by decide, by decide⟩⟩
  fits := fits_denied

def simulatedTrace : PortTrace :=
  (eventPosts [.package 12 (Utf8.bytes "vim;9.1;x86_64;core") (Utf8.bytes "Vi IMproved")]).map
    (Thread.eventLoop, ·) ++ refusedTrace

/-- The hints are refused, but the daemon's success is there first: the plan has its package. -/
theorem plans_are_complete_refused_hints :
    ∃ plan, ((collectPlan simulatedStart.query).deliverAll (delivered simulatedTrace)).phase =
        .completed (.ok plan) ∧ plan.allIds = ["vim;9.1;x86_64;core"] := by
  have htrace : Interleaves simulatedStart.query.posted (eventPosts simulatedTraffic.daemon)
      (simulatedTrace ++ [(.eventLoop, sentinelMessage)]) := ⟨rfl, rfl⟩
  have hstands := plans_are_complete simulatedStart simulatedTraffic _ simulatedTrace rfl htrace
    (List.prefix_append _ _)
  generalize PlanRun.phase _ = phase at hstands
  cases hstands with
  | refused h => cases h
  | waiting _ hopen =>
    have hmem : (Thread.dart, sentinelMessage) ∈ simulatedTrace := by decide
    exact absurd rfl (hopen _ hmem)
  | settled _ _ hfirst ho =>
    have hfinished : firstFinished simulatedTrace = some (.eventLoop, finishedMessage 1 5) := rfl
    rw [hfinished] at hfirst
    obtain rfl := Option.some.inj hfirst
    obtain rfl := Option.some.inj ho
    exact ⟨_, rfl, by decide⟩

/-- The info words and ids of the packages in a signal. -/
def reported : Signal String → List (UInt32 × String)
  | .package info pkgId _ => [(info, pkgId)]
  | .packages ps => ps.map (fun p ↦ (p.1, p.2.1))
  | _ => []

/-- How the client shows such a package. -/
def shown (r : UInt32 × String) : PkInfo × String := (PkInfo.fromInt r.1.toNat, r.2)

theorem shown_packageEvent (info : UInt32) {pkgId : String} (summary : String)
    (h : IdFits pkgId) :
    ((packageEvent info pkgId summary).filterMap (StreamEvent.on? .packages)).map
      (fun p ↦ (p.info, p.id.raw)) = [shown (info, pkgId)] := by
  obtain ⟨id, hparse⟩ := (PkPackageId.parse_isOk_iff pkgId).mpr h.separators
  rw [packageEvent, hparse]
  exact congrArg (fun r ↦ [(PkInfo.fromInt info.toNat, r)]) (PkPackageId.raw_of_parse hparse)

theorem shown_signalEvents {sg : Signal String} (h : Deliverable sg) :
    ((signalEvents sg).filterMap (StreamEvent.on? .packages)).map
      (fun p ↦ (p.info, p.id.raw)) = (reported sg).map shown := by
  cases sg with
  | package info pkgId summary => exact shown_packageEvent info summary h.1
  | packages ps =>
    induction ps with
    | nil => rfl
    | cons p ps ih =>
      have hp := shown_packageEvent p.1 p.2.2 (h p List.mem_cons_self).1
      have hrest := ih (fun q hq ↦ h q (List.mem_cons_of_mem p hq))
      simp only [signalEvents, List.flatMap_cons, List.filterMap_append, List.map_append] at hrest ⊢
      rw [hp, hrest]
      rfl
  | details data =>
    simp only [signalEvents, reported, List.filterMap_map, List.map_nil, List.map_eq_nil_iff,
      List.filterMap_eq_nil_iff]
    intro id _
    rfl
  | finished exitCode runtime => exact h.elim
  | _ => rfl

theorem Traffic.shown_events (w : Traffic) :
    (w.events.filterMap (StreamEvent.on? .packages)).map (fun p ↦ (p.info, p.id.raw)) =
      (w.signals.flatMap reported).map shown := by
  rw [Traffic.events, List.filterMap_flatMap, List.map_flatMap, List.map_flatMap]
  exact List.flatMap_congr (fun sg hsg ↦ shown_signalEvents (w.deliverable sg hsg))

/-- What is reported as being removed (13) or obsoleted (15) is not asked for. -/
def wanted (r : UInt32 × String) : Bool := r.1 ≠ 13 ∧ r.1 ≠ 15

theorem wanted_eq (r : UInt32 × String) :
    wanted r = decide ((shown r).1 ≠ .removing ∧ (shown r).1 ≠ .obsoleting) := by
  have hremoving : (shown r).1 = .removing ↔ r.1 = 13 := by
    rw [shown, PkInfo.fromInt_eq_iff, standsFor_iff (by decide), ← UInt32.toNat_inj]
    rfl
  have hobsoleting : (shown r).1 = .obsoleting ↔ r.1 = 15 := by
    rw [shown, PkInfo.fromInt_eq_iff, standsFor_iff (by decide), ← UInt32.toNat_inj]
    rfl
  simp only [wanted, ne_eq, hremoving, hobsoleting]

theorem Traffic.allIds_plan (w : Traffic) :
    (planFromPackages (w.events.filterMap (StreamEvent.on? .packages))).allIds.Perm
      (((w.signals.flatMap reported).filter wanted).map Prod.snd) := by
  have hids := allIds_planFromPackages (w.events.filterMap (StreamEvent.on? .packages))
  have hwanted : ((w.signals.flatMap reported).filter wanted).map Prod.snd =
      (((w.signals.flatMap reported).map shown).filter
        (fun r ↦ r.1 ≠ .removing ∧ r.1 ≠ .obsoleting)).map Prod.snd := by
    rw [List.filter_map, List.map_map]
    exact congrArg (List.map Prod.snd) (List.filter_congr (fun r _ ↦ wanted_eq r))
  rw [hwanted, ← w.shown_events, List.filter_map, List.map_map]
  exact hids

/-- A plan carried out: what the client asks the daemon to install are, byte for byte, the
packages that the daemon reported in the simulation, but for those it would remove or that are
obsoleted. -/
theorem plans_carried_out (x : Start) (w : Traffic) (trace p : PortTrace)
    (hrefused : x.query.calls.filterMap refusal? = w.refused.map Utf8.bytes)
    (htrace : Interleaves x.query.posted (eventPosts w.daemon) trace) (hp : p <+: trace)
    (hfew : (w.signals.flatMap reported).length < 2 ^ 31)
    (hnul : ∀ r ∈ w.signals.flatMap reported, 0 ∉ Utf8.bytes r.2) (plan : PkInstallPlan)
    (hplan : ((collectPlan x.query).deliverAll (delivered p)).phase = .completed (.ok plan))
    (flags : List PkTransactionFlag) :
    plan.changeCount = (w.signals.flatMap reported).length ∧
      ∃ ids, (Request.installPackages plan.allIds flags).invoke =
          some (.installPackages (uint64 (PkTransactionFlag.combine flags)) ids) ∧
        ids.Perm (((w.signals.flatMap reported).filter wanted).map
          (fun r ↦ Utf8.bytes r.2)) := by
  have hraces := races_of_refused hrefused htrace
  have hcreate : x.outcomes.create = .returned := by
    by_contra hcreate
    rw [phase_of_refused hcreate] at hplan
    cases hplan
  have hsentinel : ∃ m ∈ p, m.2 = sentinelMessage := by
    by_contra hopen
    rw [phase_of_open hcreate hraces hp (fun m hm hm' ↦ hopen ⟨m, hm, hm'⟩)] at hplan
    cases hplan
  obtain ⟨first, o, -, -, hphase⟩ := phase_of_sentinel hcreate hraces hp hsentinel
  obtain rfl : planFromPackages (w.events.filterMap (StreamEvent.on? .packages)) = plan := by
    rw [hphase] at hplan
    cases o with
    | error e => cases hplan
    | ok v => exact Except.ok.inj (PlanPhase.completed.inj hplan)
  have hperm := w.allIds_plan
  have hids : (Asked.texts (planFromPackages
      (w.events.filterMap (StreamEvent.on? .packages))).allIds).Passable := by
    refine ⟨?_, ?_⟩
    · rw [hperm.length_eq, List.length_map]
      exact (List.length_filter_le _ _).trans_lt hfew
    · intro s hs
      obtain ⟨r, hr, rfl⟩ := List.mem_map.mp (hperm.mem_iff.mp hs)
      exact hnul r (List.mem_of_mem_filter hr)
  refine ⟨?_, _, Request.callIds_of_passable hids (.installPackages _), ?_⟩
  · rw [changeCount_planFromPackages, ← List.length_map shown, ← w.shown_events, List.length_map]
    rfl
  · have hbytes := hperm.map Utf8.bytes
    rwa [List.map_map] at hbytes

theorem plans_carried_out_refused_hints :
    ∃ plan ids, ((collectPlan simulatedStart.query).deliverAll (delivered simulatedTrace)).phase =
        .completed (.ok plan) ∧
      (Request.installPackages plan.allIds [.onlyTrusted]).invoke =
        some (.installPackages 2 ids) ∧ ids.Perm [Utf8.bytes "vim;9.1;x86_64;core"] := by
  have htrace : Interleaves simulatedStart.query.posted (eventPosts simulatedTraffic.daemon)
      (simulatedTrace ++ [(.eventLoop, sentinelMessage)]) := ⟨rfl, rfl⟩
  obtain ⟨plan, hplan⟩ : ∃ plan, ((collectPlan simulatedStart.query).deliverAll
      (delivered simulatedTrace)).phase = .completed (.ok plan) := ⟨_, rfl⟩
  obtain ⟨-, ids, hinvoke, hids⟩ := plans_carried_out simulatedStart simulatedTraffic _
    simulatedTrace rfl htrace (List.prefix_append _ _) (by decide)
    (List.forall_mem_singleton.mpr (by decide)) plan hplan [.onlyTrusted]
  exact ⟨plan, ids, hplan, hinvoke, hids⟩

end PackageKitDart.Client
