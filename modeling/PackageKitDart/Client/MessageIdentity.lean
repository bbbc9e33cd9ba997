import PackageKitDart.Client.ManagerDelivery
import PackageKitDart.Client.PortTraffic
import PackageKitDart.Library.Framing

namespace PackageKitDart.Client

open Dart Framing LatchedDemux Native Glz

namespace WireType

/-- The records other than the snapshot and the end are those of the eleven streams. -/
theorem stream_or_end (T : WireType) : T = .pkManagerProps ∨ T = .pkFinished ∨
    ∃ s : StreamName, StreamName.ofDiscriminator T.discriminator = some s ∧ s.type = T := by
  cases T with
  | pkManagerProps => exact .inl rfl
  | pkFinished => exact .inr (.inl rfl)
  | pkPackage => exact .inr (.inr ⟨.packages, rfl, rfl⟩)
  | pkProgress => exact .inr (.inr ⟨.progress, rfl, rfl⟩)
  | pkPackageDetail => exact .inr (.inr ⟨.details, rfl, rfl⟩)
  | pkUpdateDetail => exact .inr (.inr ⟨.updateDetails, rfl, rfl⟩)
  | pkRepoDetail => exact .inr (.inr ⟨.repoDetails, rfl, rfl⟩)
  | pkFiles => exact .inr (.inr ⟨.files, rfl, rfl⟩)
  | pkErrorCode => exact .inr (.inr ⟨.errors, rfl, rfl⟩)
  | pkMessage => exact .inr (.inr ⟨.messages, rfl, rfl⟩)
  | pkEulaRequired => exact .inr (.inr ⟨.eulaRequired, rfl, rfl⟩)
  | pkRepoSigRequired => exact .inr (.inr ⟨.repoSigRequired, rfl, rfl⟩)
  | pkRequireRestart => exact .inr (.inr ⟨.requireRestart, rfl, rfl⟩)

end WireType

/-- Whatever the native side posts to a port. -/
inductive Message
  | record (T : WireType) (n : T.Native)
  | updatesChanged
  | repoListChanged
  | networkStateChanged (state : UInt32)
  | sentinel

/-- What the first byte of a message says about it. -/
inductive MessageKind
  | record (T : WireType)
  | updatesChanged | repoListChanged | networkStateChanged | sentinel

def MessageKind.ofDiscriminator : UInt8 → Option MessageKind
  | 0x01 => some (.record .pkPackage)
  | 0x02 => some (.record .pkProgress)
  | 0x03 => some (.record .pkPackageDetail)
  | 0x04 => some (.record .pkUpdateDetail)
  | 0x05 => some (.record .pkRepoDetail)
  | 0x06 => some (.record .pkFiles)
  | 0x07 => some (.record .pkErrorCode)
  | 0x08 => some (.record .pkMessage)
  | 0x09 => some (.record .pkEulaRequired)
  | 0x0A => some (.record .pkRepoSigRequired)
  | 0x0B => some (.record .pkRequireRestart)
  | 0x0C => some (.record .pkManagerProps)
  | 0x20 => some (.record .pkFinished)
  | 0xD0 => some .updatesChanged
  | 0xD1 => some .repoListChanged
  | 0xD2 => some .networkStateChanged
  | 0xFF => some .sentinel
  | _ => none

namespace Message

def bytes : Message → Posted
  | .record T n => T.posted n
  | .updatesChanged => PkManager.onUpdatesChanged
  | .repoListChanged => PkManager.onRepoListChanged
  | .networkStateChanged state => PkManager.onNetworkStateChanged state
  | .sentinel => PkTransactionBridge.sentinelMessage

def AllSized : Message → Prop
  | .record T n => T.AllSized n
  | .updatesChanged | .repoListChanged | .networkStateChanged _ | .sentinel => True

def kind : Message → MessageKind
  | .record T _ => .record T
  | .updatesChanged => .updatesChanged
  | .repoListChanged => .repoListChanged
  | .networkStateChanged _ => .networkStateChanged
  | .sentinel => .sentinel

theorem ofDiscriminator_bytes (m : Message) :
    ∃ disc payload, m.bytes = disc :: payload ∧ MessageKind.ofDiscriminator disc = some m.kind := by
  cases m with
  | record T n =>
    refine ⟨T.discriminator, T.glzEncode n, posted_eq_cons T n, ?_⟩
    cases T <;> rfl
  | updatesChanged => exact ⟨_, [], rfl, rfl⟩
  | repoListChanged => exact ⟨_, [], rfl, rfl⟩
  | networkStateChanged state => exact ⟨_, encodeField .uint32 state, rfl, rfl⟩
  | sentinel => exact ⟨_, [], rfl, rfl⟩

theorem bytes_ne_nil (m : Message) : m.bytes ≠ [] := by
  obtain ⟨disc, payload, hbytes, -⟩ := ofDiscriminator_bytes m
  rw [hbytes]
  exact List.cons_ne_nil disc payload

variable {rest rest' : List UInt8}

theorem kind_eq {m m' : Message} (h : m.bytes ++ rest = m'.bytes ++ rest') : m.kind = m'.kind := by
  obtain ⟨disc, payload, hbytes, hkind⟩ := ofDiscriminator_bytes m
  obtain ⟨disc', payload', hbytes', hkind'⟩ := ofDiscriminator_bytes m'
  rw [hbytes, hbytes', List.cons_append, List.cons_append] at h
  obtain ⟨rfl, -⟩ := List.cons.inj h
  exact Option.some.inj (hkind.symm.trans hkind')

theorem record_inj {T : WireType} {n n' : T.Native} (hn : T.AllSized n) (hn' : T.AllSized n')
    (h : T.posted n ++ rest = T.posted n' ++ rest') : n = n' ∧ rest = rest' := by
  rw [posted_eq_cons, posted_eq_cons, List.cons_append, List.cons_append, glzEncode_eq,
    glzEncode_eq] at h
  exact (lawful_fields T).encodeAll_append_inj hn hn' (List.cons.inj h).2

theorem networkState_inj {state state' : UInt32}
    (h : PkManager.onNetworkStateChanged state ++ rest =
      PkManager.onNetworkStateChanged state' ++ rest') : state = state' ∧ rest = rest' := by
  obtain ⟨-, htail⟩ := List.cons.inj h
  have hlen : (encodeField .uint32 state).length = (encodeField .uint32 state').length := by
    simp [encodeField]
  obtain ⟨hword, hrest⟩ := List.append_inj htail hlen
  have hnat := congrArg LittleEndian.decode hword
  simp only [encodeField] at hnat
  rw [LittleEndian.decode_encode_of_lt state.toNat_lt,
    LittleEndian.decode_encode_of_lt state'.toNat_lt] at hnat
  exact ⟨UInt32.toNat_inj.mp hnat, hrest⟩

theorem selfDelimiting_bytes : SelfDelimiting bytes AllSized := by
  intro m m' rest rest' hm hm' h
  have hkind := kind_eq h
  cases m with
  | record T n =>
    cases m' with
    | record T' n' =>
      obtain rfl := MessageKind.record.inj hkind
      obtain ⟨rfl, hrest⟩ := record_inj hm hm' h
      exact ⟨rfl, hrest⟩
    | _ => cases hkind
  | updatesChanged =>
    cases m' with
    | updatesChanged => exact ⟨rfl, (List.cons.inj h).2⟩
    | _ => cases hkind
  | repoListChanged =>
    cases m' with
    | repoListChanged => exact ⟨rfl, (List.cons.inj h).2⟩
    | _ => cases hkind
  | networkStateChanged state =>
    cases m' with
    | networkStateChanged state' =>
      obtain ⟨rfl, hrest⟩ := networkState_inj h
      exact ⟨rfl, hrest⟩
    | _ => cases hkind
  | sentinel =>
    cases m' with
    | sentinel => exact ⟨rfl, (List.cons.inj h).2⟩
    | _ => cases hkind

/-- The message is for a client's manager port. -/
def isManager : Message → Bool
  | .record .pkManagerProps _ | .updatesChanged | .repoListChanged | .networkStateChanged _ => true
  | .record _ _ | .sentinel => false

theorem reading_record {T : WireType} (hT : T ≠ .pkManagerProps) (n : T.Native) :
    postedReading (T.posted n) ≠ .noise := by
  intro hnoise
  rcases T.stream_or_end with hprops | rfl | ⟨s, hs, -⟩
  · exact hT hprops
  · have hfinal : postedReading (WireType.posted .pkFinished n) = _ :=
      reading_finishedMessage n.1 n.2
    rw [hnoise] at hfinal
    cases hfinal
  · rw [posted_eq_cons] at hnoise
    rcases reading_of_isData ⟨_, _, s, rfl, hs⟩ with ⟨s, v, hdata⟩ | ⟨o, hfault⟩
    · rw [hnoise] at hdata
      cases hdata
    · rw [hnoise] at hfault
      cases hfault

theorem isManager_record {T : WireType} (hT : T ≠ .pkManagerProps) (n : T.Native) :
    (Message.record T n).isManager = false := by
  cases T <;> first | rfl | exact absurd rfl hT

theorem reading_eq_noise (m : Message) : postedReading m.bytes = .noise ↔ m.isManager = true := by
  cases m with
  | record T n =>
    by_cases hT : T = .pkManagerProps
    · subst hT
      exact iff_of_true rfl rfl
    · rw [isManager_record hT]
      exact iff_of_false (reading_record hT n) Bool.false_ne_true
  | sentinel =>
    have hstop : postedReading sentinel.bytes = .stop := rfl
    rw [hstop]
    exact iff_of_false (fun h ↦ by cases h) Bool.false_ne_true
  | _ => exact iff_of_true rfl rfl

theorem managerEvent_eq_none (m : Message) :
    dispatchManagerEvent (arrived m.bytes) = .ok none ↔ m.isManager = false := by
  cases m with
  | record T n =>
    cases T with
    | pkManagerProps =>
      have hprops : dispatchManagerEvent (arrived (WireType.posted .pkManagerProps n)) = _ :=
        dispatch_managerProps rfl
      refine iff_of_false ?_ (fun h ↦ by cases h)
      intro hnone
      rw [bytes, hprops] at hnone
      cases hd : GlazeCodec.decode .pkManagerProps (arrived (WireType.posted .pkManagerProps n)) 1 with
      | ok v =>
        rw [hd] at hnone
        cases hnone
      | error e =>
        rw [hd] at hnone
        cases hnone
    | _ => exact iff_of_true rfl rfl
  | networkStateChanged state =>
    have hstate : dispatchManagerEvent (arrived (PkManager.onNetworkStateChanged state)) = _ :=
      networkState_posted state
    refine iff_of_false ?_ (fun h ↦ by cases h)
    intro hnone
    rw [bytes, hstate] at hnone
    cases hnone
  | sentinel => exact iff_of_true rfl rfl
  | updatesChanged => exact iff_of_false (fun h ↦ by cases h) (fun h ↦ by cases h)
  | repoListChanged => exact iff_of_false (fun h ↦ by cases h) (fun h ↦ by cases h)

theorem exists_of_finished (exitCode runtimeMs : UInt32) {p : Posted}
    (hp : p ∈ PkTransactionBridge.postFinished exitCode runtimeMs) : ∃ m : Message, m.bytes = p := by
  rcases List.mem_pair.mp hp with rfl | rfl
  · exact ⟨.record .pkFinished (exitCode, runtimeMs), rfl⟩
  · exact ⟨.sentinel, rfl⟩

/-- Every post of a transaction's handlers is a message. -/
theorem exists_of_handle {sg : Signal CString} {p : Posted}
    (hp : p ∈ PkTransactionBridge.handle sg) : ∃ m : Message, m.bytes = p := by
  cases sg with
  | packages ps =>
    obtain ⟨_, _, rfl⟩ := List.mem_map.mp hp
    exact ⟨.record .pkPackage _, rfl⟩
  | details data =>
    obtain ⟨rfl, -⟩ := PkTransactionBridge.onDetails_eq_some_iff.mp (Option.mem_toList.mp hp)
    exact ⟨.record .pkPackageDetail _, rfl⟩
  | finished exitCode runtime => exact exists_of_finished exitCode runtime hp
  | destroy => cases hp
  | package info pkgId summary =>
    obtain rfl := List.mem_singleton.mp hp
    exact ⟨.record .pkPackage _, rfl⟩
  | progress pkgId status pct =>
    obtain rfl := List.mem_singleton.mp hp
    exact ⟨.record .pkProgress _, rfl⟩
  | itemProgress id status pct =>
    obtain rfl := List.mem_singleton.mp hp
    exact ⟨.record .pkProgress _, rfl⟩
  | statusChanged status =>
    obtain rfl := List.mem_singleton.mp hp
    exact ⟨.record .pkProgress _, rfl⟩
  | updateDetail pkgId updates obsoletes vendorUrls bugzillaUrls cveUrls restart updateText
      changelog state issued updated =>
    obtain rfl := List.mem_singleton.mp hp
    exact ⟨.record .pkUpdateDetail _, rfl⟩
  | repoDetail repoId desc enabled =>
    obtain rfl := List.mem_singleton.mp hp
    exact ⟨.record .pkRepoDetail _, rfl⟩
  | repoSignatureRequired pkgId repoName keyUrl keyUserid keyId fingerprint timestamp type =>
    obtain rfl := List.mem_singleton.mp hp
    exact ⟨.record .pkRepoSigRequired _, rfl⟩
  | eulaRequired eulaId pkgId vendor license =>
    obtain rfl := List.mem_singleton.mp hp
    exact ⟨.record .pkEulaRequired _, rfl⟩
  | files pkgId fs =>
    obtain rfl := List.mem_singleton.mp hp
    exact ⟨.record .pkFiles _, rfl⟩
  | errorCode code text =>
    obtain rfl := List.mem_singleton.mp hp
    exact ⟨.record .pkErrorCode _, rfl⟩
  | requireRestart type pkgId =>
    obtain rfl := List.mem_singleton.mp hp
    exact ⟨.record .pkRequireRestart _, rfl⟩
  | message type text =>
    obtain rfl := List.mem_singleton.mp hp
    exact ⟨.record .pkMessage _, rfl⟩

theorem exists_of_effects {call : BridgeCall} {outcome : CallOutcome} {p : Posted}
    (hp : p ∈ (call.effects outcome).posted) : ∃ m : Message, m.bytes = p := by
  rcases effects_posted call outcome with hnil | ⟨e, -, herror⟩
  · rw [hnil] at hp
    cases hp
  · rw [herror] at hp
    rcases List.mem_cons.mp hp with rfl | hp
    · exact ⟨.record .pkErrorCode { code := 4, details := e.message }, rfl⟩
    · exact exists_of_finished 2 0 hp

theorem exists_of_manager {sg : ManagerSignal} {p : Posted} (hp : p ∈ PkManager.handle sg) :
    ∃ m : Message, m.bytes = p := by
  cases sg with
  | updatesChanged =>
    obtain rfl := List.mem_singleton.mp hp
    exact ⟨.updatesChanged, rfl⟩
  | repoListChanged =>
    obtain rfl := List.mem_singleton.mp hp
    exact ⟨.repoListChanged, rfl⟩
  | networkStateChanged state =>
    obtain rfl := List.mem_singleton.mp hp
    exact ⟨.networkStateChanged state, rfl⟩
  | transactionListChanged transactions => cases hp

theorem exists_of_readProperties {reads : PropertyReads} {p : Posted}
    (hp : p ∈ pkManagerReadProperties reads) : ∃ m : Message, m.bytes = p := by
  obtain ⟨props, -, rfl⟩ := mem_pkManagerReadProperties.mp hp
  exact ⟨.record .pkManagerProps props, rfl⟩

end Message

open Message

/-- All that the bridges post are messages, and messages run together without any
separation can still be told apart. -/
theorem posts_unambiguous :
    (∀ sg, ∀ p ∈ PkTransactionBridge.handle sg, ∃ m : Message, m.bytes = p) ∧
    (∀ (call : BridgeCall) outcome, ∀ p ∈ (call.effects outcome).posted,
      ∃ m : Message, m.bytes = p) ∧
    (∀ sg, ∀ p ∈ PkManager.handle sg, ∃ m : Message, m.bytes = p) ∧
    (∀ reads, ∀ p ∈ pkManagerReadProperties reads, ∃ m : Message, m.bytes = p) ∧
    ∀ ms ms' : List Message, (∀ m ∈ ms, m.AllSized) → (∀ m ∈ ms', m.AllSized) →
      ms.flatMap bytes = ms'.flatMap bytes → ms = ms' := by
  refine ⟨fun _ _ ↦ exists_of_handle, fun _ _ _ ↦ exists_of_effects, fun _ _ ↦ exists_of_manager,
    fun _ _ ↦ exists_of_readProperties, ?_⟩
  intro ms ms' hms hms' heq
  exact selfDelimiting_bytes.flatMap_inj bytes_ne_nil hms hms' heq

theorem dispatch_eq_none_iff (msg : Uint8List) : dispatchManagerEvent msg = .ok none ↔
    ManagerClient.thrown? msg = none ∧ ManagerClient.event? msg = none := by
  rw [ManagerClient.thrown?, ManagerClient.event?]
  rcases dispatch_cases msg with ⟨e, hd⟩ | hd | ⟨event, hd⟩
  · simp [hd]
  · simp [hd]
  · simp [hd]

theorem deliver_of_noise {d : TransactionDispatcher} (hu : d.Uniform) {msg : Uint8List}
    (h : reading msg = .noise) : d.deliver msg = .ok d := by
  rw [TransactionDispatcher.deliver, TransactionDispatcher.dispatch_eq hu, h]
  rfl

theorem noise_of_deliver {msg : Uint8List}
    (h : TransactionDispatcher.deliverAll {} [msg] = .ok {}) : reading msg = .noise := by
  obtain ⟨d, hd, -, hevents, hfinished, hresult⟩ := TransactionDispatcher.deliverAll_fresh [msg]
  obtain rfl := Except.ok.inj (h.symm.trans hd)
  have hcloses : (reading msg).closes = false := by simpa [closing] using hfinished.symm
  have hverdict : (reading msg).verdict lateOutcome false = none := by
    simpa [firstVerdict] using hresult.symm
  apply Item.eq_noise lateOutcome hcloses hverdict
  intro s
  have hs : ([] : List s.Event) = [reading msg].filterMap (Item.at? s) := by
    have hlive : live [reading msg] = [reading msg] := by simp [live, hcloses]
    rw [← hlive]
    exact hevents s
  exact List.filterMap_eq_nil_iff.mp hs.symm _ List.mem_cons_self

namespace StartedQuery

variable {q : StartedQuery}

theorem deliver_of_noise (h : q.Ready) (hport : q.portOpen = true)
    (hfin : q.dispatcher.finished = false) {msg : Uint8List} (hread : reading msg = .noise) :
    q.deliver msg = q := by
  obtain ⟨d, portOpen, validHandle, tasks, calls⟩ := q
  obtain rfl : tasks = [] := h.idle
  have hunif : d.Uniform := h.uniform
  have hclosed : ¬ d.finished = true := by simpa using hfin
  rw [StartedQuery.deliver, onMessage_open hunif hport, if_neg hclosed, responded, hread]
  rfl

/-- While no message has ended the streams, the port is open and hears. -/
theorem Tracked.deliverAll_of_noise {before : List Uint8List} (h : q.Tracked [])
    (hvalid : q.validHandle = true) (hopen : ∀ c ∈ before, ¬ Ends c) {msg : Uint8List} (hread : reading msg = .noise)
    (after : List Uint8List) :
    q.deliverAll (before ++ msg :: after) = q.deliverAll (before ++ after) := by
  have htracked := h.deliverAll before
  have hvalid' : (q.deliverAll before).validHandle = true :=
    (deliverAll_validHandle h.ready before).trans hvalid
  rw [List.nil_append] at htracked
  have hport : (q.deliverAll before).portOpen = true := by
    by_contra hclosed
    obtain ⟨c, hc, hcloses⟩ := (htracked.port hvalid').mp (by simpa using hclosed)
    exact hopen c (List.dropLast_subset before hc) (closing_iff.mp hcloses)
  have hfin : (q.deliverAll before).dispatcher.finished = false := by
    by_contra hfin
    obtain ⟨c, hc, hcloses⟩ := (htracked.finished hvalid').mp (by simpa using hfin)
    exact hopen c hc (closing_iff.mp hcloses)
  have hquiet := deliver_of_noise htracked.ready hport hfin hread
  simp only [StartedQuery.deliverAll, List.foldl_append, List.foldl_cons] at hquiet ⊢
  rw [hquiet]

/-- The message after the one that ended the streams closes the port, whatever it is. -/
theorem Tracked.closed_after_end {before : List Uint8List} (h : q.Tracked [])
    (hvalid : q.validHandle = true) (hend : ∃ c ∈ before, Ends c) (msg : Uint8List) :
    (q.deliverAll (before ++ [msg])).portOpen = false ∧
      (q.deliverAll (before ++ [msg])).destroys = 1 := by
  have htracked := h.deliverAll (before ++ [msg])
  have hvalid' : (q.deliverAll (before ++ [msg])).validHandle = true :=
    (deliverAll_validHandle h.ready _).trans hvalid
  have hclosed : (q.deliverAll (before ++ [msg])).portOpen = false := by
    obtain ⟨c, hc, hends⟩ := hend
    refine (htracked.port hvalid').mpr ⟨c, ?_, closing_iff.mpr hends⟩
    rwa [List.nil_append, List.dropLast_concat]
  refine ⟨hclosed, ?_⟩
  rw [htracked.destroys, hvalid', hclosed]
  rfl

end StartedQuery

/-- To the dispatcher of a transaction a message does nothing, wherever it comes, exactly when it
is one of the other bridge. At the transaction's port this is so until a message ends the streams;
the next message then closes the port, whatever it is. A manager's port hears nothing but its own
messages. -/
theorem foreign_messages_ignored (m : Message) :
    (m.isManager = true ↔ ∀ before after,
      TransactionDispatcher.deliverAll {} (before ++ arrived m.bytes :: after) =
        TransactionDispatcher.deliverAll {} (before ++ after)) ∧
    (∀ op interactive outcomes, outcomes.create = .returned →
      ∃ q, startQuery op interactive outcomes = .ok q ∧
        (m.isManager = true ↔ ∀ before after, (∀ c ∈ before, ¬ Ends c) →
          q.deliverAll (before ++ arrived m.bytes :: after) = q.deliverAll (before ++ after)) ∧
        ∀ before, (∃ c ∈ before, Ends c) →
          (q.deliverAll (before ++ [arrived m.bytes])).portOpen = false ∧
            (q.deliverAll (before ++ [arrived m.bytes])).destroys = 1) ∧
    (m.isManager = false ↔ ∀ (c : ManagerClient) (before after : List ManagerStep),
      c.run (before ++ .message (arrived m.bytes) :: after) = c.run (before ++ after)) := by
  rw [← reading_eq_noise, ← managerEvent_eq_none]
  refine ⟨⟨?_, ?_⟩, ?_, ?_, ?_⟩
  · intro hnoise before after
    obtain ⟨d, hd, hu, -⟩ := TransactionDispatcher.deliverAll_spec
      TransactionDispatcher.fresh_uniform before
    simp only [TransactionDispatcher.deliverAll, List.foldlM_append, List.foldlM_cons] at hd ⊢
    rw [hd, ok_bind, ok_bind, deliver_of_noise hu hnoise, ok_bind]
  · intro h
    exact noise_of_deliver (h [] [])
  · intro op interactive outcomes hcreate
    have htracked := StartedQuery.tracked_startedValid op interactive outcomes
    refine ⟨_, startQuery_valid op interactive hcreate, ⟨?_, ?_⟩, ?_⟩
    · intro hnoise before after hopen
      exact htracked.deliverAll_of_noise rfl hopen hnoise after
    · intro h
      have hsame : (startedValid op interactive outcomes).deliver (arrived m.bytes) =
          startedValid op interactive outcomes := h [] [] (List.forall_mem_nil _)
      obtain ⟨hd, -⟩ := StartedQuery.deliver_open htracked.ready rfl (arrived m.bytes)
      rw [hsame] at hd
      apply noise_of_deliver
      rw [TransactionDispatcher.deliverAll, List.foldlM_cons, TransactionDispatcher.deliver,
        TransactionDispatcher.dispatch_eq TransactionDispatcher.fresh_uniform, ok_bind]
      exact congrArg Except.ok hd.symm
    · intro before hend
      exact htracked.closed_after_end rfl hend (arrived m.bytes)
  · intro hnone c before after
    have hdeliver (c : ManagerClient) : c.deliver (arrived m.bytes) = c := by
      rw [ManagerClient.deliver]
      split
      · rfl
      · rw [ManagerClient.onManagerEvent, hnone]
        rfl
    simp only [ManagerClient.run, List.foldl_append, List.foldl_cons]
    rw [ManagerClient.step, hdeliver]
  · intro h
    have hsame : ManagerClient.run {} [.message (arrived m.bytes)] = {} := h {} [] []
    have hlistening :=
      ManagerClient.run_listening ManagerClient.start_listening [.message (arrived m.bytes)]
    have hevents :=
      ManagerClient.run_events ManagerClient.start_listening [.message (arrived m.bytes)]
    have huncaught := hlistening.uncaught
    rw [hsame] at hevents huncaught
    rw [dispatch_eq_none_iff]
    constructor
    · exact List.filterMap_eq_nil_iff.mp huncaught.symm _ List.mem_cons_self
    · exact List.filterMap_eq_nil_iff.mp hevents.symm _ List.mem_cons_self

end PackageKitDart.Client
