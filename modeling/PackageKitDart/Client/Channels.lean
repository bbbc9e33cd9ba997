import PackageKitDart.Client.ThreadRace
import PackageKitDart.Library.SharedQueue

namespace PackageKitDart.Client

open Dart MergedTrace Native Population PkTransactionBridge SharedQueue

instance : Fintype Thread := ⟨{.dart, .eventLoop}, fun i ↦ by cases i <;> decide⟩

/-- How the daemon answers a call. The text of a refusal is one that the client can decode. -/
inductive Reply
  | accepted
  | refused (text : String) (fits : TextFits text)

namespace Reply

def outcome : Reply → CallOutcome
  | .accepted => .returned
  | .refused text _ => .raised ⟨Utf8.bytes text⟩

def texts : Reply → List String
  | .accepted => []
  | .refused text _ => [text]

theorem fits_of_mem {reply : Reply} {text : String} (h : text ∈ reply.texts) : TextFits text := by
  cases reply with
  | accepted => cases h
  | refused text' fits => rwa [List.mem_singleton.mp h]

end Reply

namespace Traffic

variable (w : Traffic)

def opened (replies : List Reply) : Traffic where
  signals := []
  finish := none
  refused := replies.flatMap Reply.texts
  deliverable := deliverable_nil
  fits text h := by
    obtain ⟨reply, -, htext⟩ := List.mem_flatMap.mp h
    exact Reply.fits_of_mem htext

def signal (sg : Signal String) (h : Deliverable sg) : Traffic :=
  { w with
    signals := w.signals ++ [sg]
    deliverable := List.forall_mem_append.mpr ⟨w.deliverable, List.forall_mem_singleton.mpr h⟩ }

def finished (exitCode runtime : UInt32) : Traffic := { w with finish := some (exitCode, runtime) }

def refuse (reply : Reply) : Traffic :=
  { w with
    refused := w.refused ++ reply.texts
    fits := List.forall_mem_append.mpr ⟨w.fits, fun _ h ↦ Reply.fits_of_mem h⟩ }

/-- The daemon has come to an end, or has refused something. -/
def ended : Bool := w.finish.isSome || !w.refused.isEmpty

end Traffic

/-- A transaction of the client with what the daemon makes of it and the port in between. -/
structure Channel where
  transaction : ClientTransaction
  traffic : Traffic
  port : SharedQueue.State Thread Posted

/-- An operation started, and how its calls go. -/
structure Opening where
  op : Operation
  interactive : Bool
  create : CallOutcome
  hints : Reply
  method : Reply

def Opening.start (o : Opening) : Start :=
  ⟨o.op, o.interactive, ⟨o.create, o.hints.outcome, o.method.outcome⟩⟩

def Opening.channel (o : Opening) : Channel where
  transaction := o.start.transaction
  traffic := .opened (if pkTransactionCreate o.create then [o.hints, o.method] else [])
  port.pending
    | .dart => o.start.transaction.query.posted
    | .eventLoop => []

/-- The bridge handles a signal that the client can decode, or the daemon's Finished, one of the two
threads makes its next post, the client gets the next message, or its user cancels. -/
inductive ChannelEvent
  | signal (sg : Signal String) (h : Deliverable sg)
  | finished (exitCode runtime : UInt32)
  | post (thread : Thread)
  | take
  | cancel (reply : Reply)

namespace Channel

/-- There is a bridge, and the daemon is not done with the transaction. -/
def listens (c : Channel) : Bool := c.transaction.query.portOpen && c.traffic.finish.isNone

/-- The Dart thread is not in the middle of a call. -/
def idle (c : Channel) : Bool := (c.port.pending .dart).isEmpty

def signal (c : Channel) (sg : Signal String) (h : Deliverable sg) : Channel :=
  { c with
    traffic := c.traffic.signal sg h
    port := c.port.submit .eventLoop (handle (sg.map Utf8.bytes)) }

def finished (c : Channel) (exitCode runtime : UInt32) : Channel :=
  { c with
    traffic := c.traffic.finished exitCode runtime
    port := c.port.submit .eventLoop (handle (.finished exitCode runtime)) }

def take (c : Channel) : Channel :=
  match c.port.queue with
  | [] => c
  | x :: _ => { c with
      transaction := c.transaction.deliver (arrived x.2)
      port := c.port.take }

def cancel (c : Channel) (reply : Reply) : Channel where
  transaction := c.transaction.cancel reply.outcome
  traffic := c.traffic.refuse reply
  port := c.port.submit .dart (callsPosted [(.transactionCancel, reply.outcome)])

end Channel

def ChannelEvent.apply : ChannelEvent → Channel → Channel
  | .signal sg h, c => if c.listens then c.signal sg h else c
  | .finished exitCode runtime, c => if c.listens then c.finished exitCode runtime else c
  | .post thread, c => { c with port := c.port.post thread }
  | .take, c => if c.idle then c.take else c
  | .cancel reply, c =>
    if c.idle && !c.transaction.query.dispatcher.finished then c.cancel reply else c

inductive SystemEvent
  | start (o : Opening)
  | reach (i : ℕ) (e : ChannelEvent)

def SystemEvent.event : SystemEvent → Event Channel ChannelEvent
  | .start o => .enter o.channel
  | .reach i e => .reach i e

/-- The client, the bridge and the daemon after some events. -/
def system (events : List SystemEvent) : List Channel :=
  Population.run ChannelEvent.apply [] (events.map SystemEvent.event)

namespace Channel

/-- Nothing on the way is lost, doubled or put out of order, and the transaction has seen what
was taken from the port. -/
structure Sound (c : Channel) : Prop where
  viewed : c.transaction.Viewed
  delivered : c.transaction.delivered = delivered c.port.taken
  dart : c.port.total .dart = c.traffic.dart
  eventLoop : c.port.total .eventLoop = eventPosts c.traffic.daemon
  refused : c.transaction.query.calls.filterMap refusal? = c.traffic.refused.map Utf8.bytes

variable {c : Channel}

theorem refused_opening (o : Opening) :
    o.start.transaction.query.calls.filterMap refusal? =
      o.channel.traffic.refused.map Utf8.bytes := by
  obtain ⟨op, interactive, create, hints, method⟩ := o
  cases create <;> cases hints <;> cases method <;> rfl

theorem sound_opening (o : Opening) : o.channel.Sound where
  viewed := ClientTransaction.viewed_start o.start
  delivered := rfl
  dart := dart_of_refused (refused_opening o)
  eventLoop := rfl
  refused := refused_opening o

theorem Sound.signal (h : c.Sound) (hfinish : c.traffic.finish = none) (sg : Signal String)
    (hsg : Deliverable sg) : (c.signal sg hsg).Sound where
  viewed := h.viewed
  delivered := h.delivered
  dart := (State.total_submit_of_ne (by decide) _ _).trans h.dart
  eventLoop := by
    have hdaemon : (c.traffic.signal sg hsg).daemon =
        c.traffic.daemon ++ [sg.map Utf8.bytes] := by
      simp [Traffic.daemon, Traffic.signal, hfinish]
    rw [Channel.signal, State.total_submit_self, h.eventLoop, hdaemon, eventPosts, eventPosts,
      List.flatMap_append, List.flatMap_singleton]
  refused := h.refused

theorem Sound.finished (h : c.Sound) (hfinish : c.traffic.finish = none)
    (exitCode runtime : UInt32) : (c.finished exitCode runtime).Sound where
  viewed := h.viewed
  delivered := h.delivered
  dart := (State.total_submit_of_ne (by decide) _ _).trans h.dart
  eventLoop := by
    have hdaemon : (c.traffic.finished exitCode runtime).daemon =
        c.traffic.daemon ++ [.finished exitCode runtime] := by
      simp [Traffic.daemon, Traffic.finished, hfinish]
    rw [Channel.finished, State.total_submit_self, h.eventLoop, hdaemon, eventPosts, eventPosts,
      List.flatMap_append, List.flatMap_singleton]
  refused := h.refused

theorem Sound.post (h : c.Sound) (thread : Thread) : Sound { c with port := c.port.post thread } where
  viewed := h.viewed
  delivered := by
    have htaken : (c.port.post thread).taken = c.port.taken := by
      rw [State.post]
      split <;> rfl
    rw [htaken]
    exact h.delivered
  dart := (State.total_post _ _ _).trans h.dart
  eventLoop := (State.total_post _ _ _).trans h.eventLoop
  refused := h.refused

/-- What a message makes a transaction call posts nothing. -/
theorem refused_deliver {t : ClientTransaction} (h : t.Tracked) (msg : Uint8List) :
    (t.deliver msg).query.calls.filterMap refusal? = t.query.calls.filterMap refusal? := by
  cases hport : t.query.portOpen with
  | false =>
    rw [ClientTransaction.deliver, StartedQuery.deliver_of_port_closed h.ready hport]
  | true =>
    obtain ⟨-, -, -, -, hcalls⟩ := StartedQuery.deliver_open h.ready hport msg
    rw [ClientTransaction.deliver, hcalls, List.filterMap_append]
    split
    · exact List.append_nil _
    · exact List.append_nil _

theorem Sound.take (h : c.Sound) : c.take.Sound := by
  cases hqueue : c.port.queue with
  | nil =>
    rw [Channel.take, hqueue]
    exact h
  | cons x rest =>
    have htaken : c.port.take.taken = c.port.taken ++ [x] := by rw [State.take, hqueue]
    rw [Channel.take, hqueue]
    refine ⟨h.viewed.deliver _, ?_, ?_, ?_, ?_⟩
    · rw [htaken, Client.delivered, List.map_append]
      exact congrArg (· ++ _) h.delivered
    · exact (State.total_take _ _).trans h.dart
    · exact (State.total_take _ _).trans h.eventLoop
    · exact (refused_deliver h.viewed.tracked _).trans h.refused

theorem Sound.cancel (h : c.Sound) (hopen : c.transaction.query.dispatcher.finished = false)
    (reply : Reply) : (c.cancel reply).Sound := by
  have hcalls : (c.transaction.cancel reply.outcome).query.calls =
      c.transaction.query.calls ++ [(.transactionCancel, reply.outcome)] := by
    simp [ClientTransaction.cancel, StartedQuery.cancel, hopen]
  have hposted : callsPosted [(.transactionCancel, reply.outcome)] =
      reply.texts.flatMap (fun text ↦ postError (Utf8.bytes text)) := by
    cases reply <;> rfl
  refine ⟨h.viewed.cancel _, h.delivered, ?_, ?_, ?_⟩
  · rw [Channel.cancel, State.total_submit_self, h.dart, hposted, Traffic.dart, Traffic.dart,
      Traffic.refuse, List.flatMap_append]
  · exact (State.total_submit_of_ne (by decide) _ _).trans h.eventLoop
  · rw [Channel.cancel, hcalls, List.filterMap_append, h.refused, Traffic.refuse, List.map_append]
    cases reply <;> rfl

theorem Sound.apply (e : ChannelEvent) (c : Channel) (h : c.Sound) : (e.apply c).Sound := by
  cases e with
  | signal sg hsg =>
    rw [ChannelEvent.apply]
    split
    · next hlistens =>
      have hfinish : c.traffic.finish = none := by
        simpa [listens] using (Bool.and_eq_true_iff.mp hlistens).2
      exact h.signal hfinish sg hsg
    · exact h
  | finished exitCode runtime =>
    rw [ChannelEvent.apply]
    split
    · next hlistens =>
      have hfinish : c.traffic.finish = none := by
        simpa [listens] using (Bool.and_eq_true_iff.mp hlistens).2
      exact h.finished hfinish exitCode runtime
    · exact h
  | post thread => exact h.post thread
  | take =>
    rw [ChannelEvent.apply]
    split
    · exact h.take
    · exact h
  | cancel reply =>
    rw [ChannelEvent.apply]
    split
    · next hmay =>
      have hopen : c.transaction.query.dispatcher.finished = false := by
        simpa using (Bool.and_eq_true_iff.mp hmay).2
      exact h.cancel hopen reply
    · exact h

end Channel

theorem system_sound (events : List SystemEvent) : ∀ c ∈ system events, c.Sound := by
  refine Population.forall_run Channel.Sound.apply ?_ (List.forall_mem_nil _)
  intro c hc
  obtain ⟨event, -, hevent⟩ := List.mem_map.mp hc
  cases event with
  | start o =>
    cases hevent
    exact Channel.sound_opening o
  | reach i e => cases hevent

end PackageKitDart.Client
