import PackageKitDart.Client.Lifecycle
import PackageKitDart.Library.Population

namespace PackageKitDart.Client

open Dart Native PkTransactionBridge Population

/-- What a client started, and how its calls went. -/
structure Start where
  op : Operation
  interactive : Bool
  outcomes : StartOutcomes

def Start.query (x : Start) : StartedQuery :=
  match x.outcomes.create with
  | .returned => startedValid x.op x.interactive x.outcomes
  | .raised _ => startedNull x.outcomes

def Start.transaction (x : Start) : ClientTransaction := { query := x.query.drain }

theorem startQuery_eq (x : Start) : startQuery x.op x.interactive x.outcomes = .ok x.query := by
  rw [Start.query]
  cases hcreate : x.outcomes.create with
  | returned => exact startQuery_valid x.op x.interactive hcreate
  | raised e =>
    apply startQuery_null x.op x.interactive
    rw [hcreate]
    exact fun h ↦ by cases h

inductive TransactionEvent
  | deliver (msg : Uint8List)
  | cancel (outcome : CallOutcome)

def TransactionEvent.apply : TransactionEvent → ClientTransaction → ClientTransaction
  | .deliver msg, t => t.deliver msg
  | .cancel outcome, t => t.cancel outcome

namespace ClientStep

def start? : ClientStep → Option Start
  | .start op interactive outcomes => some ⟨op, interactive, outcomes⟩
  | .deliver _ _ | .cancel _ _ => none

def event : ClientStep → Event ClientTransaction TransactionEvent
  | .start op interactive outcomes => .enter (Start.transaction ⟨op, interactive, outcomes⟩)
  | .deliver i msg => .reach i (.deliver msg)
  | .cancel i outcome => .reach i (.cancel outcome)

/-- The steps of the transaction with number `i`, when `n` were started before: those of a
client that starts nothing else. -/
def own (i : ℕ) : ℕ → List ClientStep → List ClientStep
  | _, [] => []
  | n, .start op interactive outcomes :: steps =>
    (if n = i then [.start op interactive outcomes] else []) ++ own i (n + 1) steps
  | n, .deliver j msg :: steps => (if j = i then [.deliver 0 msg] else []) ++ own i n steps
  | n, .cancel j outcome :: steps => (if j = i then [.cancel 0 outcome] else []) ++ own i n steps

theorem map_event_own (i n : ℕ) (steps : List ClientStep) :
    (own i n steps).map event = Population.own i n (steps.map event) := by
  induction steps generalizing n with
  | nil => rfl
  | cons s steps ih =>
    cases s with
    | start op interactive outcomes =>
      rw [own, List.map_append, ih, List.map_cons, event, Population.own]
      split <;> rfl
    | deliver j msg =>
      rw [own, List.map_append, ih, List.map_cons, event, Population.own]
      split <;> rfl
    | cancel j outcome =>
      rw [own, List.map_append, ih, List.map_cons, event, Population.own]
      split <;> rfl

end ClientStep

/-- The call, if it is on the handle of the transaction with number `i`. -/
def NativeCall.on? (i : ℕ) : NativeCall → Option BridgeCall
  | .transaction j call => if j = i then some call else none
  | .managerDestroy => none

namespace PkClient

variable {c : PkClient}

def callsOn (c : PkClient) (i : ℕ) : List BridgeCall := c.calls.filterMap (NativeCall.on? i)

theorem step_start (c : PkClient) (x : Start) :
    c.step (.start x.op x.interactive x.outcomes) =
      { transactions := c.transactions ++ [x.transaction]
        calls := c.calls ++ transactionCalls c.transactions.length 0 x.query } := by
  rw [step, startQuery_eq]
  rfl

theorem update_transactions (c : PkClient) (i : ℕ) (f : ClientTransaction → ClientTransaction) :
    (c.update i f).transactions = c.transactions.modify i f := by
  rw [update]
  apply List.ext_getElem?
  intro j
  cases ht : c.transactions[i]? with
  | none =>
    rw [List.modify_eq_self (List.getElem?_eq_none_iff.mp ht)]
  | some t =>
    obtain ⟨hlt, -⟩ := List.getElem?_eq_some_iff.mp ht
    by_cases hij : i = j
    · subst hij
      rw [List.getElem?_modify_eq, ht, List.getElem?_set_self hlt]
      rfl
    · rw [List.getElem?_modify_ne _ _ hij, List.getElem?_set_ne hij]

theorem step_transactions (c : PkClient) (s : ClientStep) :
    (c.step s).transactions = Population.step TransactionEvent.apply c.transactions s.event := by
  cases s with
  | start op interactive outcomes => rw [c.step_start ⟨op, interactive, outcomes⟩]; rfl
  | deliver i msg => exact update_transactions c i _
  | cancel i outcome => exact update_transactions c i _

theorem run_transactions (c : PkClient) (steps : List ClientStep) :
    (c.run steps).transactions =
      Population.run TransactionEvent.apply c.transactions (steps.map ClientStep.event) := by
  induction steps generalizing c with
  | nil => rfl
  | cons s steps ih =>
    have hcons : c.run (s :: steps) = (c.step s).run steps := rfl
    rw [hcons, ih, step_transactions]
    rfl

theorem callsOn_append (i : ℕ) (ts : List ClientTransaction) (calls more : List NativeCall) :
    callsOn ⟨ts, calls ++ more⟩ i = callsOn ⟨[], calls⟩ i ++ callsOn ⟨[], more⟩ i :=
  List.filterMap_append

theorem callsOn_map (i j : ℕ) (calls : List (BridgeCall × CallOutcome)) :
    callsOn ⟨[], calls.map (fun x ↦ .transaction j x.1)⟩ i =
      if j = i then calls.map Prod.fst else [] := by
  rw [callsOn, List.filterMap_map]
  by_cases hj : j = i
  · have hall : NativeCall.on? i ∘ (fun x : BridgeCall × CallOutcome ↦ .transaction j x.1) =
        some ∘ Prod.fst := funext (fun _ ↦ if_pos hj)
    rw [if_pos hj, hall, List.filterMap_eq_map]
  · rw [if_neg hj]
    exact List.filterMap_eq_nil_iff.mpr (fun _ _ ↦ if_neg hj)

/-- The log of the client has the calls of every transaction, in their order. -/
def Logged (c : PkClient) : Prop :=
  ∀ i, c.callsOn i = ((c.transactions[i]?).map (fun t ↦ t.query.calls.map Prod.fst)).getD []

theorem Logged.update (h : c.Logged) (hc : c.Tracked) {i : ℕ}
    {f : ClientTransaction → ClientTransaction}
    (hf : ∀ t : ClientTransaction, t.Tracked → ∃ more, ClientTransaction.Extends t (f t) more) :
    (c.update i f).Logged := by
  cases ht : c.transactions[i]? with
  | none => rwa [update_of_none ht]
  | some t =>
    obtain ⟨more, hmore⟩ := hf t (hc t (List.mem_of_getElem? ht))
    obtain ⟨hlt, -⟩ := List.getElem?_eq_some_iff.mp ht
    rw [update_spec ht hmore]
    intro j
    have hj := h j
    rw [callsOn_append, callsOn_map]
    by_cases hij : i = j
    · subst hij
      rw [if_pos rfl, List.getElem?_set_self hlt, Option.map_some, Option.getD_some, hmore.1,
        List.map_append]
      rw [ht] at hj
      exact congrArg (· ++ _) hj
    · rw [if_neg hij, List.append_nil, List.getElem?_set_ne hij]
      exact hj

theorem Logged.step (h : c.Logged) (hc : c.Tracked) (s : ClientStep) : (c.step s).Logged := by
  cases s with
  | start op interactive outcomes =>
    rw [c.step_start ⟨op, interactive, outcomes⟩]
    intro j
    have hj := h j
    rw [transactionCalls, List.drop_zero, callsOn_append, callsOn_map]
    by_cases hlength : c.transactions.length = j
    · subst hlength
      rw [List.getElem?_eq_none (Nat.le_refl _)] at hj
      rw [if_pos rfl, List.getElem?_concat_length]
      exact congrArg (· ++ _) hj
    · rw [if_neg hlength, List.append_nil, enter_getElem? hlength]
      exact hj
  | deliver i msg => exact h.update hc (fun _ ht ↦ ClientTransaction.extends_deliver ht msg)
  | cancel i outcome => exact h.update hc (fun t _ ↦ t.extends_cancel outcome)

theorem Logged.run (h : c.Logged) (hc : c.Tracked) (steps : List ClientStep) :
    (c.run steps).Logged := by
  induction steps generalizing c with
  | nil => exact h
  | cons s steps ih => exact ih (h.step hc s) (hc.step s)

theorem logged_empty : ({} : PkClient).Logged := fun _ ↦ rfl

theorem Logged.close (h : c.Logged) : c.close.Logged := by
  intro i
  rw [PkClient.close, callsOn_append]
  exact (List.append_nil _).trans (h i)

end PkClient

/-- A client from its first operation on. Once it is closed nothing is started any more, but
what was started goes on. -/
structure Lifetime where
  before : List ClientStep
  closed : Bool
  after : List ClientStep
  noStart : closed = true → ∀ s ∈ after, s.isStart = false

namespace Lifetime

def client (life : Lifetime) : PkClient :=
  let c := ({} : PkClient).run life.before
  (if life.closed then c.close else c).run life.after

def steps (life : Lifetime) : List ClientStep := life.before ++ life.after

def starts (life : Lifetime) : List Start := life.steps.filterMap ClientStep.start?

variable (life : Lifetime)

theorem client_transactions :
    life.client.transactions = (({} : PkClient).run life.steps).transactions := by
  rw [client, steps, PkClient.run_transactions, PkClient.run_transactions, List.map_append,
    Population.run_append]
  split
  · rw [PkClient.close, PkClient.run_transactions]
  · rw [PkClient.run_transactions]

theorem client_logged : life.client.Logged := by
  have hbefore := PkClient.tracked_empty.run life.before
  have hlogged := PkClient.logged_empty.run PkClient.tracked_empty life.before
  rw [client]
  split
  · exact hlogged.close.run hbefore.close life.after
  · exact hlogged.run hbefore life.after

end Lifetime

/-- Nothing that happens to other transactions, nor the end of the manager, makes a difference
to a transaction: it is where it would be, and has called what it would have called, in a
client of its own. -/
theorem transactions_isolated (life : Lifetime) (i : ℕ) :
    let alone := ({} : PkClient).run (ClientStep.own i 0 life.steps)
    life.client.transactions[i]? = alone.transactions[0]? ∧
      life.client.callsOn i = alone.callsOn 0 := by
  intro alone
  have hsame : life.client.transactions[i]? = alone.transactions[0]? := by
    rw [life.client_transactions, PkClient.run_transactions, PkClient.run_transactions,
      ClientStep.map_event_own]
    exact Population.run_getElem? [] _ i
  refine ⟨hsame, ?_⟩
  have hlogged : alone.Logged := PkClient.logged_empty.run PkClient.tracked_empty _
  rw [life.client_logged i, hlogged 0, hsame]

/-- How a handle is used, given what was started on it and the transaction as it stands: a null
handle not at all; a valid one for the hints, the operation, some cancels, and at last its end,
which comes with the message after a sentinel or an undecodable one. -/
inductive HandleProtocol : Option Start → Option ClientTransaction → List BridgeCall → Prop
  | absent : HandleProtocol none none []
  | null {x : Start} {t : ClientTransaction}
      (h : pkTransactionCreate x.outcomes.create = false) :
    HandleProtocol (some x) (some t) [.transactionCreate]
  | valid {x : Start} {t : ClientTransaction}
      (h : pkTransactionCreate x.outcomes.create = true) (cancels : ℕ) :
    HandleProtocol (some x) (some t)
      (.transactionCreate :: .transactionSetHints x.interactive :: .operation x.op ::
        (List.replicate cancels .transactionCancel ++
          if t.delivered.dropLast.any closing then [.transactionDestroy] else []))

namespace ClientTransaction

structure Follows (x : Start) (t : ClientTransaction) : Prop where
  tracked : t.Tracked
  handle : t.query.validHandle = pkTransactionCreate x.outcomes.create
  protocol : HandleProtocol (some x) (some t) (t.query.calls.map Prod.fst)

variable {x : Start} {t : ClientTransaction}

theorem Tracked.destroyed (h : t.Tracked) (hvalid : t.query.validHandle = true) :
    t.delivered.dropLast.any closing = !t.query.portOpen := by
  have hport := h.port hvalid
  rw [← List.any_eq_true] at hport
  cases hopen : t.query.portOpen with
  | true =>
    rw [hopen] at hport
    exact Bool.eq_false_iff.mpr (fun hany ↦ by cases hport.mpr hany)
  | false => exact hport.mp hopen

theorem follows_start (x : Start) : Follows x x.transaction := by
  have htracked := tracked_started (startQuery_eq x)
  cases hcreate : x.outcomes.create with
  | returned =>
    have hvalid : pkTransactionCreate x.outcomes.create = true := by rw [hcreate]; rfl
    have hquery : x.query = startedValid x.op x.interactive x.outcomes := by
      rw [Start.query, hcreate]
    refine ⟨htracked, ?_, ?_⟩
    · rw [hvalid, Start.transaction, hquery]
      rfl
    · rw [Start.transaction, hquery]
      exact .valid hvalid 0
  | raised e =>
    have hnull : pkTransactionCreate x.outcomes.create = false := by rw [hcreate]; rfl
    have hquery : x.query = startedNull x.outcomes := by rw [Start.query, hcreate]
    refine ⟨htracked, ?_, ?_⟩
    · rw [hnull, Start.transaction, hquery]
      rfl
    · rw [Start.transaction, hquery]
      exact .null hnull

theorem Follows.null (h : t.Follows x) (hnull : t.query.validHandle = false) :
    pkTransactionCreate x.outcomes.create = false ∧
      t.query.calls.map Prod.fst = [.transactionCreate] := by
  have hfalse := h.handle.symm.trans hnull
  have hprotocol := h.protocol
  refine ⟨hfalse, ?_⟩
  generalize t.query.calls.map Prod.fst = calls at hprotocol ⊢
  cases hprotocol with
  | null _ => rfl
  | valid htrue _ =>
    rw [hfalse] at htrue
    cases htrue

theorem Follows.valid (h : t.Follows x) (hvalid : t.query.validHandle = true) :
    pkTransactionCreate x.outcomes.create = true ∧ ∃ cancels, t.query.calls.map Prod.fst =
      .transactionCreate :: .transactionSetHints x.interactive :: .operation x.op ::
        (List.replicate cancels .transactionCancel ++
          if t.query.portOpen then [] else [.transactionDestroy]) := by
  have htrue := h.handle.symm.trans hvalid
  have hprotocol := h.protocol
  refine ⟨htrue, ?_⟩
  generalize t.query.calls.map Prod.fst = calls at hprotocol ⊢
  cases hprotocol with
  | null hfalse =>
    rw [htrue] at hfalse
    cases hfalse
  | valid _ cancels =>
    refine ⟨cancels, ?_⟩
    rw [h.tracked.destroyed hvalid]
    cases t.query.portOpen <;> rfl

/-- The protocol, read off the calls of a transaction. -/
theorem Follows.of_calls {t' : ClientTransaction} (ht' : t'.Tracked)
    (hhandle : t'.query.validHandle = pkTransactionCreate x.outcomes.create)
    (hnull : t'.query.validHandle = false → t'.query.calls.map Prod.fst = [.transactionCreate])
    (hvalid : t'.query.validHandle = true → ∃ cancels, t'.query.calls.map Prod.fst =
      .transactionCreate :: .transactionSetHints x.interactive :: .operation x.op ::
        (List.replicate cancels .transactionCancel ++
          if t'.query.portOpen then [] else [.transactionDestroy])) : t'.Follows x := by
  refine ⟨ht', hhandle, ?_⟩
  cases hv : t'.query.validHandle with
  | false =>
    rw [hnull hv]
    exact .null (hhandle.symm.trans hv)
  | true =>
    obtain ⟨cancels, hcalls⟩ := hvalid hv
    have hprotocol : HandleProtocol (some x) (some t') _ := .valid (hhandle.symm.trans hv) cancels
    rw [ht'.destroyed hv] at hprotocol
    rw [hcalls]
    cases hopen : t'.query.portOpen with
    | true => simpa [hopen] using hprotocol
    | false => simpa [hopen] using hprotocol

theorem Follows.deliver (h : t.Follows x) (msg : Uint8List) : (t.deliver msg).Follows x := by
  have htracked : (t.deliver msg).Tracked := h.tracked.deliver msg
  have hhandle := StartedQuery.deliver_validHandle h.tracked.ready msg
  apply Follows.of_calls htracked (hhandle.trans h.handle)
  · intro hnull
    have hnull := hhandle.symm.trans hnull
    have hport := h.tracked.null hnull
    rw [ClientTransaction.deliver, StartedQuery.deliver_of_port_closed h.tracked.ready hport]
    exact (h.null hnull).2
  · intro hvalid
    have hvalid := hhandle.symm.trans hvalid
    obtain ⟨-, cancels, hcalls⟩ := h.valid hvalid
    refine ⟨cancels, ?_⟩
    cases hport : t.query.portOpen with
    | false =>
      rw [ClientTransaction.deliver, StartedQuery.deliver_of_port_closed h.tracked.ready hport,
        hcalls]
    | true =>
      obtain ⟨-, hp, -, -, hmore⟩ := StartedQuery.deliver_open h.tracked.ready hport msg
      rw [ClientTransaction.deliver, hmore, hp, List.map_append, hcalls, hport, hvalid]
      cases t.query.dispatcher.finished <;> simp

theorem Follows.cancel (h : t.Follows x) (outcome : CallOutcome) : (t.cancel outcome).Follows x := by
  have htracked : (t.cancel outcome).Tracked := h.tracked.cancel outcome
  cases hf : t.query.dispatcher.finished with
  | true =>
    have hsame : t.cancel outcome = t := by
      rw [ClientTransaction.cancel, StartedQuery.cancel, hf]
      rfl
    rwa [hsame]
  | false =>
    have hport : t.query.portOpen = true := by
      cases hport : t.query.portOpen with
      | true => rfl
      | false => rw [h.tracked.ready.finished hport] at hf; cases hf
    have hnext : t.query.cancel outcome =
        { t.query with calls := t.query.calls ++ [(.transactionCancel, outcome)] } := by
      simp [StartedQuery.cancel, hf]
    rw [ClientTransaction.cancel, hnext] at htracked ⊢
    apply Follows.of_calls htracked h.handle
    · intro hnull
      have hclosed := h.tracked.null hnull
      rw [hport] at hclosed
      cases hclosed
    · intro hvalid
      obtain ⟨-, cancels, hcalls⟩ := h.valid hvalid
      refine ⟨cancels + 1, ?_⟩
      rw [List.map_append, hcalls, hport, List.replicate_succ']
      simp

end ClientTransaction

namespace PkClient

variable {c : PkClient}

/-- Every transaction stands where what was started under its number can be. -/
structure Numbered (c : PkClient) (starts : List Start) : Prop where
  length : c.transactions.length = starts.length
  follows : ∀ (i : ℕ) (x : Start) (t : ClientTransaction), starts[i]? = some x →
    c.transactions[i]? = some t → t.Follows x

variable {starts : List Start}

theorem Numbered.modify (h : c.Numbered starts) {c' : PkClient} (i : ℕ)
    {f : ClientTransaction → ClientTransaction}
    (hc' : c'.transactions = c.transactions.modify i f)
    (hf : ∀ x t, ClientTransaction.Follows x t → (f t).Follows x) : c'.Numbered starts := by
  refine ⟨by rw [hc', List.length_modify, h.length], ?_⟩
  intro j x t hx ht
  rw [hc'] at ht
  by_cases hij : i = j
  · subst hij
    rw [List.getElem?_modify_eq, Option.map_eq_map] at ht
    obtain ⟨t', ht', rfl⟩ := Option.map_eq_some_iff.mp ht
    exact hf x t' (h.follows i x t' hx ht')
  · rw [List.getElem?_modify_ne _ _ hij] at ht
    exact h.follows j x t hx ht

theorem Numbered.step (h : c.Numbered starts) (s : ClientStep) :
    (c.step s).Numbered (starts ++ s.start?.toList) := by
  cases s with
  | start op interactive outcomes =>
    rw [c.step_start ⟨op, interactive, outcomes⟩]
    refine ⟨by simp [h.length, ClientStep.start?], ?_⟩
    intro i x t hx ht
    change (c.transactions ++ [_])[i]? = some t at ht
    change (starts ++ [_])[i]? = some x at hx
    by_cases hi : c.transactions.length = i
    · subst hi
      rw [List.getElem?_concat_length] at ht
      rw [h.length, List.getElem?_concat_length] at hx
      obtain rfl := Option.some.inj ht
      obtain rfl := Option.some.inj hx
      exact ClientTransaction.follows_start _
    · rw [enter_getElem? hi] at ht
      rw [enter_getElem? (h.length ▸ hi)] at hx
      exact h.follows i x t hx ht
  | deliver i msg =>
    rw [ClientStep.start?, Option.toList_none, List.append_nil]
    exact h.modify i (update_transactions c i _) (fun _ _ ht ↦ ht.deliver msg)
  | cancel i outcome =>
    rw [ClientStep.start?, Option.toList_none, List.append_nil]
    exact h.modify i (update_transactions c i _) (fun _ _ ht ↦ ht.cancel outcome)

theorem Numbered.run (h : c.Numbered starts) (steps : List ClientStep) :
    (c.run steps).Numbered (starts ++ steps.filterMap ClientStep.start?) := by
  induction steps generalizing c starts with
  | nil => simpa [PkClient.run] using h
  | cons s steps ih =>
    have hsplit : starts ++ (s :: steps).filterMap ClientStep.start? =
        (starts ++ s.start?.toList) ++ steps.filterMap ClientStep.start? := by
      rw [List.filterMap_cons, List.append_assoc]
      cases s.start? <;> rfl
    rw [hsplit]
    exact ih (h.step s)

end PkClient

theorem Lifetime.client_numbered (life : Lifetime) : life.client.Numbered life.starts := by
  have hempty : ({} : PkClient).Numbered [] := ⟨rfl, fun i x t hx ↦ by cases hx⟩
  have hrun : (({} : PkClient).run life.steps).Numbered life.starts := hempty.run life.steps
  refine ⟨?_, ?_⟩
  · rw [life.client_transactions]
    exact hrun.length
  · rw [life.client_transactions]
    exact hrun.follows

/-- In every life of a client, however its transactions interleave and whenever it is closed,
each handle is used by the protocol. -/
theorem handles_follow_protocol (life : Lifetime) (i : ℕ) :
    HandleProtocol life.starts[i]? life.client.transactions[i]? (life.client.callsOn i) := by
  have hnumbered := life.client_numbered
  rw [life.client_logged i]
  cases ht : life.client.transactions[i]? with
  | none =>
    rw [List.getElem?_eq_none_iff, hnumbered.length, ← List.getElem?_eq_none_iff] at ht
    rw [ht]
    exact .absent
  | some t =>
    obtain ⟨hlt, -⟩ := List.getElem?_eq_some_iff.mp ht
    rw [hnumbered.length] at hlt
    obtain ⟨x, hx⟩ : ∃ x, life.starts[i]? = some x := ⟨_, List.getElem?_eq_getElem hlt⟩
    rw [hx]
    exact (hnumbered.follows i x t hx ht).protocol

end PackageKitDart.Client
