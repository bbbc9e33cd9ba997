import PackageKitDart.Client.StartQuery

namespace PackageKitDart.Client

open Dart Native PkTransactionBridge

inductive NativeCall
  | managerDestroy
  | transaction (i : ℕ) (call : BridgeCall)

structure ClientTransaction where
  query : StartedQuery
  delivered : List Uint8List := []

/-- The client keeps no record of its transactions; the list only numbers them. -/
structure PkClient where
  transactions : List ClientTransaction := []
  calls : List NativeCall := []

inductive ClientStep
  | start (op : Operation) (interactive : Bool) (outcomes : StartOutcomes)
  | deliver (i : ℕ) (msg : Uint8List)
  | cancel (i : ℕ) (outcome : CallOutcome)

def ClientStep.isStart : ClientStep → Bool
  | .start _ _ _ => true
  | .deliver _ _ | .cancel _ _ => false

namespace ClientTransaction

def deliver (t : ClientTransaction) (msg : Uint8List) : ClientTransaction where
  query := t.query.deliver msg
  delivered := t.delivered ++ [msg]

def cancel (t : ClientTransaction) (outcome : CallOutcome) : ClientTransaction :=
  { t with query := t.query.cancel outcome }

end ClientTransaction

namespace PkClient

/-- The calls of the transaction with number `i`, from the one numbered `n` on. -/
def transactionCalls (i n : ℕ) (q : StartedQuery) : List NativeCall :=
  (q.calls.drop n).map (fun c ↦ .transaction i c.1)

def update (c : PkClient) (i : ℕ) (f : ClientTransaction → ClientTransaction) : PkClient :=
  match c.transactions[i]? with
  | none => c
  | some t =>
    { transactions := c.transactions.set i (f t)
      calls := c.calls ++ transactionCalls i t.query.calls.length (f t).query }

def step (c : PkClient) : ClientStep → PkClient
  | .start op interactive outcomes =>
    match startQuery op interactive outcomes with
    | .error _ => c
    | .ok q =>
      -- microtasks run before any port delivers a message
      { transactions := c.transactions ++ [{ query := q.drain }]
        calls := c.calls ++ transactionCalls c.transactions.length 0 q }
  | .deliver i msg => c.update i (fun t ↦ t.deliver msg)
  | .cancel i outcome => c.update i (fun t ↦ t.cancel outcome)

def run (c : PkClient) (steps : List ClientStep) : PkClient := steps.foldl step c

/-- `PkClient.close` up to its `await`; what comes after it touches no native handle. -/
def close (c : PkClient) : PkClient := { c with calls := c.calls ++ [.managerDestroy] }

/-- No transaction handle is passed on once the manager is gone. -/
def NoUseAfterDestroy (calls : List NativeCall) : Prop :=
  ∀ l i call l', calls = l ++ .transaction i call :: l' → .managerDestroy ∉ l

def AllDestroyed (c : PkClient) : Prop :=
  ∀ t ∈ c.transactions, t.query.validHandle = true → t.query.destroys = 1

end PkClient

namespace ClientTransaction

abbrev Tracked (t : ClientTransaction) : Prop := t.query.Tracked t.delivered

theorem tracked_started {op : Operation} {interactive : Bool} {outcomes : StartOutcomes}
    {q : StartedQuery} (h : startQuery op interactive outcomes = .ok q) :
    Tracked { query := q.drain } := by
  by_cases hcreate : outcomes.create = .returned
  · rw [startQuery_valid op interactive hcreate] at h
    obtain rfl := Except.ok.inj h
    exact StartedQuery.tracked_startedValid op interactive outcomes
  · rw [startQuery_null op interactive hcreate] at h
    obtain rfl := Except.ok.inj h
    exact StartedQuery.tracked_startedNull outcomes

variable {t : ClientTransaction}

/-- The transaction is the same one, and the calls it made so far stand. -/
def Extends (t t' : ClientTransaction) (more : List (BridgeCall × CallOutcome)) : Prop :=
  t'.query.calls = t.query.calls ++ more ∧ t'.query.validHandle = t.query.validHandle

theorem extends_cancel (t : ClientTransaction) (outcome : CallOutcome) :
    ∃ more, Extends t (t.cancel outcome) more := by
  obtain ⟨more, hcancel, -⟩ := t.query.cancel_spec outcome
  refine ⟨more, ?_⟩
  rw [ClientTransaction.cancel, hcancel]
  exact ⟨rfl, rfl⟩

theorem extends_deliver (h : t.Tracked) (msg : Uint8List) :
    ∃ more, Extends t (t.deliver msg) more := by
  cases hport : t.query.portOpen with
  | false =>
    have hsame := StartedQuery.deliver_of_port_closed h.ready hport msg
    refine ⟨[], ?_, ?_⟩
    · rw [ClientTransaction.deliver, hsame, List.append_nil]
    · rw [ClientTransaction.deliver, hsame]
  | true =>
    obtain ⟨-, -, hv, -, hcalls⟩ := StartedQuery.deliver_open h.ready hport msg
    exact ⟨_, hcalls, hv⟩

theorem extends_nil (h : t.Tracked) (hport : t.query.portOpen = false) :
    (∀ msg, Extends t (t.deliver msg) [] ∧ (t.deliver msg).query.portOpen = false) ∧
      ∀ outcome, Extends t (t.cancel outcome) [] ∧ (t.cancel outcome).query.portOpen = false := by
  have hfin := h.ready.finished hport
  refine ⟨?_, ?_⟩
  · intro msg
    have hsame := StartedQuery.deliver_of_port_closed h.ready hport msg
    rw [ClientTransaction.deliver, hsame]
    exact ⟨⟨(List.append_nil _).symm, rfl⟩, hport⟩
  · intro outcome
    have hsame : t.query.cancel outcome = t.query := by simp [StartedQuery.cancel, hfin]
    rw [ClientTransaction.cancel, hsame]
    exact ⟨⟨(List.append_nil _).symm, rfl⟩, hport⟩

end ClientTransaction

namespace PkClient

variable {c : PkClient}

def Tracked (c : PkClient) : Prop := ∀ t ∈ c.transactions, t.Tracked

def Keeps (c c' : PkClient) : Prop :=
  ∀ (i : ℕ) (t : ClientTransaction), c.transactions[i]? = some t →
    ∃ t', c'.transactions[i]? = some t' ∧ ClientTransaction.Extends t t' []

theorem Keeps.refl (c : PkClient) : Keeps c c := by
  intro i t ht
  exact ⟨t, ht, (List.append_nil _).symm, rfl⟩

theorem Keeps.trans {c' c'' : PkClient} (h : Keeps c c') (h' : Keeps c' c'') : Keeps c c'' := by
  intro i t ht
  obtain ⟨t', ht', hcalls, hvalid⟩ := h i t ht
  obtain ⟨t'', ht'', hcalls', hvalid'⟩ := h' i t' ht'
  refine ⟨t'', ht'', ?_, hvalid'.trans hvalid⟩
  rw [hcalls', hcalls, List.append_nil]

theorem update_spec {i : ℕ} {f : ClientTransaction → ClientTransaction} {t : ClientTransaction}
    (ht : c.transactions[i]? = some t) {more : List (BridgeCall × CallOutcome)}
    (hf : ClientTransaction.Extends t (f t) more) :
    c.update i f =
      { transactions := c.transactions.set i (f t)
        calls := c.calls ++ more.map (fun x ↦ .transaction i x.1) } := by
  obtain ⟨hcalls, -⟩ := hf
  simp only [update, ht, transactionCalls, hcalls, List.drop_left]

theorem update_of_none {i : ℕ} {f : ClientTransaction → ClientTransaction}
    (hi : c.transactions[i]? = none) : c.update i f = c := by
  simp only [update, hi]

theorem Tracked.update (h : c.Tracked) {i : ℕ} {f : ClientTransaction → ClientTransaction}
    (hf : ∀ t : ClientTransaction, t.Tracked → (f t).Tracked) : (c.update i f).Tracked := by
  unfold PkClient.update
  cases ht : c.transactions[i]? with
  | none => exact h
  | some t =>
    intro t' ht'
    rcases List.mem_or_eq_of_mem_set ht' with hold | rfl
    · exact h t' hold
    · exact hf t (h t (List.mem_of_getElem? ht))

theorem Tracked.step (h : c.Tracked) (s : ClientStep) : (c.step s).Tracked := by
  cases s with
  | start op interactive outcomes =>
    simp only [PkClient.step]
    cases hq : startQuery op interactive outcomes with
    | error e => exact h
    | ok q =>
      intro t ht
      rcases List.mem_append.mp ht with hold | hnew
      · exact h t hold
      · obtain rfl := List.mem_singleton.mp hnew
        exact ClientTransaction.tracked_started hq
  | deliver i msg => exact h.update (fun t ht ↦ ht.deliver msg)
  | cancel i outcome => exact h.update (fun t ht ↦ ht.cancel outcome)

theorem Tracked.run (h : c.Tracked) (steps : List ClientStep) : (c.run steps).Tracked := by
  induction steps generalizing c with
  | nil => exact h
  | cons s steps ih => exact ih (h.step s)

/-- What a run adds to the calls: none on the manager, and if none at all, every
transaction is where it was. -/
def Adds (c c' : PkClient) : Prop :=
  ∃ new, c'.calls = c.calls ++ new ∧ (∀ x ∈ new, ∃ i call, x = .transaction i call) ∧
    (new = [] → Keeps c c')

theorem Tracked.update_adds (h : c.Tracked) {i : ℕ} {f : ClientTransaction → ClientTransaction}
    (hf : ∀ t : ClientTransaction, t.Tracked → ∃ more, ClientTransaction.Extends t (f t) more) :
    Adds c (c.update i f) := by
  cases ht : c.transactions[i]? with
  | none =>
    rw [update_of_none ht]
    exact ⟨[], (List.append_nil _).symm, by simp, fun _ ↦ Keeps.refl c⟩
  | some t =>
    obtain ⟨more, hmore⟩ := hf t (h t (List.mem_of_getElem? ht))
    rw [update_spec ht hmore]
    refine ⟨_, rfl, ?_, ?_⟩
    · intro x hx
      obtain ⟨y, -, rfl⟩ := List.mem_map.mp hx
      exact ⟨i, y.1, rfl⟩
    · intro hnil j t' ht'
      obtain rfl := List.map_eq_nil_iff.mp hnil
      obtain ⟨hlt, -⟩ := List.getElem?_eq_some_iff.mp ht
      by_cases hij : i = j
      · subst hij
        obtain rfl : t = t' := Option.some.inj (ht.symm.trans ht')
        exact ⟨f t, List.getElem?_set_self hlt, hmore⟩
      · refine ⟨t', ?_, (List.append_nil _).symm, rfl⟩
        rw [List.getElem?_set_ne hij]
        exact ht'

theorem Tracked.step_adds (h : c.Tracked) (s : ClientStep) : Adds c (c.step s) := by
  cases s with
  | start op interactive outcomes =>
    simp only [PkClient.step]
    cases hq : startQuery op interactive outcomes with
    | error e => exact ⟨[], (List.append_nil _).symm, by simp, fun _ ↦ Keeps.refl c⟩
    | ok q =>
      refine ⟨_, rfl, ?_, ?_⟩
      · intro x hx
        obtain ⟨y, -, rfl⟩ := List.mem_map.mp hx
        exact ⟨_, y.1, rfl⟩
      · intro _ i t ht
        obtain ⟨hlt, -⟩ := List.getElem?_eq_some_iff.mp ht
        refine ⟨t, ?_, (List.append_nil _).symm, rfl⟩
        rw [List.getElem?_append_left hlt]
        exact ht
  | deliver i msg => exact h.update_adds (fun _ ht ↦ ClientTransaction.extends_deliver ht msg)
  | cancel i outcome => exact h.update_adds (fun t _ ↦ t.extends_cancel outcome)

theorem Tracked.run_adds (h : c.Tracked) (steps : List ClientStep) : Adds c (c.run steps) := by
  induction steps generalizing c with
  | nil => exact ⟨[], (List.append_nil _).symm, by simp, fun _ ↦ Keeps.refl c⟩
  | cons s steps ih =>
    obtain ⟨new, hcalls, hnew, hkeeps⟩ := h.step_adds s
    obtain ⟨new', hcalls', hnew', hkeeps'⟩ := ih (h.step s)
    have hcons : c.run (s :: steps) = (c.step s).run steps := rfl
    refine ⟨new ++ new', ?_, ?_, ?_⟩
    · rw [hcons, hcalls', hcalls, List.append_assoc]
    · intro x hx
      rcases List.mem_append.mp hx with hx | hx
      · exact hnew x hx
      · exact hnew' x hx
    · intro hnil
      obtain ⟨hnil, hnil'⟩ := List.append_eq_nil_iff.mp hnil
      exact (hkeeps hnil).trans (hkeeps' hnil')

def Idle (c : PkClient) : Prop := ∀ t ∈ c.transactions, t.query.portOpen = false

theorem Tracked.update_idle (h : c.Tracked) (hidle : c.Idle) {i : ℕ}
    {f : ClientTransaction → ClientTransaction}
    (hf : ∀ t : ClientTransaction, t.Tracked → t.query.portOpen = false →
      ClientTransaction.Extends t (f t) [] ∧ (f t).query.portOpen = false) :
    (c.update i f).Idle ∧ (c.update i f).calls = c.calls := by
  cases ht : c.transactions[i]? with
  | none =>
    rw [update_of_none ht]
    exact ⟨hidle, rfl⟩
  | some t =>
    have hmem := List.mem_of_getElem? ht
    obtain ⟨hextends, hclosed⟩ := hf t (h t hmem) (hidle t hmem)
    rw [update_spec ht hextends]
    refine ⟨?_, List.append_nil _⟩
    intro t' ht'
    rcases List.mem_or_eq_of_mem_set ht' with hold | rfl
    · exact hidle t' hold
    · exact hclosed

theorem Tracked.run_idle (h : c.Tracked) (hidle : c.Idle) {steps : List ClientStep}
    (hsteps : ∀ s ∈ steps, s.isStart = false) :
    (c.run steps).Idle ∧ (c.run steps).calls = c.calls := by
  induction steps generalizing c with
  | nil => exact ⟨hidle, rfl⟩
  | cons s steps ih =>
    have hstep : (c.step s).Idle ∧ (c.step s).calls = c.calls := by
      cases s with
      | start op interactive outcomes =>
        exact absurd (hsteps _ List.mem_cons_self) (by simp [ClientStep.isStart])
      | deliver i msg =>
        exact h.update_idle hidle (fun t ht hp ↦ (ClientTransaction.extends_nil ht hp).1 msg)
      | cancel i outcome =>
        exact h.update_idle hidle (fun t ht hp ↦ (ClientTransaction.extends_nil ht hp).2 outcome)
    obtain ⟨hidle', hcalls⟩ := ih (h.step s) hstep.1
      (fun x hx ↦ hsteps x (List.mem_cons_of_mem s hx))
    exact ⟨hidle', hcalls.trans hstep.2⟩

theorem tracked_empty : ({} : PkClient).Tracked := fun t ht ↦ by cases ht

theorem Tracked.close (h : c.Tracked) : c.close.Tracked := h

theorem Tracked.destroys_eq_one (h : c.Tracked) {t : ClientTransaction} (ht : t ∈ c.transactions)
    (hvalid : t.query.validHandle = true) :
    t.query.destroys = 1 ↔ t.query.portOpen = false := by
  rw [(h t ht).destroys, hvalid, Bool.true_and]
  cases t.query.portOpen <;> simp

theorem Tracked.idle_iff (h : c.Tracked) :
    c.Idle ↔ ∀ t ∈ c.transactions, t.query.validHandle = true →
      ∃ m ∈ t.delivered.dropLast, closing m = true := by
  constructor
  · intro hidle t ht hvalid
    exact ((h t ht).port hvalid).mp (hidle t ht)
  · intro hall t ht
    cases hvalid : t.query.validHandle with
    | true => exact ((h t ht).port hvalid).mpr (hall t ht hvalid)
    | false => exact (h t ht).null hvalid

theorem noUseAfterDestroy_concat {calls : List NativeCall}
    (h : ∀ x ∈ calls, ∃ i call, x = .transaction i call) :
    NoUseAfterDestroy (calls ++ [.managerDestroy]) := by
  intro l i call l' hl hmem
  rcases List.append_eq_append_iff.mp hl with ⟨a, rfl, ha⟩ | ⟨a, rfl, -⟩
  · cases a with
    | nil => cases (List.cons.inj ha).1
    | cons x a => simp at ha
  · obtain ⟨j, call', hx⟩ := h _ (List.mem_append_left a hmem)
    cases hx

/-- Whatever is called while the close goes on comes behind the manager's end. -/
theorem silent_of_noUse {calls l new l' : List NativeCall} (h : NoUseAfterDestroy calls)
    (hnew : ∀ x ∈ new, ∃ i call, x = .transaction i call)
    (hcalls : calls = ((l ++ [.managerDestroy]) ++ new) ++ l') : new = [] := by
  cases new with
  | nil => rfl
  | cons x rest =>
    obtain ⟨i, call, rfl⟩ := hnew x List.mem_cons_self
    have hsplit : calls = (l ++ [.managerDestroy]) ++ .transaction i call :: (rest ++ l') := by
      rw [hcalls, List.append_assoc, List.cons_append]
    exact absurd (List.mem_append_right _ List.mem_cons_self) (h _ i call _ hsplit)

/-- A client is closed cleanly exactly when every transaction had already been
sent another message after a sentinel or an undecodable one. -/
theorem close_iff (before during after : List ClientStep)
    (hduring : ∀ s ∈ during, s.isStart = false) (hafter : ∀ s ∈ after, s.isStart = false) :
    let c := ({} : PkClient).run before
    let closed := c.close.run during
    NoUseAfterDestroy (closed.run after).calls ∧ closed.AllDestroyed ↔
      ∀ t ∈ c.transactions, t.query.validHandle = true →
        ∃ m ∈ t.delivered.dropLast, closing m = true := by
  intro c closed
  have hc : c.Tracked := tracked_empty.run before
  have hclosed : closed.Tracked := hc.close.run during
  obtain ⟨old, hold, hcalls, -⟩ := tracked_empty.run_adds before
  have holdcalls : c.calls = old := hold
  rw [← hc.idle_iff]
  constructor
  · intro h t ht
    obtain ⟨huse, hall⟩ := h
    obtain ⟨new, hnew, hnewcalls, hkeeps⟩ := hc.close.run_adds during
    obtain ⟨last, hlast, -, -⟩ := hclosed.run_adds after
    have hlog : (closed.run after).calls = ((c.calls ++ [.managerDestroy]) ++ new) ++ last := by
      rw [hlast, hnew]
      rfl
    have hnil : new = [] := silent_of_noUse huse hnewcalls hlog
    cases hvalid : t.query.validHandle with
    | false => exact (hc t ht).null hvalid
    | true =>
      obtain ⟨i, hi⟩ := List.mem_iff_getElem?.mp ht
      obtain ⟨t', ht', hcalls', hvalid'⟩ := hkeeps hnil i t hi
      have hdestroyed := hall t' (List.mem_of_getElem? ht') (hvalid'.trans hvalid)
      rw [← hc.destroys_eq_one ht hvalid, ← hdestroyed, StartedQuery.destroys,
        StartedQuery.destroys, hcalls', List.append_nil]
  · intro hidle
    obtain ⟨hidle', hsame⟩ := hc.close.run_idle hidle hduring
    obtain ⟨-, hsame'⟩ := hclosed.run_idle hidle' hafter
    refine ⟨?_, fun t ht hvalid ↦ (hclosed.destroys_eq_one ht hvalid).mpr (hidle' t ht)⟩
    have hlog : (closed.run after).calls = c.calls ++ [.managerDestroy] := hsame'.trans hsame
    rw [hlog, holdcalls]
    exact noUseAfterDestroy_concat hcalls

theorem close_iff_after_cancel :
    let before : List ClientStep :=
      [.start (.refreshCache true) true ⟨.returned, .returned, .returned⟩, .cancel 0 .returned]
    let c := ({} : PkClient).run before
    let closed := c.close.run [.deliver 0 (arrived (finishedMessage 4 7))]
    NoUseAfterDestroy (closed.run [.deliver 0 (arrived sentinelMessage)]).calls ∧
        closed.AllDestroyed ↔
      ∀ t ∈ c.transactions, t.query.validHandle = true →
        ∃ m ∈ t.delivered.dropLast, closing m = true :=
  close_iff _ [.deliver 0 (arrived (finishedMessage 4 7))] [.deliver 0 (arrived sentinelMessage)]
    (by simp [ClientStep.isStart]) (by simp [ClientStep.isStart])

/-- A client closed with an installation under way never destroys its bridge,
and still cancels through it. -/
theorem cancel_after_managerDestroy :
    let c := ({} : PkClient).run
      [.start (.installPackages 2 []) true ⟨.returned, .returned, .returned⟩]
    let closed := c.close.run []
    ¬ closed.AllDestroyed ∧ ¬ NoUseAfterDestroy (closed.run [.cancel 0 .returned]).calls := by
  intro c closed
  refine ⟨?_, ?_⟩
  · intro h
    have hleft : ∃ t ∈ closed.transactions, t.query.validHandle = true ∧ t.query.destroys = 0 :=
      ⟨_, List.mem_cons_self, rfl, rfl⟩
    obtain ⟨t, ht, hvalid, hzero⟩ := hleft
    have hone := h t ht hvalid
    omega
  · intro h
    have hcalls : (closed.run [.cancel 0 .returned]).calls =
        closed.calls ++ .transaction 0 .transactionCancel :: [] := rfl
    exact h _ _ _ _ hcalls (List.mem_append_right _ List.mem_cons_self)

end PkClient

end PackageKitDart.Client
