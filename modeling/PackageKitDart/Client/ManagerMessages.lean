import PackageKitDart.Client.ViewConfinement
import PackageKitDart.Client.FormatAgreement

namespace PackageKitDart.Client

open Dart SequentialRead Native Glz Reader

/-- The payload of the event is there in full, with properties `Q` of its fields. -/
def HoldsPayload (Q : (t : FieldType) → t.Val → Prop) (disc : UInt8)
    (payload : List UInt8) : Prop :=
  match disc with
  | 0x0C => ∃ bs rest n, payload = bs ++ rest ∧
      SpellsAll Q (WireType.fields .pkManagerProps) {} bs n
  | 0xD2 => 4 ≤ payload.length
  | _ => True

/-- A `RangeError`, which `IndexError` implements. -/
def IsRangeError : DartError → Prop
  | .rangeError _ | .indexError => True
  | .formatException _ | .malformedUtf8 | .stateError _ => False

/-- The manager event of a message is that of its own bytes. -/
structure OwnBytesOnly (disc : UInt8) (msg : Uint8List) : Prop where
  accepted : (∃ event, dispatchManagerEvent msg = .ok (some event)) ↔
    HoldsPayload Texts disc (msg.toBytes.drop 1)
  confined : ∀ event, dispatchManagerEvent msg = .ok (some event) →
    dispatchManagerEvent (Uint8List.ofBytes msg.toBytes) = .ok (some event)
  tooShort : ¬ HoldsPayload (fun _ _ ↦ True) disc (msg.toBytes.drop 1) →
    ∃ e, dispatchManagerEvent msg = .error e ∧
      (IsRangeError e ∨ disc = PkManager.kManagerProps ∧ e = .malformedUtf8)

def managerDiscriminators : List UInt8 := [
  PkManager.kManagerProps, PkManager.kUpdatesChanged, PkManager.kRepoListChanged,
  PkManager.kNetworkStateChanged]

theorem get_ofBytes_toBytes (u : Uint8List) (i : ℕ) :
    (Uint8List.ofBytes u.toBytes).get i = u.get i := by
  rw [Uint8List.get, Uint8List.get, Uint8List.toBytes_ofBytes]

theorem managerProps_accepted (msg : Uint8List) :
    (∃ v, GlazeCodec.decode .pkManagerProps msg 1 = .ok v) ↔
      HoldsPayload Texts PkManager.kManagerProps (msg.toBytes.drop 1) := by
  have hfollows := follows_decoder .pkManagerProps {}
  constructor
  · intro h
    obtain ⟨v, hv⟩ := h
    obtain ⟨r, hrun⟩ := decodeFrom_of_decode hv
    obtain ⟨bs, rest, n, hahead, _, hspells, _⟩ := hfollows.sound hrun
    exact ⟨bs, rest, n, (ahead_ofBytes msg 1).symm.trans hahead, hspells⟩
  · intro h
    obtain ⟨bs, rest, n, hpayload, hspells⟩ := h
    rw [← ahead_ofBytes] at hpayload
    rcases hfollows.complete hspells hpayload with ⟨v, _, hrun⟩ | ⟨_, htexts⟩ | ⟨_, hrefused, _⟩
    · exact ⟨v, by rw [GlazeCodec.decode, GlazeCodec.decodeFrom, hrun]; rfl⟩
    · exact absurd (fun _ _ ↦ id) htexts
    · exact absurd hrefused not_false

theorem managerProps_error {msg : Uint8List} {e : DartError}
    (h : GlazeCodec.decode .pkManagerProps msg 1 = .error e) :
    IsRangeError e ∨ e = .malformedUtf8 := by
  have hself : Alike _ _ (GlazeCodec.decodeFrom .pkManagerProps msg 1) _ :=
    confined_decoder .pkManagerProps _ _ (sameView_ofBytes (u := msg) rfl 1)
  rw [error_of_decode h] at hself
  rcases hself.error with hread | ⟨n, hrefused⟩
  · cases e with
    | rangeError message => exact .inl trivial
    | malformedUtf8 => exact .inr rfl
    | _ => cases hread
  · cases hrefused

/-- What the hand-written branch for `0xD2` sees: the buffer from the view's start
to the buffer's own end. -/
theorem getUint32_one (msg : Uint8List) : (msg.asByteData.getUint32 1 : Except DartError ℕ) =
    if msg.offsetInBytes + 5 ≤ msg.buffer.length then
      .ok (LittleEndian.decode ((msg.buffer.drop (msg.offsetInBytes + 1)).take 4))
    else .error .indexError := by
  have hview := msg.inBuffer
  have hiff : 1 + 4 ≤ msg.buffer.length - msg.offsetInBytes ↔
      msg.offsetInBytes + 5 ≤ msg.buffer.length := by omega
  have htake : msg.asByteData.ahead 1 = msg.buffer.drop (msg.offsetInBytes + 1) := by
    have hall : ((msg.buffer.drop msg.offsetInBytes).take
        (msg.buffer.length - msg.offsetInBytes)) = msg.buffer.drop msg.offsetInBytes :=
      List.take_of_length_le (by rw [List.length_drop])
    rw [ByteData.ahead]
    simp only [Uint8List.asByteData, hall, List.drop_drop]
  rw [ByteData.getUint32, load_except, ByteData.load, htake]
  simp only [Uint8List.asByteData, hiff]

theorem drop_toBytes (msg : Uint8List) (h : 5 ≤ msg.length) :
    (msg.toBytes.drop 1).take 4 = (msg.buffer.drop (msg.offsetInBytes + 1)).take 4 := by
  rw [Uint8List.toBytes, List.drop_take, List.take_take, List.drop_drop,
    Nat.min_eq_left (by omega)]

section Dispatch

variable {msg : Uint8List}

theorem dispatch_managerProps (hget : msg.get 0 = .ok PkManager.kManagerProps) :
    dispatchManagerEvent msg =
      (GlazeCodec.decode .pkManagerProps msg 1).map (fun v ↦ some (.props v)) := by
  simp only [dispatchManagerEvent, hget, ok_bind, PkManager.kManagerProps]
  cases GlazeCodec.decode .pkManagerProps msg 1 <;> rfl

theorem dispatch_networkState (hget : msg.get 0 = .ok PkManager.kNetworkStateChanged) :
    dispatchManagerEvent msg =
      (msg.asByteData.getUint32 1 : Except DartError ℕ).map
        (fun state ↦ some (.networkStateChanged state)) := by
  simp only [dispatchManagerEvent, hget, ok_bind, PkManager.kNetworkStateChanged]
  cases (msg.asByteData.getUint32 1 : Except DartError ℕ) <;> rfl

theorem ownBytesOnly_managerProps (hget : msg.get 0 = .ok PkManager.kManagerProps) :
    OwnBytesOnly PkManager.kManagerProps msg where
  accepted := by
    rw [dispatch_managerProps hget, ← managerProps_accepted]
    cases hd : GlazeCodec.decode .pkManagerProps msg 1 with
    | ok v => exact ⟨fun _ ↦ ⟨v, rfl⟩, fun _ ↦ ⟨_, rfl⟩⟩
    | error e => constructor <;> (intro h; obtain ⟨_, h⟩ := h; cases h)
  confined := by
    intro event h
    rw [dispatch_managerProps hget] at h
    rw [dispatch_managerProps ((get_ofBytes_toBytes msg 0).trans hget), ← h]
    exact congrArg _ (decode_congr (Uint8List.toBytes_ofBytes _) .pkManagerProps 1)
  tooShort := by
    intro h
    rw [dispatch_managerProps hget]
    cases hd : GlazeCodec.decode .pkManagerProps msg 1 with
    | ok v =>
      obtain ⟨bs, rest, n, hpayload, hspells⟩ := (managerProps_accepted msg).mp ⟨v, hd⟩
      exact absurd ⟨bs, rest, n, hpayload, hspells.mono (fun _ _ _ ↦ trivial)⟩ h
    | error e =>
      refine ⟨e, rfl, ?_⟩
      exact (managerProps_error hd).imp_right (fun he ↦ ⟨rfl, he⟩)

/-- An event without a payload. -/
theorem ownBytesOnly_of_bare {disc : UInt8} (event : ManagerEvent)
    (hget : msg.get 0 = .ok disc) (hholds : ∀ Q payload, HoldsPayload Q disc payload)
    (hdispatch : ∀ m : Uint8List, m.get 0 = .ok disc → dispatchManagerEvent m = .ok (some event)) :
    OwnBytesOnly disc msg where
  accepted := ⟨fun _ ↦ hholds _ _, fun _ ↦ ⟨event, hdispatch msg hget⟩⟩
  confined := by
    intro event' h
    rw [hdispatch msg hget] at h
    rw [← h]
    exact hdispatch _ ((get_ofBytes_toBytes msg 0).trans hget)
  tooShort h := absurd (hholds _ _) h

theorem holdsPayload_networkState {Q : (t : FieldType) → t.Val → Prop} :
    HoldsPayload Q PkManager.kNetworkStateChanged (msg.toBytes.drop 1) ↔ 5 ≤ msg.length := by
  have hlen : 4 ≤ (msg.toBytes.drop 1).length ↔ 5 ≤ msg.length := by
    rw [List.length_drop, Uint8List.length_toBytes]
    omega
  exact hlen

theorem dispatch_networkState_word (hget : msg.get 0 = .ok PkManager.kNetworkStateChanged)
    (hend : msg.offsetInBytes + 5 ≤ msg.buffer.length) :
    dispatchManagerEvent msg = .ok (some (.networkStateChanged
      (LittleEndian.decode ((msg.buffer.drop (msg.offsetInBytes + 1)).take 4)))) := by
  rw [dispatch_networkState hget, getUint32_one, if_pos hend]
  rfl

theorem ownBytesOnly_of_whole (hget : msg.get 0 = .ok PkManager.kNetworkStateChanged)
    (hfive : 5 ≤ msg.length) : OwnBytesOnly PkManager.kNetworkStateChanged msg where
  accepted := by
    have hview := msg.inBuffer
    exact iff_of_true ⟨_, dispatch_networkState_word hget (by omega)⟩
      (holdsPayload_networkState.mpr hfive)
  confined := by
    intro event h
    have hview := msg.inBuffer
    have hlen := msg.length_toBytes
    rw [dispatch_networkState_word hget (by omega)] at h
    rw [← h, ← drop_toBytes msg hfive, dispatch_networkState_word
      ((get_ofBytes_toBytes msg 0).trans hget) (by simp only [Uint8List.ofBytes, hlen]; omega)]
    simp only [Uint8List.ofBytes, Nat.zero_add]
  tooShort h := absurd (holdsPayload_networkState.mpr hfive) h

/-- Neither the message nor the rest of its buffer has the four bytes. -/
theorem ownBytesOnly_of_refused (hget : msg.get 0 = .ok PkManager.kNetworkStateChanged)
    (hshort : msg.length < 5) (hend : ¬ msg.offsetInBytes + 5 ≤ msg.buffer.length) :
    OwnBytesOnly PkManager.kNetworkStateChanged msg := by
  have hdispatch := dispatch_networkState hget
  rw [getUint32_one, if_neg hend] at hdispatch
  have hnone (event : ManagerEvent) : dispatchManagerEvent msg ≠ .ok (some event) := by
    intro hevent
    rw [hdispatch] at hevent
    cases hevent
  refine ⟨?_, fun event h ↦ absurd h (hnone event), ?_⟩
  · refine iff_of_false ?_ ?_
    · intro h
      obtain ⟨event, h⟩ := h
      exact hnone event h
    · rw [holdsPayload_networkState]
      omega
  · intro _
    exact ⟨.indexError, hdispatch, .inl trivial⟩

theorem ownBytesOnly_networkState (hget : msg.get 0 = .ok PkManager.kNetworkStateChanged) :
    OwnBytesOnly PkManager.kNetworkStateChanged msg ↔
      ¬ (msg.length < 5 ∧ msg.offsetInBytes + 5 ≤ msg.buffer.length) := by
  constructor
  · intro h hforeign
    have haccepted := h.accepted.mp ⟨_, dispatch_networkState_word hget hforeign.2⟩
    rw [holdsPayload_networkState] at haccepted
    omega
  · intro h
    by_cases hfive : 5 ≤ msg.length
    · exact ownBytesOnly_of_whole hget hfive
    · exact ownBytesOnly_of_refused hget (by omega) (by omega)

end Dispatch

/-- A network state is taken from foreign bytes exactly when the message is cut
short and the buffer it is a view of goes on. -/
theorem ownBytesOnly_iff {disc : UInt8} {msg : Uint8List} (hget : msg.get 0 = .ok disc)
    (hdisc : disc ∈ managerDiscriminators) :
    OwnBytesOnly disc msg ↔
      ¬ (disc = PkManager.kNetworkStateChanged ∧ msg.length < 5 ∧
        msg.offsetInBytes + 5 ≤ msg.buffer.length) := by
  simp only [managerDiscriminators, List.mem_cons, List.not_mem_nil, or_false] at hdisc
  rcases hdisc with rfl | rfl | rfl | rfl
  · refine iff_of_true (ownBytesOnly_managerProps hget) ?_
    intro h
    exact absurd h.1 (by decide)
  · refine iff_of_true (ownBytesOnly_of_bare .updatesChanged hget ?_ ?_) ?_
    · intro _ _
      trivial
    · intro m hm
      simp only [dispatchManagerEvent, hm, ok_bind, PkManager.kUpdatesChanged]
      rfl
    · intro h
      exact absurd h.1 (by decide)
  · refine iff_of_true (ownBytesOnly_of_bare .repoListChanged hget ?_ ?_) ?_
    · intro _ _
      trivial
    · intro m hm
      simp only [dispatchManagerEvent, hm, ok_bind, PkManager.kRepoListChanged]
      rfl
    · intro h
      exact absurd h.1 (by decide)
  · rw [ownBytesOnly_networkState hget]
    simp only [true_and]

theorem ownBytesOnly_iff_whole :
    OwnBytesOnly 0xD2 (Uint8List.ofBytes [0xD2, 2, 0, 0, 0]) ↔
      ¬ ((0xD2 : UInt8) = PkManager.kNetworkStateChanged ∧
        (Uint8List.ofBytes [0xD2, 2, 0, 0, 0]).length < 5 ∧
        (Uint8List.ofBytes [0xD2, 2, 0, 0, 0]).offsetInBytes + 5 ≤
          (Uint8List.ofBytes [0xD2, 2, 0, 0, 0]).buffer.length) :=
  ownBytesOnly_iff rfl (by decide)

/-- The first two bytes of a buffer of five. -/
def cutNetworkState : Uint8List where
  buffer := [0xD2, 3, 0, 0, 0]
  offsetInBytes := 0
  length := 2
  inBuffer := by decide

theorem not_ownBytesOnly_cutNetworkState :
    cutNetworkState.get 0 = .ok 0xD2 ∧ 0xD2 ∈ managerDiscriminators ∧
      dispatchManagerEvent cutNetworkState = .ok (some (.networkStateChanged 3)) ∧
      ¬ OwnBytesOnly 0xD2 cutNetworkState := by
  refine ⟨rfl, by decide, rfl, ?_⟩
  intro h
  exact (ownBytesOnly_networkState rfl).mp h ⟨by decide, by decide⟩

end PackageKitDart.Client
