import PackageKitDart.Client.DecoderLayout

namespace PackageKitDart.Client

open Dart SequentialRead Native Glz Reader

/-- A successful decode takes exactly the bytes it has moved past. -/
theorem takes_of_decodeFrom {T : WireType} {data : Uint8List} {offset n : ℕ} {v : T.Val}
    {r : Reader} (h : GlazeCodec.decodeFrom T data offset = .ok (v, r))
    (hn : r.offset = offset + n) :
    ∃ bs rest, data.toBytes.drop offset = bs ++ rest ∧ bs.length = n ∧ 0 < n ∧
      Takes cursor Overruns (GlazeCodec.decoder T) bs v := by
  obtain ⟨bs, rest, hahead, rfl, htakes⟩ := exact_decoder T _ v r h
  obtain ⟨bs', rest', m, _, hend, hspells, _⟩ :=
    (follows_decoder T (Classical.arbitrary _)).sound h
  have hlen : bs.length = n := Nat.add_left_cancel hn
  have hlen' : bs'.length = n := Nat.add_left_cancel ((congrArg Reader.offset hend).symm.trans hn)
  refine ⟨bs, rest, (ahead_ofBytes data offset).symm.trans hahead, hlen, ?_, htakes⟩
  rw [← hlen']
  exact length_pos_of_spellsAll hspells

theorem rangeError_of_overruns {e : DartError} (h : Overruns e) :
    ∃ message, e = .rangeError message := by
  cases e with
  | rangeError message => exact ⟨message, rfl⟩
  | _ => cases h

/-- A record is decoded from its own bytes, whatever surrounds them, and never from a part of
them. -/
theorem exact_consumption {T : WireType} {data : Uint8List} {offset n : ℕ} {v : T.Val} {r : Reader}
    (h : GlazeCodec.decodeFrom T data offset = .ok (v, r)) (hn : r.offset = offset + n) :
    (∀ data' : Uint8List, (data'.toBytes.drop offset).take n = (data.toBytes.drop offset).take n →
      ∃ r', GlazeCodec.decodeFrom T data' offset = .ok (v, r') ∧ r'.offset = offset + n) ∧
    ∀ data' : Uint8List, data'.toBytes <+: data.toBytes → data'.toBytes.length < offset + n →
      ∃ message, GlazeCodec.decode T data' offset = .error (.rangeError message) := by
  obtain ⟨bs, rest, hdrop, hlen, hpos, htakes⟩ := takes_of_decodeFrom h hn
  constructor
  · intro data' hsame
    rw [hdrop, List.take_left' hlen] at hsame
    have hahead : (Reader.ofBytes data' offset).ahead =
        bs ++ (data'.toBytes.drop offset).drop n := by
      rw [ahead_ofBytes, ← hsame, List.take_append_drop]
    refine ⟨_, htakes.reads _ _ hahead, ?_⟩
    rw [← hlen]
    rfl
  · intro data' hcut hshort
    have hahead : cursor.ahead (Reader.ofBytes data' offset) = data'.toBytes.drop offset :=
      ahead_ofBytes data' offset
    have hlt : (data'.toBytes.drop offset).length < bs.length := by
      rw [List.length_drop]
      omega
    have hbegin : data'.toBytes.drop offset <+: bs := by
      refine List.prefix_of_prefix_length_le ?_ (List.prefix_append bs rest) hlt.le
      rw [← hdrop]
      exact hcut.drop offset
    obtain ⟨e, he, herror⟩ := htakes.short (Reader.ofBytes data' offset) (hahead ▸ hbegin)
      (fun heq ↦ hlt.ne (congrArg List.length (hahead.symm.trans heq)))
    obtain ⟨message, rfl⟩ := rangeError_of_overruns he
    refine ⟨message, ?_⟩
    rw [GlazeCodec.decode, GlazeCodec.decodeFrom, herror]
    rfl

theorem exact_consumption_requireRestart :
    let data := Uint8List.ofBytes [2, 0, 0, 0, 1, 0, 0, 0, 0x61, 0xFF]
    let v : PkRequireRestart := { type := 2, packageId := "a" }
    (∀ data' : Uint8List, (data'.toBytes.drop 0).take 9 = (data.toBytes.drop 0).take 9 →
      ∃ r', GlazeCodec.decodeFrom .pkRequireRestart data' 0 = .ok (v, r') ∧ r'.offset = 0 + 9) ∧
    ∀ data' : Uint8List, data'.toBytes <+: data.toBytes → data'.toBytes.length < 0 + 9 →
      ∃ message, GlazeCodec.decode .pkRequireRestart data' 0 = .error (.rangeError message) := by
  intro data v
  have h : (GlazeCodec.decodeFrom .pkRequireRestart
      (Uint8List.ofBytes [2, 0, 0, 0, 1, 0, 0, 0, 0x61, 0xFF]) 0).map (Prod.map id Reader.offset) =
      .ok (({ type := 2, packageId := "a" } : PkRequireRestart), 0 + 9) := by decide
  obtain ⟨r, hdecode, hend⟩ := decodeFrom_of_offset h
  exact exact_consumption hdecode hend

end PackageKitDart.Client
