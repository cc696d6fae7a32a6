import SystemTestSuite.Libgsmd.Packets

namespace SystemTestSuite.Libgsmd

open Library GsmDaemon

variable {lh : LgsmHandle} {stale : ℕ → Memory} {ps : List LgsmPacket} {cs : List Bytes}

def Reassembles (lh : LgsmHandle) (stale : ℕ → Memory) (ps : List LgsmPacket) (cs : List Bytes) :
    Prop := handleReads lh stale cs = ps.map lh.dispatch

theorem handleReads_eq (lh : LgsmHandle) (stale : ℕ → Memory) (cs : List Bytes) :
    handleReads lh stale cs = (cs.flatMap packets.split).map lh.dispatch := by
  induction cs generalizing stale with
  | nil => rfl
  | cons chunk chunks ih =>
    rw [handleReads, lgsmHandlePacket_eq, ih, List.flatMap_cons, List.map_append]

theorem packets_split_short {bs : Bytes} (h : bs.length < sizeofHdr) : packets.split bs = [] := by
  apply Framing.split_none
  change (packetAt? _ 0 bs.length).map _ = none
  rw [packetAt?, dif_neg]
  · rfl
  · omega

theorem reassembles_iff (hcut : cs.flatten = packets.encodeAll ps) :
    Reassembles lh stale ps cs ↔ ∀ c ∈ cs, ∃ qs, c = packets.encodeAll qs := by
  have hsplit : Reassembles lh stale ps cs ↔ cs.flatMap packets.split = ps := by
    rw [Reassembles, handleReads_eq]
    exact (List.map_injective_iff.mpr lh.dispatch_injective).eq_iff
  rw [hsplit, Framing.flatMap_split_iff hcut]
  refine forall₂_congr (fun c _ => ?_)
  constructor
  · intro hwhole
    exact ⟨packets.split c, hwhole.symm⟩
  · rintro ⟨qs, rfl⟩
    exact Framing.whole_encodeAll qs

theorem reassembles_iff_whole : Reassembles ⟨fun _ => none⟩ (fun _ => Memory.zero)
    [okPacket 0, okPacket 1] [(okPacket 0).bytes ++ (okPacket 1).bytes] := by
  have hcut : [(okPacket 0).bytes ++ (okPacket 1).bytes].flatten =
      packets.encodeAll [okPacket 0, okPacket 1] := rfl
  apply (reassembles_iff hcut).mpr
  intro c hc
  obtain rfl := List.mem_singleton.mp hc
  exact ⟨[okPacket 0, okPacket 1], rfl⟩

theorem reassembles_cut : ¬ Reassembles ⟨fun _ => none⟩ (fun _ => Memory.zero)
    [okPacket 0] [(okPacket 0).bytes.take 4, (okPacket 0).bytes.drop 4] := by
  intro h
  rw [Reassembles, handleReads_eq, List.flatMap_cons, List.flatMap_cons,
    packets_split_short (by decide), packets_split_short (by decide)] at h
  exact absurd h (by simp)

end SystemTestSuite.Libgsmd
