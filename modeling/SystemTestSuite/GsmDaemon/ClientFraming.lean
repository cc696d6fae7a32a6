import SystemTestSuite.GsmDaemon.Usock

namespace SystemTestSuite.GsmDaemon

open Library

variable {stale : ℕ → Memory} {ms : List GsmdMsg} {cs : List Bytes}

structure ClientMsg (m : GsmdMsg) : Prop where
  version : m.hdr.version = gsmdProtoVersion
  handler : (pcmdTypeHandlers m.hdr.msgType).isSome = true
  size : m.bytes.length ≤ 1024

def Dispatches (stale : ℕ → Memory) (ms : List GsmdMsg) (cs : List Bytes) : Prop :=
  (userCbReads stale cs).map (fun c => (some c.handler, c.bytes)) =
    ms.map (fun m => (pcmdTypeHandlers m.hdr.msgType, m.bytes))

instance (stale : ℕ → Memory) (ms : List GsmdMsg) (cs : List Bytes) :
    Decidable (Dispatches stale ms cs) := inferInstanceAs (Decidable (_ = _))

theorem pcmdTypeHandlers_lt {msgType : UInt8} (h : (pcmdTypeHandlers msgType).isSome = true) :
    msgType < numGsmdMsgs := by
  have htable : ∀ n < 256, (pcmdTypeHandlers (UInt8.ofNat n)).isSome = true →
      UInt8.ofNat n < numGsmdMsgs := by
    decide +kernel
  rw [← UInt8.ofNat_toNat (x := msgType)] at h ⊢
  exact htable _ msgType.toNat_lt h

theorem userCbRead_message {m : GsmdMsg} (hm : ClientMsg m) (buf : Memory) :
    (userCbRead buf m.bytes).toList.map (fun c => (some c.handler, c.bytes)) =
      [(pcmdTypeHandlers m.hdr.msgType, m.bytes)] := by
  have hhdr : hdrAt (buf.store 0 m.bytes) 0 = m.hdr := hdrAt_store buf 0 m.hdr m.payload
  have htype : ¬ m.hdr.msgType ≥ numGsmdMsgs :=
    UInt8.not_le.mpr (pcmdTypeHandlers_lt hm.handler)
  obtain ⟨handler, hh⟩ := Option.isSome_iff_exists.mp hm.handler
  have hrun : usockRcvPcmd (buf.store 0 m.bytes) = some handler := by
    simp only [usockRcvPcmd, hhdr, hm.version, ne_eq, not_true_eq_false, if_false, if_neg htype, hh]
  simp [userCbRead, hrun, hh, HandlerCall.bytes, Memory.slice_store_same]

theorem userCbRead_bytes (buf : Memory) (chunk : Bytes) :
    ∀ c ∈ userCbRead buf chunk, c.bytes = chunk := by
  intro c hc
  obtain ⟨handler, -, rfl⟩ := Option.map_eq_some_iff.mp hc
  exact Memory.slice_store_same buf 0 chunk

theorem userCbReads_sublist (stale : ℕ → Memory) (cs : List Bytes) :
    ((userCbReads stale cs).map HandlerCall.bytes).Sublist cs := by
  induction cs generalizing stale with
  | nil => exact .slnil
  | cons chunk chunks ih =>
    rw [userCbReads, List.map_append]
    cases hread : userCbRead (stale 0) chunk with
    | none => exact (ih _).cons _
    | some c =>
      have hbytes := userCbRead_bytes (stale 0) chunk c hread
      simp only [Option.toList_some, List.map_cons, List.map_nil, List.singleton_append, hbytes]
      exact (ih _).cons_cons _

theorem dispatches_iff (hms : ∀ m ∈ ms, ClientMsg m) (hne : ∀ c ∈ cs, c ≠ [])
    (hcut : cs.flatten = ms.flatMap GsmdMsg.bytes) :
    Dispatches stale ms cs ↔ cs = ms.map GsmdMsg.bytes := by
  constructor
  · intro hd
    have hbytes : (userCbReads stale cs).map HandlerCall.bytes = ms.map GsmdMsg.bytes := by
      have h := congrArg (List.map Prod.snd) hd
      simpa [Function.comp_def] using h
    rw [← hbytes]
    refine (sublist_eq_of_length (userCbReads_sublist stale cs) hne ?_).symm
    rw [hbytes, hcut, List.flatMap]
  · rintro rfl
    clear hcut hne
    induction ms generalizing stale with
    | nil => rfl
    | cons m ms ih =>
      have hrest := @ih (fun n => stale (n + 1)) (fun m hm => hms m (by simp [hm]))
      rw [Dispatches] at hrest ⊢
      rw [List.map_cons, userCbReads, List.map_append, userCbRead_message (hms m (by simp)), hrest]
      rfl

def passthroughAt (id : UInt16) : GsmdMsg where
  hdr := ⟨gsmdProtoVersion, gsmdMsgPassthrough, gsmdPassthroughReq, 0, id, 3⟩
  payload := [0x41, 0x54, 0]
  payload_length := rfl

theorem clientMsg_passthroughAt (id : UInt16) : ClientMsg (passthroughAt id) where
  version := rfl
  handler := rfl
  size := by
    rw [GsmdMsg.bytes_length]
    change 8 + (3 : UInt16).toNat ≤ 1024
    decide

theorem dispatches_iff_alone :
    Dispatches (fun _ => Memory.zero) [passthroughAt 0, passthroughAt 1]
      [(passthroughAt 0).bytes, (passthroughAt 1).bytes] :=
  (dispatches_iff (by simp [clientMsg_passthroughAt]) (by simp [passthroughAt, GsmdMsg.bytes,
    GsmdMsgHdr.bytes]) rfl).mpr rfl

theorem dispatches_coalesced :
    ClientMsg (passthroughAt 0) ∧ ClientMsg (passthroughAt 1) ∧
      ¬ Dispatches (fun _ => Memory.zero) [passthroughAt 0, passthroughAt 1]
        [(passthroughAt 0).bytes ++ (passthroughAt 1).bytes] :=
  ⟨clientMsg_passthroughAt 0, clientMsg_passthroughAt 1, by decide⟩

end SystemTestSuite.GsmDaemon
