import SystemTestSuite.GsmDaemon.Message

namespace SystemTestSuite.Libgsmd

open Library GsmDaemon

structure LgsmHandle where
  handler : UInt8 → Option (GsmdMsg → Int32)

/-- A packet and the handler it is given to; where there is none, a line on `stderr` says so. -/
structure Dispatch where
  handler : Option (GsmdMsg → Int32)
  packet : GsmdMsg

def einval : Int32 := 22

def msgAt (m : Memory) (off : ℕ) : GsmdMsg where
  hdr := hdrAt m off
  payload := m.slice (off + sizeofHdr) (hdrAt m off).len.toNat
  payload_length := Memory.slice_length ..

def lgsmHandlePacketLoop (lh : LgsmHandle) (buf : Memory) (off len : ℕ) (rc : Int32) :
    Int32 × List Dispatch :=
  if len = 0 then (rc, [])
  else if _hlen : len < sizeofHdr then (-einval, [])
  else
    let gmh := msgAt buf off
    if len - sizeofHdr < gmh.hdr.len.toNat then (-einval, [])
    else if gmh.hdr.msgType ≥ numGsmdMsgs then (-einval, [])
    else
      let handler := lh.handler gmh.hdr.msgType
      let rc := match handler with
        | some handler => rc ||| handler gmh
        | none => rc
      let r := lgsmHandlePacketLoop lh buf (off + (sizeofHdr + gmh.hdr.len.toNat))
        (len - (sizeofHdr + gmh.hdr.len.toNat)) rc
      (r.1, ⟨handler, gmh⟩ :: r.2)
termination_by len
decreasing_by
  rw [sizeofHdr] at *
  omega

def lgsmHandlePacket (lh : LgsmHandle) (buf : Memory) (len : ℕ) : Int32 × List Dispatch :=
  lgsmHandlePacketLoop lh buf 0 len 0

def handleReads (lh : LgsmHandle) (stale : ℕ → Memory) : List Bytes → List Dispatch
  | [] => []
  | chunk :: chunks =>
    (lgsmHandlePacket lh ((stale 0).store 0 chunk) chunk.length).2 ++
      handleReads lh (fun n => stale (n + 1)) chunks

structure LgsmPacket extends GsmdMsg where
  known : hdr.msgType < numGsmdMsgs

def packetAt? (m : Memory) (off len : ℕ) : Option LgsmPacket :=
  if h : sizeofHdr + (hdrAt m off).len.toNat ≤ len ∧ (hdrAt m off).msgType < numGsmdMsgs then
    some ⟨msgAt m off, h.2⟩
  else none

def LgsmHandle.dispatch (lh : LgsmHandle) (p : LgsmPacket) : Dispatch :=
  ⟨lh.handler p.hdr.msgType, p.toGsmdMsg⟩

def okPacket (id : UInt16) : LgsmPacket where
  hdr := ⟨gsmdProtoVersion, gsmdMsgPassthrough, gsmdPassthroughResp, 0, id, 3⟩
  payload := [0x4f, 0x4b, 0]
  payload_length := rfl
  known := (by decide : gsmdMsgPassthrough < numGsmdMsgs)

theorem LgsmHandle.dispatch_injective (lh : LgsmHandle) : Function.Injective lh.dispatch := by
  rintro ⟨p, hp⟩ ⟨q, hq⟩ h
  obtain rfl : p = q := congrArg Dispatch.packet h
  rfl

theorem msgAt_bytes (m : Memory) (off : ℕ) :
    (msgAt m off).bytes = m.slice off (sizeofHdr + (hdrAt m off).len.toNat) := by
  rw [GsmdMsg.bytes, Memory.slice_append, ← hdrAt_bytes]
  rfl

theorem packetAt?_some {m : Memory} {off len : ℕ} {p : LgsmPacket}
    (h : packetAt? m off len = some p) :
    p.toGsmdMsg = msgAt m off ∧ p.bytes.length ≤ len ∧
      m.slice off len = p.bytes ++ m.slice (off + p.bytes.length) (len - p.bytes.length) := by
  rw [packetAt?] at h
  split_ifs at h with hp
  obtain rfl := Option.some.inj h
  have hbytes := msgAt_bytes m off
  have hlen : (msgAt m off).bytes.length = sizeofHdr + (hdrAt m off).len.toNat :=
    GsmdMsg.bytes_length _
  change msgAt m off = msgAt m off ∧ (msgAt m off).bytes.length ≤ len ∧
    m.slice off len = (msgAt m off).bytes ++ m.slice (off + (msgAt m off).bytes.length)
      (len - (msgAt m off).bytes.length)
  rw [hlen, hbytes, ← Memory.slice_append, Nat.add_sub_cancel' hp.1]
  exact ⟨rfl, hp.1, rfl⟩

theorem packetAt?_congr {m m' : Memory} {off off' len : ℕ}
    (h : m.slice off len = m'.slice off' len) : packetAt? m off len = packetAt? m' off' len := by
  by_cases hlen : sizeofHdr ≤ len
  · obtain ⟨n, rfl⟩ := Nat.exists_eq_add_of_le hlen
    rw [Memory.slice_append, Memory.slice_append] at h
    obtain ⟨hfront, hback⟩ := List.append_inj h (by simp)
    have hhdr := hdrAt_congr hfront
    rw [packetAt?, packetAt?]
    simp only [hhdr]
    split_ifs with hp
    · obtain ⟨k, hk⟩ := Nat.exists_eq_add_of_le (Nat.le_of_add_le_add_left hp.1)
      rw [hk, Memory.slice_append, Memory.slice_append] at hback
      have hmsg : msgAt m off = msgAt m' off' := by
        simp only [msgAt, hhdr, GsmdMsg.mk.injEq, true_and]
        exact (List.append_inj hback (by simp)).1
      simp only [hmsg]
    · rfl
  · rw [packetAt?, packetAt?, dif_neg, dif_neg]
    · exact fun hp => hlen (by omega)
    · exact fun hp => hlen (by omega)

theorem packetAt?_message (m : Memory) (p : LgsmPacket) (rest : Bytes) :
    packetAt? (m.store 0 (p.bytes ++ rest)) 0 (p.bytes ++ rest).length = some p := by
  have hhdr : hdrAt (m.store 0 (p.bytes ++ rest)) 0 = p.hdr := by
    rw [GsmdMsg.bytes, List.append_assoc]
    exact hdrAt_store m 0 p.hdr (p.payload ++ rest)
  have hlen : p.bytes.length = sizeofHdr + p.hdr.len.toNat := GsmdMsg.bytes_length _
  have hmsg : msgAt (m.store 0 (p.bytes ++ rest)) 0 = p.toGsmdMsg := by
    apply GsmdMsg.bytes_injective
    have hall := Memory.slice_store_same m 0 (p.bytes ++ rest)
    rw [List.length_append, Memory.slice_append] at hall
    rw [msgAt_bytes, hhdr, ← hlen]
    exact (List.append_inj hall (Memory.slice_length ..)).1
  rw [packetAt?, dif_pos]
  · simp only [hmsg]
  · rw [hhdr, List.length_append, hlen]
    exact ⟨Nat.le_add_right _ _, p.known⟩

def packets : Framing LgsmPacket where
  encode p := p.bytes
  next bs := (packetAt? (Memory.zero.store 0 bs) 0 bs.length).map
    (fun p => (p, bs.drop p.bytes.length))
  encode_pos p := by
    rw [GsmdMsg.bytes_length, sizeofHdr]
    omega
  next_encode p rest := by
    rw [packetAt?_message, Option.map_some, List.drop_left]
  next_some := by
    intro bs p rest h
    obtain ⟨q, hq, heq⟩ := Option.map_eq_some_iff.mp h
    rw [Prod.mk.injEq] at heq
    obtain ⟨rfl, rfl⟩ := heq
    obtain ⟨-, -, hbytes⟩ := packetAt?_some hq
    rw [Memory.slice_store_same] at hbytes
    conv_lhs => rw [hbytes]
    conv_rhs => rw [hbytes, List.drop_left]

theorem packets_next (m : Memory) (off len : ℕ) : packets.next (m.slice off len) =
    (packetAt? m off len).map
      (fun p => (p, m.slice (off + p.bytes.length) (len - p.bytes.length))) := by
  have hsame : packetAt? (Memory.zero.store 0 (m.slice off len)) 0 (m.slice off len).length =
      packetAt? m off len := by
    rw [Memory.slice_length]
    apply packetAt?_congr
    have hslice := Memory.slice_store_same Memory.zero 0 (m.slice off len)
    rwa [Memory.slice_length] at hslice
  change (packetAt? _ 0 _).map _ = _
  rw [hsame]
  cases hp : packetAt? m off len with
  | none => rfl
  | some p =>
    obtain ⟨-, -, hbytes⟩ := packetAt?_some hp
    rw [Option.map_some, Option.map_some, hbytes, List.drop_left]

theorem lgsmHandlePacketLoop_none {lh : LgsmHandle} {buf : Memory} {off len : ℕ}
    (h : packetAt? buf off len = none) (rc : Int32) :
    lgsmHandlePacketLoop lh buf off len rc = (if len = 0 then rc else -einval, []) := by
  rw [packetAt?] at h
  split_ifs at h with hp
  rw [lgsmHandlePacketLoop]
  by_cases hzero : len = 0
  · rw [if_pos hzero, if_pos hzero]
  rw [if_neg hzero, if_neg hzero]
  by_cases hshort : len < sizeofHdr
  · rw [dif_pos hshort]
  by_cases hcut : len - sizeofHdr < (hdrAt buf off).len.toNat
  · rw [dif_neg hshort]
    exact if_pos hcut
  · have htype : (hdrAt buf off).msgType ≥ numGsmdMsgs := by
      by_contra hknown
      exact hp ⟨by omega, UInt8.not_le.mp hknown⟩
    rw [dif_neg hshort]
    exact (if_neg hcut).trans (if_pos htype)

def LgsmHandle.result (lh : LgsmHandle) (p : LgsmPacket) : Option Int32 :=
  (lh.handler p.hdr.msgType).map (fun handler => handler p.toGsmdMsg)

def LgsmHandle.join (lh : LgsmHandle) (rc : Int32) (p : LgsmPacket) : Int32 :=
  match lh.result p with
  | some result => rc ||| result
  | none => rc

theorem lgsmHandlePacketLoop_some (lh : LgsmHandle) {buf : Memory} {off len : ℕ} {p : LgsmPacket}
    (h : packetAt? buf off len = some p) (rc : Int32) :
    lgsmHandlePacketLoop lh buf off len rc =
      let r := lgsmHandlePacketLoop lh buf (off + p.bytes.length) (len - p.bytes.length)
        (lh.join rc p)
      (r.1, lh.dispatch p :: r.2) := by
  obtain ⟨hmsg, hle, -⟩ := packetAt?_some h
  have hlen := GsmdMsg.bytes_length p.toGsmdMsg
  have hknown := UInt8.not_le.mpr p.known
  have hjoin : lh.join rc p = match lh.handler p.hdr.msgType with
      | some handler => rc ||| handler p.toGsmdMsg
      | none => rc := by
    rw [LgsmHandle.join, LgsmHandle.result]
    cases lh.handler p.hdr.msgType with
    | none => rfl
    | some handler => rfl
  rw [lgsmHandlePacketLoop]
  simp only [← hmsg]
  rw [sizeofHdr] at *
  rw [if_neg (by omega), dif_neg (by omega), if_neg (by omega), if_neg hknown, ← hlen, hjoin]
  rfl

theorem lgsmHandlePacketLoop_eq (lh : LgsmHandle) (buf : Memory) (off len : ℕ) (rc : Int32) :
    lgsmHandlePacketLoop lh buf off len rc =
      (if packets.Whole (buf.slice off len) then
          (packets.split (buf.slice off len)).foldl lh.join rc
        else -einval,
       (packets.split (buf.slice off len)).map lh.dispatch) := by
  induction len using Nat.strong_induction_on generalizing off rc with
  | _ len ih =>
    have hnext := packets_next buf off len
    cases hp : packetAt? buf off len with
    | none =>
      rw [hp, Option.map_none] at hnext
      have hwhole : packets.Whole (buf.slice off len) ↔ len = 0 := by
        rw [Framing.whole_none hnext, ← List.length_eq_zero_iff, Memory.slice_length]
      rw [lgsmHandlePacketLoop_none hp, Framing.split_none hnext, if_congr hwhole rfl rfl]
      rfl
    | some p =>
      obtain ⟨-, hle, -⟩ := packetAt?_some hp
      have hpos : 0 < p.bytes.length := packets.encode_pos p
      rw [hp, Option.map_some] at hnext
      rw [lgsmHandlePacketLoop_some lh hp rc, ih _ (by omega), Framing.split_some hnext,
        if_congr (Framing.whole_some hnext) rfl rfl]
      rfl

theorem lgsmHandlePacket_eq (lh : LgsmHandle) (stale : Memory) (chunk : Bytes) :
    (lgsmHandlePacket lh (stale.store 0 chunk) chunk.length).2 =
      (packets.split chunk).map lh.dispatch := by
  rw [lgsmHandlePacket, lgsmHandlePacketLoop_eq, Memory.slice_store_same]

end SystemTestSuite.Libgsmd
