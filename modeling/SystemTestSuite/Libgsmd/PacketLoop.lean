import SystemTestSuite.Libgsmd.Packets

namespace SystemTestSuite.Libgsmd

open Library GsmDaemon

/-- The bytes of `gmh->len` and of `gmh->msg_type` that the loop looks at. -/
def lgsmHandlePacketReads (buf : Memory) (off len : ℕ) : List ℕ :=
  if len = 0 then []
  else if _hlen : len < sizeofHdr then []
  else
    let gmh := hdrAt buf off
    [off + 6, off + 7] ++
      if len - sizeofHdr < gmh.len.toNat then []
      else (off + 1) :: if gmh.msgType ≥ numGsmdMsgs then []
        else lgsmHandlePacketReads buf (off + (sizeofHdr + gmh.len.toNat))
          (len - (sizeofHdr + gmh.len.toNat))
termination_by len
decreasing_by
  rw [sizeofHdr] at *
  omega

/-- The loop with the places of `buf` it has looked at. -/
def lgsmHandlePacketLogged (lh : LgsmHandle) (buf : Memory) (off len : ℕ) (rc : Int32) :
    (Int32 × List Dispatch) × List ℕ :=
  if len = 0 then ((rc, []), [])
  else if _hlen : len < sizeofHdr then ((-einval, []), [])
  else
    let gmh := msgAt buf off
    if len - sizeofHdr < gmh.hdr.len.toNat then ((-einval, []), [off + 6, off + 7])
    else if gmh.hdr.msgType ≥ numGsmdMsgs then ((-einval, []), [off + 6, off + 7, off + 1])
    else
      let handler := lh.handler gmh.hdr.msgType
      let rc := match handler with
        | some handler => rc ||| handler gmh
        | none => rc
      let r := lgsmHandlePacketLogged lh buf (off + (sizeofHdr + gmh.hdr.len.toNat))
        (len - (sizeofHdr + gmh.hdr.len.toNat)) rc
      ((r.1.1, ⟨handler, gmh⟩ :: r.1.2), (off + 6) :: (off + 7) :: (off + 1) :: r.2)
termination_by len
decreasing_by
  rw [sizeofHdr] at *
  omega

theorem lgsmHandlePacketLogged_eq (lh : LgsmHandle) (buf : Memory) (off len : ℕ) (rc : Int32) :
    lgsmHandlePacketLogged lh buf off len rc =
      (lgsmHandlePacketLoop lh buf off len rc, lgsmHandlePacketReads buf off len) := by
  induction len using Nat.strong_induction_on generalizing off rc with
  | _ len ih =>
    have hhdr : (msgAt buf off).hdr = hdrAt buf off := rfl
    rw [lgsmHandlePacketLogged, lgsmHandlePacketLoop, lgsmHandlePacketReads]
    simp only [hhdr]
    split_ifs with hzero hshort hcut htype
    · rfl
    · rfl
    · rfl
    · rfl
    · rw [sizeofHdr] at hshort
      rw [ih _ (by rw [sizeofHdr]; omega)]
      rfl

theorem lgsmHandlePacketReads_within (buf : Memory) (off len : ℕ) :
    ∀ i ∈ lgsmHandlePacketReads buf off len, off ≤ i ∧ i < off + len := by
  induction len using Nat.strong_induction_on generalizing off with
  | _ len ih =>
    intro i hi
    rw [lgsmHandlePacketReads] at hi
    split_ifs at hi with hzero hshort
    · exact absurd hi List.not_mem_nil
    · exact absurd hi List.not_mem_nil
    · rw [sizeofHdr] at hshort
      rcases List.mem_append.mp hi with hlen | hi
      · simp only [List.mem_cons, List.not_mem_nil, or_false] at hlen
        omega
      · split_ifs at hi with hcut htype
        · exact absurd hi List.not_mem_nil
        · rw [List.mem_singleton] at hi
          omega
        · rcases List.mem_cons.mp hi with rfl | hrest
          · omega
          · have hin := ih _ (by rw [sizeofHdr]; omega) _ i hrest
            omega

/-- What a call of `lgsm_handle_packet` returns when `ps` are the packets of a buffer that holds
`bytes`. -/
def LgsmHandle.returns (lh : LgsmHandle) (ps : List LgsmPacket) (bytes : Bytes) : Int32 :=
  if packets.encodeAll ps = bytes then (ps.filterMap lh.result).foldl (· ||| ·) 0 else -einval

theorem foldl_join (lh : LgsmHandle) (ps : List LgsmPacket) (rc : Int32) :
    ps.foldl lh.join rc = (ps.filterMap lh.result).foldl (· ||| ·) rc := by
  induction ps generalizing rc with
  | nil => rfl
  | cons p ps ih =>
    rw [List.foldl_cons, ih, LgsmHandle.join]
    cases hres : lh.result p with
    | none => rw [List.filterMap_cons_none hres]
    | some result => rw [List.filterMap_cons_some hres, List.foldl_cons]

/-- The handlers get the longest list of known packets that the buffer begins with, nothing is read
behind the buffer, and a buffer that holds anything else is an error. -/
theorem lgsmHandlePacket_longest (lh : LgsmHandle) (buf : Memory) (len : ℕ) :
    ∃ ps : List LgsmPacket,
      packets.encodeAll ps <+: buf.slice 0 len ∧
      (∀ qs, packets.encodeAll qs <+: buf.slice 0 len → qs <+: ps) ∧
      lgsmHandlePacket lh buf len = (lh.returns ps (buf.slice 0 len), ps.map lh.dispatch) ∧
      lgsmHandlePacketLogged lh buf 0 len 0 =
        (lgsmHandlePacket lh buf len, lgsmHandlePacketReads buf 0 len) ∧
      ∀ i ∈ lgsmHandlePacketReads buf 0 len, i < len := by
  refine ⟨packets.split (buf.slice 0 len), Framing.encodeAll_split_isPrefix _, ?_, ?_,
    lgsmHandlePacketLogged_eq lh buf 0 len 0, ?_⟩
  · exact fun qs hqs => Framing.split_longest hqs
  · rw [lgsmHandlePacket, lgsmHandlePacketLoop_eq, foldl_join]
    rfl
  · intro i hi
    have hin := lgsmHandlePacketReads_within buf 0 len i hi
    omega

end SystemTestSuite.Libgsmd
