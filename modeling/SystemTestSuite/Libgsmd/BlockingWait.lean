import SystemTestSuite.Libgsmd.Passthrough

namespace SystemTestSuite.Libgsmd

open Library GsmDaemon

variable {lh : LgsmHandle} {id nextMsgId : UInt16} {tx : Bytes} {sent : ℤ} {rbuf gmh : Memory}
  {room : ℕ} {ps : List LgsmPacket} {r : LgsmPacket} {cs : List Bytes}

structure IsResponse (id : UInt16) (r : LgsmPacket) : Prop where
  msgType : r.hdr.msgType = gsmdMsgPassthrough
  msgSubtype : r.hdr.msgSubtype = gsmdPassthroughResp
  matched : r.hdr.id = id

/-- The call returns `r`, has handed over all other packets that it read from and leaves the rest
of the stream. -/
def Answers (lh : LgsmHandle) (ps : List LgsmPacket) (r : LgsmPacket) (res : PassthroughResult) :
    Prop :=
  ∃ (before after left : List LgsmPacket) (rest : List Bytes), ps = before ++ r :: after ++ left ∧
    res.returned = .returns r.payload r.hdr.len ∧
    res.handed = (before ++ after).map lh.dispatch ∧
    res.unread = rest.map Except.ok ∧ rest.flatten = packets.encodeAll left

/-- The response has a read of its own, and each read before it is made of whole packets and starts
with another id. -/
def ReadAlone (id : UInt16) (r : LgsmPacket) (cs : List Bytes) : Prop :=
  ∃ pre post, cs = pre ++ r.bytes :: post ∧
    ∀ c ∈ pre, ∃ q qs, c = packets.encodeAll (q :: qs) ∧ q.hdr.id ≠ id

def Terminated (payload : Bytes) : Prop := ∃ text, payload = text ++ [0] ∧ ∀ b ∈ text, b ≠ 0

structure Found (lh : LgsmHandle) (id : UInt16) (w : WaitResult) (pre : List Bytes) (m : Bytes)
    (post : List Bytes) : Prop where
  rc : w.rc = some (m.length : ℤ)
  buf : ∃ stale : Memory, w.gmh = stale.store 0 m
  matched : (hdrAt w.gmh 0).id = id
  handed : w.handed = (pre.flatMap packets.split).map lh.dispatch
  unread : w.unread = post.map Except.ok
  others : ∀ c ∈ pre, ∃ stale : Memory, (hdrAt (stale.store 0 c) 0).id ≠ id

theorem hdrAt_packets (stale : Memory) (q : LgsmPacket) (qs : List LgsmPacket) :
    hdrAt (stale.store 0 (packets.encodeAll (q :: qs))) 0 = q.hdr := by
  have hbytes : packets.encodeAll (q :: qs) =
      q.hdr.bytes ++ (q.payload ++ packets.encodeAll qs) := List.append_assoc ..
  rw [hbytes, hdrAt_store]

theorem wait_cons {c : Bytes} (hne : c ≠ []) (hid : (hdrAt (gmh.store 0 c) 0).id ≠ id)
    (reads : List (Except ℤ Bytes)) :
    lgsmBlockingWaitPacket lh id gmh (.ok c :: reads) =
      { lgsmBlockingWaitPacket lh id (gmh.store 0 c) reads with
        handed := (packets.split c).map lh.dispatch ++
          (lgsmBlockingWaitPacket lh id (gmh.store 0 c) reads).handed } := by
  rw [lgsmBlockingWaitPacket]
  simp only [if_neg hne, if_neg hid, lgsmHandlePacket_eq]

theorem wait_found {c : Bytes} (hne : c ≠ []) (hid : (hdrAt (gmh.store 0 c) 0).id = id)
    (cs : List Bytes) :
    Found lh id (lgsmBlockingWaitPacket lh id gmh (.ok c :: cs.map Except.ok)) [] c cs := by
  rw [lgsmBlockingWaitPacket]
  simp only [if_neg hne, if_pos hid]
  exact ⟨rfl, ⟨gmh, rfl⟩, hid, rfl, rfl, by simp⟩

theorem Found.cons {c m : Bytes} {pre post : List Bytes} {reads : List (Except ℤ Bytes)}
    (hne : c ≠ []) (hid : (hdrAt (gmh.store 0 c) 0).id ≠ id)
    (h : Found lh id (lgsmBlockingWaitPacket lh id (gmh.store 0 c) reads) pre m post) :
    Found lh id (lgsmBlockingWaitPacket lh id gmh (.ok c :: reads)) (c :: pre) m post := by
  rw [wait_cons hne hid]
  refine ⟨h.rc, h.buf, h.matched, ?_, h.unread, ?_⟩
  · simp only [h.handed, List.flatMap_cons, List.map_append]
  · intro c' hc
    rcases List.mem_cons.mp hc with rfl | hc
    · exact ⟨gmh, hid⟩
    · exact h.others c' hc

theorem waits_or_found (lh : LgsmHandle) (id : UInt16) (gmh : Memory)
    (hne : ∀ c ∈ cs, c ≠ []) :
    (lgsmBlockingWaitPacket lh id gmh (cs.map Except.ok)).rc = none ∨
      ∃ pre m post, cs = pre ++ m :: post ∧
        Found lh id (lgsmBlockingWaitPacket lh id gmh (cs.map Except.ok)) pre m post := by
  induction cs generalizing gmh with
  | nil => exact Or.inl rfl
  | cons c cs ih =>
    have hc := hne c (by simp)
    rw [List.map_cons]
    by_cases hid : (hdrAt (gmh.store 0 c) 0).id = id
    · exact Or.inr ⟨[], c, cs, rfl, wait_found hc hid cs⟩
    · rcases ih (gmh.store 0 c) (fun c hc => hne c (by simp [hc])) with hwaits | hfound
      · left
        rw [wait_cons hc hid]
        exact hwaits
      · obtain ⟨pre, m, post, rfl, hfound⟩ := hfound
        exact Or.inr ⟨c :: pre, m, post, rfl, hfound.cons hc hid⟩

theorem found_of_readAlone (lh : LgsmHandle) (gmh : Memory) {pre : List Bytes}
    (post : List Bytes) (hr : r.hdr.id = id)
    (hpre : ∀ c ∈ pre, ∃ q qs, c = packets.encodeAll (q :: qs) ∧ q.hdr.id ≠ id) :
    Found lh id (lgsmBlockingWaitPacket lh id gmh ((pre ++ r.bytes :: post).map Except.ok))
      pre r.bytes post := by
  induction pre generalizing gmh with
  | nil =>
    have hhdr := hdrAt_packets gmh r []
    have hbytes : packets.encodeAll [r] = r.bytes := List.append_nil _
    rw [hbytes] at hhdr
    apply wait_found
    · exact List.ne_nil_of_length_pos (packets.encode_pos r)
    · rw [hhdr, hr]
  | cons c pre ih =>
    obtain ⟨q, qs, rfl, hid⟩ := hpre c (by simp)
    refine Found.cons ?_ ?_ (ih _ (fun c hc => hpre c (by simp [hc])))
    · apply List.ne_nil_of_length_pos
      have hpos := packets.encode_pos q
      rw [Framing.encodeAll_cons, List.length_append]
      omega
    · rwa [hdrAt_packets]

theorem passthroughReturn_returns {m : Bytes} {rx : Bytes} {rxLen : UInt16}
    (h : passthroughReturn room gmh (some (m.length : ℤ)) = .returns rx rxLen) :
    sizeofHdr + (hdrAt gmh 0).len.toNat ≤ m.length ∧ rxLen = (hdrAt gmh 0).len ∧ Terminated rx := by
  rw [passthroughReturn] at h
  split_ifs at h with hpos hhdr hlen
  cases htext : gmh.string? sizeofHdr room with
  | none =>
    rw [htext] at h
    exact absurd h (by simp)
  | some text =>
    rw [htext, PassthroughReturn.returns.injEq] at h
    obtain ⟨-, -, hno, -⟩ := (Memory.string?_eq_some_iff gmh).mp htext
    exact ⟨by omega, h.2.symm, text, h.1.symm, hno⟩

theorem passthroughReturn_packet (stale : Memory) (hroom : r.payload.length ≤ room)
    (hr : Terminated r.payload) :
    passthroughReturn room (stale.store 0 r.bytes) (some (r.bytes.length : ℤ)) =
      .returns r.payload r.hdr.len := by
  obtain ⟨text, hpayload, hno⟩ := hr
  have hhdr : hdrAt (stale.store 0 r.bytes) 0 = r.hdr := hdrAt_store stale 0 r.hdr r.payload
  have hlen : r.bytes.length = sizeofHdr + r.hdr.len.toNat := GsmdMsg.bytes_length _
  have hstring : (stale.store 0 r.bytes).string? sizeofHdr room = some text := by
    apply (Memory.string?_eq_some_iff _).mpr
    have hall := Memory.slice_store_same stale 0 r.bytes
    rw [GsmdMsg.bytes, List.length_append, Memory.slice_append] at hall
    have hback := (List.append_inj hall (Memory.slice_length ..)).2
    rw [GsmdMsgHdr.bytes_length, Nat.zero_add, hpayload, List.length_append, Memory.slice_append]
      at hback
    obtain ⟨hslice, hlast⟩ := List.append_inj hback (Memory.slice_length ..)
    rw [hpayload, List.length_append, List.length_singleton] at hroom
    refine ⟨by omega, ?_, hno, ?_⟩
    · rw [GsmdMsg.bytes, hpayload]
      exact hslice
    · rw [GsmdMsg.bytes, hpayload]
      exact (List.cons_eq_cons.mp hlast).1
  rw [passthroughReturn, hhdr, hstring, hlen, if_neg, if_neg, if_neg]
  · rw [hpayload]
  · omega
  · omega
  · rw [sizeofHdr]
    omega

theorem eq_of_moved {x : LgsmPacket} {qs : List LgsmPacket} (h : r :: qs = qs ++ [x]) : x = r := by
  induction qs with
  | nil => exact (List.cons_eq_cons.mp h).1.symm
  | cons q qs ih =>
    obtain ⟨rfl, hrest⟩ := List.cons_eq_cons.mp h
    exact ih hrest

theorem Found.readAlone {w : WaitResult} {pre post : List Bytes} {m : Bytes}
    {before after left : List LgsmPacket} (h : Found lh id w pre m post)
    (hne : ∀ c ∈ pre, c ≠ [])
    (hcut : pre.flatten ++ m ++ post.flatten = packets.encodeAll (before ++ r :: after ++ left))
    (hhanded : w.handed = (before ++ after).map lh.dispatch)
    (hleft : post.flatten = packets.encodeAll left) (hlen : r.bytes.length ≤ m.length) :
    m = r.bytes ∧ ∀ c ∈ pre, ∃ q qs, c = packets.encodeAll (q :: qs) ∧ q.hdr.id ≠ id := by
  have hsplit : pre.flatMap packets.split = before ++ after := by
    rw [h.handed] at hhanded
    exact List.map_injective_iff.mpr lh.dispatch_injective hhanded
  rw [hleft, Framing.encodeAll_append, List.append_cancel_right_eq] at hcut
  have hbytes : packets.encode r = r.bytes := rfl
  have hwhole : ∀ c ∈ pre, packets.Whole c := by
    have hall := congrArg List.length hcut
    apply Framing.whole_of_length
    simp only [hsplit, Framing.encodeAll_append, Framing.encodeAll_cons, List.length_append,
      hbytes] at hall ⊢
    omega
  constructor
  · rw [← Framing.encodeAll_flatMap_whole hwhole, hsplit] at hcut
    obtain ⟨xs, hxs, rfl⟩ := Framing.exists_left hcut.symm
    rw [List.append_assoc, List.append_cancel_left_eq] at hxs
    obtain ⟨x, rfl⟩ : ∃ x, xs = [x] := by
      apply List.length_eq_one_iff.mp
      have hcount := congrArg List.length hxs
      rw [List.length_cons, List.length_append] at hcount
      omega
    rw [eq_of_moved hxs]
    exact List.append_nil _
  · intro c hc
    obtain ⟨stale, hid⟩ := h.others c hc
    have hc' : packets.encodeAll (packets.split c) = c := hwhole c hc
    cases hqs : packets.split c with
    | nil =>
      rw [hqs] at hc'
      exact absurd hc'.symm (hne c hc)
    | cons q qs =>
      rw [hqs] at hc'
      rw [← hc', hdrAt_packets] at hid
      exact ⟨q, qs, hc'.symm, hid⟩

theorem lgsmPassthrough_sent (hsent : (lgsmPassthroughSend nextMsgId tx sent).2 = nextMsgId.toNat)
    (reads : List (Except ℤ Bytes)) :
    lgsmPassthrough lh nextMsgId tx sent rbuf room reads =
      ⟨passthroughReturn room (lgsmBlockingWaitPacket lh nextMsgId rbuf reads).gmh
          (lgsmBlockingWaitPacket lh nextMsgId rbuf reads).rc,
        (lgsmBlockingWaitPacket lh nextMsgId rbuf reads).handed,
        (lgsmBlockingWaitPacket lh nextMsgId rbuf reads).unread⟩ := by
  rw [lgsmPassthrough, hsent]
  simp only [Int.toNat_natCast, UInt16.ofNat_toNat]
  rw [if_neg (by omega)]

theorem answers_iff (hsent : (lgsmPassthroughSend nextMsgId tx sent).2 = nextMsgId.toNat)
    (hr : IsResponse nextMsgId r) (hcut : cs.flatten = packets.encodeAll ps)
    (hread : ∀ c ∈ cs, c ≠ [] ∧ c.length ≤ sizeofHdr + ptBufSize) (hroom : ptBufSize ≤ room) :
    Answers lh ps r (lgsmPassthrough lh nextMsgId tx sent rbuf room (cs.map Except.ok)) ↔
      ReadAlone nextMsgId r cs ∧ Terminated r.payload := by
  rw [lgsmPassthrough_sent hsent]
  constructor
  · rintro ⟨before, after, left, rest, rfl, hreturned, hhanded, hunread, hleft⟩
    rcases waits_or_found lh nextMsgId rbuf (fun c hc => (hread c hc).1) with
      hwaits | ⟨pre, m, post, rfl, hfound⟩
    · simp only [hwaits] at hreturned
      exact absurd hreturned (by simp [passthroughReturn])
    · simp only [hfound.rc] at hreturned
      obtain ⟨hlong, hrxLen, hterm⟩ := passthroughReturn_returns hreturned
      rw [← hrxLen, ← GsmdMsg.bytes_length] at hlong
      have hpost : post = rest := by
        have hsame := hfound.unread.symm.trans hunread
        exact List.map_injective_iff.mpr (fun _ _ => Except.ok.inj) hsame
      rw [List.flatten_append, List.flatten_cons, ← List.append_assoc] at hcut
      obtain ⟨rfl, hpre⟩ := hfound.readAlone (fun c hc => (hread c (by simp [hc])).1) hcut hhanded
        (hpost ▸ hleft) hlong
      exact ⟨⟨pre, post, rfl, hpre⟩, hterm⟩
  · rintro ⟨⟨pre, post, rfl, hpre⟩, hterm⟩
    have hfound := found_of_readAlone lh rbuf post hr.matched hpre
    have hwhole : ∀ c ∈ pre, packets.Whole c := by
      intro c hc
      obtain ⟨q, qs, rfl, -⟩ := hpre c hc
      exact Framing.whole_encodeAll _
    have hbytes : packets.encodeAll [r] = r.bytes := List.append_nil _
    rw [List.flatten_append, List.flatten_cons, ← Framing.encodeAll_flatMap_whole hwhole, ← hbytes,
      ← List.append_assoc, ← Framing.encodeAll_append] at hcut
    obtain ⟨left, rfl, hleft⟩ := Framing.exists_left hcut.symm
    refine ⟨pre.flatMap packets.split, [], left, post, rfl, ?_, ?_, hfound.unread, hleft⟩
    · obtain ⟨stale, hbuf⟩ := hfound.buf
      have hpayload : r.payload.length ≤ room := by
        have hmax := (hread r.bytes (by simp)).2
        rw [GsmdMsg.bytes_length, ← r.payload_length] at hmax
        omega
      simp only [hfound.rc, hbuf]
      exact passthroughReturn_packet stale hpayload hterm
    · rw [List.append_nil]
      exact hfound.handed

/-- A signal event; its id is not set by the daemon. -/
def signalPacket (id : UInt16) : LgsmPacket where
  hdr := ⟨gsmdProtoVersion, gsmdMsgEvent, 6, 0, id, 2⟩
  payload := [20, 99]
  payload_length := rfl
  known := (by decide : gsmdMsgEvent < numGsmdMsgs)

theorem isResponse_okPacket (id : UInt16) : IsResponse id (okPacket id) := ⟨rfl, rfl, rfl⟩

theorem answers_iff_alone :
    Answers ⟨fun _ => none⟩ [signalPacket 7, okPacket 0, signalPacket 0] (okPacket 0)
      (lgsmPassthrough ⟨fun _ => none⟩ 0 [0x41, 0x54] 11 Memory.zero 1024
        ([(signalPacket 7).bytes, (okPacket 0).bytes, (signalPacket 0).bytes].map Except.ok)) := by
  have hcut : [(signalPacket 7).bytes, (okPacket 0).bytes, (signalPacket 0).bytes].flatten =
      packets.encodeAll [signalPacket 7, okPacket 0, signalPacket 0] := rfl
  apply (answers_iff (by decide) (isResponse_okPacket 0) hcut _ (le_refl _)).mpr
  · refine ⟨⟨[(signalPacket 7).bytes], [(signalPacket 0).bytes], rfl, ?_⟩, [0x4f, 0x4b], rfl, by simp⟩
    intro c hc
    exact ⟨signalPacket 7, [], List.mem_singleton.mp hc, by decide⟩
  · intro c hc
    simp only [List.mem_cons, List.not_mem_nil, or_false] at hc
    rcases hc with rfl | rfl | rfl
    · exact ⟨by decide, by decide⟩
    · exact ⟨by decide, by decide⟩
    · exact ⟨by decide, by decide⟩

theorem answers_behind_event : IsResponse 0 (okPacket 0) ∧ ¬ IsResponse 0 (signalPacket 7) ∧
    ¬ Answers ⟨fun _ => none⟩ [signalPacket 7, okPacket 0] (okPacket 0)
      (lgsmPassthrough ⟨fun _ => none⟩ 0 [0x41, 0x54] 11 Memory.zero 1024
        [.ok ((signalPacket 7).bytes ++ (okPacket 0).bytes)]) := by
  refine ⟨⟨rfl, rfl, rfl⟩, fun h => absurd h.matched (by decide), ?_⟩
  rintro ⟨before, after, left, rest, -, hreturned, -⟩
  exact absurd hreturned (by decide)

end SystemTestSuite.Libgsmd
