import SystemTestSuite.GsmDaemon.Usock
import Mathlib.Data.Nat.Bitwise
import Mathlib.Data.List.Nodup

namespace SystemTestSuite.GsmDaemon

open Library

variable {heap : ℕ → Memory} {links : Memory} {ucmd : GsmdUcmd} {evt ptr : ℕ}
  {gus : List GsmdUser}

def handOut (evt : ℕ) : List GsmdUser → List GsmdUcmd → List GsmdUser
  | [], _ => []
  | gu :: gus, cs =>
    if subscribed evt gu then
      match cs with
      | [] => gu :: handOut evt gus []
      | c :: cs => usockCmdEnqueue c gu :: handOut evt gus cs
    else gu :: handOut evt gus cs

structure FansOut (gus : List GsmdUser) (ucmd : GsmdUcmd) (evt : ℕ) (r : ℕ × List GsmdUser)
    (cs : List GsmdUcmd) : Prop where
  handed : r.2 = handOut evt gus cs
  counted : cs.length = gus.countP (subscribed evt)
  returned : r.1 = gus.countP (subscribed evt)
  hdr : ∀ c ∈ cs, c.hdr = ucmd.hdr
  payload : ∀ c ∈ cs, c.payload = ucmd.payload
  unshared : (cs.map GsmdUcmd.ptr).Nodup

theorem handOut_subscribed {gu : GsmdUser} (h : subscribed evt gu = true) (gus : List GsmdUser)
    (c : GsmdUcmd) (cs : List GsmdUcmd) :
    handOut evt (gu :: gus) (c :: cs) = usockCmdEnqueue c gu :: handOut evt gus cs := by
  simp [handOut, h]

theorem handOut_other {gu : GsmdUser} (h : ¬ subscribed evt gu = true) (gus : List GsmdUser)
    (cs : List GsmdUcmd) : handOut evt (gu :: gus) cs = gu :: handOut evt gus cs := by
  cases cs <;> simp [handOut, h]

def copies (heap : ℕ → Memory) (links : Memory) (ucmd : GsmdUcmd) (ptr n : ℕ) : List GsmdUcmd :=
  (List.range' ptr n).map (fun p => ucmdCopy heap links p ucmd)

theorem copies_succ (ptr n : ℕ) : copies heap links ucmd ptr (n + 1) =
    ucmdCopy heap links ptr ucmd :: copies heap links ucmd (ptr + 1) n := rfl

theorem copies_length (ptr n : ℕ) : (copies heap links ucmd ptr n).length = n := by
  simp [copies]

theorem usockEvtSendLoop_after (gus : List GsmdUser) (ptr n : ℕ) :
    usockEvtSendLoop heap links ucmd evt ptr (n + 1) gus =
      (n + 1 + gus.countP (subscribed evt),
        handOut evt gus (copies heap links ucmd ptr (gus.countP (subscribed evt)))) := by
  induction gus generalizing ptr n with
  | nil => rfl
  | cons gu gus ih =>
    rw [usockEvtSendLoop]
    by_cases hsub : subscribed evt gu = true
    · rw [if_pos hsub, if_neg (Nat.succ_ne_zero n), ih, List.countP_cons_of_pos hsub,
        copies_succ, handOut_subscribed hsub]
      simp only [Prod.mk.injEq, and_true]
      omega
    · rw [if_neg hsub, ih, List.countP_cons_of_neg hsub, handOut_other hsub]

theorem usockEvtSend_eq (gus : List GsmdUser) (ptr : ℕ) :
    usockEvtSend heap links ptr gus ucmd evt =
      (gus.countP (subscribed evt), handOut evt gus
        (ucmd :: copies heap links ucmd ptr (gus.countP (subscribed evt) - 1))) := by
  rw [usockEvtSend]
  induction gus with
  | nil => rfl
  | cons gu gus ih =>
    rw [usockEvtSendLoop]
    by_cases hsub : subscribed evt gu = true
    · rw [if_pos hsub, if_pos rfl, usockEvtSendLoop_after, List.countP_cons_of_pos hsub,
        handOut_subscribed hsub, Nat.add_sub_cancel]
      simp only [Prod.mk.injEq, and_true]
      omega
    · rw [if_neg hsub, ih, List.countP_cons_of_neg hsub, handOut_other hsub]

theorem handOut_none {gus : List GsmdUser} (h : gus.countP (subscribed evt) = 0)
    (cs : List GsmdUcmd) : handOut evt gus cs = gus := by
  induction gus with
  | nil => rfl
  | cons gu gus ih =>
    obtain ⟨hgu, hgus⟩ := Nat.add_eq_zero_iff.mp ((List.countP_cons ..).symm.trans h)
    have hsub : ¬ subscribed evt gu = true := by
      intro hsub
      simp [hsub] at hgus
    rw [handOut_other hsub, ih hgu]

theorem usockCmdEnqueue_injective {gu : GsmdUser} {c c' : GsmdUcmd}
    (h : usockCmdEnqueue c gu = usockCmdEnqueue c' gu) : c = c' := by
  have hlist := congrArg GsmdUser.finishedUcmds h
  simpa [usockCmdEnqueue] using hlist

theorem handOut_injective {cs cs' : List GsmdUcmd}
    (hcs : cs.length = gus.countP (subscribed evt)) (hcs' : cs'.length = gus.countP (subscribed evt))
    (h : handOut evt gus cs = handOut evt gus cs') : cs = cs' := by
  induction gus generalizing cs cs' with
  | nil => rw [List.length_eq_zero_iff.mp hcs, List.length_eq_zero_iff.mp hcs']
  | cons gu gus ih =>
    by_cases hsub : subscribed evt gu = true
    · rw [List.countP_cons_of_pos hsub] at hcs hcs'
      obtain ⟨c, cs, rfl⟩ := List.exists_cons_of_length_eq_add_one hcs
      obtain ⟨c', cs', rfl⟩ := List.exists_cons_of_length_eq_add_one hcs'
      rw [handOut_subscribed hsub, handOut_subscribed hsub, List.cons.injEq] at h
      rw [usockCmdEnqueue_injective h.1, ih (Nat.succ.inj hcs) (Nat.succ.inj hcs') h.2]
    · rw [List.countP_cons_of_neg hsub] at hcs hcs'
      rw [handOut_other hsub, handOut_other hsub, List.cons.injEq] at h
      exact ih hcs hcs' h.2

theorem FansOut.eq_copies {cs : List GsmdUcmd} {n : ℕ}
    (h : FansOut gus ucmd evt (usockEvtSend heap links ptr gus ucmd evt) cs)
    (hn : gus.countP (subscribed evt) = n + 1) :
    cs = ucmd :: copies heap links ucmd ptr n := by
  have hhanded := h.handed
  rw [usockEvtSend_eq, hn, Nat.add_sub_cancel] at hhanded
  refine (handOut_injective ?_ h.counted hhanded).symm
  rw [hn, List.length_cons, copies_length]

def otherByte (ucmd : GsmdUcmd) : UInt8 :=
  if ucmd.hdr.len = 0 then 1 else ucmd.buf (ucmd.hdr.len.toNat - 1) + 1

theorem ucmdCopy_differs (links : Memory) (ptr : ℕ) (ucmd : GsmdUcmd) :
    ¬ ((ucmdCopy (fun _ _ => otherByte ucmd) links ptr ucmd).hdr = ucmd.hdr ∧
      (ucmdCopy (fun _ _ => otherByte ucmd) links ptr ucmd).payload = ucmd.payload) := by
  rintro ⟨hhdr, hpayload⟩
  by_cases hlen : ucmd.hdr.len = 0
  · have hword := congrArg GsmdMsgHdr.len hhdr
    rw [hlen] at hword
    have hones : wordAt (fun _ => (1 : UInt8)) (sizeofListHead + 6) ≠ 0 := by decide
    simp only [ucmdCopy, ucmdAt, hdrAt, hlen, otherByte, UInt16.toNat_zero, Nat.not_lt_zero,
      if_false, if_true] at hword
    exact hones hword
  · rw [GsmdUcmd.payload, GsmdUcmd.payload, hhdr] at hpayload
    have hpos : 0 < ucmd.hdr.len.toNat :=
      Nat.pos_of_ne_zero (fun hzero => hlen (UInt16.toNat_inj.mp hzero))
    have hlast : ucmd.hdr.len.toNat - 1 < ucmd.hdr.len.toNat := by omega
    have hbyte := congrArg (fun l : Bytes => l[ucmd.hdr.len.toNat - 1]?) hpayload
    have hin : ∀ m : Memory, (m.slice 0 ucmd.hdr.len.toNat)[ucmd.hdr.len.toNat - 1]? =
        some (m (ucmd.hdr.len.toNat - 1)) := by
      intro m
      rw [List.getElem?_eq_getElem (by rwa [Memory.slice_length]), Memory.slice_getElem,
        Nat.zero_add]
    have hfresh : ¬ sizeofListHead + sizeofHdr + (ucmd.hdr.len.toNat - 1) < ucmd.hdr.len.toNat := by
      rw [sizeofListHead, sizeofHdr]
      omega
    simp only [hin, Option.some.injEq, ucmdCopy, ucmdAt, if_neg hfresh, otherByte,
      if_neg hlen] at hbyte
    exact absurd hbyte (by simp)

theorem fansOut_iff (links : Memory) (ptr : ℕ) (gus : List GsmdUser) (ucmd : GsmdUcmd) (evt : ℕ) :
    (∀ heap, ∃ cs, FansOut gus ucmd evt (usockEvtSend heap links ptr gus ucmd evt) cs) ↔
      gus.countP (subscribed evt) ≤ 1 := by
  constructor
  · intro hall
    by_contra hmany
    obtain ⟨n, hn⟩ : ∃ n, gus.countP (subscribed evt) = n + 2 :=
      ⟨gus.countP (subscribed evt) - 2, by omega⟩
    obtain ⟨cs, hcs⟩ := hall (fun _ _ => otherByte ucmd)
    have hmem : ucmdCopy (fun _ _ => otherByte ucmd) links ptr ucmd ∈ cs := by
      rw [hcs.eq_copies hn]
      simp [copies_succ]
    exact ucmdCopy_differs links ptr ucmd ⟨hcs.hdr _ hmem, hcs.payload _ hmem⟩
  · intro hone heap
    rcases Nat.le_one_iff_eq_zero_or_eq_one.mp hone with hcount | hcount
    · refine ⟨[], ?_, hcount.symm, ?_, by simp, by simp, by simp⟩
      · rw [usockEvtSend_eq, handOut_none hcount, handOut_none hcount]
      · rw [usockEvtSend_eq]
    · refine ⟨[ucmd], ?_, hcount.symm, ?_, by simp, by simp, by simp⟩
      · rw [usockEvtSend_eq, hcount]
        rfl
      · rw [usockEvtSend_eq]

def signalEvent : GsmdUcmd := ⟨0, ⟨gsmdProtoVersion, gsmdMsgEvent, 6, 0, 0, 2⟩, fun _ => 31⟩

def threeUsers : List GsmdUser := List.replicate 3 ⟨[], false, 0xffffffff⟩

theorem fansOut_garbled : ¬ ∀ heap, ∃ cs, FansOut threeUsers signalEvent 6
    (usockEvtSend heap Memory.zero 1 threeUsers signalEvent 6) cs := by
  intro hall
  obtain ⟨cs, hcs⟩ := hall (fun _ => Memory.zero)
  have hmem : ucmdCopy (fun _ => Memory.zero) Memory.zero 1 signalEvent ∈ cs := by
    rw [@FansOut.eq_copies _ _ _ _ _ _ cs 2 hcs (by decide)]
    exact List.mem_cons_of_mem _ (List.mem_cons_self ..)
  exact absurd (hcs.hdr _ hmem) (by decide)

end SystemTestSuite.GsmDaemon
