import Mathlib
import SystemTestSuite.Libgsmd.RequestDelivery

namespace SystemTestSuite.Libgsmd

open Library GsmDaemon

section

variable {m x : Memory} {off n N : ℕ}

theorem stored_front (m x : Memory) (off : ℕ) (h : n ≤ N) :
    (m.store off (x.slice 0 N)).slice off n = x.slice 0 n := by
  apply List.ext_getElem
  · rw [Memory.slice_length, Memory.slice_length]
  · intro j hj hj'
    rw [Memory.slice_length] at hj
    rw [Memory.slice_getElem, Memory.slice_getElem, Nat.zero_add,
      Memory.store_inside _ _ _ (by rw [Memory.slice_length]; omega), Memory.slice_getElem, Nat.zero_add]

theorem uintAt_store (m : Memory) (off : ℕ) (z : ℤ) :
    uintAt (m.store off (intBytes z)) off = (z % 2 ^ 32).toNat := by
  have hbyte (i : ℕ) (hi : i < 4) : (m.store off (intBytes z) (off + i)).toNat =
      (z % 2 ^ 32).toNat / 256 ^ i % 256 := by
    have hlen : i < (intBytes z).length := hi
    rw [Memory.store_inside m off _ hlen]
    simp only [intBytes, List.getElem_map, List.getElem_range, UInt8.toNat_ofNat']
    omega
  have hfirst := hbyte 0 (by omega)
  rw [Nat.add_zero] at hfirst
  rw [uintAt, hfirst, hbyte 1 (by omega), hbyte 2 (by omega), hbyte 3 (by omega)]
  omega

theorem intAt_stored (m : Memory) (off : ℕ) (n : Int32) :
    intAt (m.store off (intBytes n.toInt)) off = n.toInt := by
  have hint (m : Memory) : intAt m off = Int.bmod (uintAt m off) 4294967296 := rfl
  have hmod : (((n.toInt % 2 ^ 32).toNat : ℕ) : ℤ) = n.toInt % (4294967296 : ℕ) := by omega
  rw [hint, uintAt_store, hmod, Int.emod_bmod]
  exact n.toInt_bmod

theorem uintAt_stored (m : Memory) (off : ℕ) (n : UInt32) :
    uintAt (m.store off (intBytes n.toNat)) off = n.toNat := by
  have hlt := n.toNat_lt
  rw [uintAt_store]
  omega

end

section

variable {textMode : Bool} {block : GsmdUcmd} {gu : ℕ} {client : Client} {stale : Memory}
  {id : UInt16} {gmh : Gmh} {check : SendCheck}

def Gmh.numbered (gmh : Gmh) (id : UInt16) : Gmh := { gmh with hdr := (lgsmSend id gmh.hdr).1 }

theorem Gmh.store_data (gmh : Gmh) (off : ℕ) (bs : Bytes) :
    (gmh.store off bs).data = gmh.data.store off bs := rfl

theorem store_off {m : Memory} {off i n : ℕ} {bs : Bytes} (hn : bs.length = n)
    (h : i < off ∨ off + n ≤ i) : m.store off bs i = m i :=
  h.elim (Memory.store_before m bs) (fun hle => Memory.store_behind m bs (by rwa [hn]))

theorem uintAt_off {m : Memory} {off k n : ℕ} {bs : Bytes} (hn : bs.length = n)
    (h : k + 4 ≤ off ∨ off + n ≤ k) : uintAt (m.store off bs) k = uintAt m k :=
  uintAt_congr (fun i _ _ => store_off hn (by omega))

theorem intAt_off {m : Memory} {off k n : ℕ} {bs : Bytes} (hn : bs.length = n)
    (h : k + 4 ≤ off ∨ off + n ≤ k) : intAt (m.store off bs) k = intAt m k :=
  intAt_congr (fun i _ _ => store_off hn (by omega))

theorem store_head (m : Memory) (off : ℕ) (b : UInt8) (bs : Bytes) :
    m.store off (b :: bs) off = b :=
  Memory.store_inside m off (j := 0) (b :: bs) (Nat.zero_lt_succ _)

theorem slice_inside {m x : Memory} {off i n : ℕ} (hi : i < n) :
    m.store off (x.slice 0 n) (off + i) = x i := by
  rw [Memory.store_inside _ _ _ (by rwa [Memory.slice_length]), Memory.slice_getElem, Nat.zero_add]

theorem fillSubmit_same {sms : LgsmMessage} {off : ℕ} {filled : Gmh}
    (hzero : ∀ i, gmh.data (off + i) = 0) (h : fillSubmit gmh off sms = .ok filled) :
    SameSubmit textMode (smsSubmitAt filled.data off) sms.submit ∧ filled.hdr = gmh.hdr ∧
      ∀ i < off, filled.data i = gmh.data i := by
  have hdst : (⟨gmh.data off, fun i => gmh.data (off + 1 + i)⟩ : GsmdAddr) = ⟨0, Memory.zero⟩ := by
    have hnumber : (fun i => gmh.data (off + 1 + i)) = Memory.zero := by
      funext i
      rw [Nat.add_assoc]
      exact hzero (1 + i)
    rw [hnumber, ← Nat.add_zero off, hzero 0]
  have haddr : (lgsmNumber2addr ⟨0, Memory.zero⟩ sms.addr true).2 = sms.submit.addr := rfl
  rw [fillSubmit, hdst] at h
  split_ifs at h with hnumber
  rw [haddr] at h
  obtain rfl := Except.ok.inj h
  have hnumbers : (sms.submit.addr.number.slice 0 (gsmdAddrMaxlen + 1)).length = 33 :=
    Memory.slice_length ..
  have hoctets : (sms.data.slice 0 lgsmSmsDataMaxlen).length = 140 := Memory.slice_length ..
  have hsize : dataSize = 165 := rfl
  have hmax : lgsmSmsDataMaxlen = 140 := rfl
  refine ⟨?_, rfl, fun i hi => ?_⟩
  · simp only [Gmh.store_data]
    constructor
    · simp only [smsSubmitAt]
      rw [store_off hoctets (by omega), store_off (n := 1) rfl (by omega),
        store_off (n := 1) rfl (by omega), store_off (n := 4) rfl (by omega),
        store_off (n := 4) rfl (by omega), store_off hnumbers (by omega), store_head]
    · intro i hi
      have hlow : i < 33 := hi
      simp only [smsSubmitAt]
      rw [store_off hoctets (by omega), store_off (n := 1) rfl (by omega),
        store_off (n := 1) rfl (by omega), store_off (n := 4) rfl (by omega),
        store_off (n := 4) rfl (by omega), slice_inside (n := gsmdAddrMaxlen + 1) hi]
    · simp only [smsSubmitAt]
      rw [store_off hoctets (by omega), store_off (n := 1) rfl (by omega), store_head]
      rfl
    · simp only [smsSubmitAt]
      rw [store_off hoctets (by omega), store_head]
      rfl
    · simp only [smsSubmitAt]
      rw [intAt_off hoctets (by omega), intAt_off (n := 1) rfl (by omega),
        intAt_off (n := 1) rfl (by omega)]
      exact intAt_flag _ _ (.inl rfl)
    · intro i hi
      have hpayload : sms.submit.payload.data =
          Memory.zero.store 0 (sms.data.slice 0 lgsmSmsDataMaxlen) := rfl
      simp only [smsSubmitAt]
      rw [hpayload]
      rcases Nat.lt_or_ge i lgsmSmsDataMaxlen with hin | hout
      · have hcopy := @slice_inside Memory.zero sms.data 0 i _ hin
        rw [Nat.zero_add] at hcopy
        rw [slice_inside hin, hcopy]
      · rw [store_off hoctets (by omega), store_off (n := 1) rfl (by omega),
          store_off (n := 1) rfl (by omega), store_off (n := 4) rfl (by omega),
          store_off (n := 4) rfl (by omega), store_off hnumbers (by omega),
          store_off (n := 1) rfl (by omega), store_off hoctets (by omega), Nat.add_assoc, hzero]
        rfl
    · simp only [smsSubmitAt]
      rw [intAt_off hoctets (by omega), intAt_off (n := 1) rfl (by omega),
        intAt_off (n := 1) rfl (by omega), intAt_off (n := 4) rfl (by omega), intAt_stored]
      rfl
  · simp only [Gmh.store_data]
    rw [store_off hoctets (by omega), store_off (n := 1) rfl (by omega),
      store_off (n := 1) rfl (by omega), store_off (n := 4) rfl (by omega),
      store_off (n := 4) rfl (by omega), store_off hnumbers (by omega),
      store_off (n := 1) rfl (by omega)]

theorem bind_ok {α β : Type} {x : Except ℤ α} {f : α → Except ℤ β} {b : β}
    (h : (x >>= f) = .ok b) : ∃ a, x = .ok a ∧ f a = .ok b := by
  cases x with
  | error e => cases h
  | ok a => exact ⟨a, rfl, h⟩

theorem pin_prepared {type : UInt32} {old : Bytes} {new : Option Bytes}
    (h : lgsmPin true type old new = .ok (gmh, check)) :
    answer (usockRcvMessage textMode block gu client (stale.store 0 (gmh.numbered id).bytes)
      (gmh.numbered id).bytes.length) = LgsmCall.orders textMode gu id (.pin type old new) := by
  have hmax : gsmdPinMaxlen = 8 := rfl
  have hstored (off : ℕ) (m : Memory) (s : Bytes) :
      (m.store off (cstr s ++ [0])).slice off (cstr s).length = cstr s ∧
        m.store off (cstr s ++ [0]) (off + (cstr s).length) = 0 := by
    refine ⟨?_, Memory.store_nul m off (cstr s)⟩
    rw [Memory.store_append, Memory.slice_store_end]
  have hold (m : Memory) := hstored 4 m old
  rw [lgsmPin] at h
  split_ifs at h with hbad hpuk hpuk
  · cases h
  · cases h
  · simp only [not_or, decide_eq_true_eq, not_lt] at hbad
    cases new with
    | none => cases h
    | some new =>
      have hlong : (cstr new).length ≤ gsmdPinMaxlen := by simpa using hbad.2.1
      obtain ⟨rfl, -⟩ := Prod.mk.inj (Except.ok.inj h)
      refine pin_answered (Gmh.arrives _ stale) ?_ ?_ ?_ hbad.1 fun _ => ⟨hlong, ?_, ?_⟩
      · exact ((uintAt_off (n := (cstr new ++ [0]).length) rfl (.inl (by decide))).trans
          (uintAt_off (n := (cstr old ++ [0]).length) rfl (.inl (by decide)))).trans
            (uintAt_stored Memory.zero 0 type)
      · exact (Memory.slice_store_before _ _ (by omega)).trans (hold _).1
      · exact (Memory.store_before _ _ (by omega)).trans (hold _).2
      · exact (hstored 13 _ new).1
      · exact (hstored 13 _ new).2
  · simp only [not_or, decide_eq_true_eq, not_lt] at hbad
    obtain ⟨rfl, -⟩ := Prod.mk.inj (Except.ok.inj h)
    refine pin_answered (Gmh.arrives _ stale) ?_ (hold _).1 (hold _).2 hbad.1
      fun hno => absurd hno hpuk
    exact (uintAt_off (n := (cstr old ++ [0]).length) rfl (.inl (by decide))).trans
      (uintAt_stored Memory.zero 0 type)

theorem smsSend_prepared {sms : LgsmMessage} (h : lgsmSmsSend true sms = .ok (gmh, check))
    (hfit : FitsArrays textMode sms.submit) :
    answer (usockRcvMessage textMode block gu client (stale.store 0 (gmh.numbered id).bytes)
      (gmh.numbered id).bytes.length) = LgsmCall.orders textMode gu id (.smsSend sms) := by
  obtain ⟨blank, hblank, hrest⟩ := bind_ok h
  obtain rfl := Except.ok.inj hblank
  obtain ⟨filled, hfill, hok⟩ := bind_ok hrest
  obtain ⟨rfl, -⟩ := Prod.mk.inj (Except.ok.inj hok)
  obtain ⟨hsame, hhdr, -⟩ := @fillSubmit_same textMode _ _ _ _ (fun _ => rfl) hfill
  have harrives := Gmh.arrives (filled.numbered id) stale
  have hnumbered : (filled.numbered id).hdr = requestHdr gsmdMsgSms gsmdSmsSend id 240 := by
    rw [Gmh.numbered, hhdr]
    rfl
  rw [hnumbered] at harrives
  exact smsSend_answered harrives hsame hfit

theorem smsWrite_prepared {stat : Int32} {sms : LgsmMessage}
    (h : lgsmSmsWrite true stat sms = .ok (gmh, check)) (hfit : FitsArrays textMode sms.submit) :
    answer (usockRcvMessage textMode block gu client (stale.store 0 (gmh.numbered id).bytes)
      (gmh.numbered id).bytes.length) = LgsmCall.orders textMode gu id (.smsWrite stat sms) := by
  obtain ⟨blank, hblank, hrest⟩ := bind_ok h
  obtain rfl := Except.ok.inj hblank
  obtain ⟨filled, hfill, hok⟩ := bind_ok hrest
  obtain ⟨rfl, -⟩ := Prod.mk.inj (Except.ok.inj hok)
  have hzero (i : ℕ) : Memory.zero.store 0 [intByte stat.toInt] (1 + i) = 0 :=
    store_off (n := 1) rfl (.inr (by omega))
  obtain ⟨hsame, hhdr, hfirst⟩ := @fillSubmit_same textMode _ _ _ _ hzero hfill
  have harrives := Gmh.arrives (filled.numbered id) stale
  have hnumbered : (filled.numbered id).hdr = requestHdr gsmdMsgSms gsmdSmsWrite id 241 := by
    rw [Gmh.numbered, hhdr]
    rfl
  rw [hnumbered] at harrives
  exact smsWrite_answered harrives (hfirst 0 Nat.zero_lt_one) hsame hfit

theorem smsSetSmsc_prepared {number : Bytes}
    (h : lgsmSmsSetSmscMsg true number = .ok (gmh, check)) :
    answer (usockRcvMessage textMode block gu client (stale.store 0 (gmh.numbered id).bytes)
      (gmh.numbered id).bytes.length) = LgsmCall.orders textMode gu id (.smsSetSmsc number) := by
  have hmax : gsmdAddrMaxlen = 32 := rfl
  rw [lgsmSmsSetSmscMsg] at h
  obtain ⟨blank, hblank, hrest⟩ := bind_ok h
  obtain rfl := Except.ok.inj hblank
  by_cases hzero : (lgsmNumber2addr ⟨0, Memory.zero⟩ number false).1 ≠ 0
  · have hrefuses : (if (lgsmNumber2addr ⟨0, Memory.zero⟩ number false).1 ≠ 0 then _ else _) =
        Except.ok (gmh, check) := hrest
    rw [if_pos hzero] at hrefuses
    cases hrefuses
  · have hgoes : (if (lgsmNumber2addr ⟨0, Memory.zero⟩ number false).1 ≠ 0 then _ else _) =
        Except.ok (gmh, check) := hrest
    rw [if_neg hzero] at hgoes
    obtain ⟨rfl, -⟩ := Prod.mk.inj (Except.ok.inj hgoes)
    obtain ⟨hnumber, hplus⟩ := (accepts_number _).mp (not_not.mp hzero)
    have haddr : (lgsmNumber2addr ⟨0, Memory.zero⟩ number false).2 =
        ⟨storedType number, Memory.zero.store 0 (cstr number ++ [0])⟩ := by
      rw [lgsmNumber2addr_eq _ hnumber.length, storedNumber, if_neg (fun hintl => hplus ⟨rfl, hintl⟩)]
    have htype := congrArg GsmdAddr.type haddr
    have hdigits := congrArg GsmdAddr.number haddr
    have hlen := hnumber.length
    refine smsSetSmsc_answered (Gmh.arrives _ stale) ?_ ?_ ?_ hlen
    · simp only [Gmh.numbered, Gmh.store_data]
      rw [Memory.store_before _ _ Nat.zero_lt_one, store_head]
      exact htype
    · refine (stored_front _ _ 1 (by omega)).trans ?_
      refine (congrArg (fun m : Memory => m.slice 0 _) hdigits).trans ?_
      change (Memory.zero.store 0 (cstr number ++ [0])).slice 0 _ = _
      rw [Memory.store_append]
      exact Memory.slice_store_end Memory.zero 0 (cstr number) [0]
    · refine (slice_inside (n := gsmdAddrMaxlen + 1) (by omega)).trans ?_
      have hnul := Memory.store_nul Memory.zero 0 (cstr number)
      rw [Nat.zero_add] at hnul
      exact (congrFun hdigits _).trans hnul

theorem pbWriteEntry_prepared {pb : LgsmPhonebook}
    (h : (LgsmCall.pbWriteEntry pb).prepare true = .ok (gmh, check)) :
    answer (usockRcvMessage textMode block gu client (stale.store 0 (gmh.numbered id).bytes)
      (gmh.numbered id).bytes.length) = LgsmCall.orders textMode gu id (.pbWriteEntry pb) := by
  obtain ⟨rfl, -⟩ := Prod.mk.inj (Except.ok.inj h)
  refine pbWriteEntry_answered (Gmh.arrives _ stale) ?_ ?_ ?_ ?_ ?_ ?_
  · simp only [Gmh.numbered, Gmh.store_data]
    rw [Memory.store_before _ _ (by decide), Memory.store_before _ _ (by decide),
      Memory.store_before _ _ (by decide), Memory.store_before _ _ (by decide),
      Memory.store_before _ _ (by decide), store_head]
  · simp only [Gmh.numbered, Gmh.store_data]
    rw [Memory.slice_store_before _ _ (by decide), Memory.slice_store_before _ _ (by decide),
      Memory.slice_store_before _ _ (by decide), Memory.slice_store_before _ _ (by decide)]
    exact stored_front _ pb.numb 1 (by decide)
  · simp only [Gmh.numbered, Gmh.store_data]
    rw [Memory.store_before _ _ (by decide), Memory.store_before _ _ (by decide),
      Memory.store_before _ _ (by decide)]
    exact store_head _ 45 0 []
  · simp only [Gmh.numbered, Gmh.store_data]
    rw [Memory.store_before _ _ (by decide), Memory.store_before _ _ (by decide)]
    exact store_head _ 46 _ []
  · simp only [Gmh.numbered, Gmh.store_data]
    rw [Memory.slice_store_before _ _ (by decide)]
    exact stored_front _ pb.text 47 (by decide)
  · simp only [Gmh.numbered, Gmh.store_data]
    exact store_head _ 61 0 []

theorem prepared_answered {call : LgsmCall} (h : call.prepare true = .ok (gmh, check))
    (hfit : call.Fits textMode client) :
    answer (usockRcvMessage textMode block gu client (stale.store 0 (gmh.numbered id).bytes)
      (gmh.numbered id).bytes.length) = call.orders textMode gu id := by
  cases call with
  | operGet | opersGet | netregDeregister | signalQuality | prefoperList | prefoperGetSpace
  | getSubscriberNum =>
    obtain ⟨rfl, -⟩ := Prod.mk.inj (Except.ok.inj h)
    rw [rcv_network (Gmh.arrives _ stale).header rfl rfl, usockRcvNetwork,
      (Gmh.arrives _ stale).header]
    rfl
  | voiceInAccept | voiceHangup | voiceVolumeSet _ =>
    obtain ⟨rfl, -⟩ := Prod.mk.inj (Except.ok.inj h)
    rw [rcv_voicecall (Gmh.arrives _ stale).header rfl rfl, usockRcvVoicecall,
      (Gmh.arrives _ stale).header]
    rfl
  | smsGetStorage | smsGetSmsc =>
    obtain ⟨rfl, -⟩ := Prod.mk.inj (Except.ok.inj h)
    rw [rcv_sms (Gmh.arrives _ stale).header rfl rfl, usockRcvSms, (Gmh.arrives _ stale).header]
    rfl
  | cbSubscribe | cbUnsubscribe =>
    obtain ⟨rfl, -⟩ := Prod.mk.inj (Except.ok.inj h)
    rw [rcv_cb (Gmh.arrives _ stale).header rfl rfl, usockRcvCb, (Gmh.arrives _ stale).header]
    rfl
  | pbListStorage | pbGetSupport | getImsi =>
    obtain ⟨rfl, -⟩ := Prod.mk.inj (Except.ok.inj h)
    rw [rcv_phonebook (Gmh.arrives _ stale).header rfl rfl, usockRcvPhonebook,
      (Gmh.arrives _ stale).header]
    rfl
  | phonePower power =>
    obtain ⟨rfl, -⟩ := Prod.mk.inj (Except.ok.inj h)
    rw [rcv_phone (Gmh.arrives _ stale).header rfl rfl, usockRcvPhone,
      (Gmh.arrives _ stale).header, LgsmCall.orders]
    by_cases hon : power ≠ 0
    · simp only [Gmh.numbered, lgsmSend, if_pos hon]
      rfl
    · simp only [Gmh.numbered, lgsmSend, if_neg hon]
      rfl
  | netregRegister oper =>
    obtain ⟨rfl, -⟩ := Prod.mk.inj (Except.ok.inj h)
    exact netregRegister_answered (Gmh.arrives _ stale) (stored_front Memory.zero oper 0 le_rfl)
  | prefoperDelete index =>
    obtain ⟨rfl, -⟩ := Prod.mk.inj (Except.ok.inj h)
    exact prefoperDelete_answered (Gmh.arrives _ stale) (intAt_stored Memory.zero 0 index)
  | prefoperAdd oper =>
    obtain ⟨rfl, -⟩ := Prod.mk.inj (Except.ok.inj h)
    exact prefoperAdd_answered (Gmh.arrives _ stale) (stored_front Memory.zero oper 0 le_rfl)
  | voiceOutInit number =>
    obtain ⟨rfl, -⟩ := Prod.mk.inj (Except.ok.inj h)
    refine voiceOutInit_answered (Gmh.arrives _ stale) ?_
    exact (Memory.slice_store_before _ _ le_rfl).trans
      (stored_front _ number.addr 1 (by decide))
  | voiceDtmf dtmfChar =>
    obtain ⟨rfl, -⟩ := Prod.mk.inj (Except.ok.inj h)
    exact voiceDtmf_answered (Gmh.arrives _ stale) rfl rfl
  | pin type old new => exact pin_prepared h
  | smsList stat =>
    obtain ⟨rfl, -⟩ := Prod.mk.inj (Except.ok.inj h)
    exact smsList_answered (Gmh.arrives _ stale) (intAt_stored Memory.zero 0 stat)
  | smsRead index =>
    obtain ⟨rfl, -⟩ := Prod.mk.inj (Except.ok.inj h)
    exact smsRead_answered (Gmh.arrives _ stale) (intAt_stored Memory.zero 0 index)
  | smsDelete index delflg =>
    obtain ⟨rfl, -⟩ := Prod.mk.inj (Except.ok.inj h)
    exact smsDelete_answered (Gmh.arrives _ stale) rfl rfl
  | smsSend sms => exact smsSend_prepared h hfit
  | smsWrite stat sms => exact smsWrite_prepared h hfit
  | smsSetStorage mem1 mem2 mem3 =>
    obtain ⟨rfl, -⟩ := Prod.mk.inj (Except.ok.inj h)
    refine smsSetStorage_answered (Gmh.arrives _ stale) ?_ ?_ ?_
    · exact ((uintAt_off (n := 4) rfl (by decide)).trans (uintAt_off (n := 4) rfl (by decide))).trans
        (uintAt_stored Memory.zero 0 mem1)
    · exact (uintAt_off (n := 4) rfl (by decide)).trans (uintAt_stored _ 4 mem2)
    · exact uintAt_stored _ 8 mem3
  | smsSetSmsc number => exact smsSetSmsc_prepared h
  | pbSetStorage storage =>
    obtain ⟨rfl, -⟩ := Prod.mk.inj (Except.ok.inj h)
    refine pbSetStorage_answered (Gmh.arrives _ stale) ?_ ?_
    · have hstored := Memory.slice_store_same Memory.zero 0 (strncpy storage 2)
      rw [strncpy_length] at hstored
      exact (Memory.slice_store_before _ _ le_rfl).trans hstored
    · exact store_head (Memory.zero.store 0 (strncpy storage 2)) 2 0 []
  | pbFindEntry findtext =>
    obtain ⟨rfl, -⟩ := Prod.mk.inj (Except.ok.inj h)
    refine pbFindEntry_answered (Gmh.arrives _ stale) ?_ ?_
    · exact (Memory.slice_store_before _ _ le_rfl).trans
        (stored_front (n := 14) (N := 15) Memory.zero findtext 0 (by decide))
    · exact store_head (Memory.zero.store 0 (findtext.slice 0 15)) 14 0 []
  | pbReadEntry index =>
    obtain ⟨rfl, -⟩ := Prod.mk.inj (Except.ok.inj h)
    exact pbReadEntry_answered (Gmh.arrives _ stale) (intAt_stored Memory.zero 0 index)
  | pbReadEntries index1 index2 =>
    obtain ⟨rfl, -⟩ := Prod.mk.inj (Except.ok.inj h)
    exact pbReadEntries_answered (Gmh.arrives _ stale) rfl rfl
  | pbDelEntry index =>
    obtain ⟨rfl, -⟩ := Prod.mk.inj (Except.ok.inj h)
    exact pbDelEntry_answered (Gmh.arrives _ stale) (intAt_stored Memory.zero 0 index)
  | pbWriteEntry pb => exact pbWriteEntry_prepared h
  | pbRetrieveReadrg num =>
    obtain ⟨rfl, -⟩ := Prod.mk.inj (Except.ok.inj h)
    exact pbRetrieve_answered (Or.inl ⟨rfl, hfit⟩) (Gmh.arrives _ stale)
      (uintAt_store Memory.zero 0 num.toInt)
  | pbRetrieveFind num =>
    obtain ⟨rfl, -⟩ := Prod.mk.inj (Except.ok.inj h)
    exact pbRetrieve_answered (Or.inr ⟨rfl, hfit⟩) (Gmh.arrives _ stale)
      (uintAt_store Memory.zero 0 num.toInt)

end

instance decidableIsNumber (s : Bytes) : Decidable (IsNumber s) :=
  decidable_of_iff ((∀ c ∈ withoutPlus s, isDigit c = true) ∧ s.length ≤ gsmdAddrMaxlen)
    ⟨fun h => ⟨h.1, h.2⟩, fun h => ⟨h.digits, h.length⟩⟩

namespace LgsmCall

def problem (malloc : Bool) : LgsmCall → Option ℤ
  | .pin type old new =>
    if gsmdPinMaxlen < (cstr old).length ∨ gsmdPinMaxlen < (cstr (new.getD [])).length ∨
      numGsmdPin ≤ type.toNat then some einvalRc
    else if malloc = false then some enomemRc
    else if (type.toNat = gsmdPinSimPuk ∨ type.toNat = gsmdPinSimPuk2) ∧ new = none then
      some einvalRc
    else none
  | .smsSend sms | .smsWrite _ sms =>
    if malloc = false then some enomemRc
    else if IsNumber (cstr sms.addr) then none else some einvalRc
  | .smsSetSmsc number =>
    if malloc = false then some enomemRc
    else if IsNumber (cstr number) ∧ ¬ International (cstr number) then none else some einvalRc
  | _ => if malloc = false then some enomemRc else none

def HandsOn : LgsmCall → Bool
  | .netregRegister _ | .prefoperDelete _ | .prefoperAdd _ | .voiceOutInit _ | .voiceDtmf _
  | .smsList _ | .smsRead _ | .smsDelete _ _ | .smsSend _ | .smsWrite _ _ | .smsSetStorage _ _ _
  | .smsSetSmsc _ | .pbSetStorage _ | .pbFindEntry _ | .pbReadEntry _ | .pbReadEntries _ _
  | .pbDelEntry _ | .pbWriteEntry _ | .pbRetrieveReadrg _ | .pbRetrieveFind _ => false
  | _ => true

/-- What the caller gets. That the message did not go out is told in few cases only. -/
def result (goesOut : Bool) (call : LgsmCall) : ℤ :=
  if call.HandsOn then
    if goesOut then
      match call with
      | .pin _ _ _ => sizeofHdr + sizeofPin
      | _ => sizeofHdr
    else -1
  else 0

end LgsmCall

def Prepares (call : LgsmCall) : Prop :=
  ∃ gmh check, call.prepare true = .ok (gmh, check) ∧
    check.rc (sizeofHdr + gmh.hdr.len.toNat) = call.result true ∧
    check.rc (-1) = call.result false ∧ gmh.hdr.len.toNat ≤ 1 + sizeofSmsSubmit

theorem pin_problem {malloc : Bool} {type : UInt32} {old : Bytes} {new : Option Bytes} :
    match LgsmCall.problem malloc (.pin type old new) with
    | some rc => LgsmCall.prepare malloc (.pin type old new) = .error rc
    | none => malloc = true ∧ Prepares (.pin type old new) := by
  have hnew : new.any (fun s => gsmdPinMaxlen < (cstr s).length) = true ↔
      gsmdPinMaxlen < (cstr (new.getD [])).length := by
    cases new with
    | none => exact ⟨fun h => Bool.noConfusion h, fun h => absurd h (Nat.not_lt_zero _)⟩
    | some new => exact decide_eq_true_iff
  simp only [LgsmCall.problem]
  by_cases hbad : gsmdPinMaxlen < (cstr old).length ∨
      gsmdPinMaxlen < (cstr (new.getD [])).length ∨ numGsmdPin ≤ type.toNat
  · rw [if_pos hbad]
    change lgsmPin malloc type old new = _
    rw [lgsmPin, if_pos (by simpa only [decide_eq_true_eq, hnew] using hbad)]
    rfl
  · have hgood (malloc : Bool) : LgsmCall.prepare malloc (.pin type old new) = _ :=
      show lgsmPin malloc type old new = _ by
        rw [lgsmPin, if_neg (by simpa only [decide_eq_true_eq, hnew] using hbad)]
    rw [if_neg hbad]
    cases malloc with
    | false => exact hgood false
    | true =>
      by_cases hpuk : type.toNat = gsmdPinSimPuk ∨ type.toNat = gsmdPinSimPuk2
      · cases new with
        | none =>
          rw [if_neg Bool.true_eq_false.mp, if_pos ⟨hpuk, rfl⟩, hgood]
          exact if_pos hpuk
        | some new =>
          rw [if_neg Bool.true_eq_false.mp, if_neg (fun h => nomatch h.2)]
          exact ⟨rfl, _, _, (hgood true).trans (if_pos hpuk), rfl, rfl, Nat.le_of_ble_eq_true rfl⟩
      · rw [if_neg Bool.true_eq_false.mp, if_neg (fun h => hpuk h.1)]
        exact ⟨rfl, _, _, (hgood true).trans (if_neg hpuk), rfl, rfl, Nat.le_of_ble_eq_true rfl⟩

theorem fillSubmit_problem {gmh : Gmh} {off : ℕ} {sms : LgsmMessage}
    (h : ¬ IsNumber (cstr sms.addr)) : fillSubmit gmh off sms = .error einvalRc := by
  rw [fillSubmit]
  refine if_pos fun hzero => h ?_
  exact ((accepts_number _).mp hzero).1

theorem fillSubmit_ok {gmh : Gmh} {off : ℕ} {sms : LgsmMessage} (h : IsNumber (cstr sms.addr)) :
    ∃ filled, fillSubmit gmh off sms = .ok filled ∧ filled.hdr = gmh.hdr := by
  rw [fillSubmit]
  have hzero (dst : GsmdAddr) : ¬ (lgsmNumber2addr dst sms.addr true).1 ≠ 0 :=
    not_not.mpr ((accepts_number dst).mpr ⟨h, fun hno => Bool.noConfusion hno.1⟩)
  simp only [if_neg (hzero _)]
  exact ⟨_, rfl, rfl⟩

theorem whole_rc (len : UInt16) :
    (SendCheck.whole (len.toNat + sizeofHdr)).rc (sizeofHdr + len.toNat) = 0 ∧
      (SendCheck.whole (len.toNat + sizeofHdr)).rc (-1) = 0 := by
  have hlt := len.toNat_lt
  have hsize : sizeofHdr = 8 := rfl
  rw [SendCheck.rc, SendCheck.rc]
  exact ⟨if_neg (by omega), if_neg (by omega)⟩

theorem filled_problem (call : LgsmCall) (blank : Gmh) (off : ℕ) (sms : LgsmMessage)
    (hproblem : ∀ malloc, call.problem malloc = if malloc = false then some enomemRc
      else if IsNumber (cstr sms.addr) then none else some einvalRc)
    (hnone : call.prepare false = .error enomemRc)
    (hsome : call.prepare true =
      fillSubmit blank off sms >>= fun gmh => pure (sendWhole gmh))
    (hresult : ∀ goesOut, call.result goesOut = 0) (hlen : blank.hdr.len.toNat ≤ 1 + sizeofSmsSubmit)
    (malloc : Bool) :
    match call.problem malloc with
    | some rc => call.prepare malloc = .error rc
    | none => malloc = true ∧ Prepares call := by
  rw [hproblem]
  cases malloc with
  | false => exact hnone
  | true =>
    rw [if_neg Bool.true_eq_false.mp]
    by_cases hnumber : IsNumber (cstr sms.addr)
    · obtain ⟨filled, hfill, hhdr⟩ := @fillSubmit_ok blank off sms hnumber
      rw [if_pos hnumber]
      refine ⟨rfl, filled, .whole (filled.hdr.len.toNat + sizeofHdr), ?_, ?_⟩
      · rw [hsome, hfill]
        rfl
      · rw [hresult, hresult, ← and_assoc]
        exact ⟨whole_rc filled.hdr.len, hhdr ▸ hlen⟩
    · rw [if_neg hnumber, hsome, fillSubmit_problem hnumber]
      rfl

theorem smsSetSmsc_problem {malloc : Bool} {number : Bytes} :
    match LgsmCall.problem malloc (.smsSetSmsc number) with
    | some rc => LgsmCall.prepare malloc (.smsSetSmsc number) = .error rc
    | none => malloc = true ∧ Prepares (.smsSetSmsc number) := by
  cases malloc with
  | false => rfl
  | true =>
    have hprepare : LgsmCall.prepare true (.smsSetSmsc number) =
        if (lgsmNumber2addr ⟨0, Memory.zero⟩ number false).1 ≠ 0 then .error einvalRc else _ := rfl
    have haccepts := @accepts_number number false ⟨0, Memory.zero⟩
    rw [LgsmCall.problem, if_neg Bool.true_eq_false.mp]
    by_cases hnumber : IsNumber (cstr number) ∧ ¬ International (cstr number)
    · have hzero := haccepts.mpr ⟨hnumber.1, fun h => hnumber.2 h.2⟩
      rw [if_pos hnumber]
      exact ⟨rfl, _, _, hprepare.trans (if_neg (not_not.mpr hzero)), rfl, rfl,
        Nat.le_of_ble_eq_true rfl⟩
    · rw [if_neg hnumber]
      refine hprepare.trans (if_pos fun hzero => hnumber ?_)
      exact ⟨(haccepts.mp hzero).1, fun hintl => (haccepts.mp hzero).2 ⟨rfl, hintl⟩⟩

theorem prepare_problem (malloc : Bool) (call : LgsmCall) :
    match call.problem malloc with
    | some rc => call.prepare malloc = .error rc
    | none => malloc = true ∧ Prepares call := by
  cases call with
  | pin type old new => exact pin_problem
  | smsSend sms =>
    let blank : Gmh := ⟨requestHdr gsmdMsgSms gsmdSmsSend 0 240, Memory.zero⟩
    exact filled_problem (.smsSend sms) blank 0 sms (fun _ => rfl) rfl rfl (fun _ => rfl)
      (Nat.le_of_ble_eq_true rfl) malloc
  | smsWrite stat sms =>
    let blank : Gmh := ⟨requestHdr gsmdMsgSms gsmdSmsWrite 0 241,
      Memory.zero.store 0 [intByte stat.toInt]⟩
    exact filled_problem (.smsWrite stat sms) blank 1 sms (fun _ => rfl) rfl rfl (fun _ => rfl)
      (Nat.le_of_ble_eq_true rfl) malloc
  | smsSetSmsc number => exact smsSetSmsc_problem
  | _ =>
    cases malloc with
    | false => rfl
    | true => exact ⟨rfl, _, _, rfl, rfl, rfl, Nat.le_of_ble_eq_true rfl⟩

/-- What the daemon has when it reads the socket of a client; its buffer is not cleared between two
messages. -/
structure UsockRead where
  stale : Memory
  block : GsmdUcmd
  client : Client

inductive LgsmStep
  | call (gu : ℕ) (call : LgsmCall) (malloc goesOut : Bool)
  | read (gu : ℕ) (r : UsockRead)

/-- The clients' ids and their sockets, which are streams. -/
structure Sides where
  nextMsgId : ℕ → UInt16
  socket : ℕ → Bytes

inductive Served
  | returned (rc : ℤ)
  | answered (orders : Option (List Order))
  deriving DecidableEq

namespace Sides

variable {textMode : Bool}

/-- A read takes what waits, as far as the buffer goes, and looks at one message. -/
def step (textMode : Bool) (s : Sides) : LgsmStep → Sides × Served
  | .call gu call malloc goesOut =>
    let r := call.run (s.nextMsgId gu) malloc goesOut
    ({ nextMsgId := Function.update s.nextMsgId gu r.nextMsgId
       socket := Function.update s.socket gu (s.socket gu ++ r.message.getD []) }, .returned r.rc)
  | .read gu r =>
    let got := (s.socket gu).take rcvBufSize
    if got = [] then (s, .answered (some []))
    else
      ({ s with socket := Function.update s.socket gu ((s.socket gu).drop rcvBufSize) },
        .answered (answer (usockRcvMessage textMode r.block gu r.client (r.stale.store 0 got)
          got.length)))

def run (textMode : Bool) : Sides → List LgsmStep → List Served
  | _, [] => []
  | s, step :: steps => (s.step textMode step).2 :: run textMode (s.step textMode step).1 steps

end Sides

/-- The ids that the clients are to have, and the call whose message is to be read, with its id. -/
structure Asked where
  ids : ℕ → UInt16
  waiting : ℕ → Option (LgsmCall × UInt16)

namespace Asked

/-- Every message takes an id, also one that does not go out. -/
def next (a : Asked) : LgsmStep → Asked
  | .call gu call malloc goesOut =>
    if call.problem malloc = none then
      { ids := Function.update a.ids gu (a.ids gu + 1)
        waiting := if goesOut then Function.update a.waiting gu (some (call, a.ids gu)) else a.waiting }
    else a
  | .read gu _ => { a with waiting := Function.update a.waiting gu none }

def served (textMode : Bool) (a : Asked) : LgsmStep → Served
  | .call _ call malloc goesOut => .returned ((call.problem malloc).getD (call.result goesOut))
  | .read gu _ =>
    .answered ((a.waiting gu).elim (some []) fun asked => asked.1.orders textMode gu asked.2)

/-- A message goes out when the one before it has been read: of two that one read takes, the second is
lost. -/
def Alone (textMode : Bool) (a : Asked) : LgsmStep → Prop
  | .call gu call malloc goesOut =>
    call.problem malloc = none → goesOut = true → a.waiting gu = none
  | .read gu r => ∀ asked ∈ a.waiting gu, asked.1.Fits textMode r.client

def expected (textMode : Bool) : Asked → List LgsmStep → List Served
  | _, [] => []
  | a, step :: steps => a.served textMode step :: expected textMode (a.next step) steps

def AllAlone (textMode : Bool) : Asked → List LgsmStep → Prop
  | _, [] => True
  | a, step :: steps => a.Alone textMode step ∧ AllAlone textMode (a.next step) steps

end Asked

section

variable {textMode : Bool} {s : Sides} {a : Asked}

inductive Waits : Option (LgsmCall × UInt16) → Bytes → Prop
  | nothing : Waits none []
  | message {call : LgsmCall} {gmh : Gmh} {check : SendCheck} (id : UInt16) :
      call.prepare true = .ok (gmh, check) → gmh.hdr.len.toNat ≤ 1 + sizeofSmsSubmit →
        Waits (some (call, id)) (gmh.numbered id).bytes

theorem Waits.empty {bytes : Bytes} (h : Waits none bytes) : bytes = [] := by
  cases h
  rfl

structure Agrees (s : Sides) (a : Asked) : Prop where
  ids : s.nextMsgId = a.ids
  sockets : ∀ gu, Waits (a.waiting gu) (s.socket gu)

theorem Agrees.update (h : Agrees s a) {gu : ℕ} {ids : ℕ → UInt16} {asked : Option (LgsmCall × UInt16)}
    {bytes : Bytes} (hwaits : Waits asked bytes) :
    Agrees ⟨ids, Function.update s.socket gu bytes⟩ ⟨ids, Function.update a.waiting gu asked⟩ := by
  refine ⟨rfl, fun gu' => ?_⟩
  change Waits (Function.update a.waiting gu asked gu') (Function.update s.socket gu bytes gu')
  by_cases heq : gu' = gu
  · rw [heq, Function.update_self, Function.update_self]
    exact hwaits
  · rw [Function.update_of_ne heq, Function.update_of_ne heq]
    exact h.sockets gu'

theorem numbered_length (gmh : Gmh) (id : UInt16) :
    (gmh.numbered id).bytes.length = sizeofHdr + gmh.hdr.len.toNat := by
  rw [Gmh.bytes, List.length_append, Memory.slice_length, GsmdMsgHdr.bytes_length]
  rfl

theorem call_served (h : Agrees s a) {gu : ℕ} {call : LgsmCall} {malloc goesOut : Bool}
    (halone : a.Alone textMode (.call gu call malloc goesOut)) :
    (s.step textMode (.call gu call malloc goesOut)).2 =
        a.served textMode (.call gu call malloc goesOut) ∧
      Agrees (s.step textMode (.call gu call malloc goesOut)).1
        (a.next (.call gu call malloc goesOut)) := by
  have hproblem := prepare_problem malloc call
  have hsame (ids : ℕ → UInt16) : Agrees ⟨ids, Function.update s.socket gu (s.socket gu ++ [])⟩
      ⟨ids, a.waiting⟩ := by
    rw [List.append_nil, Function.update_eq_self]
    exact ⟨rfl, h.sockets⟩
  rw [Asked.served, Asked.next, Sides.step, LgsmCall.run, h.ids]
  cases hp : call.problem malloc with
  | some rc =>
    rw [hp] at hproblem
    rw [hproblem, if_neg (Option.some_ne_none _)]
    refine ⟨rfl, ?_⟩
    rw [Function.update_eq_self]
    exact hsame a.ids
  | none =>
    rw [hp] at hproblem
    obtain ⟨rfl, gmh, check, hprepare, hsent, hlost, hlen⟩ := hproblem
    rw [hprepare, if_pos rfl]
    cases goesOut with
    | false => exact ⟨congrArg Served.returned hlost, hsame _⟩
    | true =>
      have hempty : s.socket gu = [] := by
        have hwaits := h.sockets gu
        rw [halone hp rfl] at hwaits
        exact hwaits.empty
      have hrc : check.rc (gmh.numbered (a.ids gu)).bytes.length = call.result true := by
        rw [numbered_length, ← hsent]
        rfl
      refine ⟨congrArg Served.returned hrc, ?_⟩
      rw [hempty]
      exact h.update (.message (a.ids gu) hprepare hlen)

theorem read_served (h : Agrees s a) {gu : ℕ} {r : UsockRead}
    (halone : a.Alone textMode (.read gu r)) :
    (s.step textMode (.read gu r)).2 = a.served textMode (.read gu r) ∧
      Agrees (s.step textMode (.read gu r)).1 (a.next (.read gu r)) := by
  have hwaits := h.sockets gu
  rw [Asked.served, Asked.next, Sides.step]
  rw [Asked.Alone] at halone
  generalize hasked : a.waiting gu = asked at hwaits halone
  generalize hsocket : s.socket gu = bytes at hwaits
  cases hwaits with
  | nothing =>
    rw [List.take_nil, if_pos rfl]
    refine ⟨rfl, ?_⟩
    rw [← hasked, Function.update_eq_self]
    exact ⟨h.ids, h.sockets⟩
  | @message call gmh check id hprepare hlen =>
    have hwhole : (gmh.numbered id).bytes.length ≤ rcvBufSize := by
      rw [numbered_length]
      exact (Nat.add_le_add_left hlen _).trans (Nat.le_of_ble_eq_true rfl)
    have hsome : (gmh.numbered id).bytes ≠ [] := by
      intro hnil
      have hlength := numbered_length gmh id
      rw [hnil, List.length_nil, sizeofHdr] at hlength
      omega
    rw [List.take_of_length_le hwhole, List.drop_of_length_le hwhole, if_neg hsome, h.ids]
    refine ⟨congrArg Served.answered ?_, h.update .nothing⟩
    exact prepared_answered hprepare (halone _ rfl)

theorem step_served (h : Agrees s a) (step : LgsmStep) (halone : a.Alone textMode step) :
    (s.step textMode step).2 = a.served textMode step ∧
      Agrees (s.step textMode step).1 (a.next step) := by
  cases step with
  | call gu call malloc goesOut => exact call_served h halone
  | read gu r => exact read_served h halone

theorem run_served (steps : List LgsmStep) (h : Agrees s a) (halone : a.AllAlone textMode steps) :
    s.run textMode steps = a.expected textMode steps := by
  induction steps generalizing s a with
  | nil => rfl
  | cons step steps ih =>
    obtain ⟨hserved, hagree⟩ := step_served h step halone.1
    rw [Sides.run, Asked.expected, hserved, ih hagree halone.2]

theorem agrees_start {ids : ℕ → UInt16} : Agrees ⟨ids, fun _ => []⟩ ⟨ids, fun _ => none⟩ :=
  ⟨rfl, fun _ => .nothing⟩

theorem requests_served (steps : List LgsmStep) (ids : ℕ → UInt16)
    (halone : Asked.AllAlone textMode ⟨ids, fun _ => none⟩ steps) :
    Sides.run textMode ⟨ids, fun _ => []⟩ steps =
      Asked.expected textMode ⟨ids, fun _ => none⟩ steps :=
  run_served steps agrees_start halone

def hiMessage : LgsmMessage := ⟨⟨0, Memory.zero.store 0 [0xe8, 0x34], 2⟩, ascii "123", 0⟩

theorem hiMessage_fits : FitsArrays false hiMessage.submit := by decide

theorem requests_served_two :
    let r : UsockRead := ⟨Memory.zero, ⟨0, requestHdr 0 0 0 0, Memory.zero⟩, ⟨⟨[], false, 0⟩, [], []⟩⟩
    Sides.run false ⟨fun _ => 9, fun _ => []⟩
      [.call 7 (.smsSend hiMessage) true true, .call 8 (.pin 1 (ascii "123456789") none) true true,
        .call 8 .voiceHangup true true, .read 7 r, .call 7 .voiceInAccept true true, .read 8 r,
        .read 7 r] =
      [.returned 0, .returned (-22), .returned 8,
        .answered (some [⟨false, ascii "AT+CMGS=11\n000100038121F3000002E834" ++ [26],
          some .smsSendCb, 7, 9⟩]),
        .returned 8, .answered (some [⟨true, ascii "ATH", some .usockCmdCb, 8, 9⟩]),
        .answered (some [⟨false, ascii "ATA", some .usockCmdCb, 7, 10⟩])] := by
  intro r
  refine (requests_served _ _ ?_).trans (by decide +kernel)
  have hsend : LgsmCall.problem true (.smsSend hiMessage) = none := by decide +kernel
  have hpin : LgsmCall.problem true (.pin 1 (ascii "123456789") none) ≠ none := by decide +kernel
  simp only [Asked.AllAlone, Asked.Alone, Asked.next, if_pos hsend, if_neg hpin]
  refine ⟨fun _ _ => trivial, fun hno => absurd hno hpin, fun _ _ => rfl, ?_, fun _ _ => rfl, ?_, ?_,
    trivial⟩
  · rintro asked ⟨⟩
    exact hiMessage_fits
  · rintro asked ⟨⟩
    exact trivial
  · rintro asked ⟨⟩
    exact trivial

end

end SystemTestSuite.Libgsmd
