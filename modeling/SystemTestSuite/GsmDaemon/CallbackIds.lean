import SystemTestSuite.GsmDaemon.UsockRequests

namespace SystemTestSuite.GsmDaemon

open Library

variable {κ : Type} {id : UInt16} {u : Unset} {cmd : GsmdAtcmd κ} {resp : Bytes}

def RepliesWith (id : UInt16) (r : Option CbOutcome) : Prop :=
  ∀ o, r = some o → ∀ ucmd, o.reply = some ucmd → ucmd.hdr.id = id

def UsockCb.threadsId : UsockCb → Bool
  | .usockCmdCb | .networkVmailCb | .networkPrefOpersCb | .networkPrefNumCb
  | .networkOwnnumbersCb | .smsListCb | .smsReadCb | .smsSendCb | .smsWriteCb | .smsDeleteCb
  | .usockCpmsCb | .usockGetSmscCb => true
  | _ => false

def UsockCb.silent : UsockCb → Bool
  | .nullCmdCb | .pinCmdCb | .phonePowerupCb => true
  | _ => false

@[simp] theorem store_hdr (ucmd : GsmdUcmd) (off : ℕ) (bs : Bytes) :
    (ucmd.store off bs).hdr = ucmd.hdr := rfl

@[simp] theorem gsmdUcmdFill_id (block : GsmdUcmd) (len : ℕ) (msgType msgSubtype : UInt8)
    (id : UInt16) : (gsmdUcmdFill block len msgType msgSubtype id).hdr.id = id := rfl

@[simp] theorem repliesWith_some (o : CbOutcome) :
    RepliesWith id (some o) ↔ ∀ ucmd, o.reply = some ucmd → ucmd.hdr.id = id := by
  simp [RepliesWith]

theorem repliesWith_map {α : Type} {r : Option α} {f : α → CbOutcome}
    (h : ∀ a, r = some a → ∀ ucmd, (f a).reply = some ucmd → ucmd.hdr.id = id) :
    RepliesWith id (r.map f) := by
  intro o ho
  obtain ⟨a, ha, rfl⟩ := Option.map_eq_some_iff.mp ho
  exact h a ha

theorem repliesWith_bind {α : Type} {r : Option α} {f : α → Option CbOutcome}
    (h : ∀ a, r = some a → RepliesWith id (f a)) : RepliesWith id (r.bind f) := by
  intro o ho
  obtain ⟨a, ha, hf⟩ := Option.bind_eq_some_iff.mp ho
  exact h a ha o hf

theorem networkVmailCb_id : RepliesWith cmd.msgId (networkVmailCb u cmd resp) := by
  rw [networkVmailCb]
  split_ifs <;> simp

theorem networkSigqCb_id : RepliesWith 0 (networkSigqCb u resp) := by
  rw [networkSigqCb]
  cases strchr resp 44 <;> simp

theorem networkOperCb_id : RepliesWith 0 (networkOperCb u resp) := by
  rw [networkOperCb]
  dsimp only
  split <;> simp

theorem networkPrefOpersCb_id : RepliesWith cmd.msgId (networkPrefOpersCb u cmd resp) := by
  rw [networkPrefOpersCb]
  split_ifs
  · simp
  · split <;> simp

theorem networkPrefNumCb_id : RepliesWith cmd.msgId (networkPrefNumCb u cmd resp) := by
  rw [networkPrefNumCb]
  split_ifs
  · simp
  · split <;> simp

theorem networkOwnnumbersCb_id : RepliesWith cmd.msgId (networkOwnnumbersCb u cmd resp) := by
  rw [networkOwnnumbersCb]
  split_ifs
  · simp
  · extract_lets len ucmd number scanned
    have hscanned : ∀ r, scanned = some r → r.1.hdr.id = cmd.msgId := by
      intro r hr
      simp only [scanned] at hr
      split_ifs at hr
      · split at hr
        · rw [← Option.some.inj hr]
          rfl
        · cases hr
      · rw [← Option.some.inj hr]
        rfl
    clear_value scanned
    split
    · simpa using hscanned _ rfl
    · simp

theorem smsPduReply_id (msgSubtype index : UInt8) (stat len : ℤ) (last hex : Bytes) :
    RepliesWith cmd.msgId (smsPduReply u cmd msgSubtype index stat len last hex) := by
  rw [smsPduReply]
  cases readHexPdu smsMaxPduSize hex with
  | none => simp
  | some pdu =>
    apply repliesWith_bind
    rintro ⟨rc, msg⟩ -
    change RepliesWith _ (if rc ≠ 0 then some _ else some _)
    split_ifs <;> simp

theorem smsListCb_id : RepliesWith cmd.msgId (smsListCb u cmd resp) := by
  rw [smsListCb]
  by_cases hret : cmd.ret ≠ 0 ∧ cmd.ret ≠ -255
  · simp [if_pos hret]
  · rw [if_neg hret]
    extract_lets first second
    split
    · split_ifs
      · simp
      · apply smsPduReply_id
    · simp

theorem smsReadCb_id : RepliesWith cmd.msgId (smsReadCb u cmd resp) := by
  rw [smsReadCb]
  by_cases hret : cmd.ret ≠ 0
  · simp [if_pos hret]
  · rw [if_neg hret]
    extract_lets first second
    split
    · next stat len cr heq =>
      by_cases hlen : len > 164
      · simp [if_pos hlen]
      · rw [if_neg hlen]
        apply smsPduReply_id
    · simp

theorem smsIntReply_id (msgSubtype : UInt8) (result : ℤ) :
    RepliesWith cmd.msgId (smsIntReply u cmd msgSubtype result) := by
  simp [smsIntReply]

theorem smsSendCb_id : RepliesWith cmd.msgId (smsSendCb u cmd resp) := by
  rw [smsSendCb]
  split_ifs
  · split
    · apply smsIntReply_id
    · simp
  · apply smsIntReply_id

theorem smsWriteCb_id : RepliesWith cmd.msgId (smsWriteCb u cmd resp) := by
  rw [smsWriteCb]
  split_ifs
  · split
    · apply smsIntReply_id
    · simp
  · apply smsIntReply_id

theorem usockCpmsCb_id : RepliesWith cmd.msgId (usockCpmsCb u cmd resp) := by
  rw [usockCpmsCb]
  split <;> simp [GsmdUcmd.storeStorage]

theorem usockGetSmscCb_id : RepliesWith cmd.msgId (usockGetSmscCb u cmd resp) := by
  rw [usockGetSmscCb]
  split <;> simp

theorem pbEntries_id {msgSubtype : UInt8} {r : GsmdUcmd × List Memory}
    (h : pbEntries u resp msgSubtype = some r) : r.1.hdr.id = 0 := by
  obtain ⟨entries, -, hr⟩ := Option.bind_eq_some_iff.mp h
  rw [← Option.some.inj hr]
  rfl

theorem phonebookFindCb_id : RepliesWith 0 (phonebookFindCb u resp) := by
  apply repliesWith_map
  intro r hr ucmd hreply
  rw [← Option.some.inj hreply]
  exact pbEntries_id hr

theorem phonebookReadrgCb_id : RepliesWith 0 (phonebookReadrgCb u resp) := by
  apply repliesWith_map
  intro r hr ucmd hreply
  rw [← Option.some.inj hreply]
  exact pbEntries_id hr

theorem phonebookReadCb_id : RepliesWith 0 (phonebookReadCb u resp) := by
  rw [phonebookReadCb]
  split_ifs
  · apply repliesWith_bind
    simp
  · simp

theorem phonebookGetSupportCb_id : RepliesWith 0 (phonebookGetSupportCb u resp) := by
  rw [phonebookGetSupportCb]
  split <;> simp

theorem runCb_id (cb : UsockCb) :
    RepliesWith (if cb.threadsId then cmd.msgId else 0) (runCb cb u cmd resp) := by
  cases cb with
  | usockCmdCb => simp [runCb, usockCmdCb, UsockCb.threadsId]
  | nullCmdCb => simp [runCb, nullCmdCb]
  | pinCmdCb => simp [runCb, pinCmdCb]
  | phonePowerupCb => simp [runCb, phonePowerupCb]
  | networkVmailCb => exact networkVmailCb_id
  | networkSigqCb => exact networkSigqCb_id
  | networkOperCb => exact networkOperCb_id
  | networkOpersCb => simp [runCb, networkOpersCb, UsockCb.threadsId]
  | networkPrefOpersCb => exact networkPrefOpersCb_id
  | networkPrefNumCb => exact networkPrefNumCb_id
  | networkOwnnumbersCb => exact networkOwnnumbersCb_id
  | smsListCb => exact smsListCb_id
  | smsReadCb => exact smsReadCb_id
  | smsSendCb => exact smsSendCb_id
  | smsWriteCb => exact smsWriteCb_id
  | smsDeleteCb => exact smsIntReply_id _ _
  | usockCpmsCb => exact usockCpmsCb_id
  | usockGetSmscCb => exact usockGetSmscCb_id
  | phonebookFindCb => exact phonebookFindCb_id
  | phonebookReadCb => exact phonebookReadCb_id
  | phonebookReadrgCb => exact phonebookReadrgCb_id
  | phonebookWriteCb => simp [runCb, phonebookWriteCb, pbTextReply, UsockCb.threadsId]
  | phonebookDeleteCb => simp [runCb, phonebookDeleteCb, pbTextReply, UsockCb.threadsId]
  | phonebookGetSupportCb => exact phonebookGetSupportCb_id
  | phonebookListStorageCb => simp [runCb, phonebookListStorageCb, UsockCb.threadsId]
  | getImsiCb => simp [runCb, getImsiCb, pbTextReply, UsockCb.threadsId]

theorem silent_reply {cb : UsockCb} (hsilent : cb.silent = true) {o : CbOutcome}
    (h : runCb cb u cmd resp = some o) : o.reply = none := by
  cases cb with
  | nullCmdCb | pinCmdCb | phonePowerupCb =>
    obtain rfl := Option.some.inj h
    rfl
  | _ => cases hsilent

theorem networkVmailCb_set (hset : cmd.buf[7]? = some 61) {o : CbOutcome}
    (h : networkVmailCb u cmd resp = some o) : o.reply = none := by
  rw [networkVmailCb, if_pos hset] at h
  rw [← Option.some.inj h]

def Replies (r : Option CbOutcome) : Prop := ∃ o ucmd, r = some o ∧ o.reply = some ucmd

theorem replies_some {o : CbOutcome} (h : o.reply.isSome = true) : Replies (some o) := by
  obtain ⟨ucmd, hucmd⟩ := Option.isSome_iff_exists.mp h
  exact ⟨o, ucmd, rfl, hucmd⟩

def UsockCb.answer : UsockCb → Option Bytes
  | .nullCmdCb | .pinCmdCb | .phonePowerupCb | .smsListCb | .smsReadCb => none
  | .networkVmailCb => some (ascii "1,2,3")
  | .networkSigqCb => some (ascii "+CSQ: 1,2")
  | .networkPrefOpersCb => some (ascii "+CPOL: 1,0,\"A\"")
  | .networkPrefNumCb => some (ascii "+CPOL: (1-2)")
  | .networkOwnnumbersCb => some (ascii "+CNUM: ,\"1\",129")
  | .smsSendCb => some (ascii "+CMGS: 1")
  | .smsWriteCb => some (ascii "+CMGW: 1")
  | .usockCpmsCb => some (ascii "+CPMS: \"SM\",1,2,\"SM\",1,2,\"SM\",1,2")
  | .usockGetSmscCb => some (ascii "+CSCA: \"1\",145")
  | .phonebookGetSupportCb => some (ascii "(1-100),44,16")
  | _ => some []

theorem runCb_replies {cb : UsockCb} (h : cb.answer = some resp) (hret : cmd.ret = 0)
    (hget : cb = .networkVmailCb → cmd.buf[7]? ≠ some 61) (u : Unset) :
    Replies (runCb cb u cmd resp) := by
  cases cb with
  | nullCmdCb | pinCmdCb | phonePowerupCb | smsListCb | smsReadCb => cases h
  | networkVmailCb =>
    cases h
    rw [runCb, networkVmailCb, if_neg (hget rfl), if_neg (by decide)]
    exact replies_some rfl
  | networkPrefOpersCb =>
    cases h
    rw [runCb, networkPrefOpersCb, if_neg (by simp [hret])]
    exact replies_some rfl
  | networkPrefNumCb =>
    cases h
    rw [runCb, networkPrefNumCb, if_neg (by simp [hret])]
    exact replies_some rfl
  | networkOwnnumbersCb =>
    cases h
    rw [runCb, networkOwnnumbersCb, if_neg (by simp [hret])]
    exact replies_some rfl
  | smsSendCb =>
    cases h
    rw [runCb, smsSendCb, if_pos (Or.inl hret)]
    exact replies_some rfl
  | smsWriteCb =>
    cases h
    rw [runCb, smsWriteCb, if_pos hret]
    exact replies_some rfl
  | _ =>
    cases h
    exact replies_some rfl

end SystemTestSuite.GsmDaemon
