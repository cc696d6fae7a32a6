import SystemTestSuite.GsmDaemon.ReplyRules
import SystemTestSuite.GsmDaemon.RequestEffects

namespace SystemTestSuite.GsmDaemon

open Library

variable {gph : GsmdMsgHdr} {client : Client} {handled : Handled} {textMode : Bool}
  {block : GsmdUcmd} {gu len : ℕ} {buf : Memory}

theorem request_eq {msgType msgSubtype : UInt8} (ht : gph.msgType = msgType)
    (hs : gph.msgSubtype = msgSubtype) : gph.request = (msgType, msgSubtype) := by
  rw [GsmdMsgHdr.request, ht, hs]

theorem usockRcvPassthrough_fulfils (ht : (hdrAt buf 0).msgType = gsmdMsgPassthrough) :
    OnceAccepted (Fulfils (hdrAt buf 0) client) (usockRcvPassthrough gu client buf) := by
  have hno (msgSubtype : UInt8) :
      (gsmdMsgPassthrough, msgSubtype) ∉ zeroIdRequests ++ zeroIdAnswers := by
    simp [zeroIdRequests, zeroIdAnswers, gsmdMsgPassthrough, gsmdMsgNetwork, gsmdMsgSms,
      gsmdMsgPhonebook]
  refine filled_quiet (request_eq ht rfl) (hno _) (fun _ => ⟨rfl, rfl⟩) ?_
  intro cmd hcb hid
  exact threads_id hcb rfl hid

theorem usockRcvEvent_fulfils (ht : (hdrAt buf 0).msgType = gsmdMsgEvent) :
    OnceAccepted (Fulfils (hdrAt buf 0) client) (usockRcvEvent client buf len) := by
  refine onceAccepted_ite (fun _ => onceAccepted_error _) fun _ => ?_
  refine onceAccepted_ite (fun _ => onceAccepted_error _) fun hs => ?_
  apply onceAccepted_ok
  exact fulfils_quiet (request_eq ht (not_not.mp hs)) (by decide) (List.forall_mem_nil _)
    List.drop_length

theorem usockRcvVoicecall_fulfils (ht : (hdrAt buf 0).msgType = gsmdMsgVoicecall) :
    OnceAccepted (Fulfils (hdrAt buf 0) client) (usockRcvVoicecall gu client buf len) := by
  apply onceAccepted_ite
  · intro hs
    apply onceAccepted_guard
    refine filled_quiet (request_eq ht hs) (by decide) (fun _ => ⟨rfl, rfl⟩) ?_
    intro cmd hcb hid
    exact threads_id hcb rfl hid
  intro _
  apply onceAccepted_ite
  · intro hs
    apply onceAccepted_filled
    intro cmd _ hcb hid
    apply onceAccepted_ok
    exact fulfils_quiet (request_eq ht hs) (by decide)
      (List.forall_mem_singleton.mpr (threads_id hcb rfl hid)) (enqueuedSince_self client)
  intro _
  apply onceAccepted_ite
  · intro hs
    refine filled_quiet (request_eq ht hs) (by decide) (fun _ => ⟨rfl, rfl⟩) ?_
    intro cmd hcb hid
    exact threads_id hcb rfl hid
  intro _
  refine onceAccepted_ite (fun hs => ?_) fun _ => onceAccepted_error _
  apply onceAccepted_guard
  apply onceAccepted_guard
  apply onceAccepted_guard
  refine filled_quiet (request_eq ht hs) (by decide) (fun _ => ⟨rfl, rfl⟩) ?_
  intro cmd hcb hid
  exact threads_id hcb rfl hid

theorem usockRcvPin_fulfils (ht : (hdrAt buf 0).msgType = gsmdMsgPin) :
    OnceAccepted (Fulfils (hdrAt buf 0) client) (usockRcvPin gu client buf len) := by
  refine onceAccepted_guard (onceAccepted_ite (fun _ => onceAccepted_error _) fun hs => ?_)
  refine filled_quiet (request_eq ht (not_not.mp hs)) (by decide) (fun _ => ⟨rfl, rfl⟩) ?_
  intro cmd hcb _
  exact threads_silent hcb rfl

theorem usockRcvPhone_fulfils (ht : (hdrAt buf 0).msgType = gsmdMsgPhone) :
    OnceAccepted (Fulfils (hdrAt buf 0) client) (usockRcvPhone gu client buf) := by
  apply onceAccepted_ite
  · intro hs
    refine filled_quiet (request_eq ht hs) (by decide) (fun _ => ⟨rfl, rfl⟩) ?_
    intro cmd hcb _
    exact threads_silent hcb rfl
  intro _
  refine onceAccepted_ite (fun hs => ?_) fun _ => onceAccepted_error _
  apply onceAccepted_filled
  intro cmd _ hcb _
  apply onceAccepted_ok
  exact fulfils_quiet (request_eq ht hs) (by decide)
    (List.forall_mem_singleton.mpr (threads_silent hcb rfl)) (enqueuedSince_self client)

theorem usockRcvNetwork_fulfils (ht : (hdrAt buf 0).msgType = gsmdMsgNetwork) :
    OnceAccepted (Fulfils (hdrAt buf 0) client) (usockRcvNetwork gu client buf) := by
  have quiet {msgSubtype : UInt8} {text : Bytes} (hs : (hdrAt buf 0).msgSubtype = msgSubtype)
      (hno : (gsmdMsgNetwork, msgSubtype) ∉ zeroIdRequests ++ zeroIdAnswers) :
      OnceAccepted (Fulfils (hdrAt buf 0) client)
        (sized text (some .nullCmdCb) gu 0 >>= fun cmd => .ok (submits client cmd)) := by
    refine filled_quiet (request_eq ht hs) hno (fun _ => ⟨rfl, rfl⟩) ?_
    intro cmd hcb _
    exact threads_silent hcb rfl
  refine onceAccepted_ite (fun hs => quiet hs (by decide)) fun _ => ?_
  refine onceAccepted_ite (fun hs => quiet hs (by decide)) fun _ => ?_
  apply onceAccepted_ite
  · intro hs
    apply onceAccepted_filled
    intro cmd hcmd hcb hid
    have hget : cmd.buf[7]? = some 63 := by
      rw [← Except.ok.inj hcmd]
      rfl
    apply onceAccepted_ok
    exact submits_zero (request_eq ht hs) (by decide) (by decide) hcb hid rfl rfl
      (fun _ => by simp [hget])
  intro _
  apply onceAccepted_ite
  · intro hs
    apply onceAccepted_filled
    intro cmd hcmd hcb _
    have hset : cmd.buf[7]? = some 61 := by
      rw [← Except.ok.inj hcmd]
      rfl
    apply onceAccepted_ok
    exact submits_quiet (request_eq ht hs) (by decide) (threads_set hcb hset)
  intro _
  apply onceAccepted_ite
  · intro hs
    exact filled_zero (request_eq ht hs) (by decide) (by decide) (by decide) rfl rfl fun _ => ⟨rfl, rfl⟩
  intro _
  apply onceAccepted_ite
  · intro hs
    exact filled_format_zero (request_eq ht hs) (by decide) (by decide) (by decide) rfl rfl
  intro _
  apply onceAccepted_ite
  · intro hs
    exact filled_zero (request_eq ht hs) (by decide) (by decide) (by decide) rfl rfl fun _ => ⟨rfl, rfl⟩
  intro _
  apply onceAccepted_ite
  · intro hs
    exact filled_format_zero (request_eq ht hs) (by decide) (by decide) (by decide) rfl rfl
  intro _
  refine onceAccepted_ite (fun hs => quiet hs (by decide)) fun _ => ?_
  refine onceAccepted_ite (fun hs => quiet hs (by decide)) fun _ => ?_
  apply onceAccepted_ite
  · intro hs
    exact filled_zero (request_eq ht hs) (by decide) (by decide) (by decide) rfl rfl fun _ => ⟨rfl, rfl⟩
  intro _
  refine onceAccepted_ite (fun hs => ?_) fun _ => onceAccepted_error _
  exact filled_zero (request_eq ht hs) (by decide) (by decide) (by decide) rfl rfl fun _ => ⟨rfl, rfl⟩

theorem usockRcvSms_fulfils (ht : (hdrAt buf 0).msgType = gsmdMsgSms) :
    OnceAccepted (Fulfils (hdrAt buf 0) client) (usockRcvSms textMode gu client buf len) := by
  have quiet {msgSubtype : UInt8} {text : Bytes} {cb : UsockCb} (hth : cb.threadsId = true)
      (hs : (hdrAt buf 0).msgSubtype = msgSubtype)
      (hno : (gsmdMsgSms, msgSubtype) ∉ zeroIdRequests ++ zeroIdAnswers) :
      OnceAccepted (Fulfils (hdrAt buf 0) client)
        (sized text (some cb) gu (hdrAt buf 0).id >>= fun cmd => .ok (submits client cmd)) := by
    refine filled_quiet (request_eq ht hs) hno (fun _ => ⟨rfl, rfl⟩) ?_
    intro cmd hcb hid
    exact threads_id hcb hth hid
  apply onceAccepted_ite
  · intro hs
    apply onceAccepted_guard
    apply onceAccepted_guard
    exact quiet rfl hs (by decide)
  intro _
  apply onceAccepted_ite
  · intro hs
    apply onceAccepted_guard
    exact quiet rfl hs (by decide)
  intro _
  apply onceAccepted_ite
  · intro hs
    apply onceAccepted_guard
    exact quiet rfl hs (by decide)
  intro _
  apply onceAccepted_ite
  · intro hs
    apply onceAccepted_guard
    apply onceAccepted_guard
    exact quiet rfl hs (by decide)
  intro _
  apply onceAccepted_ite
  · intro hs
    apply onceAccepted_guard
    exact quiet rfl hs (by decide)
  intro _
  apply onceAccepted_ite
  · intro hs
    exact filled_zero (request_eq ht hs) (by decide) (by decide) (by decide) rfl rfl fun _ => ⟨rfl, rfl⟩
  intro _
  apply onceAccepted_ite
  · intro hs
    apply onceAccepted_guard
    split
    · refine filled_quiet (request_eq ht hs) (by decide) (fun _ => ⟨rfl, rfl⟩) ?_
      intro cmd hcb _
      exact threads_none hcb
    · exact onceAccepted_error _
  intro _
  apply onceAccepted_ite
  · intro hs
    exact filled_zero (request_eq ht hs) (by decide) (by decide) (by decide) rfl rfl fun _ => ⟨rfl, rfl⟩
  intro _
  refine onceAccepted_ite (fun hs => ?_) fun _ => onceAccepted_error _
  apply onceAccepted_guard
  refine filled_quiet (request_eq ht hs) (by decide) (fun _ => ⟨rfl, rfl⟩) ?_
  intro cmd hcb _
  exact threads_none hcb

theorem usockRcvCb_fulfils (ht : (hdrAt buf 0).msgType = gsmdMsgCb) :
    OnceAccepted (Fulfils (hdrAt buf 0) client) (usockRcvCb client buf) := by
  apply onceAccepted_ite
  · intro hs
    refine filled_quiet (request_eq ht hs) (by decide) (fun _ => ⟨rfl, rfl⟩) ?_
    intro cmd hcb _
    exact threads_none hcb
  intro _
  refine onceAccepted_ite (fun hs => ?_) fun _ => onceAccepted_error _
  refine filled_quiet (request_eq ht hs) (by decide) (fun _ => ⟨rfl, rfl⟩) ?_
  intro cmd hcb _
  exact threads_none hcb

theorem pbRetrieve_reply {num : ℕ} {msgSubtype : UInt8} {entries : List Memory} {ucmd : GsmdUcmd}
    (h : pbRetrieve block num msgSubtype entries = .ok ucmd) : ucmd = pbReply block num msgSubtype := by
  cases entries with
  | nil => exact (Except.ok.inj h).symm
  | cons pb entries => cases h

theorem usockRcvPhonebook_fulfils (ht : (hdrAt buf 0).msgType = gsmdMsgPhonebook) :
    OnceAccepted (Fulfils (hdrAt buf 0) client) (usockRcvPhonebook block gu client buf len) := by
  apply onceAccepted_ite
  · intro hs
    exact filled_zero (request_eq ht hs) (by decide) (by decide) (by decide) rfl rfl fun _ => ⟨rfl, rfl⟩
  intro _
  apply onceAccepted_ite
  · intro hs
    apply onceAccepted_guard
    refine filled_quiet (request_eq ht hs) (by decide) (fun _ => ⟨rfl, rfl⟩) ?_
    intro cmd hcb hid
    exact threads_id hcb rfl hid
  intro _
  apply onceAccepted_ite
  · intro hs
    apply onceAccepted_guard
    exact filled_zero (request_eq ht hs) (by decide) (by decide) (by decide) rfl rfl fun _ => ⟨rfl, rfl⟩
  intro _
  apply onceAccepted_ite
  · intro hs
    apply onceAccepted_guard
    exact filled_zero (request_eq ht hs) (by decide) (by decide) (by decide) rfl rfl fun _ => ⟨rfl, rfl⟩
  intro _
  apply onceAccepted_ite
  · intro hs
    apply onceAccepted_guard
    exact filled_zero (request_eq ht hs) (by decide) (by decide) (by decide) rfl rfl fun _ => ⟨rfl, rfl⟩
  intro _
  apply onceAccepted_ite
  · intro hs
    apply onceAccepted_guard
    exact filled_zero (request_eq ht hs) (by decide) (by decide) (by decide) rfl rfl fun _ => ⟨rfl, rfl⟩
  intro _
  apply onceAccepted_ite
  · intro hs
    apply onceAccepted_guard
    exact filled_zero (request_eq ht hs) (by decide) (by decide) (by decide) rfl rfl fun _ => ⟨rfl, rfl⟩
  intro _
  apply onceAccepted_ite
  · intro hs
    exact filled_zero (request_eq ht hs) (by decide) (by decide) (by decide) rfl rfl fun _ => ⟨rfl, rfl⟩
  intro _
  apply onceAccepted_ite
  · intro hs
    apply onceAccepted_guard
    apply onceAccepted_guard
    apply onceAccepted_bind
    intro ucmd hucmd
    rw [pbRetrieve_reply hucmd]
    apply onceAccepted_ok
    exact fulfils_answer (request_eq ht hs) (by decide) (by decide) rfl List.drop_left rfl
  intro _
  apply onceAccepted_ite
  · intro hs
    apply onceAccepted_guard
    apply onceAccepted_guard
    apply onceAccepted_bind
    intro ucmd hucmd
    rw [pbRetrieve_reply hucmd]
    apply onceAccepted_ok
    exact fulfils_answer (request_eq ht hs) (by decide) (by decide) rfl List.drop_left rfl
  intro _
  refine onceAccepted_ite (fun hs => ?_) fun _ => onceAccepted_error _
  exact filled_zero (request_eq ht hs) (by decide) (by decide) (by decide) rfl rfl fun _ => ⟨rfl, rfl⟩

theorem usockRcvMessage_fulfils :
    OnceAccepted (Fulfils (hdrAt buf 0) client)
      (usockRcvMessage textMode block gu client buf len) := by
  rw [usockRcvMessage]
  cases hpcmd : usockRcvPcmd buf with
  | none => exact onceAccepted_error _
  | some handler =>
    have htype := usockRcvPcmd_msgType hpcmd
    cases handler with
    | rcvPassthrough => exact usockRcvPassthrough_fulfils htype
    | rcvEvent => exact usockRcvEvent_fulfils htype
    | rcvVoicecall => exact usockRcvVoicecall_fulfils htype
    | rcvPin => exact usockRcvPin_fulfils htype
    | rcvPhone => exact usockRcvPhone_fulfils htype
    | rcvNetwork => exact usockRcvNetwork_fulfils htype
    | rcvSms => exact usockRcvSms_fulfils htype
    | rcvCb => exact usockRcvCb_fulfils htype
    | rcvPhonebook => exact usockRcvPhonebook_fulfils htype

theorem replies_match (h : usockRcvMessage textMode block gu client buf len = .ok handled) :
    (CallbacksMatch (hdrAt buf 0).id handled ↔
      (hdrAt buf 0).id = 0 ∨ (hdrAt buf 0).request ∉ zeroIdRequests) ∧
    (HandlerMatches (hdrAt buf 0).id client handled ↔
      (hdrAt buf 0).id = 0 ∨ (hdrAt buf 0).request ∉ zeroIdAnswers) :=
  ⟨(usockRcvMessage_fulfils handled h).callbacks, (usockRcvMessage_fulfils handled h).handler⟩

def requestSample (msgType msgSubtype : UInt8) (id : UInt16) : Memory :=
  Memory.zero.store 0 (GsmdMsgHdr.bytes ⟨gsmdProtoVersion, msgType, msgSubtype, 0, id, 0⟩)

def clientSample : Client := ⟨⟨[], false, 0⟩, [], []⟩

theorem replies_match_answer : ∃ handled,
    usockRcvMessage false zeroed.ucmd 1 clientSample
      (requestSample gsmdMsgVoicecall gsmdVoicecallAnswer 5) 8 = .ok handled ∧
    CallbacksMatch 5 handled ∧ HandlerMatches 5 clientSample handled :=
  have haccepted : usockRcvMessage false zeroed.ucmd 1 clientSample
      (requestSample gsmdMsgVoicecall gsmdVoicecallAnswer 5) 8 = .ok _ := rfl
  ⟨_, haccepted, (replies_match haccepted).1.mpr (Or.inr (by decide)),
    (replies_match haccepted).2.mpr (Or.inr (by decide))⟩

theorem sigqGet_mismatch : ∃ handled,
    usockRcvMessage false zeroed.ucmd 1 clientSample
      (requestSample gsmdMsgNetwork gsmdNetworkSigqGet 5) 8 = .ok handled ∧
    ¬ CallbacksMatch 5 handled := by
  have haccepted : usockRcvMessage false zeroed.ucmd 1 clientSample
      (requestSample gsmdMsgNetwork gsmdNetworkSigqGet 5) 8 = .ok _ := rfl
  refine ⟨_, haccepted, ?_⟩
  intro hmatch
  have h := (usockRcvMessage_fulfils _ haccepted).callbacks.mp hmatch
  exact absurd h (by decide)

end SystemTestSuite.GsmDaemon
