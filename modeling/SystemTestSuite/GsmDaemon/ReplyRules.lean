import SystemTestSuite.GsmDaemon.CallbackIds
import SystemTestSuite.GsmDaemon.SmsRead
import SystemTestSuite.Library.Accepted

namespace SystemTestSuite.GsmDaemon

open Library

def Handled.commands (h : Handled) : List (FilledAtcmd UsockCb) :=
  h.events.filterMap fun
    | .submit cmd => some cmd
    | .cancel cmd => some cmd
    | _ => none

structure Carries (c : GsmdAtcmd UsockCb) (cmd : FilledAtcmd UsockCb) : Prop where
  cb : c.cb = cmd.client.cb
  ctx : c.ctx = cmd.ctx
  msgId : c.id = cmd.id
  buf : c.buf = cmd.buf

def enqueuedSince (before after : Client) : List GsmdUcmd :=
  after.gu.finishedUcmds.drop before.gu.finishedUcmds.length

def CallbacksMatch (id : UInt16) (handled : Handled) : Prop :=
  ∀ cmd ∈ handled.commands, ∀ cb, cmd.cb = some cb → ∀ c, Carries c cmd →
    ∀ u resp o client, runCb cb u c resp = some o →
      ∀ ucmd ∈ enqueuedSince client (o.client client), ucmd.hdr.id = id

def HandlerMatches (id : UInt16) (client : Client) (handled : Handled) : Prop :=
  ∀ ucmd ∈ enqueuedSince client handled.client, ucmd.hdr.id = id

def GsmdMsgHdr.request (gph : GsmdMsgHdr) : UInt8 × UInt8 := (gph.msgType, gph.msgSubtype)

def zeroIdRequests : List (UInt8 × UInt8) :=
  [(gsmdMsgNetwork, gsmdNetworkVmailGet), (gsmdMsgNetwork, gsmdNetworkSigqGet),
    (gsmdMsgNetwork, gsmdNetworkOperGet), (gsmdMsgNetwork, gsmdNetworkOperList),
    (gsmdMsgNetwork, gsmdNetworkPrefList), (gsmdMsgNetwork, gsmdNetworkPrefSpace),
    (gsmdMsgNetwork, gsmdNetworkGetNumber), (gsmdMsgSms, gsmdSmsGetMsgStorage),
    (gsmdMsgSms, gsmdSmsGetServiceCentre), (gsmdMsgPhonebook, gsmdPhonebookListStorage),
    (gsmdMsgPhonebook, gsmdPhonebookFind), (gsmdMsgPhonebook, gsmdPhonebookRead),
    (gsmdMsgPhonebook, gsmdPhonebookReadrg), (gsmdMsgPhonebook, gsmdPhonebookWrite),
    (gsmdMsgPhonebook, gsmdPhonebookDelete), (gsmdMsgPhonebook, gsmdPhonebookGetSupport),
    (gsmdMsgPhonebook, gsmdPhonebookGetImsi)]

def zeroIdAnswers : List (UInt8 × UInt8) :=
  [(gsmdMsgPhonebook, gsmdPhonebookRetrieveReadrg), (gsmdMsgPhonebook, gsmdPhonebookRetrieveFind)]

structure Fulfils (gph : GsmdMsgHdr) (client : Client) (handled : Handled) : Prop where
  callbacks : CallbacksMatch gph.id handled ↔ gph.id = 0 ∨ gph.request ∉ zeroIdRequests
  handler : HandlerMatches gph.id client handled ↔ gph.id = 0 ∨ gph.request ∉ zeroIdAnswers

def Threads (id : UInt16) (cmd : FilledAtcmd UsockCb) : Prop :=
  ∀ cb, cmd.cb = some cb → ∀ c, Carries c cmd → ∀ u resp, RepliesWith id (runCb cb u c resp)

def Answered (cmd : FilledAtcmd UsockCb) : Prop :=
  ∃ cb c u resp, cmd.cb = some cb ∧ Carries c cmd ∧ Replies (runCb cb u c resp)

variable {gph : GsmdMsgHdr} {client : Client} {handled : Handled} {cmd : FilledAtcmd UsockCb}
  {cb : UsockCb} {id : UInt16}

theorem enqueuedSince_outcome (client : Client) (o : CbOutcome) :
    enqueuedSince client (o.client client) = o.reply.toList := by
  cases hreply : o.reply <;>
    simp [enqueuedSince, CbOutcome.client, hreply, usockCmdEnqueue]

theorem callbacksMatch_iff :
    CallbacksMatch id handled ↔ ∀ cmd ∈ handled.commands, Threads id cmd := by
  constructor
  · intro h cmd hcmd cb hcb c hc u resp o ho ucmd hucmd
    refine h cmd hcmd cb hcb c hc u resp o ⟨⟨[], false, 0⟩, [], []⟩ ho ucmd ?_
    rw [enqueuedSince_outcome, hucmd]
    exact List.mem_singleton_self ucmd
  · intro h cmd hcmd cb hcb c hc u resp o client ho ucmd hucmd
    rw [enqueuedSince_outcome] at hucmd
    exact h cmd hcmd cb hcb c hc u resp o ho ucmd (Option.mem_toList.mp hucmd)

theorem threads_none (h : cmd.cb = none) : Threads id cmd := by
  intro cb hcb
  rw [h] at hcb
  cases hcb

theorem threads_silent (h : cmd.cb = some cb) (hsilent : cb.silent = true) : Threads id cmd := by
  intro cb' hcb c _ u resp o ho ucmd hucmd
  obtain rfl := Option.some.inj (h.symm.trans hcb)
  rw [silent_reply hsilent ho] at hucmd
  cases hucmd

theorem threads_set (h : cmd.cb = some .networkVmailCb) (hset : cmd.buf[7]? = some 61) :
    Threads id cmd := by
  intro cb hcb c hc u resp o ho ucmd hucmd
  obtain rfl := Option.some.inj (h.symm.trans hcb)
  rw [← hc.buf] at hset
  rw [networkVmailCb_set hset ho] at hucmd
  cases hucmd

theorem threads_replyId (h : cmd.cb = some cb) (hid : cmd.id = id.toNat) :
    Threads (if cb.threadsId then id else 0) cmd := by
  intro cb' hcb c hc u resp
  obtain rfl := Option.some.inj (h.symm.trans hcb)
  have hmsgId : c.msgId = id := by
    rw [GsmdAtcmd.msgId, hc.msgId, hid, UInt16.ofNat_toNat]
  rw [← hmsgId]
  exact runCb_id cb

theorem threads_id (h : cmd.cb = some cb) (hth : cb.threadsId = true) (hid : cmd.id = id.toNat) :
    Threads id cmd := by
  have hthreads := threads_replyId h hid
  rwa [if_pos hth] at hthreads

theorem Answered.id_eq (h : Answered cmd) {id' : UInt16} (ht : Threads id cmd)
    (ht' : Threads id' cmd) : id = id' := by
  obtain ⟨cb, c, u, resp, hcb, hc, o, ucmd, ho, hucmd⟩ := h
  exact (ht cb hcb c hc u resp o ho ucmd hucmd).symm.trans
    (ht' cb hcb c hc u resp o ho ucmd hucmd)

theorem atcmdFill_fields {text : Bytes} {rlen : ℕ} {cb : Option UsockCb} {ctx id : ℕ}
    (h : atcmdFill text rlen cb ctx id = some cmd) : cmd.cb = cb ∧ cmd.id = id := by
  rw [atcmdFill] at h
  split_ifs at h <;> exact Option.some.inj h ▸ ⟨rfl, rfl⟩

theorem filled_fields {text : Bytes} {rlen : ℕ} {cb : Option UsockCb} {ctx : ℕ} {id : UInt16}
    (h : filled text rlen cb ctx id = .ok cmd) : cmd.cb = cb ∧ cmd.id = id.toNat := by
  cases hfill : atcmdFill text rlen cb ctx id.toNat with
  | none =>
    rw [filled, hfill] at h
    cases h
  | some cmd' =>
    rw [filled, hfill] at h
    obtain rfl := Except.ok.inj h
    exact atcmdFill_fields hfill

theorem onceAccepted_filled {P : Handled → Prop} {text : Bytes} {rlen : ℕ} {cb : Option UsockCb}
    {ctx : ℕ} {id : UInt16} {k : FilledAtcmd UsockCb → Except Refusal Handled}
    (h : ∀ cmd, filled text rlen cb ctx id = .ok cmd → cmd.cb = cb → cmd.id = id.toNat →
      OnceAccepted P (k cmd)) :
    OnceAccepted P (filled text rlen cb ctx id >>= k) := by
  apply onceAccepted_bind
  intro cmd hcmd
  obtain ⟨hcb, hid⟩ := filled_fields hcmd
  exact h cmd hcmd hcb hid

variable {k : UInt8 × UInt8}

theorem fulfils_quiet (hk : gph.request = k) (hno : k ∉ zeroIdRequests ++ zeroIdAnswers)
    (h : ∀ cmd ∈ handled.commands, Threads gph.id cmd)
    (hclient : enqueuedSince client handled.client = []) : Fulfils gph client handled := by
  rw [List.mem_append, not_or, ← hk] at hno
  constructor
  · exact iff_of_true (callbacksMatch_iff.mpr h) (Or.inr hno.1)
  · refine iff_of_true ?_ (Or.inr hno.2)
    rw [HandlerMatches, hclient]
    exact List.forall_mem_nil _

theorem fulfils_zero (hk : gph.request = k) (hzero : k ∈ zeroIdRequests) (hno : k ∉ zeroIdAnswers)
    (h : ∀ cmd ∈ handled.commands, Threads 0 cmd) (hcmd : cmd ∈ handled.commands)
    (hanswered : Answered cmd) (hclient : enqueuedSince client handled.client = []) :
    Fulfils gph client handled := by
  rw [← hk] at hzero hno
  constructor
  · rw [callbacksMatch_iff]
    constructor
    · intro hid
      exact Or.inl (hanswered.id_eq (hid cmd hcmd) (h cmd hcmd))
    · intro hid
      rw [hid.resolve_right (not_not_intro hzero)]
      exact h
  · refine iff_of_true ?_ (Or.inr hno)
    rw [HandlerMatches, hclient]
    exact List.forall_mem_nil _

theorem fulfils_answer (hk : gph.request = k) (hno : k ∉ zeroIdRequests) (hzero : k ∈ zeroIdAnswers)
    (h : handled.commands = []) {ucmd : GsmdUcmd}
    (hclient : enqueuedSince client handled.client = [ucmd]) (hid : ucmd.hdr.id = 0) :
    Fulfils gph client handled := by
  rw [← hk] at hzero hno
  constructor
  · refine iff_of_true ?_ (Or.inr hno)
    rw [callbacksMatch_iff, h]
    exact List.forall_mem_nil _
  · rw [HandlerMatches, hclient, List.forall_mem_singleton, hid]
    constructor
    · intro h0
      exact Or.inl h0.symm
    · intro h0
      exact (h0.resolve_right (not_not_intro hzero)).symm

theorem enqueuedSince_self (client : Client) : enqueuedSince client client = [] :=
  List.drop_length

theorem submits_quiet (hk : gph.request = k) (hno : k ∉ zeroIdRequests ++ zeroIdAnswers)
    (h : Threads gph.id cmd) : Fulfils gph client (submits client cmd) :=
  fulfils_quiet hk hno (List.forall_mem_singleton.mpr h) (enqueuedSince_self client)

theorem answered_of_answer (hcb : cmd.cb = some cb) {resp : Bytes} (h : cb.answer = some resp)
    (hget : cb = .networkVmailCb → cmd.buf[7]? ≠ some 61) : Answered cmd :=
  ⟨cb, { cmd.client.queued 0 with ret := 0 }, zeroed, resp, hcb, ⟨rfl, rfl, rfl, rfl⟩,
    runCb_replies h rfl hget zeroed⟩

theorem submits_zero (hk : gph.request = k) (hzero : k ∈ zeroIdRequests) (hno : k ∉ zeroIdAnswers)
    (hcb : cmd.cb = some cb) {id : UInt16} (hid : cmd.id = id.toNat)
    (hth : (if cb.threadsId then id else 0) = 0) {resp : Bytes} (h : cb.answer = some resp)
    (hget : cb = .networkVmailCb → cmd.buf[7]? ≠ some 61) :
    Fulfils gph client (submits client cmd) := by
  have hthreads := threads_replyId hcb hid
  rw [hth] at hthreads
  exact fulfils_zero hk hzero hno (List.forall_mem_singleton.mpr hthreads)
    (List.mem_singleton_self cmd) (answered_of_answer hcb h hget) (enqueuedSince_self client)

section Submits

variable {text : Bytes} {rlen ctx : ℕ} {id : UInt16} {g : FilledAtcmd UsockCb → FilledAtcmd UsockCb}

theorem onceAccepted_submits {P : Handled → Prop} {cb : Option UsockCb}
    (hg : ∀ cmd, (g cmd).cb = cmd.cb ∧ (g cmd).id = cmd.id)
    (h : ∀ cmd, cmd.cb = cb → cmd.id = id.toNat → P (submits client cmd)) :
    OnceAccepted P (filled text rlen cb ctx id >>= fun cmd => .ok (submits client (g cmd))) := by
  apply onceAccepted_filled
  intro cmd _ hcb hid
  obtain ⟨hgcb, hgid⟩ := hg cmd
  apply onceAccepted_ok
  exact h (g cmd) (hgcb.trans hcb) (hgid.trans hid)

theorem filled_quiet {cb : Option UsockCb} (hk : gph.request = k)
    (hno : k ∉ zeroIdRequests ++ zeroIdAnswers)
    (hg : ∀ cmd, (g cmd).cb = cmd.cb ∧ (g cmd).id = cmd.id)
    (h : ∀ cmd, cmd.cb = cb → cmd.id = id.toNat → Threads gph.id cmd) :
    OnceAccepted (Fulfils gph client) (filled text rlen cb ctx id >>=
      fun cmd => .ok (submits client (g cmd))) := by
  refine onceAccepted_submits hg ?_
  intro cmd hcb hid
  exact submits_quiet hk hno (h cmd hcb hid)

theorem filled_zero (hk : gph.request = k) (hzero : k ∈ zeroIdRequests) (hno : k ∉ zeroIdAnswers)
    (hget : cb ≠ .networkVmailCb) (hth : (if cb.threadsId then id else 0) = 0)
    {resp : Bytes} (h : cb.answer = some resp)
    (hg : ∀ cmd, (g cmd).cb = cmd.cb ∧ (g cmd).id = cmd.id) :
    OnceAccepted (Fulfils gph client) (filled text rlen (some cb) ctx id >>=
      fun cmd => .ok (submits client (g cmd))) := by
  refine onceAccepted_submits hg ?_
  intro cmd hcb hid
  exact submits_zero hk hzero hno hcb hid hth h (fun hvmail => absurd hvmail hget)

end Submits

theorem submits_format_zero (hk : gph.request = k) (hzero : k ∈ zeroIdRequests)
    (hno : k ∉ zeroIdAnswers) {format : FilledAtcmd UsockCb}
    (hformat : format.cb = some .nullCmdCb) (hcb : cmd.cb = some cb) {id : UInt16}
    (hid : cmd.id = id.toNat) (hth : (if cb.threadsId then id else 0) = 0) {resp : Bytes}
    (h : cb.answer = some resp) (hget : cb = .networkVmailCb → cmd.buf[7]? ≠ some 61) :
    Fulfils gph client { client := client, events := [.submit format, .submit cmd] } := by
  have hthreads := threads_replyId hcb hid
  rw [hth] at hthreads
  refine fulfils_zero hk hzero hno (List.forall_mem_cons.mpr ?_)
    (List.mem_cons_of_mem format (List.mem_singleton_self cmd)) (answered_of_answer hcb h hget)
    (enqueuedSince_self client)
  exact ⟨threads_silent hformat rfl, List.forall_mem_singleton.mpr hthreads⟩

theorem filled_format_zero (hk : gph.request = k) (hzero : k ∈ zeroIdRequests)
    (hno : k ∉ zeroIdAnswers) (hget : cb ≠ .networkVmailCb) {id : UInt16}
    (hth : (if cb.threadsId then id else 0) = 0) {resp : Bytes} (h : cb.answer = some resp)
    {setting text : Bytes} {slen rlen ctx ctx' : ℕ} {id' : UInt16} :
    OnceAccepted (Fulfils gph client) (filled setting slen (some .nullCmdCb) ctx' id' >>=
      fun format => filled text rlen (some cb) ctx id >>=
        fun cmd => .ok { client := client, events := [.submit format, .submit cmd] }) := by
  apply onceAccepted_filled
  intro format _ hformat _
  apply onceAccepted_filled
  intro cmd _ hcb hid
  apply onceAccepted_ok
  exact submits_format_zero hk hzero hno hformat hcb hid hth h (fun hvmail => absurd hvmail hget)

end SystemTestSuite.GsmDaemon
