import SystemTestSuite.GsmDaemon.Contexts
import SystemTestSuite.GsmDaemon.UsockRequests
import SystemTestSuite.Library.Accepted

namespace SystemTestSuite.GsmDaemon

open Library

variable {client : Client} {gu len : ℕ} {buf : Memory} {handled : Handled}

def Handled.Respects (S : ℕ → Prop) (handled : Handled) : Prop :=
  ∀ e ∈ handled.events, e.Respects S

def Serving (gu ctx : ℕ) : Prop := ctx = gu ∨ ctx = gsmdCtx

def retrieved (block : GsmdUcmd) (num : ℕ) (msgSubtype : UInt8) (client : Client) : Client :=
  { client with gu := usockCmdEnqueue (pbReply block num msgSubtype) client.gu }

structure Queues (gu : ℕ) (client : Client) (handled : Handled) : Prop where
  client : handled.client = client
  submits : ∀ e ∈ handled.events, ∃ c, e = .submit c ∧ Serving gu c.ctx

inductive Does (block : GsmdUcmd) (gu : ℕ) (client : Client) (buf : Memory) (len : ℕ) :
    Handled → Prop
  | queues {handled : Handled} : Queues gu client handled → Does block gu client buf len handled
  | cancels {c : FilledAtcmd UsockCb} : (hdrAt buf 0).msgType = gsmdMsgVoicecall →
      (hdrAt buf 0).msgSubtype = gsmdVoicecallHangup → c.ctx = gu →
      Does block gu client buf len { client := client, events := [.cancel c] }
  | subscribes (mask : UInt32) : Does block gu client buf len
      { client := { client with gu := { client.gu with subscriptions := mask } } }
  | retrieves : (hdrAt buf 0).msgType = gsmdMsgPhonebook →
      (hdrAt buf 0).msgSubtype = gsmdPhonebookRetrieveReadrg ∨
        (hdrAt buf 0).msgSubtype = gsmdPhonebookRetrieveFind → sizeofHdr + 4 ≤ len →
      Does block gu client buf len
        { client := retrieved block (uintAt buf sizeofHdr) (hdrAt buf 0).msgSubtype client }

theorem queues_one {c : FilledAtcmd UsockCb} (hc : Serving gu c.ctx) {on : Option Bool} :
    Queues gu client { client := client, on := on, events := [.submit c] } :=
  ⟨rfl, List.forall_mem_singleton.mpr ⟨c, rfl, hc⟩⟩

theorem filled_made {text : Bytes} {rlen ctx : ℕ} {cb : Option UsockCb} {id : UInt16}
    {cmd : FilledAtcmd UsockCb} (h : filled text rlen cb ctx id = .ok cmd) :
    cmd.cb = cb ∧ cmd.ctx = ctx := by
  unfold filled atcmdFill at h
  dsimp only at h
  split_ifs at h <;> cases h <;> exact ⟨rfl, rfl⟩

theorem queues_filled {text : Bytes} {rlen ctx : ℕ} {cb : Option UsockCb} {id : UInt16}
    {k : FilledAtcmd UsockCb → Except Refusal Handled} (hctx : Serving gu ctx)
    (h : ∀ cmd, Serving gu cmd.ctx → OnceAccepted (Queues gu client) (k cmd)) :
    OnceAccepted (Queues gu client) (filled text rlen cb ctx id >>= k) := by
  apply onceAccepted_bind
  intro cmd hcmd
  apply h
  rwa [(filled_made hcmd).2]

section

variable {text text' : Bytes} {rlen rlen' : ℕ} {cb cb' : Option UsockCb} {id : UInt16}

theorem queues_submits {ctx : ℕ} (hctx : Serving gu ctx) :
    OnceAccepted (Queues gu client)
      (filled text rlen cb ctx id >>= fun cmd => .ok (submits client cmd)) := by
  apply queues_filled hctx
  intro cmd hcmd
  exact onceAccepted_ok (queues_one hcmd)

theorem queues_prints :
    OnceAccepted (Queues gu client)
      (filled text rlen cb gu id >>= fun cmd => .ok (submits client (cmd.print text'))) := by
  apply queues_filled (Or.inl rfl)
  intro cmd hcmd
  have hprint : Serving gu (cmd.print text').ctx := hcmd
  exact onceAccepted_ok (queues_one hprint)

theorem queues_formats :
    OnceAccepted (Queues gu client) (filled text rlen cb gu id >>= fun format =>
      filled text' rlen' cb' gu id >>= fun cmd =>
        .ok { client := client, events := [.submit format, .submit cmd] }) := by
  apply queues_filled (Or.inl rfl)
  intro format hformat
  apply queues_filled (Or.inl rfl)
  intro cmd hcmd
  apply onceAccepted_ok
  refine ⟨rfl, List.forall_mem_cons.mpr ⟨⟨format, rfl, hformat⟩, ?_⟩⟩
  exact List.forall_mem_singleton.mpr ⟨cmd, rfl, hcmd⟩

end

theorem usockRcvPin_queues : OnceAccepted (Queues gu client) (usockRcvPin gu client buf len) := by
  apply onceAccepted_guard
  exact onceAccepted_guard queues_prints

theorem usockRcvPhone_queues : OnceAccepted (Queues gu client) (usockRcvPhone gu client buf) := by
  refine onceAccepted_ite (fun _ => queues_submits (Or.inl rfl)) fun _ => ?_
  refine onceAccepted_ite (fun _ => ?_) fun _ => onceAccepted_error _
  apply queues_filled (Or.inl rfl)
  intro cmd hcmd
  exact onceAccepted_ok (queues_one hcmd)

theorem usockRcvNetwork_queues :
    OnceAccepted (Queues gu client) (usockRcvNetwork gu client buf) := by
  refine onceAccepted_ite (fun _ => queues_submits (Or.inl rfl)) fun _ => ?_
  refine onceAccepted_ite (fun _ => queues_submits (Or.inl rfl)) fun _ => ?_
  refine onceAccepted_ite (fun _ => queues_submits (Or.inl rfl)) fun _ => ?_
  refine onceAccepted_ite (fun _ => queues_submits (Or.inl rfl)) fun _ => ?_
  refine onceAccepted_ite (fun _ => queues_submits (Or.inl rfl)) fun _ => ?_
  refine onceAccepted_ite (fun _ => queues_formats) fun _ => ?_
  refine onceAccepted_ite (fun _ => queues_submits (Or.inl rfl)) fun _ => ?_
  refine onceAccepted_ite (fun _ => queues_formats) fun _ => ?_
  refine onceAccepted_ite (fun _ => queues_submits (Or.inl rfl)) fun _ => ?_
  refine onceAccepted_ite (fun _ => queues_submits (Or.inl rfl)) fun _ => ?_
  refine onceAccepted_ite (fun _ => queues_submits (Or.inl rfl)) fun _ => ?_
  exact onceAccepted_ite (fun _ => queues_submits (Or.inl rfl)) fun _ => onceAccepted_error _

theorem usockRcvSms_queues {textMode : Bool} :
    OnceAccepted (Queues gu client) (usockRcvSms textMode gu client buf len) := by
  apply onceAccepted_ite
  · intro _
    apply onceAccepted_guard
    exact onceAccepted_guard (queues_submits (Or.inl rfl))
  intro _
  refine onceAccepted_ite (fun _ => onceAccepted_guard (queues_submits (Or.inl rfl))) fun _ => ?_
  refine onceAccepted_ite (fun _ => onceAccepted_guard (queues_submits (Or.inl rfl))) fun _ => ?_
  apply onceAccepted_ite
  · intro _
    apply onceAccepted_guard
    exact onceAccepted_guard (queues_submits (Or.inl rfl))
  intro _
  refine onceAccepted_ite (fun _ => onceAccepted_guard (queues_submits (Or.inl rfl))) fun _ => ?_
  refine onceAccepted_ite (fun _ => queues_submits (Or.inl rfl)) fun _ => ?_
  apply onceAccepted_ite
  · intro _
    apply onceAccepted_guard
    split
    · exact queues_submits (Or.inl rfl)
    · exact onceAccepted_error _
  intro _
  refine onceAccepted_ite (fun _ => queues_submits (Or.inl rfl)) fun _ => ?_
  refine onceAccepted_ite (fun _ => ?_) fun _ => onceAccepted_error _
  exact onceAccepted_guard (queues_submits (Or.inl rfl))

theorem usockRcvCb_queues : OnceAccepted (Queues gu client) (usockRcvCb client buf) := by
  refine onceAccepted_ite (fun _ => queues_submits (Or.inr rfl)) fun _ => ?_
  exact onceAccepted_ite (fun _ => queues_submits (Or.inr rfl)) fun _ => onceAccepted_error _

theorem onceAccepted_mono {ε α : Type} {P Q : α → Prop} {r : Except ε α} (h : OnceAccepted P r)
    (himp : ∀ a, P a → Q a) : OnceAccepted Q r := fun a ha => himp a (h a ha)

variable {block : GsmdUcmd}

theorem does_queues {r : Except Refusal Handled} (h : OnceAccepted (Queues gu client) r) :
    OnceAccepted (Does block gu client buf len) r :=
  onceAccepted_mono h fun _ hq => .queues hq

theorem usockRcvVoicecall_does (htype : (hdrAt buf 0).msgType = gsmdMsgVoicecall) :
    OnceAccepted (Does block gu client buf len) (usockRcvVoicecall gu client buf len) := by
  refine onceAccepted_ite (fun _ => does_queues (onceAccepted_guard queues_prints)) fun _ => ?_
  apply onceAccepted_ite
  · intro hhangup
    apply onceAccepted_bind
    intro cmd hcmd
    exact onceAccepted_ok (.cancels htype hhangup (filled_made hcmd).2)
  intro _
  refine onceAccepted_ite (fun _ => does_queues (queues_submits (Or.inl rfl))) fun _ => ?_
  refine onceAccepted_ite (fun _ => ?_) fun _ => onceAccepted_error _
  apply does_queues
  apply onceAccepted_guard
  apply onceAccepted_guard
  exact onceAccepted_guard queues_prints

theorem pbRetrieve_does (htype : (hdrAt buf 0).msgType = gsmdMsgPhonebook)
    (hsub : (hdrAt buf 0).msgSubtype = gsmdPhonebookRetrieveReadrg ∨
      (hdrAt buf 0).msgSubtype = gsmdPhonebookRetrieveFind) (hlen : sizeofHdr + 4 ≤ len)
    (entries : List Memory) :
    OnceAccepted (Does block gu client buf len) (pbRetrieve block (uintAt buf sizeofHdr)
      (hdrAt buf 0).msgSubtype entries >>= fun ucmd =>
        .ok { client := { client with gu := usockCmdEnqueue ucmd client.gu } }) := by
  apply onceAccepted_bind
  intro ucmd hucmd
  cases entries with
  | nil =>
    obtain rfl := Except.ok.inj hucmd
    exact onceAccepted_ok (.retrieves htype hsub hlen)
  | cons pb entries => cases hucmd

theorem usockRcvPhonebook_does (htype : (hdrAt buf 0).msgType = gsmdMsgPhonebook) :
    OnceAccepted (Does block gu client buf len) (usockRcvPhonebook block gu client buf len) := by
  have hsubmits {text : Bytes} {rlen : ℕ} {cb : Option UsockCb} {id : UInt16} :=
    @does_queues client gu len buf block _ (@queues_submits client gu text rlen cb id gu (Or.inl rfl))
  have hprints {text text' : Bytes} {rlen : ℕ} {cb : Option UsockCb} {id : UInt16} :=
    @does_queues client gu len buf block _ (@queues_prints client gu text text' rlen cb id)
  refine onceAccepted_ite (fun _ => hsubmits) fun _ => ?_
  refine onceAccepted_ite (fun _ => onceAccepted_guard hprints) fun _ => ?_
  refine onceAccepted_ite (fun _ => onceAccepted_guard hprints) fun _ => ?_
  refine onceAccepted_ite (fun _ => onceAccepted_guard hprints) fun _ => ?_
  refine onceAccepted_ite (fun _ => onceAccepted_guard hprints) fun _ => ?_
  refine onceAccepted_ite (fun _ => onceAccepted_guard hprints) fun _ => ?_
  refine onceAccepted_ite (fun _ => onceAccepted_guard hprints) fun _ => ?_
  refine onceAccepted_ite (fun _ => hsubmits) fun _ => ?_
  apply onceAccepted_ite
  · intro hsub
    apply onceAccepted_ite
    · exact fun _ => onceAccepted_error _
    · intro hlen
      apply onceAccepted_guard
      exact pbRetrieve_does htype (.inl hsub) (not_lt.mp hlen) _
  intro _
  apply onceAccepted_ite
  · intro hsub
    apply onceAccepted_ite
    · exact fun _ => onceAccepted_error _
    · intro hlen
      apply onceAccepted_guard
      exact pbRetrieve_does htype (.inr hsub) (not_lt.mp hlen) _
  intro _
  exact onceAccepted_ite (fun _ => hsubmits) fun _ => onceAccepted_error _

def UsockMsgHandler.msgType : UsockMsgHandler → UInt8
  | rcvPassthrough => gsmdMsgPassthrough
  | rcvEvent => gsmdMsgEvent
  | rcvVoicecall => gsmdMsgVoicecall
  | rcvPin => gsmdMsgPin
  | rcvPhone => gsmdMsgPhone
  | rcvNetwork => gsmdMsgNetwork
  | rcvSms => gsmdMsgSms
  | rcvCb => gsmdMsgCb
  | rcvPhonebook => gsmdMsgPhonebook

theorem usockRcvPcmd_msgType {handler : UsockMsgHandler} (h : usockRcvPcmd buf = some handler) :
    (hdrAt buf 0).msgType = handler.msgType := by
  rw [usockRcvPcmd] at h
  split_ifs at h
  grind [pcmdTypeHandlers, UsockMsgHandler.msgType]

theorem usockRcvMessage_does {textMode : Bool} :
    OnceAccepted (Does block gu client buf len)
      (usockRcvMessage textMode block gu client buf len) := by
  rw [usockRcvMessage]
  cases hpcmd : usockRcvPcmd buf with
  | none => exact onceAccepted_error _
  | some handler =>
    have htype := usockRcvPcmd_msgType hpcmd
    cases handler with
    | rcvPassthrough => exact does_queues (queues_submits (Or.inl rfl))
    | rcvEvent =>
      refine onceAccepted_ite (fun _ => onceAccepted_error _) fun _ => ?_
      refine onceAccepted_ite (fun _ => onceAccepted_error _) fun _ => ?_
      exact onceAccepted_ok (.subscribes _)
    | rcvVoicecall => exact usockRcvVoicecall_does htype
    | rcvPin => exact does_queues usockRcvPin_queues
    | rcvPhone => exact does_queues usockRcvPhone_queues
    | rcvNetwork => exact does_queues usockRcvNetwork_queues
    | rcvSms => exact does_queues usockRcvSms_queues
    | rcvCb => exact does_queues usockRcvCb_queues
    | rcvPhonebook => exact usockRcvPhonebook_does htype

end SystemTestSuite.GsmDaemon
