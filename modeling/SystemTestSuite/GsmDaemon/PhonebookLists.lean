import SystemTestSuite.GsmDaemon.ClientLife
import SystemTestSuite.GsmDaemon.Exchanges
import SystemTestSuite.GsmDaemon.HeadCallbacks

namespace SystemTestSuite.GsmDaemon

open Library

variable {κ ω : Type} {own : Own κ ω} {gu : ℕ} {g : Daemon κ ω}

inductive PbKind
  | readrg
  | find
  deriving DecidableEq

namespace PbKind

def cb : PbKind → UsockCb
  | readrg => .phonebookReadrgCb
  | find => .phonebookFindCb

def list : PbKind → Client → List Memory
  | readrg => Client.pbReadrgList
  | find => Client.pbFindList

def entries : PbKind → CbOutcome → List Memory
  | readrg => CbOutcome.ranged
  | find => CbOutcome.found

def retrieve : PbKind → UInt8
  | readrg => gsmdPhonebookRetrieveReadrg
  | find => gsmdPhonebookRetrieveFind

end PbKind

def KeepsLists (r : Option CbOutcome) : Prop := ∀ o ∈ r, ∀ kind : PbKind, kind.entries o = []

@[simp] theorem keepsLists_some (o : CbOutcome) :
    KeepsLists (some o) ↔ ∀ kind : PbKind, kind.entries o = [] := by
  simp [KeepsLists]

theorem keepsLists_plain {o : CbOutcome} (hranged : o.ranged = []) (hfound : o.found = []) :
    KeepsLists (some o) := by
  apply (keepsLists_some o).mpr
  intro kind
  cases kind with
  | readrg => exact hranged
  | find => exact hfound

theorem keepsLists_bind {α : Type} {r : Option α} {f : α → Option CbOutcome}
    (h : ∀ a, KeepsLists (f a)) : KeepsLists (r.bind f) := by
  intro o ho
  obtain ⟨a, -, hf⟩ := Option.bind_eq_some_iff.mp ho
  exact h a o hf

section

variable {u : Unset} {cmd : GsmdAtcmd κ} {resp : Bytes}

theorem smsPduReply_keepsLists (msgSubtype index : UInt8) (stat len : ℤ) (last hex : Bytes) :
    KeepsLists (smsPduReply u cmd msgSubtype index stat len last hex) := by
  unfold smsPduReply
  cases readHexPdu smsMaxPduSize hex with
  | none => exact keepsLists_plain rfl rfl
  | some pdu =>
    apply keepsLists_bind
    rintro ⟨rc, msg⟩
    dsimp only
    split_ifs
    · exact keepsLists_plain rfl rfl
    · exact keepsLists_plain rfl rfl

theorem smsListCb_keepsLists : KeepsLists (smsListCb u cmd resp) := by
  unfold smsListCb
  dsimp only
  repeat' split
  all_goals first | exact keepsLists_plain rfl rfl | apply smsPduReply_keepsLists

theorem smsReadCb_keepsLists : KeepsLists (smsReadCb u cmd resp) := by
  unfold smsReadCb
  dsimp only
  split
  · exact keepsLists_plain rfl rfl
  · split
    · split
      · exact keepsLists_plain rfl rfl
      · apply smsPduReply_keepsLists
    · exact keepsLists_plain rfl rfl

theorem runCb_keepsLists {cb : UsockCb} (h : ∀ kind : PbKind, cb ≠ kind.cb) :
    KeepsLists (runCb cb u cmd resp) := by
  cases cb with
  | phonebookFindCb => exact absurd rfl (h .find)
  | phonebookReadrgCb => exact absurd rfl (h .readrg)
  | smsListCb => exact smsListCb_keepsLists
  | smsReadCb => exact smsReadCb_keepsLists
  | phonebookReadCb =>
    simp only [runCb, phonebookReadCb]
    split
    · exact keepsLists_bind fun _ => keepsLists_plain rfl rfl
    · exact keepsLists_plain rfl rfl
  | usockCmdCb | nullCmdCb | pinCmdCb | phonePowerupCb | networkOpersCb | smsDeleteCb
  | phonebookWriteCb | phonebookDeleteCb | getImsiCb | phonebookListStorageCb =>
    exact keepsLists_plain rfl rfl
  | networkVmailCb | networkSigqCb | networkOperCb | networkPrefOpersCb | networkPrefNumCb
  | networkOwnnumbersCb | usockCpmsCb | usockGetSmscCb | phonebookGetSupportCb | smsSendCb
  | smsWriteCb =>
    simp only [runCb, networkVmailCb, networkSigqCb, networkOperCb, networkPrefOpersCb,
      networkPrefNumCb, networkOwnnumbersCb, usockCpmsCb, usockGetSmscCb, phonebookGetSupportCb,
      smsSendCb, smsWriteCb, smsIntReply]
    repeat' split
    all_goals exact keepsLists_plain rfl rfl

end

theorem client_list (o : CbOutcome) (client : Client) (kind : PbKind) :
    kind.list (o.client client) = kind.list client ++ kind.entries o := by
  cases kind with
  | readrg => rfl
  | find => rfl

theorem takes_list (client : Client) {o : Option CbOutcome} (h : KeepsLists o) (kind : PbKind) :
    kind.list (client.takes o) = kind.list client := by
  cases o with
  | none => rfl
  | some o =>
    have hnil := (keepsLists_some o).mp h kind
    rw [Client.takes, client_list, hnil, List.append_nil]

def World.pbList (w : World ω) (gu : ℕ) (kind : PbKind) : Option (List Memory) :=
  (w.users.lookup gu).map kind.list

def KeepsPb (gu : ℕ) (w w' : World ω) : Prop := w'.pbList gu = w.pbList gu

theorem lookup_setClient_ne (w : World ω) {ctx : ℕ} (h : ctx ≠ gu) (client : Client) :
    (w.setClient ctx client).users.lookup gu = w.users.lookup gu := by
  unfold World.setClient
  dsimp only
  generalize w.users = users
  induction users with
  | nil => rfl
  | cons u users ih =>
    obtain ⟨address, c⟩ := u
    rw [List.map_cons, List.lookup_cons]
    by_cases heq : address = ctx
    · have hne : (gu == ctx) = false := by simpa using Ne.symm h
      rw [if_pos heq, List.lookup_cons, hne, heq, hne]
      exact ih
    · rw [if_neg heq, List.lookup_cons, ih]

theorem setClient_keepsPb {w : World ω} {ctx : ℕ} {client client' : Client}
    (hlookup : w.users.lookup ctx = some client)
    (hlist : ∀ kind : PbKind, kind.list client' = kind.list client) :
    KeepsPb gu w (w.setClient ctx client') := by
  funext kind
  unfold World.pbList
  by_cases heq : ctx = gu
  · rw [← heq, lookup_setClient hlookup, hlookup, Option.map_some, Option.map_some, hlist]
  · rw [lookup_setClient_ne w heq]

theorem evtSend_keepsPb (own : Own κ ω) (w : World ω) (evt : GsmdUcmd × ℕ) :
    KeepsPb gu w (evtSend own w evt) := by
  have hlen : (usockEvtSend (own.heap w.steps) (own.links w.steps) (own.ptr w.steps)
      (w.users.map (fun u => u.2.gu)) evt.1 evt.2).2.length = w.users.length := by
    rw [usockEvtSend, usockEvtSendLoop_length, List.length_map]
  have hzip (kind : PbKind) (users : List (ℕ × Client)) (gus : List GsmdUser)
      (hl : gus.length = users.length) :
      ((List.zipWith (fun u gu => (u.1, { u.2 with gu := gu })) users gus).lookup gu).map kind.list =
        (users.lookup gu).map kind.list := by
    induction users generalizing gus with
    | nil => rfl
    | cons u users ih =>
      cases gus with
      | nil => cases hl
      | cons gu' gus =>
        rw [List.zipWith_cons_cons, List.lookup_cons, List.lookup_cons]
        cases gu == u.1 with
        | true => cases kind <;> rfl
        | false => exact ih gus (Nat.succ.inj hl)
  funext kind
  exact hzip kind _ _ hlen

theorem evtsSend_keepsPb (own : Own κ ω) (w : World ω) (r : ω × List (GsmdUcmd × ℕ)) :
    KeepsPb gu w (evtsSend own w r) := by
  have hfold (evts : List (GsmdUcmd × ℕ)) (v : World ω) :
      KeepsPb gu v (evts.foldl (evtSend own) v) := by
    induction evts generalizing v with
    | nil => rfl
    | cons evt evts ih => exact (ih _).trans (evtSend_keepsPb own v evt)
  exact hfold r.2 _

def FillsList (gu : ℕ) (k : DaemonCb κ) (ctx : ℕ) : Prop :=
  ctx = gu ∧ (k = .usock .phonebookReadrgCb ∨ k = .usock .phonebookFindCb)

theorem usockCallback_keepsPb {cb : UsockCb} {cmd : GsmdAtcmd (DaemonCb κ)}
    (h : ¬ FillsList gu (.usock cb : DaemonCb κ) cmd.ctx) (w : World ω) (resp : Option Bytes) :
    KeepsPb gu w (usockCallback own cb w cmd resp).world := by
  unfold usockCallback
  cases ho : resp.bind fun text =>
      runCb cb (own.unset w.steps) cmd (text ++ 0 :: own.behind w.steps) with
  | none => rfl
  | some o =>
    dsimp only
    cases hlookup : w.users.lookup cmd.ctx with
    | none => rfl
    | some client =>
      dsimp only
      by_cases hctx : cmd.ctx = gu
      · have hcb : ∀ kind : PbKind, cb ≠ kind.cb := by
          rintro kind rfl
          apply h
          cases kind with
          | readrg => exact ⟨hctx, Or.inl rfl⟩
          | find => exact ⟨hctx, Or.inr rfl⟩
        have hkeeps : KeepsLists (some o) := by
          rw [← ho]
          exact keepsLists_bind fun _ => runCb_keepsLists hcb
        exact setClient_keepsPb hlookup (takes_list client hkeeps)
      · funext kind
        unfold World.pbList
        rw [lookup_setClient_ne _ hctx]

theorem mute_keepsPb [∀ (k : DaemonCb κ) ctx, Decidable (FillsList gu k ctx)] (own : Own κ ω)
    (L : PbKind → Option (List Memory)) :
    ((daemonEnv own).mute (FillsList gu)).Respects (fun _ => True) (fun w => w.pbList gu = L) where
  gsmd := trivial
  initsettings := trivial
  callback := by
    intro k w cmd resp hw
    refine ⟨?_, fun _ _ => trivial⟩
    dsimp only [Env.mute]
    split_ifs with hfills
    · exact hw
    · cases k with
      | usock cb => exact (usockCallback_keepsPb hfills w resp).trans hw
      | own k => exact (evtsSend_keepsPb own w _).trans hw
  unsolicit := by
    intro i hi w buf len hw
    obtain ⟨i, -, rfl⟩ := List.mem_map.mp hi
    exact ⟨(evtsSend_keepsPb own w _).trans hw, fun _ _ => trivial⟩
  cme w number hw := (evtsSend_keepsPb own w _).trans hw
  cms w number hw := (evtsSend_keepsPb own w _).trans hw

theorem next_keepsPb {e : Event (DaemonCb κ)} (h : e.CallsBack → HeadSpeaks (FillsList gu) g) :
    KeepsPb gu g.world (next (daemonEnv own) g e).world := by
  classical
  have hguarded : Guarded (fun _ => True) (fun w => w.pbList gu = g.world.pbList gu) g :=
    ⟨fun _ _ => trivial, fun _ _ => trivial, rfl⟩
  have hrespects : e.Respects fun _ => True := by cases e <;> trivial
  rw [← next_mute h]
  exact (hguarded.next (mute_keepsPb own _) hrespects).world

end SystemTestSuite.GsmDaemon
