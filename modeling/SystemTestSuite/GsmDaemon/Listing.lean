import SystemTestSuite.GsmDaemon.ClientLife
import SystemTestSuite.GsmDaemon.Exchanges
import SystemTestSuite.GsmDaemon.ListEntry

namespace SystemTestSuite.GsmDaemon

open Library

variable {κ ω : Type} {own : Own κ ω} {cmd : GsmdAtcmd (DaemonCb κ)} {g : Daemon κ ω}
  {e : CmglEntry} {entries : List CmglEntry} {v0 : Bool}

structure ListAtcmd (cmd : GsmdAtcmd (DaemonCb κ)) : Prop where
  ret : cmd.ret = -255
  buf : ∃ args, cmd.buf = ascii "AT+CMGL=" ++ args

theorem sized_begins {pre args : Bytes} (hpre : ∀ c ∈ pre, c ≠ 0) {cb : Option UsockCb} {ctx : ℕ}
    {id : UInt16} {c : FilledAtcmd UsockCb} (h : sized (pre ++ args) cb ctx id = .ok c) :
    c.cb = cb ∧ c.ctx = ctx ∧ ∃ more, c.buf = pre ++ more := by
  have hlong : (pre ++ args).length + 1 > (cstr (pre ++ args)).length := by
    have hle := cstr_length_le (pre ++ args)
    omega
  have htext : strncpy (pre ++ args) (pre ++ args).length =
      pre ++ ((cstr args).take args.length ++
        List.replicate ((pre ++ args).length - (cstr (pre ++ args)).length) 0) := by
    rw [strncpy, cstr_append hpre, List.length_append, List.take_length_add_append,
      List.append_assoc]
  simp only [sized, filled, atcmdFill, if_pos hlong, Nat.add_one_ne_zero, if_false,
    Nat.add_sub_cancel, htext] at h
  rw [← Except.ok.inj h]
  exact ⟨rfl, rfl, _, List.append_assoc _ _ _⟩

theorem usockRcvSms_list {textMode : Bool} {gu : ℕ} {client : Client} {buf : Memory} {len : ℕ}
    (hlist : (hdrAt buf 0).msgSubtype = gsmdSmsList) {handled : Handled}
    (h : usockRcvSms textMode gu client buf len = .ok handled) :
    ∃ c : FilledAtcmd UsockCb, handled.events = [.submit c] ∧ c.cb = some .smsListCb ∧
      c.ctx = gu ∧ ∀ serial, ListAtcmd ((c.usock : FilledAtcmd (DaemonCb κ)).client.queued serial) := by
  have hsubmit (args : Bytes) (hs : (do
      return submits client (← sized (ascii "AT+CMGL=" ++ args) (some .smsListCb) gu
        (hdrAt buf 0).id)) = Except.ok handled) :
      ∃ c : FilledAtcmd UsockCb, handled.events = [.submit c] ∧ c.cb = some .smsListCb ∧
        c.ctx = gu ∧
        ∀ serial, ListAtcmd ((c.usock : FilledAtcmd (DaemonCb κ)).client.queued serial) := by
    cases hsized : sized (ascii "AT+CMGL=" ++ args) (some .smsListCb) gu (hdrAt buf 0).id with
    | error refusal =>
      rw [hsized] at hs
      cases hs
    | ok c =>
      rw [hsized] at hs
      obtain rfl : submits client c = handled := Except.ok.inj hs
      obtain ⟨hcb, hctx, more, hmore⟩ := sized_begins (no_nul_of_all rfl) hsized
      exact ⟨c, rfl, hcb, hctx, fun serial => ⟨rfl, more, hmore⟩⟩
  unfold usockRcvSms at h
  dsimp only at h
  rw [if_pos hlist] at h
  by_cases hshort : len < sizeofHdr + 4
  · rw [if_pos hshort] at h
    cases h
  rw [if_neg hshort] at h
  by_cases hstat : intAt buf sizeofHdr < 0 ∨ intAt buf sizeofHdr > 4
  · rw [if_pos hstat] at h
    cases h
  rw [if_neg hstat] at h
  cases textMode with
  | true =>
    have hquote : ∀ stat, ascii "AT+CMGL=\"" ++ stat ++ ascii "\"" =
        ascii "AT+CMGL=" ++ (34 :: (stat ++ ascii "\"")) := fun _ => rfl
    simp only [if_true, hquote] at h
    exact hsubmit _ h
  | false => exact hsubmit (printInt (intAt buf sizeofHdr)) h

def resultDigits : Bytes := [48, 50, 51, 52, 55]

def PlainHex (v0 : Bool) (entries : List CmglEntry) : Prop :=
  v0 = true → ∀ e ∈ entries, ∀ c ∈ e.hex.head?, c ∉ resultDigits

theorem ListAtcmd.cstr_buf (h : ListAtcmd cmd) :
    ∃ args, cstr cmd.buf = ascii "AT+CMGL=" ++ args := by
  obtain ⟨args, hargs⟩ := h.buf
  rw [hargs, cstr_append (no_nul_of_all rfl)]
  exact ⟨_, rfl⟩

theorem ListAtcmd.head (h : ListAtcmd cmd) : (cstr cmd.buf).head? = some 65 := by
  obtain ⟨args, hargs⟩ := h.cstr_buf
  rw [hargs]
  rfl

def listShape (own : Own κ ω) : LineBuffer.Shape :=
  mlShape (daemonEnv own) (.client (.usock .smsListCb))

/-- There is an entry, and the bytes that `mlbuf` holds behind each but the last do not spoil it. -/
def ReadsAll (own : Own κ ω) (m : Memory) : List CmglEntry → Prop
  | [] => False
  | [e] => LineBuffer.Fits (listShape own) e.text ∧ Readable e []
  | e :: next :: entries => LineBuffer.Fits (listShape own) e.text ∧
      (∃ rest ∈ LineBuffer.tail (listShape own) m e.text, Readable e rest) ∧
      ReadsAll own (m.store 0 e.text) (next :: entries)

/-- Of text that was left in `mlbuf` before the answer `sms_list_cb` makes no reply. -/
def HeldSilent (own : Own κ ω) (g : Daemon κ ω) (cmd : GsmdAtcmd (DaemonCb κ)) : Prop :=
  g.mlbufLen ≠ 0 → (outcome own .smsListCb cmd g.world.steps
    (g.mlbuf.string? 0 mlparseBufSize)).bind CbOutcome.reply = none

structure Undisturbed (own : Own κ ω) (g : Daemon κ ω) (cmd : GsmdAtcmd (DaemonCb κ))
    (entries : List CmglEntry) : Prop where
  plain : PlainHex g.v0 entries
  held : HeldSilent own g cmd
  entries : ReadsAll own g.mlbuf entries

end SystemTestSuite.GsmDaemon
