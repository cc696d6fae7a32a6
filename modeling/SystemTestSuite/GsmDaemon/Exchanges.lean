import SystemTestSuite.GsmDaemon.Answers
import SystemTestSuite.GsmDaemon.Daemon

namespace SystemTestSuite.GsmDaemon

open Library

variable {κ ω : Type} {own : Own κ ω} {cb : UsockCb} {cmd : GsmdAtcmd (DaemonCb κ)}

def outcome (own : Own κ ω) (cb : UsockCb) (cmd : GsmdAtcmd (DaemonCb κ)) (steps : ℕ)
    (resp : Option Bytes) : Option CbOutcome :=
  resp.bind fun text => runCb cb (own.unset steps) cmd (text ++ 0 :: own.behind steps)

def outcomes (own : Own κ ω) (cb : UsockCb) (cmd : GsmdAtcmd (DaemonCb κ)) :
    ℕ → List (Option Bytes) → List (Option CbOutcome)
  | _, [] => []
  | steps, [resp] => [outcome own cb { cmd with ret := 0 } steps resp]
  | steps, resp :: resps => outcome own cb cmd steps resp :: outcomes own cb cmd (steps + 1) resps

def Client.takes (client : Client) (o : Option CbOutcome) : Client :=
  match o with
  | none => client
  | some o => o.client client

def replies (os : List (Option CbOutcome)) : List GsmdUcmd :=
  os.filterMap (Option.bind · CbOutcome.reply)

theorem replies_cons_some {o : Option CbOutcome} {r : GsmdUcmd}
    (h : o.bind CbOutcome.reply = some r) (os : List (Option CbOutcome)) :
    replies (o :: os) = r :: replies os := List.filterMap_cons_some h

theorem takes_finished (client : Client) (o : Option CbOutcome) :
    (client.takes o).gu.finishedUcmds = client.gu.finishedUcmds ++ replies [o] := by
  cases o with
  | none => exact (List.append_nil _).symm
  | some o =>
    cases hr : o.reply with
    | none => simp [Client.takes, CbOutcome.client, replies, hr]
    | some ucmd => simp [Client.takes, CbOutcome.client, replies, hr, usockCmdEnqueue]

theorem lookup_setClient {w : World ω} {gu : ℕ} {client : Client}
    (h : w.users.lookup gu = some client) (client' : Client) :
    (w.setClient gu client').users.lookup gu = some client' := by
  unfold World.setClient
  dsimp only
  generalize w.users = users at h
  induction users with
  | nil => cases h
  | cons u users ih =>
    obtain ⟨address, c⟩ := u
    by_cases heq : address = gu
    · simp [heq]
    · have hne : (gu == address) = false := by simpa using Ne.symm heq
      rw [List.lookup_cons, hne] at h
      rw [List.map_cons, if_neg heq, List.lookup_cons, hne]
      exact ih h

theorem usockCallback_client {w : World ω} {client : Client}
    (h : w.users.lookup cmd.ctx = some client) (resp : Option Bytes) :
    (usockCallback own cb w cmd resp).world.users.lookup cmd.ctx =
        some (client.takes (outcome own cb cmd w.steps resp)) ∧
      (usockCallback own cb w cmd resp).world.steps = w.steps + 1 := by
  unfold usockCallback outcome
  cases ho : resp.bind fun text =>
      runCb cb (own.unset w.steps) cmd (text ++ 0 :: own.behind w.steps) with
  | none => exact ⟨h, rfl⟩
  | some o =>
    dsimp only
    rw [h]
    exact ⟨lookup_setClient h _, rfl⟩

theorem exchange_client {w : World ω} {client : Client} (h : w.users.lookup cmd.ctx = some client)
    (resps : List (Option Bytes)) :
    (exchange (daemonEnv own) (.usock cb) cmd w resps).users.lookup cmd.ctx =
      some ((outcomes own cb cmd w.steps resps).foldl Client.takes client) := by
  induction resps generalizing w client with
  | nil => exact h
  | cons resp resps ih =>
    cases resps with
    | nil => exact (@usockCallback_client κ ω own cb { cmd with ret := 0 } w client h resp).1
    | cons next rest =>
      obtain ⟨hnext, hsteps⟩ := @usockCallback_client κ ω own cb cmd w client h resp
      have hrest := ih hnext
      rw [hsteps] at hrest
      exact hrest

/-- A vendor plug-in has no hexadecimal digit, nor the O of OK, among its `ext_chars`. -/
def PlainExtChars (extChars : Bytes) : Prop := ∀ c ∈ extChars, hexValue c = none ∧ c ≠ 79

instance (extChars : Bytes) : Decidable (PlainExtChars extChars) :=
  List.decidableBAll (fun c => hexValue c = none ∧ c ≠ 79) extChars

theorem not_extended (hext : PlainExtChars own.extChars) {buf : Bytes}
    (hbuf : ∀ c ∈ (cstr buf).head?, c ≠ 43 ∧ c ≠ 0 ∧ ((hexValue c).isSome = true ∨ c = 79)) :
    ¬ extendedLine (daemonEnv own) buf := by
  rintro ⟨c, hc, hplus⟩
  obtain ⟨hne, hnul, hplain⟩ := hbuf c hc
  rcases hplus.resolve_left hne with hzero | hmem
  · exact hnul hzero
  · obtain ⟨hnone, hO⟩ := hext c ((List.takeWhile_prefix _).mem hmem)
    rcases hplain with hsome | heq
    · rw [hnone] at hsome
      cases hsome
    · exact hO heq

theorem ok_answers {v0 : Bool} (hext : PlainExtChars own.extChars)
    (hcmd : (cstr cmd.buf).head? = some 65) :
    OkLine (daemonEnv own) v0 cmd (ascii "OK") := by
  refine ⟨by decide, ?_, ?_, ?_⟩
  · intro heq
    rw [← heq] at hcmd
    exact absurd hcmd (by decide)
  · apply not_extended hext
    intro c hc
    obtain rfl := Option.some.inj hc
    decide
  · cases v0 <;> rfl

end SystemTestSuite.GsmDaemon
