import SystemTestSuite.GsmDaemon.AtMachine

namespace SystemTestSuite.GsmDaemon

open Library

variable {κ ω : Type} {P : κ → ℕ → Prop} [∀ k ctx, Decidable (P k ctx)] {env : Env κ ω}
  {g : Gsmd κ ω} {cmd : GsmdAtcmd κ}

def Env.mute (env : Env κ ω) (P : κ → ℕ → Prop) [∀ k ctx, Decidable (P k ctx)] : Env κ ω :=
  { env with
    callback := fun k w cmd resp =>
      if P k cmd.ctx then ⟨0, w, []⟩ else env.callback k w cmd resp }

def Speaks (P : κ → ℕ → Prop) (cmd : GsmdAtcmd κ) : Prop :=
  ∀ k, cmd.cb = some (.client k) → ¬ P k cmd.ctx

def HeadSpeaks (P : κ → ℕ → Prop) (g : Gsmd κ ω) : Prop :=
  ∀ cmd ∈ g.busyAtcmds.head?, Speaks P cmd

theorem callCb_mute (h : Speaks P cmd) {cb : AtcmdCb κ} (hcb : cmd.cb = some cb) (g : Gsmd κ ω)
    (resp : Option Bytes) (inMlbuf : Bool) :
    callCb (env.mute P) g cmd cb resp inMlbuf = callCb env g cmd cb resp inMlbuf := by
  cases cb with
  | nullWakeupCb => rfl
  | client k =>
    have hsame (w : ω) : (env.mute P).callback k w cmd resp = env.callback k w cmd resp :=
      if_neg (h k hcb)
    unfold callCb
    simp only [hsame]
    rfl

theorem atcmdDone_mute (h : Speaks P cmd) (g : Gsmd κ ω) (buf : Bytes) :
    atcmdDone (env.mute P) g cmd buf = atcmdDone env g cmd buf := by
  cases hcb : cmd.cb with
  | none => simp only [atcmdDone, hcb]
  | some cb => simp only [atcmdDone, hcb, callCb_mute h hcb]

theorem finalCb_mute (h : HeadSpeaks P g) (buf : Bytes) (ret : Option ℤ) (err : Option FinalError) :
    finalCb (env.mute P) g buf ret err = finalCb env g buf ret err := by
  unfold finalCb
  split
  · rfl
  · rename_i cmd busy hb
    have hspeaks : Speaks P { cmd with ret := ret.getD cmd.ret } := h cmd (by rw [hb]; rfl)
    dsimp only
    rw [atcmdDone_mute hspeaks]
    rfl

theorem mlResponse_mute (h : HeadSpeaks P g) (rc : ℤ) (buf : Bytes) :
    mlResponse (env.mute P) g rc buf = mlResponse env g rc buf := by
  unfold mlResponse
  split
  · rfl
  · rename_i cmd busy hb
    have hspeaks : Speaks P cmd := h cmd (by rw [hb]; rfl)
    cases hcb : cmd.cb with
    | none => rfl
    | some cb =>
      dsimp only
      rw [callCb_mute hspeaks hcb]
      rfl

theorem mlExtended_mute (h : HeadSpeaks P g) (buf : Bytes) :
    mlExtended (env.mute P) g buf = mlExtended env g buf := by
  unfold mlExtended
  split
  · rfl
  · have hparse : HeadSpeaks P (unsolicitedParse env g buf buf.length).2 := by
      intro cmd hcmd
      rw [(unsolicitedParse_text env g buf buf.length).busy] at hcmd
      exact h cmd hcmd
    have hsame : unsolicitedParse (env.mute P) g buf buf.length =
        unsolicitedParse env g buf buf.length := rfl
    dsimp only
    rw [finalCb_mute h, finalCb_mute h, mlResponse_mute h, hsame, mlResponse_mute hparse]

theorem mlParse_mute (h : HeadSpeaks P g) (buf : Bytes) :
    mlParse (env.mute P) g buf = mlParse env g buf := by
  unfold mlParse mlBasic
  simp only [mlExtended_mute h, finalCb_mute h]
  rfl

theorem cancelAtcmd_mute (h : HeadSpeaks P g) (cmd : FilledAtcmd κ) :
    cancelAtcmd (env.mute P) g cmd = cancelAtcmd env g cmd := by
  unfold cancelAtcmd
  split
  · rfl
  · rename_i cur busy hb
    have hspeaks : Speaks P cur := h cur (by rw [hb]; rfl)
    dsimp only
    rw [atcmdDone_mute hspeaks]

def Event.CallsBack : Event κ → Prop
  | .line _ | .cancel _ => True
  | .submit _ | .writable _ _ | .prompt | .expire _ => False

theorem next_mute {e : Event κ} (h : e.CallsBack → HeadSpeaks P g) :
    next (env.mute P) g e = next env g e := by
  cases e with
  | cancel cmd => exact congrArg Prod.snd (cancelAtcmd_mute (h trivial) cmd)
  | line buf => exact congrArg Prod.snd (mlParse_mute (h trivial) buf)
  | submit _ | writable _ _ | prompt | expire _ => rfl

end SystemTestSuite.GsmDaemon
