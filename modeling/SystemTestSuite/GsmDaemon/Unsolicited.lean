import SystemTestSuite.GsmDaemon.Response

namespace SystemTestSuite.GsmDaemon

open Library

variable {κ ω : Type} {env : Env κ ω} {g g' : Gsmd κ ω}

def Act.unsolicited? : Act κ → Option Bytes
  | .unsolicited text => some text
  | _ => none

def dispatches (g : Gsmd κ ω) : List Bytes := g.log.filterMap Act.unsolicited?

def Dispatched (env : Env κ ω) (g : Gsmd κ ω) (buf : Bytes) (len : ℕ) : Prop :=
  (env.unsolicit.find? (fun i => strncmp (cstr buf) i.pfx i.pfx.length)).isSome = true ∧
    (unsolicitedParse env g buf len).1 ≠ -EAGAIN

instance (env : Env κ ω) (g : Gsmd κ ω) (buf : Bytes) (len : ℕ) :
    Decidable (Dispatched env g buf len) := inferInstanceAs (Decidable (_ ∧ _))

/-- An extended line that is neither a final line nor meant for the executing command. -/
structure Foreign (env : Env κ ω) (g : Gsmd κ ω) (buf : Bytes) : Prop where
  ready : ¬ readyLine buf
  echo : ¬ echoLine g buf
  extended : extendedLine env buf
  colon : ∃ colon ∈ strchr buf 58,
    (g.busyAtcmds.head?.any fun cmd => prefixMatches buf colon cmd) = false
  info : extendedResult buf = none

/-- A complete unsolicited message and the text that its parser is to get. The second line of a
message is neither empty nor extended. -/
inductive Message (env : Env κ ω) (g : Gsmd κ ω) : List Bytes → Bytes → Prop
  | ring {buf} : ¬ readyLine buf → ¬ echoLine g buf → ¬ extendedLine env buf →
      ringLine g.v0 buf → Dispatched env g buf buf.length → Message env g [buf] (cstr buf)
  | line {buf} : Foreign env g buf → Dispatched env g buf buf.length →
      (unsolicitedParse env g buf buf.length).1 ≠ -ENOENT → Message env g [buf] (cstr buf)
  | twoLine {buf pdu} : Foreign env g buf →
      (unsolicitedParse env g buf buf.length).1 = -EAGAIN →
      ¬ readyLine pdu → ¬ extendedLine env pdu →
      Dispatched env (mlParse env g buf).2 (buf ++ LF :: pdu) (buf ++ LF :: pdu).length →
      Message env g [buf, pdu] (buf ++ LF :: pdu)

theorem atcmdSubmit_dispatches (g : Gsmd κ ω) (c : FilledAtcmd κ) :
    dispatches (atcmdSubmit g c) = dispatches g := by
  have henqueue (g : Gsmd κ ω) (c : FilledAtcmd (AtcmdCb κ)) :
      dispatches (enqueue g c) = dispatches g := by
    simp [dispatches, enqueue, Gsmd.addPending, Act.unsolicited?]
  rw [atcmdSubmit_eq, henqueue]
  split
  · exact henqueue _ _
  · rfl

theorem react_dispatches (g : Gsmd κ ω) (r : Reaction κ ω) :
    dispatches (react g r) = dispatches g := by
  have hfold : ∀ (cs : List (FilledAtcmd κ)) (h : Gsmd κ ω),
      dispatches (cs.foldl atcmdSubmit h) = dispatches h := by
    intro cs
    induction cs with
    | nil => exact fun _ => rfl
    | cons c cs ih => exact fun h => (ih _).trans (atcmdSubmit_dispatches h c)
  exact hfold r.submits _

theorem emit_dispatches (g : Gsmd κ ω) {a : Act κ} (h : a.unsolicited? = none) :
    dispatches (g.emit a) = dispatches g := by
  simp [dispatches, Gsmd.emit, h]

theorem unsolicitedParse_dispatches (env : Env κ ω) (g : Gsmd κ ω) (buf : Bytes) (len : ℕ) :
    dispatches (unsolicitedParse env g buf len).2 =
      dispatches g ++ if Dispatched env g buf len then [cstr buf] else [] := by
  cases hfind : env.unsolicit.find? (fun i => strncmp (cstr buf) i.pfx i.pfx.length) with
  | none =>
    have hnot : ¬ Dispatched env g buf len := fun h => by simpa [hfind] using h.1
    simp [unsolicitedParse, hfind, hnot]
  | some i =>
    have hreact := react_dispatches g (i.parse g.world (cstr buf) len)
    have hrc : (unsolicitedParse env g buf len).1 = (i.parse g.world (cstr buf) len).rc := by
      simp [unsolicitedParse, hfind]
    have hiff : Dispatched env g buf len ↔ (i.parse g.world (cstr buf) len).rc ≠ -EAGAIN := by
      rw [Dispatched, hrc, hfind]
      exact and_iff_right rfl
    by_cases hagain : (i.parse g.world (cstr buf) len).rc = -EAGAIN
    · rw [if_neg (fun h => hiff.mp h hagain)]
      simp [unsolicitedParse, hfind, hagain, hreact]
    · rw [if_pos (hiff.mpr hagain)]
      have hemit : dispatches ((react g (i.parse g.world (cstr buf) len)).emit
          (.unsolicited (cstr buf))) =
          dispatches (react g (i.parse g.world (cstr buf) len)) ++ [cstr buf] := by
        simp [dispatches, Gsmd.emit, Act.unsolicited?]
      simp [unsolicitedParse, hfind, hagain, hemit, hreact]

theorem callCb_dispatches (env : Env κ ω) (g : Gsmd κ ω) (cmd : GsmdAtcmd κ) (cb : AtcmdCb κ)
    (resp : Option Bytes) (inMlbuf : Bool) :
    dispatches (callCb env g cmd cb resp inMlbuf).2 = dispatches g := by
  have hcall : dispatches (g.emit (.call cmd.serial resp cmd.ret)) = dispatches g :=
    emit_dispatches g rfl
  cases cb with
  | nullWakeupCb =>
    rw [callCb_wakeup, ← hcall]
    unfold nullWakeupCb
    split <;> rfl
  | client k =>
    have hreact := (react_dispatches (g.emit (.call cmd.serial resp cmd.ret))
      (env.callback k g.world cmd resp)).trans hcall
    cases resp with
    | none => exact hreact
    | some text => cases inMlbuf <;> exact hreact

theorem unlinkBusy_dispatches (g : Gsmd κ ω) (cmd : GsmdAtcmd κ) :
    dispatches (unlinkBusy g cmd) = dispatches g := by
  have hemit : dispatches ({ g with busyAtcmds := g.busyAtcmds.tail }.emit
      (.finish cmd.serial)) = dispatches g := emit_dispatches _ rfl
  unfold unlinkBusy
  dsimp only
  split_ifs
  · exact hemit
  · exact hemit

theorem atcmdDone_dispatches (env : Env κ ω) (g : Gsmd κ ω) (cmd : GsmdAtcmd κ) (buf : Bytes) :
    dispatches (atcmdDone env g cmd buf).2 = dispatches g := by
  cases hcb : cmd.cb with
  | none => rw [atcmdDone_none env g hcb, unlinkBusy_dispatches]
  | some cb =>
    by_cases hlen : g.mlbufLen = 0
    · rw [atcmdDone_empty env hcb hlen, unlinkBusy_dispatches]
      exact callCb_dispatches env g cmd cb _ _
    · rw [atcmdDone_text env hcb hlen, unlinkBusy_dispatches]
      exact callCb_dispatches env (terminated g) cmd cb _ _

theorem finalCb_dispatches (env : Env κ ω) (g : Gsmd κ ω) (buf : Bytes) (ret : Option ℤ)
    (err : Option FinalError) : dispatches (finalCb env g buf ret err).2 = dispatches g := by
  unfold finalCb
  split
  · rfl
  · dsimp only
    rw [atcmdDone_dispatches]
    rcases err with _ | _ | _
    · rfl
    · exact emit_dispatches _ rfl
    · exact emit_dispatches _ rfl

theorem mlParse_foreign {buf : Bytes} (h : Foreign env g buf) :
    mlParse env g buf =
      let r := unsolicitedParse env g buf buf.length
      if r.1 = -EAGAIN then
        (0, { r.2 with
          mlbufLen := buf.length
          mlbuf := r.2.mlbuf.store 0 buf
          mlunsolicited := true })
      else if r.1 ≠ -ENOENT then r
      else mlResponse env r.2 r.1 buf := by
  obtain ⟨colon, hcolon, hmatch⟩ := h.colon
  unfold mlParse
  rw [if_neg h.ready, if_neg h.echo, if_pos h.extended, mlExtended_none env g hcolon h.info,
    if_neg (by simp [hmatch])]

structure SameTurn (g g' : Gsmd κ ω) : Prop where
  v0 : g'.v0 = g.v0
  busy : g'.busyAtcmds = g.busyAtcmds
  calls : calls g' = calls g

theorem SameTurn.trans {g'' : Gsmd κ ω} (h : SameTurn g g') (k : SameTurn g' g'') :
    SameTurn g g'' := ⟨k.v0.trans h.v0, k.busy.trans h.busy, k.calls.trans h.calls⟩

theorem SameText.turn (h : SameText g g') : SameTurn g g' := ⟨h.v0, h.busy, h.calls⟩

theorem header_turn {buf : Bytes} (h : Foreign env g buf)
    (hrc : (unsolicitedParse env g buf buf.length).1 = -EAGAIN) :
    SameTurn g (mlParse env g buf).2 ∧ (mlParse env g buf).2.mlunsolicited = true ∧
      mlBuffer (mlParse env g buf).2 = ⟨g.mlbuf.store 0 buf, buf.length⟩ ∧
      dispatches (mlParse env g buf).2 = dispatches g := by
  have ht := unsolicitedParse_text env g buf buf.length
  have hd := unsolicitedParse_dispatches env g buf buf.length
  have hnot : ¬ Dispatched env g buf buf.length := fun hdis => hdis.2 hrc
  rw [if_neg hnot, List.append_nil] at hd
  rw [mlParse_foreign h]
  dsimp only
  rw [if_pos hrc]
  exact ⟨⟨ht.v0, ht.busy, ht.calls⟩, rfl, by rw [mlBuffer, ht.mlbuf], hd⟩

end SystemTestSuite.GsmDaemon
