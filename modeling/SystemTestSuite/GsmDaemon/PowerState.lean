import SystemTestSuite.GsmDaemon.Answers
import SystemTestSuite.GsmDaemon.ClientLife
import SystemTestSuite.GsmDaemon.PowerHistory
import SystemTestSuite.GsmDaemon.WakeupBalance

namespace SystemTestSuite.GsmDaemon

open Library

variable {κ ω : Type} {own : Own κ ω} {g g' : Daemon κ ω}

def cfunCb : Bool → UsockCb
  | true => .phonePowerupCb
  | false => .nullCmdCb

def cfunText : Bool → Bytes
  | true => ascii "AT+CFUN=1" ++ [0]
  | false => ascii "AT+CFUN=0" ++ [0]

def cfunAtcmd (on : Bool) (gu : ℕ) : FilledAtcmd UsockCb where
  ctx := gu
  cb := some (cfunCb on)
  id := 0
  buf := cfunText on
  terminated := by cases on <;> rfl

def cfunOf (cmd : GsmdAtcmd (DaemonCb κ)) : Option Bool :=
  if cmd.buf = cfunText true then some true
  else if cmd.buf = cfunText false then some false
  else none

def PowerRequest (buf : Memory) : Prop := usockRcvPcmd buf = some .rcvPhone

instance (buf : Memory) : Decidable (PowerRequest buf) := inferInstanceAs (Decidable (_ = _))

def isClients (cmd : GsmdAtcmd (DaemonCb κ)) : Bool :=
  match cmd.cb with
  | some (.client (.usock _)) => true
  | _ => false

/-- Clients come, ask for power, take their replies and go with nothing outstanding; the daemon submits
what it likes; the UART takes commands, and brings echoes, prompts, final answers and the line that
starts the settings. -/
def PowerStep (own : Own κ ω) (g : Daemon κ ω) : DaemonEvent κ → Prop
  | .eof gu => ∀ cmd ∈ queued g, cmd.ctx ≠ gu
  | .request _ buf _ => PowerRequest buf
  | .line buf => finalResult (daemonEnv own) g buf ≠ none ∨ readyLine buf ∨ echoLine g buf
  | _ => True

instance (own : Own κ ω) (g : Daemon κ ω) : (e : DaemonEvent κ) → Decidable (PowerStep own g e)
  | .eof gu => inferInstanceAs (Decidable (∀ cmd ∈ queued g, cmd.ctx ≠ gu))
  | .request _ buf _ => inferInstanceAs (Decidable (PowerRequest buf))
  | .line buf => inferInstanceAs (Decidable (finalResult (daemonEnv own) g buf ≠ none ∨
      readyLine buf ∨ echoLine g buf))
  | .connect _ | .userWritable _ _ | .own _ | .writable _ _ | .prompt | .expire _ => .isTrue trivial

def answered (cmd : GsmdAtcmd (DaemonCb κ)) (r : Option ℤ × Option FinalError) : List PowerAct :=
  match cfunOf cmd with
  | some on => [.answered on (isClients cmd) r.1 r.2]
  | none => []

def powerActs (own : Own κ ω) (g : Daemon κ ω) : DaemonEvent κ → List PowerAct
  | .request _ buf _ =>
    if PowerRequest buf ∧ (hdrAt buf 0).msgSubtype = gsmdPhonePowerdown then [.powerdown] else []
  | .line buf =>
    match g.busyAtcmds, finalResult (daemonEnv own) g buf with
    | cmd :: _, some r => answered cmd r
    | _, _ => []
  | _ => []

def powerHistory (own : Own κ ω) (g : Daemon κ ω) : List (DaemonEvent κ) → List PowerAct
  | [] => []
  | e :: es => powerActs own g e ++ powerHistory own (daemonNext own g e) es

theorem powerHistory_append (g : Daemon κ ω) (es fs : List (DaemonEvent κ)) :
    powerHistory own g (es ++ fs) =
      powerHistory own g es ++ powerHistory own ((daemon own).after g es) fs := by
  induction es generalizing g with
  | nil => rfl
  | cons e es ih =>
    rw [List.cons_append, powerHistory, ih, powerHistory, List.append_assoc]
    rfl

inductive PowerAtcmd : GsmdAtcmd (DaemonCb κ) → Prop
  | wakeup {cmd : GsmdAtcmd (DaemonCb κ)} : cmd.cb = some .nullWakeupCb → cmd.buf = [SP, 0] →
      cmd.ret = -255 → PowerAtcmd cmd
  | cfun {cmd : GsmdAtcmd (DaemonCb κ)} (on : Bool) :
      cmd.cb = some (.client (.usock (cfunCb on))) → cmd.buf = cfunText on →
      cmd.ret = -255 → PowerAtcmd cmd
  | own {cmd : GsmdAtcmd (DaemonCb κ)} (k : Option κ) :
      cmd.cb = k.map (fun k => .client (.own k)) → PowerAtcmd cmd

theorem PowerAtcmd.congr {cmd cmd' : GsmdAtcmd (DaemonCb κ)} (h : PowerAtcmd cmd)
    (hcb : cmd'.cb = cmd.cb) (hbuf : cmd'.buf = cmd.buf) (hret : cmd'.ret = cmd.ret) :
    PowerAtcmd cmd' := by
  cases h with
  | wakeup h₁ h₂ h₃ => exact .wakeup (hcb.trans h₁) (hbuf.trans h₂) (hret.trans h₃)
  | cfun on h₁ h₂ h₃ => exact .cfun on (hcb.trans h₁) (hbuf.trans h₂) (hret.trans h₃)
  | own k h => exact .own k (hcb.trans h)

structure PowerInv (g : Daemon κ ω) : Prop where
  mlbufLen : g.mlbufLen = 0
  atcmds : ∀ cmd ∈ queued g, PowerAtcmd cmd

theorem PowerInv.mono (h : PowerInv g) (hlen : g'.mlbufLen = g.mlbufLen)
    (hmem : ∀ cmd ∈ queued g', cmd ∈ queued g ∨ PowerAtcmd cmd) :
    PowerInv g' := by
  refine ⟨hlen.trans h.mlbufLen, fun cmd hcmd => ?_⟩
  rcases hmem cmd hcmd with hold | hnew
  · exact h.atcmds cmd hold
  · exact hnew

theorem mem_queued_enqueue {c : FilledAtcmd (AtcmdCb (DaemonCb κ))} {cmd : GsmdAtcmd (DaemonCb κ)}
    (h : cmd ∈ queued (enqueue g c)) : cmd ∈ queued g ∨ cmd = c.queued g.serial := by
  simp only [queued, enqueue, Gsmd.addPending, List.mem_append, List.mem_singleton] at h ⊢
  tauto

theorem PowerInv.enqueue (h : PowerInv g) {c : FilledAtcmd (AtcmdCb (DaemonCb κ))}
    (hc : ∀ serial, PowerAtcmd (c.queued serial)) : PowerInv (enqueue g c) := by
  refine h.mono rfl fun cmd hcmd => ?_
  rcases mem_queued_enqueue hcmd with hold | rfl
  · exact Or.inl hold
  · exact Or.inr (hc g.serial)

theorem PowerInv.submit (h : PowerInv g) {c : FilledAtcmd (DaemonCb κ)}
    (hc : ∀ serial, PowerAtcmd (c.client.queued serial)) : PowerInv (atcmdSubmit g c) := by
  rw [atcmdSubmit_eq]
  split
  · have htimer : PowerInv (wakeupTimerStart g) := h.mono rfl fun _ => Or.inl
    exact (htimer.enqueue fun _ => .wakeup rfl rfl rfl).enqueue hc
  · exact h.enqueue hc

theorem powerAtcmd_cfun (on : Bool) (gu serial : ℕ) :
    PowerAtcmd (((cfunAtcmd on gu).usock : FilledAtcmd (DaemonCb κ)).client.queued serial) :=
  .cfun on rfl rfl rfl

theorem powerAtcmd_own (c : OwnAtcmd κ) (serial : ℕ) :
    PowerAtcmd ((c.filled : FilledAtcmd (DaemonCb κ)).client.queued serial) := by
  apply PowerAtcmd.own c.cb
  change (c.cb.map DaemonCb.own).map AtcmdCb.client = _
  rw [Option.map_map]
  rfl

theorem PowerInv.react (h : PowerInv g) (own : Own κ ω) (w : World ω) (r : OwnReaction κ ω) :
    PowerInv (react g (r.reaction own w)) := by
  have hfold (cs : List (OwnAtcmd κ)) (s : Daemon κ ω) (hs : PowerInv s) :
      PowerInv ((cs.map OwnAtcmd.filled).foldl atcmdSubmit s) := by
    induction cs generalizing s with
    | nil => exact hs
    | cons c cs ih => exact ih _ (hs.submit (powerAtcmd_own c))
  exact hfold r.submits _ (h.mono rfl fun _ => Or.inl)

theorem PowerInv.select (h : PowerInv g) (rc : WriteRc) (crDone : Bool) :
    PowerInv (atcmdSelectWrite g rc crDone) ∧ (atcmdSelectWrite g rc crDone).world = g.world := by
  rcases atcmdSelectWrite_cases g rc crDone with heq | ⟨_, _, heq⟩ | ⟨pos, rest, n, hr, hp, rfl⟩
  · rw [heq]
    exact ⟨h, rfl⟩
  · rw [heq]
    exact ⟨h.mono rfl fun _ => Or.inl, rfl⟩
  · have hpos : PowerAtcmd (written pos n) := by
      have hmem : pos ∈ queued g := by simp [queued, hp]
      exact (h.atcmds pos hmem).congr rfl rfl rfl
    rw [atcmdSelectWrite_wrote g hr hp]
    split_ifs
    · refine ⟨h.mono rfl fun cmd hcmd => ?_, rfl⟩
      simp only [queued, hp, List.mem_append, List.mem_cons, List.not_mem_nil, or_false] at hcmd ⊢
      rcases hcmd with hcmd | hcmd | rfl
      · tauto
      · tauto
      · exact Or.inr hpos
    · refine ⟨h.mono rfl fun cmd hcmd => ?_, rfl⟩
      simp only [queued, hp, List.mem_append, List.mem_cons] at hcmd ⊢
      rcases hcmd with (rfl | hcmd) | hcmd
      · exact Or.inr hpos
      · tauto
      · tauto

theorem PowerInv.expire (h : PowerInv g) (tmr : ℕ) :
    PowerInv (timerExpire g tmr) ∧ (timerExpire g tmr).world = g.world := by
  rcases timerExpire_cases g tmr with ⟨_, heq⟩ | ⟨_, _, heq⟩ | ⟨cmd, busy, _, hb, heq⟩
  · rw [heq]
    exact ⟨h.mono rfl fun _ => Or.inl, rfl⟩
  · rw [heq]
    exact ⟨h.mono rfl fun _ => Or.inl, rfl⟩
  · rw [heq]
    refine ⟨h.mono rfl fun c hc => ?_, rfl⟩
    simp only [queued, hb, List.mem_append, List.mem_cons] at hc ⊢
    tauto

theorem exists_lookup {w : World ω} {gu : ℕ} (h : gu ∈ w.addresses) :
    ∃ client, w.users.lookup gu = some client := by
  obtain ⟨u, hu, rfl⟩ := List.mem_map.mp h
  cases hlookup : w.users.lookup u.1 with
  | some client => exact ⟨client, rfl⟩
  | none =>
    have hne := List.lookup_eq_none_iff.mp hlookup u hu
    simp at hne

theorem usockRcvPhone_eq (gu : ℕ) (client : Client) (buf : Memory) :
    usockRcvPhone gu client buf =
      if (hdrAt buf 0).msgSubtype = gsmdPhonePowerup then .ok (submits client (cfunAtcmd true gu))
      else if (hdrAt buf 0).msgSubtype = gsmdPhonePowerdown then
        .ok { submits client (cfunAtcmd false gu) with on := some false }
      else .error .einval := rfl

theorem PowerInv.request (h : PowerInv g) {buf : Memory} (hreq : PowerRequest buf) (gu len : ℕ)
    (client : Client) :
    PowerInv (rcvMessage own g gu client buf len) ∧
      (rcvMessage own g gu client buf len).world.on =
        if (hdrAt buf 0).msgSubtype = gsmdPhonePowerdown then false else g.world.on := by
  have hmsg : usockRcvMessage own.textMode (own.unset g.world.steps).ucmd gu client buf len =
      usockRcvPhone gu client buf := by
    rw [usockRcvMessage, show usockRcvPcmd buf = some .rcvPhone from hreq]
  have hsubmit (on : Bool) (w : World ω) :
      PowerInv (atcmdSubmit { g with world := w } (cfunAtcmd on gu).usock) ∧
        (atcmdSubmit { g with world := w } (cfunAtcmd on gu).usock).world.on = w.on := by
    have hworld : PowerInv { g with world := w } := h.mono rfl fun _ => Or.inl
    exact ⟨hworld.submit (powerAtcmd_cfun on gu), congrArg World.on (atcmdSubmit_world _ _)⟩
  rw [rcvMessage, hmsg, usockRcvPhone_eq]
  by_cases hup : (hdrAt buf 0).msgSubtype = gsmdPhonePowerup
  · have hno : (hdrAt buf 0).msgSubtype ≠ gsmdPhonePowerdown := by
      rw [hup]
      decide
    rw [if_pos hup, if_neg hno]
    exact hsubmit true _
  · rw [if_neg hup]
    by_cases hdown : (hdrAt buf 0).msgSubtype = gsmdPhonePowerdown
    · rw [if_pos hdown, if_pos hdown]
      exact hsubmit false _
    · rw [if_neg hdown, if_neg hdown]
      exact ⟨h, rfl⟩

theorem evtsSend_on (own : Own κ ω) (w : World ω) (r : ω × List (GsmdUcmd × ℕ)) :
    (evtsSend own w r).on = w.on := by
  have hfold (evts : List (GsmdUcmd × ℕ)) (v : World ω) :
      (evts.foldl (evtSend own) v).on = v.on := by
    induction evts generalizing v with
    | nil => rfl
    | cons evt evts ih => exact ih _
  exact hfold r.2 _

theorem PowerInv.errorEvent (h : PowerInv g) (own : Own κ ω) (ret : ℤ) (err : Option FinalError) :
    PowerInv (generateErrorEvent (daemonEnv own) g ret err) ∧
      (generateErrorEvent (daemonEnv own) g ret err).world.on = g.world.on := by
  cases err with
  | none => exact ⟨h, rfl⟩
  | some err =>
    cases err with
    | cme => exact ⟨h.mono rfl fun _ => Or.inl, evtsSend_on own g.world _⟩
    | cms => exact ⟨h.mono rfl fun _ => Or.inl, evtsSend_on own g.world _⟩

theorem runCb_cfun (on : Bool) (u : Unset) (cmd : GsmdAtcmd (DaemonCb κ)) (resp : Bytes) :
    runCb (cfunCb on) u cmd resp = some { on := on && cmd.ret = 0 } := by
  cases on <;> rfl

theorem usockCallback_on (on : Bool) (w : World ω) (cmd : GsmdAtcmd (DaemonCb κ)) (text : Bytes) :
    (usockCallback own (cfunCb on) w cmd (some text)).world.on =
      (w.on || (on && cmd.ret = 0)) := by
  rw [usockCallback, Option.bind_some, runCb_cfun]
  dsimp only
  split <;> rfl

theorem callCb_usock (own : Own κ ω) (g : Daemon κ ω) (cmd : GsmdAtcmd (DaemonCb κ)) (cb : UsockCb)
    (text : Bytes) :
    let g' := (callCb (daemonEnv own) g cmd (.client (.usock cb)) (some text) false).2
    g'.pendingAtcmds = g.pendingAtcmds ∧ g'.busyAtcmds = g.busyAtcmds ∧
      g'.world = (usockCallback own cb g.world cmd (some text)).world := by
  have hnone := (usockCallback_addresses own cb g.world cmd (some text)).2
  have hreact : (callCb (daemonEnv own) g cmd (.client (.usock cb)) (some text) false).2 =
      react (g.emit (.call cmd.serial (some text) cmd.ret))
        (usockCallback own cb g.world cmd (some text)) := rfl
  rw [hreact, react, hnone]
  exact ⟨rfl, rfl, rfl⟩

theorem PowerInv.emptied (h : PowerInv g) : PowerInv { g with mlbufLen := 0 } := ⟨rfl, h.atcmds⟩

theorem PowerInv.unlink (h : PowerInv g) (cmd : GsmdAtcmd (DaemonCb κ)) :
    PowerInv (unlinkBusy g cmd) := by
  rw [unlinkBusy_eq]
  refine ⟨h.mlbufLen, fun c hc => h.atcmds c ?_⟩
  simp only [queued, List.mem_append] at hc ⊢
  exact hc.imp_right List.mem_of_mem_tail

theorem answered_cfun {cmd : GsmdAtcmd (DaemonCb κ)} {on : Bool} (h : cmd.buf = cfunText on)
    (hcb : cmd.cb = some (.client (.usock (cfunCb on)))) (r : Option ℤ × Option FinalError) :
    answered cmd r = [.answered on true r.1 r.2] := by
  have hclient : isClients cmd = true := by
    rw [isClients, hcb]
  rw [answered, cfunOf, h, hclient]
  cases on <;> rfl

theorem answered_wakeup {cmd : GsmdAtcmd (DaemonCb κ)} (h : cmd.buf = [SP, 0])
    (r : Option ℤ × Option FinalError) : answered cmd r = [] := by
  rw [answered, cfunOf, h]
  rfl

theorem answered_own {cmd : GsmdAtcmd (DaemonCb κ)} {k : Option κ}
    (hcb : cmd.cb = k.map fun k => .client (.own k)) (r : Option ℤ × Option FinalError) (radio : Bool) :
    (answered cmd r).foldl radioNext radio = radio := by
  have hown : isClients cmd = false := by
    rw [isClients, hcb]
    cases k <;> rfl
  rw [answered, hown]
  cases cfunOf cmd with
  | none => rfl
  | some on => cases on <;> rfl

theorem radioNext_ret (radio on : Bool) (r : Option ℤ × Option FinalError) :
    (radio || (on && r.1.getD (-255) = 0)) = radioNext radio (.answered on true r.1 r.2) := by
  cases on with
  | false => simp [radioNext]
  | true => cases h : r.1 <;> simp [radioNext]

theorem nullWakeupCb_world (g : Daemon κ ω) : (nullWakeupCb g).world = g.world := by
  unfold nullWakeupCb
  split <;> rfl

theorem foldl_submit_on (cs : List (FilledAtcmd (DaemonCb κ))) (g : Daemon κ ω) :
    (cs.foldl atcmdSubmit g).world = g.world := by
  induction cs generalizing g with
  | nil => rfl
  | cons c cs ih => exact (ih _).trans (atcmdSubmit_world _ _)

theorem callCb_own (own : Own κ ω) (g : Daemon κ ω) (cmd : GsmdAtcmd (DaemonCb κ)) (k : κ) (text : Bytes) :
    (callCb (daemonEnv own) g cmd (.client (.own k)) (some text) false).2 =
      react (g.emit (.call cmd.serial (some text) cmd.ret))
        ((own.callback k g.world.rest cmd (some text)).reaction own g.world) := rfl

theorem react_own (own : Own κ ω) (g : Daemon κ ω) (r : OwnReaction κ ω) :
    (react g (r.reaction own g.world)).world.on = g.world.on := by
  rw [react, foldl_submit_on]
  exact evtsSend_on own g.world _

theorem PowerInv.done (h : PowerInv g) (own : Own κ ω) {cmd : GsmdAtcmd (DaemonCb κ)}
    (hcmd : PowerAtcmd cmd) (buf : Bytes) (r : Option ℤ × Option FinalError) :
    PowerInv (atcmdDone (daemonEnv own) g { cmd with ret := r.1.getD cmd.ret } buf).2 ∧
      (atcmdDone (daemonEnv own) g { cmd with ret := r.1.getD cmd.ret } buf).2.world.on =
        (answered cmd r).foldl radioNext g.world.on := by
  obtain ⟨cmd', heq⟩ : ∃ cmd', cmd' = { cmd with ret := r.1.getD cmd.ret } := ⟨_, rfl⟩
  have hemit : PowerInv (g.emit (.call cmd'.serial (some (cstr buf)) cmd'.ret)) :=
    h.mono rfl fun _ => Or.inl
  rw [← heq]
  cases hcmd with
  | wakeup hcb hbuf hret =>
    have hcb' : cmd'.cb = some .nullWakeupCb := by rw [heq, ← hcb]
    have hcall : PowerInv (nullWakeupCb (g.emit (.call cmd'.serial (some (cstr buf)) cmd'.ret))) := by
      obtain ⟨hp, hb, hlen⟩ := nullWakeupCb_queues (g.emit (.call cmd'.serial (some (cstr buf)) cmd'.ret))
      refine hemit.mono ?_ fun c hc => Or.inl ?_
      · unfold nullWakeupCb
        split <;> rfl
      · rwa [queued, hp, hb] at hc
    rw [atcmdDone_empty (daemonEnv own) hcb' h.mlbufLen, unlinkBusy_world, answered_wakeup hbuf]
    exact ⟨hcall.emptied.unlink cmd', congrArg World.on (nullWakeupCb_world _)⟩
  | cfun on hcb hbuf hret =>
    have hcb' : cmd'.cb = some (.client (.usock (cfunCb on))) := by rw [heq, ← hcb]
    have hret' : cmd'.ret = r.1.getD (-255) := by rw [heq, ← hret]
    obtain ⟨hp, hb, hworld⟩ := callCb_usock own g cmd' (cfunCb on) (cstr buf)
    have hcall : PowerInv { (callCb (daemonEnv own) g cmd' (.client (.usock (cfunCb on)))
        (some (cstr buf)) false).2 with mlbufLen := 0 } := by
      refine ⟨rfl, fun c hc => h.atcmds c ?_⟩
      rwa [queued, hp, hb] at hc
    rw [atcmdDone_empty (daemonEnv own) hcb' h.mlbufLen, unlinkBusy_world, answered_cfun hbuf hcb]
    refine ⟨hcall.unlink cmd', (congrArg World.on hworld).trans ?_⟩
    rw [usockCallback_on, hret', radioNext_ret]
    rfl
  | own k hcb =>
    rw [answered_own hcb]
    cases k with
    | none =>
      have hcb' : cmd'.cb = none := by rw [heq]; exact hcb
      rw [atcmdDone_none (daemonEnv own) g hcb', unlinkBusy_world]
      exact ⟨h.unlink cmd', rfl⟩
    | some k =>
      have hcb' : cmd'.cb = some (.client (.own k)) := by rw [heq]; exact hcb
      rw [atcmdDone_empty (daemonEnv own) hcb' h.mlbufLen, unlinkBusy_world, callCb_own]
      exact ⟨(hemit.react own g.world _).emptied.unlink cmd',
        react_own own (g.emit (.call cmd'.serial (some (cstr buf)) cmd'.ret)) _⟩

theorem PowerInv.answer (h : PowerInv g) {cmd : GsmdAtcmd (DaemonCb κ)}
    {busy : List (GsmdAtcmd (DaemonCb κ))} (hb : g.busyAtcmds = cmd :: busy) (buf : Bytes)
    (r : Option ℤ × Option FinalError) :
    PowerInv (finalCb (daemonEnv own) g buf r.1 r.2).2 ∧
      (finalCb (daemonEnv own) g buf r.1 r.2).2.world.on =
        (answered cmd r).foldl radioNext g.world.on := by
  obtain ⟨hevent, hon⟩ := h.errorEvent own (r.1.getD cmd.ret) r.2
  have hdone := hevent.done own (h.atcmds cmd (by simp [queued, hb])) buf r
  rw [hon] at hdone
  rw [finalCb, hb]
  exact hdone

theorem powerActs_none {buf : Bytes} (h : finalResult (daemonEnv own) g buf = none) :
    powerActs own g (.line buf) = [] := by
  rw [powerActs, h]
  cases g.busyAtcmds <;> rfl

theorem PowerInv.line (h : PowerInv g) {buf : Bytes} (hstep : PowerStep own g (.line buf)) :
    PowerInv (mlParse (daemonEnv own) g buf).2 ∧
      (mlParse (daemonEnv own) g buf).2.world.on =
        (powerActs own g (.line buf)).foldl radioNext g.world.on := by
  cases hr : finalResult (daemonEnv own) g buf with
  | none =>
    rw [powerActs_none hr]
    by_cases hready : readyLine buf
    · have hstart : PowerInv { g with interpreterReady := true } := h.mono rfl fun _ => Or.inl
      rw [mlParse, if_pos hready]
      exact ⟨hstart.submit (powerAtcmd_own own.initsettings), congrArg World.on (atcmdSubmit_world _ _)⟩
    · have hecho := (hstep.resolve_left (not_not.mpr hr)).resolve_left hready
      rw [mlParse, if_neg hready, if_pos hecho]
      exact ⟨h, rfl⟩
  | some r =>
    rw [mlParse_final (daemonEnv own) g hr, powerActs, hr]
    cases hb : g.busyAtcmds with
    | nil =>
      rw [finalCb, hb]
      exact ⟨h, rfl⟩
    | cons cmd busy => exact h.answer hb buf r

theorem PowerInv.next (h : PowerInv g) {e : DaemonEvent κ} (he : DaemonEnabled g e)
    (hstep : PowerStep own g e) :
    PowerInv (daemonNext own g e) ∧
      (daemonNext own g e).world.on = (powerActs own g e).foldl radioNext g.world.on := by
  have hworld (w : World ω) : PowerInv { g with world := w } := h.mono rfl fun _ => Or.inl
  cases e with
  | connect gu => exact ⟨hworld _, rfl⟩
  | eof gu => exact ⟨hworld _, rfl⟩
  | request gu buf len =>
    obtain ⟨client, hclient⟩ := exists_lookup he
    obtain ⟨hinv, hon⟩ := h.request hstep gu len client
    rw [daemonNext, hclient]
    refine ⟨hinv, hon.trans ?_⟩
    rw [powerActs]
    by_cases hdown : (hdrAt buf 0).msgSubtype = gsmdPhonePowerdown
    · rw [if_pos hdown, if_pos ⟨hstep, hdown⟩]
      rfl
    · rw [if_neg hdown, if_neg (fun hc => hdown hc.2)]
      rfl
  | userWritable gu rc =>
    rw [daemonNext]
    split
    · exact ⟨h, rfl⟩
    · exact ⟨hworld _, rfl⟩
  | own cmd =>
    exact ⟨h.submit (powerAtcmd_own cmd), congrArg World.on (atcmdSubmit_world _ _)⟩
  | writable rc crDone =>
    obtain ⟨hinv, hsame⟩ := h.select rc crDone
    exact ⟨hinv, congrArg World.on hsame⟩
  | line buf => exact h.line hstep
  | prompt => exact ⟨h.mono rfl fun _ => Or.inl, rfl⟩
  | expire tmr =>
    obtain ⟨hinv, hsame⟩ := h.expire tmr
    exact ⟨hinv, congrArg World.on hsame⟩

theorem radioState_power {es : List (DaemonEvent κ)} (h : PowerInv g) (hoff : g.world.on = false)
    (hrun : (daemon own).RunWhile (PowerStep own) g es g') :
    PowerInv g' ∧ g'.world.on = radioState (powerHistory own g es) := by
  induction hrun with
  | nil => exact ⟨h, hoff⟩
  | @snoc es t e hr he hok ih =>
    obtain ⟨hinv, hon⟩ := ih
    obtain ⟨hinv', hon'⟩ := hinv.next he.2 hok
    refine ⟨hinv', hon'.trans ?_⟩
    rw [powerHistory_append, ← hr.after_eq, hon, radioState, radioState, List.foldl_append,
      powerHistory, powerHistory, List.append_nil]

theorem radio_tells_iff {es : List (DaemonEvent κ)} (hinit : DaemonInit g)
    (hoff : g.world.on = false) (hrun : (daemon own).RunWhile (PowerStep own) g es g') :
    (g'.world.on = true ↔ lastOk (powerHistory own g es) = some true) ↔
      PowerOrdered (powerHistory own g es) := by
  have hinv : PowerInv g := by
    refine ⟨hinit.atcmd.mlbufLen, ?_⟩
    simp [queued, hinit.atcmd.pending, hinit.atcmd.busy]
  rw [(radioState_power hinv hoff hrun).2]
  exact radioState_iff_powerOrdered

def powerRequest (subtype : UInt8) : Memory :=
  Memory.zero.store 0 [1, gsmdMsgPhone, subtype, 0, 0, 0, 0, 0]

def powerUp : List (DaemonEvent Unit) :=
  [.connect 1, .request 1 (powerRequest gsmdPhonePowerup) 8, .writable (.wrote 1) true,
    .line (ascii "OK"), .writable (.wrote 9) true, .line (ascii "OK")]

theorem radio_tells_iff_up :
    (((daemon idleOwn).after daemonStart powerUp).world.on = true ↔
        lastOk (powerHistory idleOwn daemonStart powerUp) = some true) ↔
      PowerOrdered (powerHistory idleOwn daemonStart powerUp) :=
  radio_tells_iff daemonStart_init rfl (Machine.Checks.runWhile (by decide +kernel))

def powerOverlap : List (DaemonEvent Unit) :=
  [.connect 1, .request 1 (powerRequest gsmdPhonePowerup) 8,
    .request 1 (powerRequest gsmdPhonePowerdown) 8, .writable (.wrote 1) true, .line (ascii "OK"),
    .writable (.wrote 9) true, .line (ascii "OK"), .writable (.wrote 9) true, .line (ascii "OK")]

def powerOwn : List (DaemonEvent Unit) :=
  [.own ⟨some (), 0, cfunText true, rfl⟩, .writable (.wrote 1) true, .line (ascii "OK"),
    .writable (.wrote 9) true, .line (ascii "OK")]

theorem radio_left_on :
    DaemonInit daemonStart ∧ daemonStart.world.on = false ∧
      ∀ es ∈ [powerOverlap, powerOwn],
        (daemon idleOwn).RunWhile (PowerStep idleOwn) daemonStart es
          ((daemon idleOwn).after daemonStart es) ∧
        queued ((daemon idleOwn).after daemonStart es) = [] ∧
        ¬ (((daemon idleOwn).after daemonStart es).world.on = true ↔
          lastOk (powerHistory idleOwn daemonStart es) = some true) := by
  refine ⟨daemonStart_init, rfl, ?_⟩
  simp only [List.forall_mem_cons, List.not_mem_nil, false_implies, implies_true, and_true]
  refine ⟨⟨Machine.Checks.runWhile (by decide +kernel), ?_, ?_⟩,
    Machine.Checks.runWhile (by decide +kernel), ?_, ?_⟩
  · decide +kernel
  · decide +kernel
  · decide +kernel
  · decide +kernel

end SystemTestSuite.GsmDaemon
