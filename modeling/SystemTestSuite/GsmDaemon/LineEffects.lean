import SystemTestSuite.GsmDaemon.MlParse

namespace SystemTestSuite.GsmDaemon

open Library

variable {κ ω : Type}

def Act.IsReport : Act κ → Prop
  | .call .. | .unsolicited _ | .cmeEvent _ | .cmsEvent _ => True
  | _ => False

structure Quiet (g g' : Gsmd κ ω) : Prop where
  pending : g'.pendingAtcmds = g.pendingAtcmds
  busy : g'.busyAtcmds = g.busyAtcmds
  fdWrite : g'.fdWrite = g.fdWrite
  wakeupTimer : g'.wakeupTimer = g.wakeupTimer
  timers : g'.timers = g.timers
  serial : g'.serial = g.serial
  ready : g.interpreterReady = true → g'.interpreterReady = true
  log : ∃ acts, g'.log = g.log ++ acts ∧ ∀ a ∈ acts, a.IsReport

def enqueue (g : Gsmd κ ω) (c : FilledAtcmd (AtcmdCb κ)) : Gsmd κ ω :=
  { g.addPending c with fdWrite := g.fdWrite || g.pendingAtcmds.isEmpty }

theorem atcmdSubmit_eq (g : Gsmd κ ω) (c : FilledAtcmd κ) :
    atcmdSubmit g c =
      enqueue (if g.wakeupTimer = none then enqueue (wakeupTimerStart g) wakeupAtcmd else g)
        c.client := by
  by_cases ht : g.wakeupTimer = none <;> cases hp : g.pendingAtcmds
  all_goals
    simp [atcmdSubmit, atcmdWakeupModem, enqueue, ht, hp, Gsmd.addPending, wakeupTimerStart,
      Gsmd.atcmdWakePendingQueue]

/-- Everything a step may do while no command leaves the queues; `woken` is needed for a call of
`null_wakeup_cb`. -/
inductive Submits (woken : Prop) (g : Gsmd κ ω) : Gsmd κ ω → Prop
  | refl : Submits woken g g
  | quiet {g' g''} : Submits woken g g' → Quiet g' g'' → Submits woken g g''
  | submit {g'} (c : FilledAtcmd κ) : Submits woken g g' → Submits woken g (atcmdSubmit g' c)
  | wakeup {g'} : woken → Submits woken g g' → Submits woken g (nullWakeupCb g')

def unlinkBusy (g : Gsmd κ ω) (cmd : GsmdAtcmd κ) : Gsmd κ ω :=
  let g := { g with busyAtcmds := g.busyAtcmds.tail }.emit (.finish cmd.serial)
  if g.busyAtcmds = [] ∧ g.pendingAtcmds ≠ [] then g.atcmdWakePendingQueue else g

def terminated (g : Gsmd κ ω) : Gsmd κ ω := { g with mlbuf := g.mlbuf.store g.mlbufLen [0] }

def Called (cmd : GsmdAtcmd κ) (g g' : Gsmd κ ω) : Prop :=
  match cmd.cb with
  | none => Quiet g g'
  | some .nullWakeupCb => ∃ g₀, Quiet g g₀ ∧ Quiet (nullWakeupCb g₀) g'
  | some (.client _) => Submits False g g'

def Act.IsSubmit : Act κ → Prop
  | .submit .. => True
  | _ => False

/-- The last thing that happened was a call of the command's callback, which may have submitted
more commands. -/
def EndsInCall (serial : ℕ) (log : List (Act κ)) : Prop :=
  ∃ earlier text ret submits, log = earlier ++ .call serial text ret :: submits ∧
    ∀ a ∈ submits, a.IsSubmit

def Finishes (g g' : Gsmd κ ω) : Prop :=
  ∃ cmd busy g₁ ret, g.busyAtcmds = cmd :: busy ∧ Called cmd g g₁ ∧
    (cmd.cb = none ∨ EndsInCall cmd.serial g₁.log) ∧ g' = unlinkBusy g₁ { cmd with ret := ret }

theorem Quiet.refl (g : Gsmd κ ω) : Quiet g g :=
  ⟨rfl, rfl, rfl, rfl, rfl, rfl, id, [], by simp⟩

theorem Quiet.trans {g g' g'' : Gsmd κ ω} (h : Quiet g g') (k : Quiet g' g'') : Quiet g g'' := by
  obtain ⟨acts, ha, hr⟩ := h.log
  obtain ⟨acts', ha', hr'⟩ := k.log
  refine ⟨k.pending.trans h.pending, k.busy.trans h.busy, k.fdWrite.trans h.fdWrite,
    k.wakeupTimer.trans h.wakeupTimer, k.timers.trans h.timers, k.serial.trans h.serial,
    fun hg => k.ready (h.ready hg), acts ++ acts', by rw [ha', ha, List.append_assoc], ?_⟩
  intro a hmem
  rcases List.mem_append.mp hmem with hm | hm
  · exact hr a hm
  · exact hr' a hm

theorem Quiet.emit (g : Gsmd κ ω) {a : Act κ} (ha : a.IsReport) : Quiet g (g.emit a) :=
  ⟨rfl, rfl, rfl, rfl, rfl, rfl, id, [a], rfl, by simpa using ha⟩

theorem Quiet.call (g : Gsmd κ ω) (serial : ℕ) (resp : Option Bytes) (ret : ℤ) :
    Quiet g (g.emit (.call serial resp ret)) := Quiet.emit g trivial

theorem Quiet.world (g : Gsmd κ ω) (w : ω) : Quiet g { g with world := w } :=
  ⟨rfl, rfl, rfl, rfl, rfl, rfl, id, [], by simp⟩

theorem Quiet.mlbuf (g : Gsmd κ ω) (m : Memory) (n : ℕ) (u : Bool) :
    Quiet g { g with mlbuf := m, mlbufLen := n, mlunsolicited := u } :=
  ⟨rfl, rfl, rfl, rfl, rfl, rfl, id, [], by simp⟩

theorem Quiet.submits {woken : Prop} {g g' : Gsmd κ ω} (h : Quiet g g') : Submits woken g g' :=
  Submits.refl.quiet h

theorem Submits.trans {woken : Prop} {g g' g'' : Gsmd κ ω} (h : Submits woken g g')
    (k : Submits woken g' g'') : Submits woken g g'' := by
  induction k with
  | refl => exact h
  | quiet _ hq ih => exact ih.quiet hq
  | submit c _ ih => exact ih.submit c
  | wakeup hw _ ih => exact ih.wakeup hw

theorem Submits.mono {woken woken' : Prop} {g g' : Gsmd κ ω} (h : Submits woken g g')
    (himp : woken → woken') : Submits woken' g g' := by
  induction h with
  | refl => exact .refl
  | quiet _ hq ih => exact ih.quiet hq
  | submit c _ ih => exact ih.submit c
  | wakeup hw _ ih => exact ih.wakeup (himp hw)

theorem nullWakeupCb_queues (g : Gsmd κ ω) :
    (nullWakeupCb g).pendingAtcmds = g.pendingAtcmds ∧
      (nullWakeupCb g).busyAtcmds = g.busyAtcmds ∧ (nullWakeupCb g).fdWrite = g.fdWrite ∧
      (nullWakeupCb g).serial = g.serial ∧ (nullWakeupCb g).log = g.log ∧
      (nullWakeupCb g).interpreterReady = g.interpreterReady := by
  unfold nullWakeupCb
  split <;> simp

theorem atcmdSubmit_busy (g : Gsmd κ ω) (c : FilledAtcmd κ) :
    (atcmdSubmit g c).busyAtcmds = g.busyAtcmds := by
  rw [atcmdSubmit_eq]
  split <;> rfl

theorem Submits.busy {woken : Prop} {g g' : Gsmd κ ω} (h : Submits woken g g') :
    g'.busyAtcmds = g.busyAtcmds := by
  induction h with
  | refl => rfl
  | quiet _ hq ih => rw [hq.busy, ih]
  | submit c _ ih => rw [atcmdSubmit_busy, ih]
  | wakeup _ _ ih => rw [(nullWakeupCb_queues _).2.1, ih]

theorem Called.busy {cmd : GsmdAtcmd κ} {g g' : Gsmd κ ω} (h : Called cmd g g') :
    g'.busyAtcmds = g.busyAtcmds := by
  unfold Called at h
  split at h
  · exact h.busy
  · obtain ⟨g₀, h₀, h₁⟩ := h
    rw [h₁.busy, (nullWakeupCb_queues _).2.1, h₀.busy]
  · exact h.busy

theorem atcmdSubmit_log (g : Gsmd κ ω) (c : FilledAtcmd κ) :
    ∃ submits, (atcmdSubmit g c).log = g.log ++ submits ∧ ∀ a ∈ submits, a.IsSubmit := by
  rw [atcmdSubmit_eq]
  split
  · refine ⟨[_, _], List.append_assoc _ _ _, ?_⟩
    simp [Act.IsSubmit]
  · refine ⟨[_], rfl, ?_⟩
    simp [Act.IsSubmit]

theorem react_log (g : Gsmd κ ω) (r : Reaction κ ω) :
    ∃ submits, (react g r).log = g.log ++ submits ∧ ∀ a ∈ submits, a.IsSubmit := by
  have hfold : ∀ (cs : List (FilledAtcmd κ)) (h : Gsmd κ ω),
      ∃ submits, (cs.foldl atcmdSubmit h).log = h.log ++ submits ∧ ∀ a ∈ submits, a.IsSubmit := by
    intro cs
    induction cs with
    | nil => exact fun h => ⟨[], by simp, by simp⟩
    | cons c cs ih =>
      intro h
      obtain ⟨first, hfirst, hf⟩ := atcmdSubmit_log h c
      obtain ⟨more, hmore, hm⟩ := ih (atcmdSubmit h c)
      refine ⟨first ++ more, ?_, ?_⟩
      · rw [List.foldl_cons, hmore, hfirst, List.append_assoc]
      · intro a ha
        exact (List.mem_append.mp ha).elim (hf a) (hm a)
  exact hfold r.submits _

theorem foldl_submits (woken : Prop) (g : Gsmd κ ω) (cs : List (FilledAtcmd κ)) :
    Submits woken g (cs.foldl atcmdSubmit g) := by
  induction cs generalizing g with
  | nil => exact .refl
  | cons c cs ih => exact (Submits.refl.submit c).trans (ih _)

theorem react_submits (woken : Prop) (g : Gsmd κ ω) (r : Reaction κ ω) :
    Submits woken g (react g r) :=
  (Quiet.world g r.world).submits.trans (foldl_submits woken _ _)

theorem unsolicitedParse_submits (woken : Prop) (env : Env κ ω) (g : Gsmd κ ω) (buf : Bytes)
    (len : ℕ) : Submits woken g (unsolicitedParse env g buf len).2 := by
  unfold unsolicitedParse
  split
  · exact .refl
  · rename_i i _
    have hr := react_submits woken g (i.parse g.world (cstr buf) len)
    dsimp only
    split_ifs
    · exact hr
    · exact hr.quiet (Quiet.emit _ trivial)

theorem callCb_client (woken : Prop) (env : Env κ ω) (g : Gsmd κ ω) (cmd : GsmdAtcmd κ) (k : κ)
    (resp : Option Bytes) (inMlbuf : Bool) :
    Submits woken g (callCb env g cmd (.client k) resp inMlbuf).2 := by
  have hcall : Submits woken g (g.emit (.call cmd.serial resp cmd.ret)) :=
    (Quiet.call g cmd.serial resp cmd.ret).submits
  have hr := hcall.trans (react_submits woken _
    (env.callback k (g.emit (.call cmd.serial resp cmd.ret)).world cmd resp))
  cases resp with
  | none => exact hr
  | some text =>
    cases inMlbuf with
    | false => exact hr
    | true => exact hr.quiet (Quiet.mlbuf _ _ _ _)

theorem callCb_wakeup (env : Env κ ω) (g : Gsmd κ ω) (cmd : GsmdAtcmd κ)
    (resp : Option Bytes) (inMlbuf : Bool) :
    (callCb env g cmd .nullWakeupCb resp inMlbuf).2 =
      nullWakeupCb (g.emit (.call cmd.serial resp cmd.ret)) := rfl

theorem callCb_endsInCall (env : Env κ ω) (g : Gsmd κ ω) (cmd : GsmdAtcmd κ) (cb : AtcmdCb κ)
    (resp : Option Bytes) (inMlbuf : Bool) :
    EndsInCall cmd.serial (callCb env g cmd cb resp inMlbuf).2.log := by
  cases cb with
  | nullWakeupCb =>
    refine ⟨g.log, resp, cmd.ret, [], ?_, by simp⟩
    rw [callCb_wakeup, (nullWakeupCb_queues _).2.2.2.2.1]
    rfl
  | client k =>
    obtain ⟨submits, hlog, hsubmits⟩ := react_log (g.emit (.call cmd.serial resp cmd.ret))
      (env.callback k g.world cmd resp)
    refine ⟨g.log, resp, cmd.ret, submits, ?_, hsubmits⟩
    have hsame : (callCb env g cmd (.client k) resp inMlbuf).2.log =
        (react (g.emit (.call cmd.serial resp cmd.ret)) (env.callback k g.world cmd resp)).log := by
      rcases resp with _ | text
      · rfl
      · cases inMlbuf <;> rfl
    rw [hsame, hlog]
    simp [Gsmd.emit]

theorem mlAppend_submits (woken : Prop) (env : Env κ ω) (g : Gsmd κ ω) (rc : ℤ) (buf : Bytes) :
    Submits woken g (mlAppend env g rc buf).2 := by
  unfold mlAppend
  dsimp only
  split_ifs
  all_goals first
    | exact ((Quiet.mlbuf g _ _ _).submits.trans (unsolicitedParse_submits woken env _ _ _))
    | exact ((Quiet.mlbuf g _ _ _).submits.trans (unsolicitedParse_submits woken env _ _ _)).quiet
        (Quiet.mlbuf _ _ _ _)
    | exact (Quiet.mlbuf g _ _ _).submits

def Act.call? : Act κ → Option (ℕ × Option Bytes × ℤ)
  | .call serial resp ret => some (serial, resp, ret)
  | _ => none

def calls (g : Gsmd κ ω) : List (ℕ × Option Bytes × ℤ) := g.log.filterMap Act.call?

structure SameText (g g' : Gsmd κ ω) : Prop where
  v0 : g'.v0 = g.v0
  busy : g'.busyAtcmds = g.busyAtcmds
  mlbuf : g'.mlbuf = g.mlbuf
  mlbufLen : g'.mlbufLen = g.mlbufLen
  mlunsolicited : g'.mlunsolicited = g.mlunsolicited
  calls : calls g' = calls g

theorem SameText.refl (g : Gsmd κ ω) : SameText g g := ⟨rfl, rfl, rfl, rfl, rfl, rfl⟩

theorem SameText.trans {g g' g'' : Gsmd κ ω} (h : SameText g g') (k : SameText g' g'') :
    SameText g g'' :=
  ⟨k.v0.trans h.v0, k.busy.trans h.busy, k.mlbuf.trans h.mlbuf, k.mlbufLen.trans h.mlbufLen,
    k.mlunsolicited.trans h.mlunsolicited, k.calls.trans h.calls⟩

theorem atcmdSubmit_text (g : Gsmd κ ω) (c : FilledAtcmd κ) : SameText g (atcmdSubmit g c) := by
  have hcall (g : Gsmd κ ω) (c : FilledAtcmd (AtcmdCb κ)) : calls (enqueue g c) = calls g := by
    simp [calls, enqueue, Gsmd.addPending, Act.call?]
  rw [atcmdSubmit_eq]
  split
  · exact ⟨rfl, rfl, rfl, rfl, rfl, by rw [hcall, hcall]; rfl⟩
  · exact ⟨rfl, rfl, rfl, rfl, rfl, hcall _ _⟩

theorem react_text (g : Gsmd κ ω) (r : Reaction κ ω) : SameText g (react g r) := by
  have hfold : ∀ (cs : List (FilledAtcmd κ)) (h : Gsmd κ ω),
      SameText h (cs.foldl atcmdSubmit h) := by
    intro cs
    induction cs with
    | nil => exact SameText.refl
    | cons c cs ih => exact fun h => (atcmdSubmit_text h c).trans (ih _)
  have hworld : SameText g { g with world := r.world } := ⟨rfl, rfl, rfl, rfl, rfl, rfl⟩
  exact hworld.trans (hfold r.submits _)

theorem unsolicitedParse_text (env : Env κ ω) (g : Gsmd κ ω) (buf : Bytes) (len : ℕ) :
    SameText g (unsolicitedParse env g buf len).2 := by
  unfold unsolicitedParse
  split
  · exact SameText.refl g
  · rename_i i _
    have hr := react_text g (i.parse g.world (cstr buf) len)
    dsimp only
    split_ifs
    · exact hr
    · have hemit : SameText (react g (i.parse g.world (cstr buf) len))
          ((react g (i.parse g.world (cstr buf) len)).emit (.unsolicited (cstr buf))) :=
        ⟨rfl, rfl, rfl, rfl, rfl, by simp [calls, Gsmd.emit, Act.call?]⟩
      exact hr.trans hemit

theorem nullWakeupCb_text (g : Gsmd κ ω) : SameText g (nullWakeupCb g) := by
  unfold nullWakeupCb
  split <;> exact ⟨rfl, rfl, rfl, rfl, rfl, rfl⟩

def WakeupText (g : Gsmd κ ω) : Prop :=
  g.mlbufLen ≠ 0 ∧ ∃ cmd busy, g.busyAtcmds = cmd :: busy ∧ cmd.cb = some .nullWakeupCb

theorem WakeupText.congr {g g' : Gsmd κ ω} (h : SameText g g') (k : WakeupText g') :
    WakeupText g := by
  rw [WakeupText, h.mlbufLen, h.busy] at k
  exact k

theorem mlResponse_submits (env : Env κ ω) (g : Gsmd κ ω) (rc : ℤ) (buf : Bytes) :
    Submits (WakeupText g) g (mlResponse env g rc buf).2 := by
  unfold mlResponse
  split
  · exact mlAppend_submits _ env g rc buf
  · rename_i cmd busy hb
    dsimp only
    split_ifs with hext hlen
    · cases hcb : cmd.cb with
      | none =>
        exact (Quiet.mlbuf g _ _ _).submits.trans (mlAppend_submits _ env _ rc buf)
      | some cb =>
        refine Submits.trans ?_ (mlAppend_submits _ env _ _ buf)
        cases cb with
        | client k => exact (callCb_client _ env g cmd k _ _).quiet (Quiet.mlbuf _ _ _ _)
        | nullWakeupCb =>
          rw [callCb_wakeup]
          have hwoken : WakeupText g := ⟨hlen, cmd, busy, hb, hcb⟩
          exact ((Quiet.call g _ _ _).submits.wakeup hwoken).quiet (Quiet.mlbuf _ _ _ _)
    · exact mlAppend_submits _ env g rc buf
    · exact .refl

theorem Called.quiet {cmd : GsmdAtcmd κ} {g g₀ g' : Gsmd κ ω} (h : Quiet g g₀)
    (k : Called cmd g₀ g') : Called cmd g g' := by
  unfold Called at *
  split at k
  · exact h.trans k
  · obtain ⟨g₁, h₁, k₁⟩ := k
    exact ⟨g₁, h.trans h₁, k₁⟩
  · exact h.submits.trans k

theorem atcmdDone_none (env : Env κ ω) (g : Gsmd κ ω) {cmd : GsmdAtcmd κ} (hcb : cmd.cb = none)
    (buf : Bytes) : (atcmdDone env g cmd buf).2 = unlinkBusy g cmd := by
  unfold atcmdDone
  rw [hcb]
  rfl

theorem atcmdDone_empty (env : Env κ ω) {g : Gsmd κ ω} {cmd : GsmdAtcmd κ} {cb : AtcmdCb κ}
    (hcb : cmd.cb = some cb) (hlen : g.mlbufLen = 0) (buf : Bytes) :
    (atcmdDone env g cmd buf).2 = unlinkBusy
      { (callCb env g cmd cb (some (cstr buf)) false).2 with mlbufLen := 0 } cmd := by
  unfold atcmdDone
  simp only [hcb, if_neg (not_not.mpr hlen)]
  rfl

theorem atcmdDone_text (env : Env κ ω) {g : Gsmd κ ω} {cmd : GsmdAtcmd κ} {cb : AtcmdCb κ}
    (hcb : cmd.cb = some cb) (hlen : g.mlbufLen ≠ 0) (buf : Bytes) :
    (atcmdDone env g cmd buf).2 = unlinkBusy
      { (callCb env (terminated g) cmd cb ((terminated g).mlbuf.string? 0 mlparseBufSize) true).2
        with mlbufLen := 0 } cmd := by
  unfold atcmdDone
  simp only [hcb, if_pos hlen]
  rfl

theorem callCb_called (env : Env κ ω) (g : Gsmd κ ω) {cmd : GsmdAtcmd κ} {cb : AtcmdCb κ}
    (hcb : cmd.cb = some cb) (ret : ℤ) (text : Option Bytes) (inMlbuf : Bool) :
    Called cmd g
      { (callCb env g { cmd with ret := ret } cb text inMlbuf).2 with mlbufLen := 0 } := by
  simp only [Called, hcb]
  cases cb with
  | client k => exact (callCb_client _ env g _ k _ _).quiet (Quiet.mlbuf _ _ _ _)
  | nullWakeupCb =>
    refine ⟨g.emit (.call cmd.serial text ret), Quiet.call g _ _ _, ?_⟩
    rw [callCb_wakeup]
    exact Quiet.mlbuf _ _ _ _

theorem atcmdDone_finishes (env : Env κ ω) (g : Gsmd κ ω) {cmd : GsmdAtcmd κ}
    {busy : List (GsmdAtcmd κ)} (hb : g.busyAtcmds = cmd :: busy) (ret : ℤ) (buf : Bytes) :
    Finishes g (atcmdDone env g { cmd with ret := ret } buf).2 := by
  obtain ⟨done, hdone⟩ : ∃ done : GsmdAtcmd κ, done = { cmd with ret := ret } := ⟨_, rfl⟩
  have hcb : done.cb = cmd.cb := by rw [hdone]
  have hserial : done.serial = cmd.serial := by rw [hdone]
  rw [← hdone]
  rcases Option.eq_none_or_eq_some cmd.cb with hnone | ⟨cb, hsome⟩
  · have hcalled : Called cmd g g := by
      simp only [Called, hnone]
      exact Quiet.refl g
    rw [atcmdDone_none env g (hcb.trans hnone), hdone]
    exact ⟨cmd, busy, g, ret, hb, hcalled, Or.inl hnone, rfl⟩
  by_cases hlen : g.mlbufLen = 0
  · have hends := hserial ▸ callCb_endsInCall env g done cb (some (cstr buf)) false
    rw [atcmdDone_empty env (hcb.trans hsome) hlen, hdone]
    rw [hdone] at hends
    exact ⟨cmd, busy, _, ret, hb, callCb_called env g hsome ret _ _, Or.inr hends, rfl⟩
  · have hcalled := callCb_called env (terminated g) hsome ret
      ((terminated g).mlbuf.string? 0 mlparseBufSize) true
    have hends := hserial ▸ callCb_endsInCall env (terminated g) done cb
      ((terminated g).mlbuf.string? 0 mlparseBufSize) true
    rw [atcmdDone_text env (hcb.trans hsome) hlen, hdone]
    rw [hdone] at hends
    exact ⟨cmd, busy, _, ret, hb, hcalled.quiet (Quiet.mlbuf g _ _ _), Or.inr hends, rfl⟩

theorem Finishes.quiet {g g₀ g' : Gsmd κ ω} (h : Quiet g g₀) (k : Finishes g₀ g') :
    Finishes g g' := by
  obtain ⟨cmd, busy, g₁, ret, hb, hc, hends, rfl⟩ := k
  exact ⟨cmd, busy, g₁, ret, h.busy ▸ hb, hc.quiet h, hends, rfl⟩

theorem generateErrorEvent_quiet (env : Env κ ω) (g : Gsmd κ ω) (ret : ℤ)
    (err : Option FinalError) : Quiet g (generateErrorEvent env g ret err) := by
  rcases err with _ | _ | _
  · exact Quiet.refl g
  · exact (Quiet.world g _).trans (Quiet.emit _ (a := .cmeEvent ret) trivial)
  · exact (Quiet.world g _).trans (Quiet.emit _ (a := .cmsEvent ret) trivial)

theorem generateErrorEvent_text (env : Env κ ω) (g : Gsmd κ ω) (ret : ℤ)
    (err : Option FinalError) : SameText g (generateErrorEvent env g ret err) := by
  rcases err with _ | _ | _
  · exact SameText.refl g
  · exact ⟨rfl, rfl, rfl, rfl, rfl, by simp [calls, generateErrorEvent, Gsmd.emit, Act.call?]⟩
  · exact ⟨rfl, rfl, rfl, rfl, rfl, by simp [calls, generateErrorEvent, Gsmd.emit, Act.call?]⟩

theorem finalCb_finishes (env : Env κ ω) {g : Gsmd κ ω} {cmd : GsmdAtcmd κ}
    {busy : List (GsmdAtcmd κ)} (hb : g.busyAtcmds = cmd :: busy) (buf : Bytes) (ret : Option ℤ)
    (err : Option FinalError) : Finishes g (finalCb env g buf ret err).2 := by
  unfold finalCb
  rw [hb]
  have hq := generateErrorEvent_quiet env g (ret.getD cmd.ret) err
  exact .quiet hq (atcmdDone_finishes env _ (hq.busy.trans hb) _ buf)

theorem finalCb_cases (env : Env κ ω) (g : Gsmd κ ω) (buf : Bytes) (ret : Option ℤ)
    (err : Option FinalError) :
    (finalCb env g buf ret err).2 = g ∨ Finishes g (finalCb env g buf ret err).2 := by
  cases hb : g.busyAtcmds with
  | nil =>
    unfold finalCb
    rw [hb]
    exact Or.inl rfl
  | cons cmd busy => exact Or.inr (finalCb_finishes env hb buf ret err)

end SystemTestSuite.GsmDaemon
