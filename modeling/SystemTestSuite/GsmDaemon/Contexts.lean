import SystemTestSuite.GsmDaemon.QueueEffects

namespace SystemTestSuite.GsmDaemon

open Library

variable {κ ω : Type} {S : ℕ → Prop} {W : ω → Prop} {env : Env κ ω} {g g' : Gsmd κ ω}

structure Guarded (S : ℕ → Prop) (W : ω → Prop) (g : Gsmd κ ω) : Prop where
  pending : ∀ c ∈ g.pendingAtcmds, S c.ctx
  busy : ∀ c ∈ g.busyAtcmds, S c.ctx
  world : W g.world

def Reaction.Respects (S : ℕ → Prop) (W : ω → Prop) (r : Reaction κ ω) : Prop :=
  W r.world ∧ ∀ c ∈ r.submits, S c.ctx

structure Env.Respects (S : ℕ → Prop) (W : ω → Prop) (env : Env κ ω) : Prop where
  gsmd : S gsmdCtx
  callback : ∀ k w cmd resp, W w → (env.callback k w cmd resp).Respects S W
  unsolicit : ∀ i ∈ env.unsolicit, ∀ w buf len, W w → (i.parse w buf len).Respects S W
  initsettings : S env.initsettings.ctx
  cme : ∀ w number, W w → W (env.generateEventFromCme w number)
  cms : ∀ w number, W w → W (env.generateEventFromCms w number)

theorem Guarded.congr (h : Guarded S W g) (hp : g'.pendingAtcmds = g.pendingAtcmds)
    (hb : g'.busyAtcmds = g.busyAtcmds) (hw : g'.world = g.world) : Guarded S W g' := by
  refine ⟨?_, ?_, ?_⟩
  · rw [hp]
    exact h.pending
  · rw [hb]
    exact h.busy
  · rw [hw]
    exact h.world

theorem Guarded.enqueue {c : FilledAtcmd (AtcmdCb κ)} (h : Guarded S W g) (hc : S c.ctx) :
    Guarded S W (enqueue g c) where
  pending := by
    intro c' hc'
    rcases List.mem_append.mp hc' with hold | hnew
    · exact h.pending c' hold
    · rw [List.mem_singleton.mp hnew]
      exact hc
  busy := h.busy
  world := h.world

theorem Guarded.submit {c : FilledAtcmd κ} (h : Guarded S W g) (hgsmd : S gsmdCtx)
    (hc : S c.ctx) : Guarded S W (atcmdSubmit g c) := by
  rw [atcmdSubmit_eq]
  apply Guarded.enqueue _ hc
  split_ifs
  · have htimer : Guarded S W (wakeupTimerStart g) := h.congr rfl rfl rfl
    exact htimer.enqueue hgsmd
  · exact h

theorem Guarded.react {r : Reaction κ ω} (h : Guarded S W g) (hgsmd : S gsmdCtx)
    (hr : r.Respects S W) : Guarded S W (react g r) := by
  have hfold (cs : List (FilledAtcmd κ)) (hcs : ∀ c ∈ cs, S c.ctx) (t : Gsmd κ ω)
      (ht : Guarded S W t) : Guarded S W (cs.foldl atcmdSubmit t) := by
    induction cs generalizing t with
    | nil => exact ht
    | cons c cs ih =>
      apply ih (fun c' hc' => hcs c' (List.mem_cons_of_mem c hc'))
      exact ht.submit hgsmd (hcs c List.mem_cons_self)
  exact hfold r.submits hr.2 _ ⟨h.pending, h.busy, hr.1⟩

theorem Guarded.unsolicited (h : Guarded S W g) (henv : env.Respects S W) (buf : Bytes) (len : ℕ) :
    Guarded S W (unsolicitedParse env g buf len).2 := by
  unfold unsolicitedParse
  split
  · exact h
  · rename_i i hi
    have hr := h.react henv.gsmd
      (henv.unsolicit i (List.mem_of_find?_eq_some hi) g.world (cstr buf) len h.world)
    dsimp only
    split_ifs
    · exact hr
    · exact hr.congr rfl rfl rfl

theorem Guarded.nullWakeup (h : Guarded S W g) : Guarded S W (nullWakeupCb g) := by
  unfold nullWakeupCb
  split
  · exact h.congr rfl rfl rfl
  · exact h

theorem Guarded.callCb (h : Guarded S W g) (henv : env.Respects S W) (cmd : GsmdAtcmd κ)
    (cb : AtcmdCb κ) (resp : Option Bytes) (inMlbuf : Bool) :
    Guarded S W (callCb env g cmd cb resp inMlbuf).2 := by
  have hcall : Guarded S W (g.emit (.call cmd.serial resp cmd.ret)) := h.congr rfl rfl rfl
  cases cb with
  | nullWakeupCb => exact hcall.nullWakeup
  | client k =>
    have hr := hcall.react henv.gsmd (henv.callback k g.world cmd resp h.world)
    cases resp with
    | none => exact hr
    | some text =>
      cases inMlbuf with
      | false => exact hr
      | true => exact hr.congr rfl rfl rfl

theorem Guarded.unlinkBusy (h : Guarded S W g) (cmd : GsmdAtcmd κ) :
    Guarded S W (unlinkBusy g cmd) := by
  rw [unlinkBusy_eq]
  exact ⟨h.pending, fun c hc => h.busy c (List.mem_of_mem_tail hc), h.world⟩

theorem Guarded.atcmdDone (h : Guarded S W g) (henv : env.Respects S W) (cmd : GsmdAtcmd κ)
    (buf : Bytes) : Guarded S W (atcmdDone env g cmd buf).2 := by
  cases hcb : cmd.cb with
  | none =>
    rw [atcmdDone_none env g hcb]
    exact h.unlinkBusy cmd
  | some cb =>
    by_cases hlen : g.mlbufLen = 0
    · rw [atcmdDone_empty env hcb hlen]
      apply Guarded.unlinkBusy
      exact (h.callCb henv cmd cb _ _).congr rfl rfl rfl
    · have hterm : Guarded S W (terminated g) := h.congr rfl rfl rfl
      rw [atcmdDone_text env hcb hlen]
      apply Guarded.unlinkBusy
      exact (hterm.callCb henv cmd cb _ _).congr rfl rfl rfl

theorem Guarded.finalCb (h : Guarded S W g) (henv : env.Respects S W) (buf : Bytes)
    (ret : Option ℤ) (err : Option FinalError) : Guarded S W (finalCb env g buf ret err).2 := by
  unfold GsmDaemon.finalCb
  split
  · exact h
  · apply Guarded.atcmdDone _ henv
    rcases err with _ | _ | _
    · exact h
    · exact ⟨h.pending, h.busy, henv.cme _ _ h.world⟩
    · exact ⟨h.pending, h.busy, henv.cms _ _ h.world⟩

theorem Guarded.mlAppend (h : Guarded S W g) (henv : env.Respects S W) (rc : ℤ) (buf : Bytes) :
    Guarded S W (mlAppend env g rc buf).2 := by
  have hstored (m : Memory) (n : ℕ) (u : Bool) :
      Guarded S W { g with mlbuf := m, mlbufLen := n, mlunsolicited := u } := h.congr rfl rfl rfl
  unfold GsmDaemon.mlAppend
  dsimp only
  split_ifs
  · exact (hstored _ _ _).unsolicited henv _ _
  · exact ((hstored _ _ _).unsolicited henv _ _).congr rfl rfl rfl
  · exact hstored _ _ _
  · exact (hstored _ _ _).unsolicited henv _ _
  · exact ((hstored _ _ _).unsolicited henv _ _).congr rfl rfl rfl
  · exact hstored _ _ _

theorem Guarded.mlResponse (h : Guarded S W g) (henv : env.Respects S W) (rc : ℤ) (buf : Bytes) :
    Guarded S W (mlResponse env g rc buf).2 := by
  unfold GsmDaemon.mlResponse
  split
  · exact h.mlAppend henv rc buf
  · rename_i cmd busy hb
    dsimp only
    split_ifs
    · cases cmd.cb with
      | none =>
        have hclear : Guarded S W { g with mlbufLen := 0 } := h.congr rfl rfl rfl
        exact hclear.mlAppend henv rc buf
      | some cb =>
        have hcalled : Guarded S W
            { (GsmDaemon.callCb env g cmd cb (g.mlbuf.string? 0 mlparseBufSize) true).2 with
              mlbufLen := 0 } := (h.callCb henv cmd cb _ _).congr rfl rfl rfl
        exact hcalled.mlAppend henv _ buf
    · exact h.mlAppend henv rc buf
    · exact h

theorem Guarded.mlExtended (h : Guarded S W g) (henv : env.Respects S W) (buf : Bytes) :
    Guarded S W (mlExtended env g buf).2 := by
  have hparse := h.unsolicited henv buf buf.length
  unfold GsmDaemon.mlExtended
  split
  · exact h
  · dsimp only
    split_ifs
    · exact h.finalCb henv buf _ _
    · exact h.finalCb henv buf _ _
    · exact h.mlResponse henv 0 buf
    · exact hparse.congr rfl rfl rfl
    · exact hparse
    · exact hparse.mlResponse henv _ buf

theorem Guarded.mlParse (h : Guarded S W g) (henv : env.Respects S W) (buf : Bytes) :
    Guarded S W (mlParse env g buf).2 := by
  unfold GsmDaemon.mlParse
  split_ifs
  · have hready : Guarded S W { g with interpreterReady := true } := h.congr rfl rfl rfl
    exact hready.submit henv.gsmd henv.initsettings
  · exact h
  · exact h.mlExtended henv buf
  · unfold mlBasic
    dsimp only
    split_ifs
    · exact h.unsolicited henv buf buf.length
    · exact h.finalCb henv buf _ _
    · exact h.finalCb henv buf _ _
    · exact h.finalCb henv buf _ _
    · exact h.finalCb henv buf _ _
    · exact h.mlAppend henv 0 buf

theorem Guarded.selectWrite (h : Guarded S W g) (rc : WriteRc) (crDone : Bool) :
    Guarded S W (atcmdSelectWrite g rc crDone) := by
  rcases atcmdSelectWrite_cases g rc crDone with heq | ⟨_, _, heq⟩ | ⟨pos, rest, n, hr, hp, rfl⟩
  · rwa [heq]
  · rw [heq]
    exact h.congr rfl rfl rfl
  · have hctx : S (written pos n).ctx := h.pending pos (by simp [hp])
    have hrest : ∀ c ∈ rest, S c.ctx := fun c hc => h.pending c (by simp [hp, hc])
    rw [atcmdSelectWrite_wrote g hr hp]
    split_ifs
    · refine ⟨hrest, ?_, h.world⟩
      intro c hc
      rcases List.mem_append.mp hc with hold | hnew
      · exact h.busy c hold
      · rw [List.mem_singleton.mp hnew]
        exact hctx
    · exact ⟨List.forall_mem_cons.mpr ⟨hctx, hrest⟩, h.busy, h.world⟩

theorem Guarded.expire (h : Guarded S W g) (tmr : ℕ) : Guarded S W (timerExpire g tmr) := by
  rcases timerExpire_cases g tmr with ⟨_, heq⟩ | ⟨_, _, heq⟩ | ⟨cmd, busy, _, hb, heq⟩
  · rw [heq]
    exact h.congr rfl rfl rfl
  · rw [heq]
    exact h.congr rfl rfl rfl
  · rw [heq]
    exact ⟨h.pending, fun c hc => h.busy c (by simp [hb, hc]), h.world⟩

theorem Guarded.cancel {c : FilledAtcmd κ} (h : Guarded S W g) (henv : env.Respects S W)
    (hc : S c.ctx) : Guarded S W (cancelAtcmd env g c).2 := by
  unfold cancelAtcmd
  split
  · exact h.submit henv.gsmd hc
  · dsimp only
    apply Guarded.atcmdDone _ henv
    split_ifs
    · exact ⟨List.forall_mem_cons.mpr ⟨hc, h.pending⟩, h.busy, h.world⟩
    · exact ⟨List.forall_mem_cons.mpr ⟨hc, h.pending⟩, h.busy, h.world⟩

def Event.Respects (S : ℕ → Prop) : Event κ → Prop
  | .submit cmd | .cancel cmd => S cmd.ctx
  | .writable _ _ | .line _ | .prompt | .expire _ => True

theorem Guarded.next {e : Event κ} (h : Guarded S W g) (henv : env.Respects S W)
    (he : e.Respects S) : Guarded S W (next env g e) := by
  cases e with
  | submit cmd => exact h.submit henv.gsmd he
  | cancel cmd => exact h.cancel henv he
  | writable rc crDone => exact h.selectWrite rc crDone
  | line buf => exact h.mlParse henv buf
  | prompt => exact h.congr rfl rfl rfl
  | expire tmr => exact h.expire tmr

end SystemTestSuite.GsmDaemon
