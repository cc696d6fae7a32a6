import SystemTestSuite.GsmDaemon.AtMachine

namespace SystemTestSuite.GsmDaemon

open Library

variable {κ ω : Type} {g g' g'' : Gsmd κ ω}

def Act.IsTransfer : Act κ → Prop
  | .write .. | .prompt => True
  | _ => False

structure Queued (new : List (GsmdAtcmd κ)) (g g' : Gsmd κ ω) : Prop where
  pending : g'.pendingAtcmds = g.pendingAtcmds ++ new
  busy : g'.busyAtcmds = g.busyAtcmds
  fdWrite : g'.fdWrite = (g.fdWrite || (g.pendingAtcmds.isEmpty && !new.isEmpty))
  ready : g.interpreterReady = true → g'.interpreterReady = true
  unsent : ∀ c ∈ new, c.cur = 0
  log : ∃ acts, g'.log = g.log ++ acts ∧ ∀ a ∈ acts, ¬ a.IsTransfer

theorem Queued.refl (g : Gsmd κ ω) : Queued [] g g :=
  ⟨by simp, rfl, by simp, id, by simp, [], by simp⟩

theorem Queued.trans {new new' : List (GsmdAtcmd κ)} (h : Queued new g g')
    (k : Queued new' g' g'') : Queued (new ++ new') g g'' := by
  obtain ⟨acts, hlog, hacts⟩ := h.log
  obtain ⟨acts', hlog', hacts'⟩ := k.log
  refine ⟨?_, k.busy.trans h.busy, ?_, fun hr => k.ready (h.ready hr), ?_, acts ++ acts', ?_, ?_⟩
  · rw [k.pending, h.pending, List.append_assoc]
  · rw [k.fdWrite, h.fdWrite, h.pending]
    cases g.fdWrite <;> cases g.pendingAtcmds <;> cases new <;> cases new' <;> rfl
  · intro c hc
    rcases List.mem_append.mp hc with hc | hc
    · exact h.unsent c hc
    · exact k.unsent c hc
  · rw [hlog', hlog, List.append_assoc]
  · intro a ha
    rcases List.mem_append.mp ha with ha | ha
    · exact hacts a ha
    · exact hacts' a ha

theorem Act.IsReport.not_transfer {a : Act κ} (h : a.IsReport) : ¬ a.IsTransfer := by
  cases a <;> simp_all [Act.IsReport, Act.IsTransfer]

theorem Quiet.queued (h : Quiet g g') : Queued [] g g' := by
  obtain ⟨acts, hlog, hreport⟩ := h.log
  exact ⟨by simp [h.pending], h.busy, by simp [h.fdWrite], h.ready, by simp, acts, hlog,
    fun a ha => (hreport a ha).not_transfer⟩

theorem nullWakeupCb_queued (g : Gsmd κ ω) : Queued [] g (nullWakeupCb g) := by
  obtain ⟨hp, hb, hw, _, hl, hr⟩ := nullWakeupCb_queues g
  exact ⟨by simp [hp], hb, by simp [hw], fun h => hr.trans h, by simp, [], by simp [hl], by simp⟩

theorem enqueue_queued (g : Gsmd κ ω) (c : FilledAtcmd (AtcmdCb κ)) :
    Queued [c.queued g.serial] g (enqueue g c) :=
  ⟨rfl, rfl, by simp [enqueue], id, by simp [FilledAtcmd.queued], _, rfl,
    by simp [Act.IsTransfer]⟩

theorem atcmdSubmit_queued (g : Gsmd κ ω) (c : FilledAtcmd κ) :
    ∃ first serial, Queued (first ++ [c.client.queued serial]) g (atcmdSubmit g c) := by
  rw [atcmdSubmit_eq]
  split
  · have htimer : Queued [] g (wakeupTimerStart g) := ⟨by simp [wakeupTimerStart], rfl,
      by simp [wakeupTimerStart], id, by simp, [], by simp [wakeupTimerStart], by simp⟩
    exact ⟨_, _, (htimer.trans (enqueue_queued _ wakeupAtcmd)).trans (enqueue_queued _ c.client)⟩
  · exact ⟨[], _, enqueue_queued g c.client⟩

theorem Submits.queued {woken : Prop} (h : Submits woken g g') : ∃ new, Queued new g g' := by
  induction h with
  | refl => exact ⟨[], Queued.refl g⟩
  | quiet _ hq ih =>
    obtain ⟨new, ih⟩ := ih
    exact ⟨_, ih.trans hq.queued⟩
  | submit c _ ih =>
    obtain ⟨new, ih⟩ := ih
    obtain ⟨first, serial, hs⟩ := atcmdSubmit_queued _ c
    exact ⟨_, ih.trans hs⟩
  | wakeup _ _ ih =>
    obtain ⟨new, ih⟩ := ih
    exact ⟨_, ih.trans (nullWakeupCb_queued _)⟩

theorem Called.queued {cmd : GsmdAtcmd κ} (h : Called cmd g g') : ∃ new, Queued new g g' := by
  unfold Called at h
  split at h
  · exact ⟨[], h.queued⟩
  · obtain ⟨g₀, h₀, h₁⟩ := h
    exact ⟨_, (h₀.queued.trans (nullWakeupCb_queued g₀)).trans h₁.queued⟩
  · exact h.queued

structure Unqueued (new : List (GsmdAtcmd κ)) (g g' : Gsmd κ ω) : Prop where
  pending : g'.pendingAtcmds = g.pendingAtcmds ++ new
  busy : g'.busyAtcmds = g.busyAtcmds.tail
  fdWrite : g'.fdWrite = (g.fdWrite || (g.pendingAtcmds.isEmpty && !new.isEmpty) ||
    (g.busyAtcmds.tail.isEmpty && !(g.pendingAtcmds ++ new).isEmpty))
  ready : g.interpreterReady = true → g'.interpreterReady = true
  unsent : ∀ c ∈ new, c.cur = 0

theorem unlinkBusy_eq (g : Gsmd κ ω) (cmd : GsmdAtcmd κ) :
    unlinkBusy g cmd =
      { g with
        busyAtcmds := g.busyAtcmds.tail
        fdWrite := g.fdWrite || (g.busyAtcmds.tail.isEmpty && !g.pendingAtcmds.isEmpty)
        log := g.log ++ [.finish cmd.serial] } := by
  unfold unlinkBusy
  dsimp only
  split_ifs with h
  · simp_all [Gsmd.emit, Gsmd.atcmdWakePendingQueue]
  · simp only [Gsmd.emit] at h ⊢
    cases hb : g.busyAtcmds.tail <;> cases hp : g.pendingAtcmds <;> simp_all

theorem Finishes.unqueued (h : Finishes g g') : ∃ new, Unqueued new g g' := by
  obtain ⟨cmd, busy, g₁, ret, hb, hc, -, rfl⟩ := h
  obtain ⟨new, hq⟩ := hc.queued
  refine ⟨new, ?_, ?_, ?_, ?_, hq.unsent⟩
  · rw [unlinkBusy_eq, hq.pending]
  · rw [unlinkBusy_eq, hq.busy]
  · rw [unlinkBusy_eq, hq.busy, hq.pending, hq.fdWrite]
  · rw [unlinkBusy_eq]
    exact hq.ready

def cancelQueue (g : Gsmd κ ω) (cmd : FilledAtcmd κ) : Gsmd κ ω :=
  { g with
    mlbufLen := 0
    pendingAtcmds := cmd.client.queued g.serial :: g.pendingAtcmds
    serial := g.serial + 1
    log := g.log ++ [.submit g.serial cmd.client.cb cmd.client.buf] }

theorem cancelAtcmd_cases (env : Env κ ω) (g : Gsmd κ ω) (cmd : FilledAtcmd κ) :
    (cancelAtcmd env g cmd).2 = atcmdSubmit g cmd ∨
      Finishes (cancelQueue g cmd) (cancelAtcmd env g cmd).2 := by
  unfold cancelAtcmd
  split
  · exact Or.inl rfl
  · rename_i cur busy hb
    have hg : (if g.mlbufLen ≠ 0 then { g with mlbufLen := 0 } else g) = { g with mlbufLen := 0 } := by
      split_ifs with hlen
      · rfl
      · rw [← not_not.mp hlen]
    dsimp only
    rw [hg]
    exact Or.inr (atcmdDone_finishes env (cancelQueue g cmd) hb cur.ret (ascii "OK"))

end SystemTestSuite.GsmDaemon
