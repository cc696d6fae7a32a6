import SystemTestSuite.GsmDaemon.QueueLedger

namespace SystemTestSuite.GsmDaemon

open Library

variable {κ ω : Type}

/-- A command that left the queues by a result had its callback run last, or has none. -/
def FinalCalled (log : List (Act κ)) : Prop :=
  ∀ before serial after, log = before ++ .finish serial :: after →
    (∃ text, .submit serial none text ∈ before) ∨ EndsInCall serial before

structure Recorded (g : Gsmd κ ω) : Prop where
  submitted : ∀ c ∈ g.pendingAtcmds ++ g.busyAtcmds, ∃ text, .submit c.serial c.cb text ∈ g.log
  called : FinalCalled g.log

theorem FinalCalled.append {log acts : List (Act κ)} (h : FinalCalled log)
    (hacts : ∀ a ∈ acts, a.ended? = none) : FinalCalled (log ++ acts) := by
  intro before serial after heq
  rcases List.append_eq_append_iff.mp heq with ⟨mid, rfl, hmid⟩ | ⟨mid, hlog, hmid⟩
  · -- the finish would be one of the new acts
    have hmem : Act.finish serial ∈ acts := by simp [hmid]
    cases hacts _ hmem
  · cases mid with
    | nil =>
      rw [List.nil_append] at hmid
      have hmem : Act.finish serial ∈ acts := by simp [← hmid]
      cases hacts _ hmem
    | cons a mid =>
      obtain ⟨rfl, -⟩ := List.cons.inj hmid
      exact h before serial mid hlog

theorem FinalCalled.finish {log : List (Act κ)} {serial : ℕ} (h : FinalCalled log)
    (hends : (∃ text, .submit serial none text ∈ log) ∨ EndsInCall serial log) :
    FinalCalled (log ++ [.finish serial]) := by
  intro before other after heq
  rcases List.eq_nil_or_concat after with rfl | ⟨after, last, rfl⟩
  · obtain ⟨rfl, hlast⟩ := List.append_inj' heq rfl
    obtain ⟨rfl⟩ := hlast
    exact hends
  · rw [List.concat_eq_append, ← List.cons_append, ← List.append_assoc] at heq
    exact h before other after (List.append_inj' heq rfl).1

namespace Recorded

variable {g g' : Gsmd κ ω}

theorem log (h : Recorded g) (acts : List (Act κ)) (hlog : g'.log = g.log ++ acts)
    (hacts : ∀ a ∈ acts, a.ended? = none)
    (hqueued : ∀ c ∈ g'.pendingAtcmds ++ g'.busyAtcmds,
      (∃ d ∈ g.pendingAtcmds ++ g.busyAtcmds, d.serial = c.serial ∧ d.cb = c.cb) ∨
        ∃ text, .submit c.serial c.cb text ∈ acts) : Recorded g' := by
  refine ⟨?_, hlog ▸ h.called.append hacts⟩
  intro c hc
  rw [hlog]
  rcases hqueued c hc with ⟨d, hd, hserial, hcb⟩ | ⟨text, hnew⟩
  · obtain ⟨text, hold⟩ := h.submitted d hd
    rw [hserial, hcb] at hold
    exact ⟨text, List.mem_append_left _ hold⟩
  · exact ⟨text, List.mem_append_right _ hnew⟩

theorem same (h : Recorded g) (acts : List (Act κ)) (hlog : g'.log = g.log ++ acts)
    (hacts : ∀ a ∈ acts, a.ended? = none)
    (hqueued : g'.pendingAtcmds ++ g'.busyAtcmds ⊆ g.pendingAtcmds ++ g.busyAtcmds) :
    Recorded g' :=
  h.log acts hlog hacts fun c hc => Or.inl ⟨c, hqueued hc, rfl, rfl⟩

theorem quiet (h : Recorded g) (hq : Quiet g g') : Recorded g' := by
  obtain ⟨acts, hlog, hreport⟩ := hq.log
  apply h.same acts hlog
  · intro a ha
    have hr := hreport a ha
    cases a <;> simp_all [Act.IsReport, Act.ended?]
  · rw [hq.pending, hq.busy]
    exact List.Subset.refl _

theorem nullWakeup (h : Recorded g) : Recorded (nullWakeupCb g) := by
  obtain ⟨hp, hb, _, _, hl, _⟩ := nullWakeupCb_queues g
  apply h.same [] (by rw [hl, List.append_nil]) (by simp)
  rw [hp, hb]
  exact List.Subset.refl _

theorem enqueue (h : Recorded g) (c : FilledAtcmd (AtcmdCb κ)) :
    Recorded (GsmDaemon.enqueue g c) := by
  apply h.log [.submit g.serial c.cb c.buf] rfl (by simp [Act.ended?])
  intro d hd
  have hd' : d ∈ g.pendingAtcmds ++ g.busyAtcmds ∨ d = c.queued g.serial := by
    simp only [GsmDaemon.enqueue, Gsmd.addPending, List.mem_append, List.mem_singleton] at hd ⊢
    tauto
  rcases hd' with hd' | rfl
  · exact Or.inl ⟨d, hd', rfl, rfl⟩
  · exact Or.inr ⟨c.buf, by simp [FilledAtcmd.queued]⟩

theorem submit (h : Recorded g) (c : FilledAtcmd κ) : Recorded (atcmdSubmit g c) := by
  rw [atcmdSubmit_eq]
  split
  · have htimer : Recorded (wakeupTimerStart g) := ⟨h.submitted, h.called⟩
    exact (htimer.enqueue wakeupAtcmd).enqueue c.client
  · exact h.enqueue c.client

theorem submits {woken : Prop} (h : Recorded g) (hs : Submits woken g g') : Recorded g' := by
  induction hs with
  | refl => exact h
  | quiet _ hq ih => exact ih.quiet hq
  | submit c _ ih => exact ih.submit c
  | wakeup _ _ ih => exact ih.nullWakeup

theorem afterCall (h : Recorded g) {cmd : GsmdAtcmd κ} (hc : Called cmd g g') : Recorded g' := by
  unfold Called at hc
  split at hc
  · exact h.quiet hc
  · obtain ⟨g₀, h₀, h₁⟩ := hc
    exact ((h.quiet h₀).nullWakeup).quiet h₁
  · exact h.submits hc

theorem finishes (h : Recorded g) (hf : Finishes g g') : Recorded g' := by
  obtain ⟨cmd, busy, g₁, ret, hb, hc, hends, rfl⟩ := hf
  have h₁ := h.afterCall hc
  have hb₁ : g₁.busyAtcmds = cmd :: busy := hc.busy.trans hb
  have hlast : (∃ text, .submit cmd.serial none text ∈ g₁.log) ∨ EndsInCall cmd.serial g₁.log := by
    refine hends.imp_left fun hnone => ?_
    rw [← hnone]
    exact h₁.submitted cmd (by simp [hb₁])
  rw [unlinkBusy_eq]
  refine ⟨?_, h₁.called.finish hlast⟩
  intro d hd
  obtain ⟨text, htext⟩ := h₁.submitted d <| by
    rw [List.mem_append] at hd ⊢
    exact hd.imp_right List.mem_of_mem_tail
  exact ⟨text, List.mem_append_left _ htext⟩

theorem write (h : Recorded g) (rc : WriteRc) (crDone : Bool) :
    Recorded (atcmdSelectWrite g rc crDone) := by
  rcases atcmdSelectWrite_cases g rc crDone with heq | ⟨_, _, heq⟩ | ⟨pos, rest, n, hr, hp, rfl⟩
  · rwa [heq]
  · rw [heq]
    exact ⟨h.submitted, h.called⟩
  · have hacts : ∀ a ∈ writeActs pos n crDone, a.ended? = none := by
      cases crDone <;> simp [writeActs, Act.ended?]
    have hmoved : ∀ c, c = written pos n ∨ c ∈ rest ++ g.busyAtcmds →
        (∃ d ∈ g.pendingAtcmds ++ g.busyAtcmds, d.serial = c.serial ∧ d.cb = c.cb) ∨
          ∃ text, .submit c.serial c.cb text ∈ writeActs pos n crDone := by
      rintro c (rfl | hc)
      · exact Or.inl ⟨pos, by simp [hp], rfl, rfl⟩
      · exact Or.inl ⟨c, by simp [hp, List.mem_append.mp hc], rfl, rfl⟩
    rw [atcmdSelectWrite_wrote g hr hp]
    split_ifs
    all_goals
      apply h.log _ rfl hacts
      intro c hc
      apply hmoved
      simp only [List.mem_append, List.mem_cons, List.not_mem_nil, or_false] at hc ⊢
      tauto

theorem next (h : Recorded g) (env : Env κ ω) {e : Event κ} (hc : ¬ e.IsCancel) :
    Recorded (GsmDaemon.next env g e) := by
  cases e with
  | submit cmd => exact h.submit cmd
  | cancel cmd => exact absurd trivial hc
  | writable rc crDone => exact h.write rc crDone
  | line buf =>
    rcases mlParse_cases env g buf with hs | ⟨_, hf⟩
    · exact h.submits hs
    · exact h.finishes hf
  | prompt =>
    exact h.same [.prompt] rfl (by simp [Act.ended?]) (List.Subset.refl _)
  | expire tmr =>
    change Recorded (timerExpire g tmr)
    rcases timerExpire_cases g tmr with ⟨_, heq⟩ | ⟨_, _, heq⟩ | ⟨cmd, busy, _, hb, heq⟩
    · rw [heq]
      exact ⟨h.submitted, h.called⟩
    · rw [heq]
      exact ⟨h.submitted, h.called⟩
    · rw [heq]
      apply h.same [.discard cmd.serial] rfl (by simp [Act.ended?])
      intro d hd
      rw [hb]
      exact List.mem_append.mpr ((List.mem_append.mp hd).imp_right (List.mem_cons_of_mem cmd))

end Recorded

theorem recorded_init {g : Gsmd κ ω} (h : AtcmdInit g) : Recorded g := by
  refine ⟨by simp [h.pending, h.busy], ?_⟩
  intro before serial after heq
  simp [h.log] at heq

end SystemTestSuite.GsmDaemon
