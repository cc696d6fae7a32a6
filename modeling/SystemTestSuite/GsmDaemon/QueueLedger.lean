import SystemTestSuite.GsmDaemon.QueueEffects
import SystemTestSuite.Library.Pipeline

namespace SystemTestSuite.GsmDaemon

open Library

variable {κ ω : Type}

namespace Act

def arrived? : Act κ → Option ℕ
  | .submit serial _ _ => some serial
  | _ => none

def wakeup? : Act κ → Option ℕ
  | .submit serial (some .nullWakeupCb) _ => some serial
  | _ => none

def begun? : Act κ → Option ℕ
  | .write serial 0 _ => some serial
  | _ => none

def ended? : Act κ → Option ℕ
  | .finish serial => some serial
  | _ => none

def dropped? : Act κ → Option ℕ
  | .discard serial => some serial
  | _ => none

end Act

def wakeups (g : Gsmd κ ω) : List ℕ := g.log.filterMap Act.wakeup?

def pipeline (g : Gsmd κ ω) : Pipeline ℕ where
  arrived := g.log.filterMap Act.arrived?
  begun := g.log.filterMap Act.begun?
  waiting := g.pendingAtcmds.map GsmdAtcmd.serial
  running := g.busyAtcmds.map GsmdAtcmd.serial
  ended := g.log.filterMap Act.ended?
  dropped := g.log.filterMap Act.dropped?

structure Ledger (g : Gsmd κ ω) : Prop where
  order : (pipeline g).Invariant
  fresh : ∀ s ∈ (pipeline g).arrived, s < g.serial
  tagged : ∀ c ∈ g.pendingAtcmds ++ g.busyAtcmds,
    (c.serial ∈ wakeups g ↔ c.cb = some .nullWakeupCb)
  begun : ∀ c ∈ g.pendingAtcmds, (c.serial ∈ (pipeline g).begun ↔ 0 < c.cur)

structure Advances (g g' : Gsmd κ ω) : Prop where
  ledger : Ledger g'
  steps : Pipeline.Steps (pipeline g) (pipeline g')
  dropped : (pipeline g').dropped = (pipeline g).dropped
  wakeups : wakeups g ⊆ wakeups g'

theorem Advances.trans {g g' g'' : Gsmd κ ω} (h : Advances g g') (k : Advances g' g'') :
    Advances g g'' :=
  ⟨k.ledger, h.steps.trans k.steps, k.dropped.trans h.dropped, fun _ hs => k.wakeups (h.wakeups hs)⟩

theorem filterMap_report {f : Act κ → Option ℕ} (hf : ∀ a, a.IsReport → f a = none)
    {acts : List (Act κ)} (h : ∀ a ∈ acts, a.IsReport) : acts.filterMap f = [] := by
  rw [List.filterMap_eq_nil_iff]
  exact fun a ha => hf a (h a ha)

theorem Quiet.filterMap {g g' : Gsmd κ ω} (h : Quiet g g') {f : Act κ → Option ℕ}
    (hf : ∀ a, a.IsReport → f a = none) : g'.log.filterMap f = g.log.filterMap f := by
  obtain ⟨acts, hlog, hreport⟩ := h.log
  rw [hlog, List.filterMap_append, filterMap_report hf hreport, List.append_nil]

theorem Quiet.wakeups {g g' : Gsmd κ ω} (h : Quiet g g') : wakeups g' = wakeups g := by
  apply h.filterMap
  intro a ha
  cases a <;> simp_all [Act.IsReport, Act.wakeup?]

theorem Quiet.pipeline {g g' : Gsmd κ ω} (h : Quiet g g') : pipeline g' = pipeline g := by
  unfold GsmDaemon.pipeline
  rw [h.pending, h.busy, h.filterMap, h.filterMap, h.filterMap, h.filterMap]
  all_goals
    intro a ha
    cases a <;> simp_all [Act.IsReport, Act.arrived?, Act.begun?, Act.ended?, Act.dropped?]

namespace Ledger

variable {g g' : Gsmd κ ω}

theorem wakeups_arrived {s : ℕ} (hs : s ∈ wakeups g) : s ∈ (pipeline g).arrived := by
  simp only [wakeups, pipeline, List.mem_filterMap] at hs ⊢
  obtain ⟨a, ha, hs⟩ := hs
  refine ⟨a, ha, ?_⟩
  cases a with
  | submit serial cb buf =>
    rcases cb with _ | _ | _ <;> simp_all [Act.wakeup?, Act.arrived?]
  | _ => simp [Act.wakeup?] at hs

theorem same (h : Ledger g) (hp : pipeline g' = pipeline g) (hw : GsmDaemon.wakeups g' = wakeups g)
    (hpending : g'.pendingAtcmds = g.pendingAtcmds) (hbusy : g'.busyAtcmds = g.busyAtcmds)
    (hserial : g.serial ≤ g'.serial) : Advances g g' := by
  refine ⟨⟨hp ▸ h.order, ?_, ?_, ?_⟩, hp ▸ .refl, by rw [hp], by rw [hw]; exact fun _ => id⟩
  · rw [hp]
    exact fun s hs => (h.fresh s hs).trans_le hserial
  · rw [hpending, hbusy, hw]
    exact h.tagged
  · rw [hpending, hp]
    exact h.begun

theorem queued_lt (h : Ledger g) {c : GsmdAtcmd κ} (hc : c ∈ g.pendingAtcmds ++ g.busyAtcmds) :
    c.serial < g.serial := by
  apply h.fresh
  apply h.order.queued_arrived
  rcases List.mem_append.mp hc with hc | hc
  · simp [pipeline, List.mem_map_of_mem hc]
  · simp [pipeline, List.mem_map_of_mem hc]

theorem quiet (h : Ledger g) (hq : Quiet g g') : Advances g g' :=
  h.same hq.pipeline hq.wakeups hq.pending hq.busy hq.serial.ge

theorem nullWakeup (h : Ledger g) : Advances g (nullWakeupCb g) := by
  obtain ⟨hp, hb, _, hs, hl, _⟩ := nullWakeupCb_queues g
  apply h.same _ _ hp hb hs.ge
  · simp only [pipeline, hp, hb, hl]
  · simp only [GsmDaemon.wakeups, hl]

theorem enqueue (h : Ledger g) (c : FilledAtcmd (AtcmdCb κ)) : Advances g (enqueue g c) := by
  have hnew : g.serial ∉ (pipeline g).arrived := fun hmem => (h.fresh _ hmem).false
  have hstep : Pipeline.Step (pipeline g) (pipeline (GsmDaemon.enqueue g c)) := by
    have hs := Pipeline.Step.arrive (pipeline g) g.serial hnew
    simpa [pipeline, GsmDaemon.enqueue, Gsmd.addPending, FilledAtcmd.queued, Act.arrived?,
      Act.begun?, Act.ended?, Act.dropped?, List.filterMap_cons] using hs
  have hwake : ∀ s, s ∈ wakeups (GsmDaemon.enqueue g c) ↔
      s ∈ wakeups g ∨ s = g.serial ∧ c.cb = some .nullWakeupCb := by
    intro s
    rcases hc : c.cb with _ | _ | _ <;>
      simp [GsmDaemon.wakeups, GsmDaemon.enqueue, Gsmd.addPending, Act.wakeup?, hc,
        List.filterMap_cons]
  have hbegun : (pipeline (GsmDaemon.enqueue g c)).begun = (pipeline g).begun := by
    simp [pipeline, GsmDaemon.enqueue, Gsmd.addPending, Act.begun?]
  refine ⟨⟨h.order.step hstep, ?_, ?_, ?_⟩, .single hstep, ?_, ?_⟩
  · intro s hs
    have hs' : s ∈ (pipeline g).arrived ∨ s = g.serial := by
      simpa [pipeline, GsmDaemon.enqueue, Gsmd.addPending, Act.arrived?] using hs
    show s < g.serial + 1
    rcases hs' with hs' | rfl
    · exact (h.fresh s hs').trans (Nat.lt_succ_self _)
    · exact Nat.lt_succ_self _
  · intro d hd
    have hd' : d ∈ g.pendingAtcmds ++ g.busyAtcmds ∨ d = c.queued g.serial := by
      simp only [GsmDaemon.enqueue, Gsmd.addPending, List.mem_append, List.mem_singleton] at hd ⊢
      tauto
    rw [hwake]
    rcases hd' with hd' | rfl
    · have hne : d.serial ≠ g.serial := (h.queued_lt hd').ne
      simp [hne, h.tagged d hd']
    · have hne : g.serial ∉ wakeups g := fun hmem => hnew (wakeups_arrived hmem)
      simp [FilledAtcmd.queued, hne]
  · intro d hd
    rw [hbegun]
    rcases List.mem_append.mp hd with hd | hd
    · exact h.begun d hd
    · rw [List.mem_singleton.mp hd]
      have hne : g.serial ∉ (pipeline g).begun := fun hmem => hnew (h.order.begun_subset hmem)
      simp [FilledAtcmd.queued, hne]
  · simp [pipeline, GsmDaemon.enqueue, Gsmd.addPending, Act.dropped?]
  · exact fun s hs => (hwake s).mpr (Or.inl hs)

theorem submit (h : Ledger g) (c : FilledAtcmd κ) : Advances g (atcmdSubmit g c) := by
  rw [atcmdSubmit_eq]
  split
  · have htimer : Advances g (wakeupTimerStart g) := h.same rfl rfl rfl rfl (Nat.le_succ _)
    have hwake := htimer.trans (htimer.ledger.enqueue wakeupAtcmd)
    exact hwake.trans (hwake.ledger.enqueue c.client)
  · exact h.enqueue c.client

theorem submits {woken : Prop} (h : Ledger g) (hs : Submits woken g g') : Advances g g' := by
  induction hs with
  | refl => exact h.quiet (Quiet.refl g)
  | quiet _ hq ih => exact ih.trans (ih.ledger.quiet hq)
  | submit c _ ih => exact ih.trans (ih.ledger.submit c)
  | wakeup _ _ ih => exact ih.trans ih.ledger.nullWakeup

theorem called (h : Ledger g) {cmd : GsmdAtcmd κ} (hc : Called cmd g g') : Advances g g' := by
  unfold Called at hc
  split at hc
  · exact h.quiet hc
  · obtain ⟨g₀, h₀, h₁⟩ := hc
    have hquiet := h.quiet h₀
    have hnull := hquiet.trans hquiet.ledger.nullWakeup
    exact hnull.trans (hnull.ledger.quiet h₁)
  · exact h.submits hc

theorem headLeaves (h : Ledger g) {cmd : GsmdAtcmd κ} (hb : g.busyAtcmds = cmd :: g'.busyAtcmds)
    (hpending : g'.pendingAtcmds = g.pendingAtcmds) (hserial : g'.serial = g.serial)
    (harrived : (pipeline g').arrived = (pipeline g).arrived)
    (hbegun : (pipeline g').begun = (pipeline g).begun) (hwake : wakeups g' = wakeups g)
    (hstep : Pipeline.Step (pipeline g) (pipeline g')) : Ledger g' := by
  refine ⟨h.order.step hstep, ?_, ?_, ?_⟩
  · rw [harrived, hserial]
    exact h.fresh
  · intro d hd
    rw [hwake]
    apply h.tagged
    rw [hpending] at hd
    rw [hb]
    exact List.mem_append.mpr ((List.mem_append.mp hd).imp_right (List.mem_cons_of_mem cmd))
  · rw [hpending, hbegun]
    exact h.begun

theorem unlink (h : Ledger g) {cmd : GsmdAtcmd κ} {busy : List (GsmdAtcmd κ)}
    (hb : g.busyAtcmds = cmd :: busy) (ret : ℤ) :
    Advances g (unlinkBusy g { cmd with ret := ret }) := by
  have heq := unlinkBusy_eq g { cmd with ret := ret }
  rw [hb, List.tail_cons] at heq
  have hr : (pipeline g).running = cmd.serial :: busy.map GsmdAtcmd.serial := by
    simp [pipeline, hb]
  have hstep : Pipeline.Step (pipeline g) (pipeline (unlinkBusy g { cmd with ret := ret })) := by
    have hs := Pipeline.Step.finish (pipeline g) _ _ hr
    simpa [heq, pipeline, Act.arrived?, Act.begun?, Act.ended?, Act.dropped?,
      List.filterMap_cons] using hs
  have hwake : wakeups (unlinkBusy g { cmd with ret := ret }) = wakeups g := by
    simp [heq, GsmDaemon.wakeups, Act.wakeup?]
  have hleft : g.busyAtcmds = cmd :: (unlinkBusy g { cmd with ret := ret }).busyAtcmds := by
    rw [heq, hb]
  refine ⟨?_, .single hstep, ?_, hwake ▸ fun _ => id⟩
  · apply h.headLeaves hleft _ _ _ _ hwake hstep
    · rw [heq]
    · rw [heq]
    · simp [heq, pipeline, Act.arrived?]
    · simp [heq, pipeline, Act.begun?]
  · simp [heq, pipeline, Act.dropped?]

theorem finishes (h : Ledger g) (hf : Finishes g g') : Advances g g' := by
  obtain ⟨cmd, busy, g₁, ret, hb, hc, -, rfl⟩ := hf
  have hcalled := h.called hc
  exact hcalled.trans (hcalled.ledger.unlink (hc.busy.trans hb) ret)

theorem begins (h : Ledger g) {pos : GsmdAtcmd κ} {rest : List (GsmdAtcmd κ)}
    (hp : g.pendingAtcmds = pos :: rest) :
    Pipeline.Steps (pipeline g) { pipeline g with
      begun := (pipeline g).begun ++ if pos.cur = 0 then [pos.serial] else [] } := by
  have hw : (pipeline g).waiting = pos.serial :: rest.map GsmdAtcmd.serial := by
    simp [pipeline, hp]
  split_ifs with hcur
  · have hnot : pos.serial ∉ (pipeline g).begun := by
      rw [h.begun pos (by simp [hp]), hcur]
      exact lt_irrefl 0
    exact .single (.begin _ _ _ hw hnot)
  · rw [List.append_nil]

theorem begun_writeActs (pos : GsmdAtcmd κ) (n : ℕ) (crDone : Bool) :
    (writeActs pos n crDone).filterMap Act.begun? =
      if pos.cur = 0 then [pos.serial] else [] := by
  rcases Nat.eq_zero_or_pos pos.cur with hcur | hcur
  · cases crDone <;> simp [writeActs, Act.begun?, hcur, List.filterMap_cons]
  · have hne : pos.cur ≠ 0 := hcur.ne'
    cases crDone <;> simp [writeActs, Act.begun?, hne, List.filterMap_cons]

theorem filterMap_writeActs {f : Act κ → Option ℕ} (hw : ∀ s c b, f (.write s c b) = none)
    (hcr : f .writeCr = none) (pos : GsmdAtcmd κ) (n : ℕ) (crDone : Bool) :
    (writeActs pos n crDone).filterMap f = [] := by
  cases crDone <;> simp [writeActs, hw, hcr]

theorem wrote (h : Ledger g) {pos : GsmdAtcmd κ} {rest : List (GsmdAtcmd κ)}
    (hp : g.pendingAtcmds = pos :: rest) (n : ℕ) (crDone : Bool)
    (hlog : g'.log = g.log ++ writeActs pos n crDone) (hserial : g'.serial = g.serial)
    (hsteps : Pipeline.Steps (pipeline g) (pipeline g'))
    (hqueued : ∀ c ∈ g'.pendingAtcmds ++ g'.busyAtcmds,
      c = written pos n ∨ c ∈ g.pendingAtcmds ++ g.busyAtcmds)
    (hpending : ∀ c ∈ g'.pendingAtcmds, c = written pos n ∨ c ∈ rest) : Advances g g' := by
  have hnone {f : Act κ → Option ℕ} (hw : ∀ s c b, f (.write s c b) = none)
      (hcr : f .writeCr = none) : g'.log.filterMap f = g.log.filterMap f := by
    rw [hlog, List.filterMap_append, filterMap_writeActs hw hcr, List.append_nil]
  have harrived : (pipeline g').arrived = (pipeline g).arrived := hnone (fun _ _ _ => rfl) rfl
  have hdropped : (pipeline g').dropped = (pipeline g).dropped := hnone (fun _ _ _ => rfl) rfl
  have hwake : wakeups g' = wakeups g := hnone (fun _ _ _ => rfl) rfl
  have hbegun : (pipeline g').begun =
      (pipeline g).begun ++ if pos.cur = 0 then [pos.serial] else [] := by
    simp only [pipeline, hlog, List.filterMap_append, begun_writeActs]
  refine ⟨⟨h.order.steps hsteps, ?_, ?_, ?_⟩, hsteps, hdropped, hwake ▸ fun _ => id⟩
  · rw [harrived, hserial]
    exact h.fresh
  · intro c hc
    rw [hwake]
    rcases hqueued c hc with rfl | hc
    · exact h.tagged pos (by simp [hp])
    · exact h.tagged c hc
  · intro c hc
    rw [hbegun, List.mem_append]
    rcases hpending c hc with rfl | hc
    · have hcur := h.begun pos (by simp [hp])
      have hmem : pos.serial ∈ (pipeline g).begun ∨
          pos.serial ∈ (if pos.cur = 0 then [pos.serial] else []) := by
        rcases Nat.eq_zero_or_pos pos.cur with hz | hz
        · exact Or.inr (by simp [hz])
        · exact Or.inl (hcur.mpr hz)
      exact iff_of_true hmem (written_pos pos n)
    · have hne : c.serial ≠ pos.serial := by
        have hnodup := h.order.queued_nodup
        simp only [pipeline, hp, List.map_cons, List.nodup_append, List.nodup_cons] at hnodup
        intro heq
        exact hnodup.2.1.1 (heq ▸ List.mem_map_of_mem hc)
      rw [← h.begun c (by simp [hp, hc])]
      split_ifs <;> simp [hne]

theorem write (h : Ledger g) (rc : WriteRc) (crDone : Bool) :
    Advances g (atcmdSelectWrite g rc crDone) := by
  rcases atcmdSelectWrite_cases g rc crDone with heq | ⟨_, _, heq⟩ | ⟨pos, rest, n, hr, hp, rfl⟩
  · rw [heq]
    exact h.quiet (Quiet.refl g)
  · rw [heq]
    exact h.same rfl rfl rfl rfl le_rfl
  · rw [atcmdSelectWrite_wrote g hr hp]
    have hbegins := h.begins hp
    have hnone (f : Act κ → Option ℕ) (hw : ∀ s c b, f (.write s c b) = none)
        (hcr : f .writeCr = none) := filterMap_writeActs hw hcr pos n crDone
    have harrived := hnone Act.arrived? (fun _ _ _ => rfl) rfl
    have hended := hnone Act.ended? (fun _ _ _ => rfl) rfl
    have hdropped := hnone Act.dropped? (fun _ _ _ => rfl) rfl
    split_ifs with hlen
    · refine h.wrote hp n crDone rfl rfl ?_ ?_ ?_
      · refine hbegins.tail ?_
        have hstart := Pipeline.Step.start { pipeline g with
            begun := (pipeline g).begun ++ if pos.cur = 0 then [pos.serial] else [] }
          pos.serial (rest.map GsmdAtcmd.serial) (by simp [pipeline, hp]) ?_
        · simpa [pipeline, harrived, hended, hdropped, begun_writeActs, written] using hstart
        · rcases Nat.eq_zero_or_pos pos.cur with hz | hz
          · simp [hz]
          · exact List.mem_append_left _ ((h.begun pos (by simp [hp])).mpr hz)
      · simp only [hp, List.mem_append, List.mem_cons]
        tauto
      · exact fun c hc => Or.inr hc
    · refine h.wrote hp n crDone rfl rfl ?_ ?_ ?_
      · simpa [pipeline, harrived, hended, hdropped, begun_writeActs, written, hp] using hbegins
      · simp only [hp, List.mem_append, List.mem_cons]
        tauto
      · exact fun c hc => List.mem_cons.mp hc

theorem discard (h : Ledger g) {cmd : GsmdAtcmd κ} {busy : List (GsmdAtcmd κ)}
    (hb : g.busyAtcmds = cmd :: busy) {ts : List ℕ} {w : Option ℕ} {b : Bool} (heq : g' = { g with
      timers := ts, wakeupTimer := w, busyAtcmds := busy, fdWrite := b
      log := g.log ++ [.discard cmd.serial] }) :
    Ledger g' ∧ Pipeline.Step (pipeline g) (pipeline g') ∧
      (pipeline g').dropped = (pipeline g).dropped ++ [cmd.serial] ∧ wakeups g' = wakeups g := by
  have hr : (pipeline g).running = cmd.serial :: busy.map GsmdAtcmd.serial := by
    simp [pipeline, hb]
  have hstep : Pipeline.Step (pipeline g) (pipeline g') := by
    have hs := Pipeline.Step.drop (pipeline g) _ _ hr
    simpa [heq, pipeline, Act.arrived?, Act.begun?, Act.ended?, Act.dropped?,
      List.filterMap_cons] using hs
  have hwake : wakeups g' = wakeups g := by
    simp [heq, GsmDaemon.wakeups, Act.wakeup?]
  have hleft : g.busyAtcmds = cmd :: g'.busyAtcmds := by rw [heq, hb]
  refine ⟨?_, hstep, ?_, hwake⟩
  · apply h.headLeaves hleft _ _ _ _ hwake hstep
    · rw [heq]
    · rw [heq]
    · simp [heq, pipeline, Act.arrived?]
    · simp [heq, pipeline, Act.begun?]
  · simp [heq, pipeline, Act.dropped?, List.filterMap_cons]

theorem advances (h : Ledger g) (env : Env κ ω) {e : Event κ} (hc : ¬ e.IsCancel)
    (hexp : ∀ tmr cmd, e = .expire tmr → ¬ ExpiresOn g tmr cmd) : Advances g (next env g e) := by
  cases e with
  | submit cmd => exact h.submit cmd
  | cancel cmd => exact absurd trivial hc
  | writable rc crDone => exact h.write rc crDone
  | line buf =>
    rcases mlParse_cases env g buf with hs | ⟨_, hf⟩
    · exact h.submits hs
    · exact h.finishes hf
  | prompt =>
    refine h.same ?_ ?_ rfl rfl le_rfl
    · simp [pipeline, next, atcmdPrompt, Gsmd.emit, Gsmd.atcmdWakePendingQueue, Act.arrived?,
        Act.begun?, Act.ended?, Act.dropped?]
    · simp [GsmDaemon.wakeups, next, atcmdPrompt, Gsmd.emit, Gsmd.atcmdWakePendingQueue,
        Act.wakeup?]
  | expire tmr =>
    rcases timerExpire_cases g tmr with ⟨_, heq⟩ | ⟨_, _, heq⟩ | ⟨cmd, _, hon, _⟩
    · exact h.same (by rw [next, heq]; rfl) (by rw [next, heq]; rfl) (by rw [next, heq])
        (by rw [next, heq]) (by rw [next, heq])
    · exact h.same (by rw [next, heq]; rfl) (by rw [next, heq]; rfl) (by rw [next, heq])
        (by rw [next, heq]) (by rw [next, heq])
    · exact absurd hon (hexp tmr cmd rfl)

end Ledger

theorem ledger_init {g : Gsmd κ ω} (h : AtcmdInit g) : Ledger g := by
  constructor
  · constructor <;> simp [pipeline, h.log, h.pending, h.busy]
  · simp [pipeline, h.log]
  · simp [h.pending, h.busy]
  · simp [h.pending]

end SystemTestSuite.GsmDaemon
