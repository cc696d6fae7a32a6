import SystemTestSuite.GsmDaemon.QueueEffects

namespace SystemTestSuite.GsmDaemon

open Library

variable {κ ω : Type}

def GsmdAtcmd.isWakeup (c : GsmdAtcmd κ) : Bool :=
  match c.cb with
  | some .nullWakeupCb => true
  | _ => false

/-- What `wakeup_timeout` takes for a wakeup command. -/
def GsmdAtcmd.isSpaced (c : GsmdAtcmd κ) : Bool := c.buf.head? == some SP

def Act.IsSpaced : Act κ → Prop
  | .submit _ (some .nullWakeupCb) _ => False
  | .submit _ _ buf => buf.head? = some SP
  | _ => False

def queued (g : Gsmd κ ω) : List (GsmdAtcmd κ) := g.pendingAtcmds ++ g.busyAtcmds

def Disguised (g : Gsmd κ ω) : Prop :=
  ∃ c ∈ queued g, c.isSpaced = true ∧ c.isWakeup = false

/-- `k` more wakeup commands are queued than timers run. -/
structure Balance (k : ℕ) (g : Gsmd κ ω) : Prop where
  timers : g.timers = g.wakeupTimer.toList
  count : (queued g).countP GsmdAtcmd.isWakeup = g.timers.length + k
  text : ∀ c ∈ queued g, c.isWakeup = true → c.buf = [SP, 0]

structure Tracks (k : ℕ) (g g' : Gsmd κ ω) : Prop where
  balance : Balance k g → Balance k g'
  log : ∃ acts, g'.log = g.log ++ acts ∧
    (Disguised g' ↔ Disguised g ∨ ∃ a ∈ acts, a.IsSpaced)

variable {k : ℕ} {g g' g'' : Gsmd κ ω}

theorem Tracks.trans (h : Tracks k g g') (h' : Tracks k g' g'') : Tracks k g g'' := by
  obtain ⟨acts, hlog, hacts⟩ := h.log
  obtain ⟨acts', hlog', hacts'⟩ := h'.log
  refine ⟨fun hb => h'.balance (h.balance hb), acts ++ acts', ?_, ?_⟩
  · rw [hlog', hlog, List.append_assoc]
  · rw [hacts', hacts]
    simp only [List.mem_append, or_and_right, exists_or, or_assoc]

theorem Tracks.same (hp : g'.pendingAtcmds = g.pendingAtcmds) (hb : g'.busyAtcmds = g.busyAtcmds)
    (hw : g'.wakeupTimer = g.wakeupTimer) (ht : g'.timers = g.timers) {acts : List (Act κ)}
    (hlog : g'.log = g.log ++ acts) (hacts : ∀ a ∈ acts, ¬ a.IsSpaced) : Tracks k g g' := by
  have hq : queued g' = queued g := by rw [queued, hp, hb, queued]
  refine ⟨fun h => ⟨by rw [ht, hw, h.timers], by rw [hq, ht, h.count], by rw [hq]; exact h.text⟩,
    acts, hlog, ?_⟩
  rw [Disguised, hq]
  exact ⟨Or.inl, Or.rec id (fun ⟨a, ha, hs⟩ => absurd hs (hacts a ha))⟩

theorem Quiet.tracks (h : Quiet g g') : Tracks k g g' := by
  obtain ⟨acts, hlog, hreport⟩ := h.log
  refine Tracks.same h.pending h.busy h.wakeupTimer h.timers hlog (fun a ha hs => ?_)
  have hr := hreport a ha
  cases a <;> simp_all [Act.IsReport, Act.IsSpaced]

theorem wakeupTimerStart_tracks (g : Gsmd κ ω) (ht : g.wakeupTimer = none) :
    Tracks k g (enqueue (wakeupTimerStart g) wakeupAtcmd) := by
  constructor
  · intro h
    have htimers : g.timers = [] := by rw [h.timers, ht]; rfl
    refine ⟨?_, ?_, ?_⟩
    · simp [enqueue, Gsmd.addPending, wakeupTimerStart, htimers]
    · have hcount := h.count
      have hnew : ((wakeupAtcmd : FilledAtcmd (AtcmdCb κ)).queued (g.serial + 1)).isWakeup = true :=
        rfl
      simp only [queued, List.countP_append, htimers, List.length_nil] at hcount
      simp only [queued, enqueue, Gsmd.addPending, wakeupTimerStart, htimers, List.countP_append,
        List.countP_cons, List.countP_nil, hnew, if_true, List.nil_append, List.length_singleton]
      omega
    · intro c hc hw
      have hc' : c ∈ queued g ∨ c = wakeupAtcmd.queued (g.serial + 1) := by
        simp only [queued, enqueue, Gsmd.addPending, wakeupTimerStart, List.mem_append,
          List.mem_singleton] at hc ⊢
        tauto
      rcases hc' with hc' | rfl
      · exact h.text c hc' hw
      · rfl
  · refine ⟨_, rfl, ?_⟩
    simp only [Disguised, queued, enqueue, Gsmd.addPending, wakeupTimerStart, wakeupAtcmd,
      List.mem_append, List.mem_singleton, Act.IsSpaced, exists_eq_left, or_false]
    constructor
    · rintro ⟨c, (hc | rfl) | hc, hs⟩
      · exact ⟨c, Or.inl hc, hs⟩
      · simp [FilledAtcmd.queued, GsmdAtcmd.isWakeup] at hs
      · exact ⟨c, Or.inr hc, hs⟩
    · rintro ⟨c, hc | hc, hs⟩
      · exact ⟨c, Or.inl (Or.inl hc), hs⟩
      · exact ⟨c, Or.inr hc, hs⟩

theorem client_not_wakeup (c : FilledAtcmd κ) (serial : ℕ) :
    (c.client.queued serial).isWakeup = false := by
  rcases hc : c.cb with _ | _ <;>
    simp [FilledAtcmd.client, FilledAtcmd.queued, GsmdAtcmd.isWakeup, hc]

theorem client_isSpaced (c : FilledAtcmd κ) (serial : ℕ) :
    (Act.submit serial c.client.cb c.client.buf).IsSpaced ↔
      (c.client.queued serial).isSpaced = true := by
  rcases hc : c.cb with _ | _ <;>
    simp [FilledAtcmd.client, FilledAtcmd.queued, GsmdAtcmd.isSpaced, Act.IsSpaced, hc]

theorem client_tracks (c : FilledAtcmd κ) {new : List (GsmdAtcmd κ)}
    (hnew : new.Perm (c.client.queued g.serial :: g.pendingAtcmds))
    (hp : g'.pendingAtcmds = new) (hb : g'.busyAtcmds = g.busyAtcmds)
    (hw : g'.wakeupTimer = g.wakeupTimer) (ht : g'.timers = g.timers)
    (hlog : g'.log = g.log ++ [.submit g.serial c.client.cb c.client.buf]) : Tracks k g g' := by
  have hq : (queued g').Perm (c.client.queued g.serial :: queued g) := by
    rw [queued, hp, hb]
    exact hnew.append_right _
  have hclient := client_not_wakeup c g.serial
  refine ⟨fun h => ⟨by rw [ht, hw, h.timers], ?_, ?_⟩, _, hlog, ?_⟩
  · rw [hq.countP_eq, List.countP_cons, hclient, ht, h.count]
    simp
  · intro d hd hwake
    rcases List.mem_cons.mp (hq.mem_iff.mp hd) with rfl | hd
    · rw [hclient] at hwake
      cases hwake
    · exact h.text d hd hwake
  · simp only [Disguised, hq.mem_iff, List.mem_cons, List.not_mem_nil, or_false,
      exists_eq_left, client_isSpaced]
    constructor
    · rintro ⟨d, rfl | hd, hs⟩
      · exact Or.inr hs.1
      · exact Or.inl ⟨d, hd, hs⟩
    · rintro (⟨d, hd, hs⟩ | hs)
      · exact ⟨d, Or.inr hd, hs⟩
      · exact ⟨_, Or.inl rfl, hs, hclient⟩

theorem atcmdSubmit_tracks (g : Gsmd κ ω) (c : FilledAtcmd κ) : Tracks k g (atcmdSubmit g c) := by
  have hclient (g : Gsmd κ ω) : Tracks k g (enqueue g c.client) :=
    client_tracks c (List.perm_append_singleton _ _) rfl rfl rfl rfl rfl
  rw [atcmdSubmit_eq]
  split
  · rename_i ht
    exact (wakeupTimerStart_tracks g ht).trans (hclient _)
  · exact hclient g

theorem Submits.tracks (h : Submits False g g') : Tracks k g g' := by
  induction h with
  | refl => exact (Quiet.refl g).tracks
  | quiet _ hq ih => exact ih.trans hq.tracks
  | submit c _ ih => exact ih.trans (atcmdSubmit_tracks _ c)
  | wakeup hw _ _ => exact hw.elim

theorem unlinkBusy_tracks {cmd : GsmdAtcmd κ} {busy : List (GsmdAtcmd κ)}
    (hb : g.busyAtcmds = cmd :: busy) (hwake : cmd.isWakeup = false) (hspace : cmd.isSpaced = false)
    (ret : ℤ) : Tracks k g (unlinkBusy g { cmd with ret := ret }) := by
  have heq := unlinkBusy_eq g { cmd with ret := ret }
  rw [hb, List.tail_cons] at heq
  rw [heq]
  refine ⟨fun h => ⟨h.timers, ?_, ?_⟩, _, rfl, ?_⟩
  · have hcount := h.count
    simp only [queued, hb, List.countP_append, List.countP_cons, hwake] at hcount ⊢
    simpa using hcount
  · intro c hc
    apply h.text
    simp only [queued, hb, List.mem_append, List.mem_cons] at hc ⊢
    tauto
  · have hno : ¬ ∃ a ∈ [Act.finish cmd.serial], (a : Act κ).IsSpaced := by simp [Act.IsSpaced]
    rw [or_iff_left hno]
    simp only [Disguised, queued, hb, List.mem_append, List.mem_cons]
    constructor
    · rintro ⟨c, hc | hc, hs⟩
      · exact ⟨c, Or.inl hc, hs⟩
      · exact ⟨c, Or.inr (Or.inr hc), hs⟩
    · rintro ⟨c, hc | rfl | hc, hs⟩
      · exact ⟨c, Or.inl hc, hs⟩
      · rw [hspace] at hs
        cases hs.1
      · exact ⟨c, Or.inr hc, hs⟩

end SystemTestSuite.GsmDaemon
