import SystemTestSuite.GsmDaemon.WakeupBalance

namespace SystemTestSuite.GsmDaemon

open Library

variable {κ ω : Type} {k : ℕ} {g g' : Gsmd κ ω}

structure WakeupGuarded (g : Gsmd κ ω) : Prop where
  guarded : ∀ c ∈ queued g, c.isSpaced = true → ∃ tmr ∈ g.timers, g.wakeupTimer = some tmr
  single : (queued g).countP GsmdAtcmd.isSpaced ≤ 1

/-- The wakeup timer runs out on the wakeup command, no response is flushed into the wakeup
command, and no client hands over a text that starts with a space. -/
def KeepsGuard (env : Env κ ω) (g : Gsmd κ ω) (e : Event κ) : Prop :=
  (∀ tmr, e = .expire tmr → g.wakeupTimer = some tmr → ∃ cmd, ExpiresOn g tmr cmd) ∧
    (∀ buf, e = .line buf → ¬ FlushesWakeup env g buf) ∧
    ¬ ∃ a ∈ (next env g e).log.drop g.log.length, a.IsSpaced

theorem Balance.spaced_of_wakeup (h : Balance k g) {c : GsmdAtcmd κ} (hc : c ∈ queued g)
    (hw : c.isWakeup = true) : c.isSpaced = true := by
  rw [GsmdAtcmd.isSpaced, h.text c hc hw]
  rfl

theorem Balance.count_le (h : Balance k g) :
    g.timers.length + k ≤ (queued g).countP GsmdAtcmd.isSpaced := by
  rw [← h.count]
  exact List.countP_mono_left (fun c hc hw => h.spaced_of_wakeup hc hw)

theorem Balance.timers_le (h : Balance k g) : g.timers.length ≤ 1 := by
  rw [h.timers]
  cases g.wakeupTimer <;> simp

theorem Balance.guarded (h : Balance 0 g) (hd : ¬ Disguised g) : WakeupGuarded g := by
  have hwake : ∀ c ∈ queued g, c.isSpaced = true → c.isWakeup = true := by
    intro c hc hs
    by_contra hw
    exact hd ⟨c, hc, hs, by simpa using hw⟩
  constructor
  · intro c hc hs
    have hpos : 0 < (queued g).countP GsmdAtcmd.isWakeup :=
      List.countP_pos_iff.mpr ⟨c, hc, hwake c hc hs⟩
    rw [h.count, h.timers] at hpos
    cases ht : g.wakeupTimer with
    | none => simp [ht] at hpos
    | some tmr => exact ⟨tmr, by simp [h.timers, ht], rfl⟩
  · calc (queued g).countP GsmdAtcmd.isSpaced
        ≤ (queued g).countP GsmdAtcmd.isWakeup := List.countP_mono_left hwake
      _ = g.timers.length := h.count
      _ ≤ 1 := h.timers_le

theorem Balance.not_guarded (h : Balance (k + 1) g) : ¬ WakeupGuarded g := by
  intro hg
  have hpos : 0 < (queued g).countP GsmdAtcmd.isWakeup := by
    rw [h.count]
    omega
  obtain ⟨c, hc, hw⟩ := List.countP_pos_iff.mp hpos
  obtain ⟨tmr, htmr, _⟩ := hg.guarded c hc (h.spaced_of_wakeup hc hw)
  have htimers : 0 < g.timers.length := List.length_pos_of_mem htmr
  have hle := h.count_le.trans hg.single
  omega

theorem two_le_countP {α : Type} {p : α → Bool} {l : List α} {a b : α} (ha : a ∈ l) (hb : b ∈ l)
    (hpa : p a = true) (hpb : p b = true) (hne : a ≠ b) : 2 ≤ l.countP p := by
  rw [List.countP_eq_length_filter]
  have ha' : a ∈ l.filter p := List.mem_filter.mpr ⟨ha, hpa⟩
  have hb' : b ∈ l.filter p := List.mem_filter.mpr ⟨hb, hpb⟩
  generalize l.filter p = m at ha' hb'
  rcases m with _ | ⟨x, _ | ⟨y, ys⟩⟩
  · simp at ha'
  · simp only [List.mem_singleton] at ha' hb'
    exact absurd (ha'.trans hb'.symm) hne
  · simp

theorem Disguised.not_guarded (hd : Disguised g) (h : Balance 0 g) : ¬ WakeupGuarded g := by
  intro hg
  obtain ⟨c, hc, hs, hw⟩ := hd
  obtain ⟨tmr, htmr, _⟩ := hg.guarded c hc hs
  have hpos : 0 < (queued g).countP GsmdAtcmd.isWakeup := by
    rw [h.count]
    exact List.length_pos_of_mem htmr
  obtain ⟨d, hd, hdw⟩ := List.countP_pos_iff.mp hpos
  have hne : c ≠ d := by
    rintro rfl
    rw [hdw] at hw
    cases hw
  have htwo := two_le_countP hc hd hs (h.spaced_of_wakeup hd hdw) hne
  have hone := hg.single
  omega

theorem wakeup_done_tracks {cmd : GsmdAtcmd κ} {busy : List (GsmdAtcmd κ)} {g₁ : Gsmd κ ω}
    (hb : g.busyAtcmds = cmd :: busy) (hwake : cmd.isWakeup = true)
    (hq : Quiet (nullWakeupCb g) g₁) (ret : ℤ) :
    Tracks 0 g (unlinkBusy g₁ { cmd with ret := ret }) := by
  obtain ⟨hp', hb', _, _, hl', _⟩ := nullWakeupCb_queues g
  obtain ⟨acts, hlog, hreport⟩ := hq.log
  have heq := unlinkBusy_eq g₁ { cmd with ret := ret }
  rw [hq.busy, hb', hb, List.tail_cons, hq.pending, hp', hlog, hl'] at heq
  rw [heq]
  constructor
  · intro h
    have hcount := h.count
    simp only [queued, hb, List.countP_append, List.countP_cons, hwake, if_true] at hcount
    have hone := h.timers_le
    obtain ⟨tmr, htmr⟩ : ∃ tmr, g.wakeupTimer = some tmr := by
      cases ht : g.wakeupTimer with
      | none =>
        rw [h.timers, ht] at hcount
        simp at hcount
      | some tmr => exact ⟨tmr, rfl⟩
    have htimers : g.timers = [tmr] := by rw [h.timers, htmr]; rfl
    have hnull : (nullWakeupCb g).timers = [] ∧ (nullWakeupCb g).wakeupTimer = none := by
      simp [nullWakeupCb, htmr, htimers]
    refine ⟨?_, ?_, ?_⟩
    · rw [show g₁.timers = [] from hq.timers.trans hnull.1,
        show g₁.wakeupTimer = none from hq.wakeupTimer.trans hnull.2]
      rfl
    · simp only [queued, List.countP_append,
        show g₁.timers = [] from hq.timers.trans hnull.1, List.length_nil]
      omega
    · intro c hc
      apply h.text
      simp only [queued, hb, List.mem_append, List.mem_cons] at hc ⊢
      tauto
  · refine ⟨acts ++ [.finish cmd.serial], by simp, ?_⟩
    have hno : ¬ ∃ a ∈ acts ++ [Act.finish cmd.serial], a.IsSpaced := by
      rintro ⟨a, ha, hs⟩
      rcases List.mem_append.mp ha with ha | ha
      · have hr := hreport a ha
        cases a <;> simp_all [Act.IsReport, Act.IsSpaced]
      · rw [List.mem_singleton.mp ha] at hs
        exact hs
    rw [or_iff_left hno]
    simp only [Disguised, queued, hb, List.mem_append, List.mem_cons]
    constructor
    · rintro ⟨c, hc | hc, hs⟩
      · exact ⟨c, Or.inl hc, hs⟩
      · exact ⟨c, Or.inr (Or.inr hc), hs⟩
    · rintro ⟨c, hc | rfl | hc, hs⟩
      · exact ⟨c, Or.inl hc, hs⟩
      · rw [hwake] at hs
        cases hs.2
      · exact ⟨c, Or.inr hc, hs⟩

theorem Finishes.tracks (h : Finishes g g')
    (hhead : ∀ c ∈ g.busyAtcmds, c.isSpaced = true → c.isWakeup = true) : Tracks 0 g g' := by
  obtain ⟨cmd, busy, g₁, ret, hb, hc, -, rfl⟩ := h
  have hspace (hw : cmd.isWakeup = false) : cmd.isSpaced = false := by
    by_contra hs
    rw [hhead cmd (by simp [hb]) (by simpa using hs)] at hw
    cases hw
  have hbusy := hc.busy.trans hb
  unfold Called at hc
  split at hc
  · rename_i hcb
    have hw : cmd.isWakeup = false := by simp [GsmdAtcmd.isWakeup, hcb]
    exact hc.tracks.trans (unlinkBusy_tracks hbusy hw (hspace hw) ret)
  · rename_i hcb
    obtain ⟨g₀, h₀, h₁⟩ := hc
    have hw : cmd.isWakeup = true := by simp [GsmdAtcmd.isWakeup, hcb]
    exact h₀.tracks.trans (wakeup_done_tracks (h₀.busy.trans hb) hw h₁ ret)
  · rename_i key hcb
    have hw : cmd.isWakeup = false := by simp [GsmdAtcmd.isWakeup, hcb]
    exact hc.tracks.trans (unlinkBusy_tracks hbusy hw (hspace hw) ret)

end SystemTestSuite.GsmDaemon
