import SystemTestSuite.GsmDaemon.WakeupGuard

namespace SystemTestSuite.GsmDaemon

open Library

variable {κ ω : Type} {k : ℕ} {g g' : Gsmd κ ω}

theorem replace_tracks (pos pos' : GsmdAtcmd κ) {l : List (GsmdAtcmd κ)}
    (hq : queued g = pos :: l) (hq' : (queued g').Perm (pos' :: l)) (hcb : pos'.cb = pos.cb)
    (hbuf : pos'.buf = pos.buf) (hw : g'.wakeupTimer = g.wakeupTimer) (ht : g'.timers = g.timers)
    {acts : List (Act κ)} (hlog : g'.log = g.log ++ acts) (hacts : ∀ a ∈ acts, ¬ a.IsSpaced) :
    Tracks k g g' := by
  have hwake : pos'.isWakeup = pos.isWakeup := by rw [GsmdAtcmd.isWakeup, hcb]; rfl
  have hspace : pos'.isSpaced = pos.isSpaced := by rw [GsmdAtcmd.isSpaced, hbuf]; rfl
  refine ⟨fun h => ⟨by rw [ht, hw, h.timers], ?_, ?_⟩, acts, hlog, ?_⟩
  · rw [hq'.countP_eq, List.countP_cons, hwake, ← List.countP_cons, ← hq, ht, h.count]
  · intro c hc hcw
    rcases List.mem_cons.mp (hq'.mem_iff.mp hc) with rfl | hc
    · rw [hbuf]
      exact h.text pos (by simp [hq]) (hwake ▸ hcw)
    · exact h.text c (by simp [hq, hc]) hcw
  · have hno : ¬ ∃ a ∈ acts, a.IsSpaced := by
      rintro ⟨a, ha, hs⟩
      exact hacts a ha hs
    rw [or_iff_left hno, Disguised, Disguised, hq]
    simp only [hq'.mem_iff, List.mem_cons]
    constructor
    · rintro ⟨c, rfl | hc, hs, hcw⟩
      · exact ⟨pos, Or.inl rfl, hspace ▸ hs, hwake ▸ hcw⟩
      · exact ⟨c, Or.inr hc, hs, hcw⟩
    · rintro ⟨c, rfl | hc, hs, hcw⟩
      · exact ⟨pos', Or.inl rfl, hspace.trans hs, hwake.trans hcw⟩
      · exact ⟨c, Or.inr hc, hs, hcw⟩

theorem atcmdSelectWrite_tracks (g : Gsmd κ ω) (rc : WriteRc) (crDone : Bool) :
    Tracks k g (atcmdSelectWrite g rc crDone) := by
  rcases atcmdSelectWrite_cases g rc crDone with heq | ⟨_, _, heq⟩ | ⟨pos, rest, n, hr, hp, rfl⟩
  · rw [heq]
    exact (Quiet.refl g).tracks
  · rw [heq]
    exact Tracks.same rfl rfl rfl rfl (List.append_nil _).symm (by simp)
  · have hq : queued g = pos :: (rest ++ g.busyAtcmds) := by rw [queued, hp]; rfl
    have hacts : ∀ a ∈ writeActs pos n crDone, ¬ a.IsSpaced := by
      cases crDone <;> simp [writeActs, Act.IsSpaced]
    rw [atcmdSelectWrite_wrote g hr hp]
    split_ifs
    · refine replace_tracks pos (written pos n) hq ?_ rfl rfl rfl rfl rfl hacts
      rw [queued, ← List.append_assoc]
      exact List.perm_append_singleton _ _
    · exact replace_tracks pos (written pos n) hq (List.Perm.refl _) rfl rfl rfl rfl rfl hacts

theorem cancelAtcmd_tracks (env : Env κ ω) (g : Gsmd κ ω) (cmd : FilledAtcmd κ)
    (hhead : ∀ c ∈ g.busyAtcmds, c.isSpaced = true → c.isWakeup = true) :
    Tracks 0 g (cancelAtcmd env g cmd).2 := by
  rcases cancelAtcmd_cases env g cmd with heq | hf
  · rw [heq]
    exact atcmdSubmit_tracks g cmd
  · have hqueue : Tracks 0 g (cancelQueue g cmd) :=
      client_tracks cmd (List.Perm.refl _) rfl rfl rfl rfl rfl
    exact hqueue.trans (hf.tracks hhead)

theorem next_tracks (env : Env κ ω) {e : Event κ} (hd : ¬ Disguised g)
    (hflush : ∀ buf, e = .line buf → ¬ FlushesWakeup env g buf) (hexp : ∀ tmr, e ≠ .expire tmr) :
    Tracks 0 g (next env g e) := by
  have hhead : ∀ c ∈ g.busyAtcmds, c.isSpaced = true → c.isWakeup = true := by
    intro c hc hs
    by_contra hw
    exact hd ⟨c, List.mem_append_right _ hc, hs, by simpa using hw⟩
  cases e with
  | submit cmd => exact atcmdSubmit_tracks g cmd
  | cancel cmd => exact cancelAtcmd_tracks env g cmd hhead
  | writable rc crDone => exact atcmdSelectWrite_tracks g rc crDone
  | line buf =>
    rcases mlParse_cases env g buf with hs | ⟨_, hf⟩
    · exact (hs.mono (hflush buf rfl)).tracks
    · exact hf.tracks hhead
  | prompt => exact Tracks.same rfl rfl rfl rfl rfl (by simp [Act.IsSpaced])
  | expire tmr => exact absurd rfl (hexp tmr)

theorem flushesWakeup_unguarded (env : Env κ ω) {buf : Bytes} (h : Balance 0 g)
    (hflush : FlushesWakeup env g buf) : ¬ WakeupGuarded (mlParse env g buf).2 := by
  have hwake : ∀ c ∈ g.busyAtcmds, c.cb = some .nullWakeupCb → c.buf = [SP, 0] := by
    intro c hc hcb
    exact h.text c (List.mem_append_right _ hc) (by simp [GsmdAtcmd.isWakeup, hcb])
  obtain ⟨g₁, g₂, h₁, h₂, h₃⟩ := mlParse_flushesWakeup env g hflush hwake
  obtain ⟨⟨_, cmd, busy, hb, hcb⟩, _⟩ := hflush
  have hbal := h₁.tracks.balance h
  obtain ⟨hp', hb', _⟩ := nullWakeupCb_queues g₁
  have hpos : 0 < (queued g₁).countP GsmdAtcmd.isWakeup := by
    apply List.countP_pos_iff.mpr
    refine ⟨cmd, List.mem_append_right _ (by simp [h₁.busy, hb]), ?_⟩
    simp [GsmdAtcmd.isWakeup, hcb]
  have hstop : Balance 1 (nullWakeupCb g₁) := by
    have hcount := hbal.count
    have hone := hbal.timers_le
    obtain ⟨tmr, htmr⟩ : ∃ tmr, g₁.wakeupTimer = some tmr := by
      cases ht : g₁.wakeupTimer with
      | none =>
        rw [hcount, hbal.timers, ht] at hpos
        simp at hpos
      | some tmr => exact ⟨tmr, rfl⟩
    have htimers : g₁.timers = [tmr] := by rw [hbal.timers, htmr]; rfl
    have hq : queued (nullWakeupCb g₁) = queued g₁ := by rw [queued, hp', hb', queued]
    refine ⟨by simp [nullWakeupCb, htmr, htimers], ?_, by rw [hq]; exact hbal.text⟩
    rw [hq, hcount, htimers]
    simp [nullWakeupCb, htmr, htimers]
  exact (h₃.tracks.balance (h₂.tracks.balance hstop)).not_guarded

theorem discard_balance (h : Balance 0 g) (hd : ¬ Disguised g) {tmr : ℕ} {cmd : GsmdAtcmd κ}
    (hon : ExpiresOn g tmr cmd) :
    Balance 0 (timerExpire g tmr) ∧ ¬ Disguised (timerExpire g tmr) := by
  rcases timerExpire_cases g tmr with ⟨ht, _⟩ | ⟨_, hno, _⟩ | ⟨cmd', busy, hon', hb, heq⟩
  · exact absurd hon.1 ht
  · exact absurd hon (hno cmd)
  · have hspace : cmd'.isSpaced = true := by rw [GsmdAtcmd.isSpaced, hon'.2.2]; rfl
    have hwake : cmd'.isWakeup = true := by
      by_contra hw
      exact hd ⟨cmd', by simp [queued, hb], hspace, by simpa using hw⟩
    have htimers : g.timers = [tmr] := by rw [h.timers, hon.1]; rfl
    have hmem : ∀ c ∈ queued (timerExpire g tmr), c ∈ queued g := by
      intro c hc
      rw [heq] at hc
      simp only [queued, hb, List.mem_append, List.mem_cons] at hc ⊢
      tauto
    refine ⟨⟨by rw [heq]; simp [htimers], ?_, fun c hc => h.text c (hmem c hc)⟩, ?_⟩
    · have hcount := h.count
      rw [heq]
      simp only [queued, hb, List.countP_append, List.countP_cons, hwake, if_true, htimers,
        List.length_singleton, List.erase_cons_head, List.length_nil] at hcount ⊢
      omega
    · rintro ⟨c, hc, hs⟩
      exact hd ⟨c, hmem c hc, hs⟩

theorem expire_balance (h : Balance 0 g) {tmr : ℕ} (ht : g.wakeupTimer = some tmr)
    (hno : ∀ cmd, ¬ ExpiresOn g tmr cmd) : Balance 1 (timerExpire g tmr) := by
  have htimers : g.timers = [tmr] := by rw [h.timers, ht]; rfl
  rcases timerExpire_cases g tmr with ⟨ht', _⟩ | ⟨_, _, heq⟩ | ⟨cmd, _, hon, _⟩
  · exact absurd ht ht'
  · have hcount := h.count
    rw [heq]
    refine ⟨by simp [htimers], ?_, h.text⟩
    simpa [queued, htimers] using hcount
  · exact absurd hon (hno cmd)

theorem timerExpire_not_spaced (g : Gsmd κ ω) (tmr : ℕ) :
    ¬ ∃ a ∈ (timerExpire g tmr).log.drop g.log.length, a.IsSpaced := by
  rcases timerExpire_cases g tmr with ⟨_, heq⟩ | ⟨_, _, heq⟩ | ⟨cmd, busy, _, _, heq⟩
  · simp [heq]
  · simp [heq]
  · simp [heq, Act.IsSpaced]

theorem keepsGuard_next (env : Env κ ω) {e : Event κ} (h : Balance 0 g) (hd : ¬ Disguised g)
    (he : Enabled g e) (hok : KeepsGuard env g e) :
    Balance 0 (next env g e) ∧ ¬ Disguised (next env g e) := by
  obtain ⟨hexp, hflush, hspace⟩ := hok
  by_cases hx : ∃ tmr, e = .expire tmr
  · obtain ⟨tmr, rfl⟩ := hx
    have htmr : g.wakeupTimer = some tmr := by
      have hmem : tmr ∈ g.timers := he
      simpa [h.timers] using hmem
    obtain ⟨cmd, hon⟩ := hexp tmr rfl htmr
    exact discard_balance h hd hon
  · have htracks := next_tracks env hd hflush (fun tmr htmr => hx ⟨tmr, htmr⟩)
    obtain ⟨acts, hlog, hacts⟩ := htracks.log
    refine ⟨htracks.balance h, fun hd' => ?_⟩
    rw [hlog, List.drop_left] at hspace
    exact (hacts.mp hd').elim hd hspace

theorem not_keepsGuard_next (env : Env κ ω) {e : Event κ} (h : Balance 0 g) (hd : ¬ Disguised g)
    (hok : ¬ KeepsGuard env g e) : ¬ WakeupGuarded (next env g e) := by
  by_cases hx : ∃ tmr, e = .expire tmr
  · obtain ⟨tmr, rfl⟩ := hx
    by_cases hon : g.wakeupTimer = some tmr ∧ ∀ cmd, ¬ ExpiresOn g tmr cmd
    · exact (expire_balance h hon.1 hon.2).not_guarded
    · refine absurd ⟨?_, by simp, timerExpire_not_spaced g tmr⟩ hok
      rintro _ ⟨rfl⟩ htmr
      by_contra hno
      exact hon ⟨htmr, fun cmd hcmd => hno ⟨cmd, hcmd⟩⟩
  · by_cases hf : ∃ buf, e = .line buf ∧ FlushesWakeup env g buf
    · obtain ⟨buf, rfl, hf⟩ := hf
      exact flushesWakeup_unguarded env h hf
    · have hflush : ∀ buf, e = .line buf → ¬ FlushesWakeup env g buf :=
        fun buf hbuf hfl => hf ⟨buf, hbuf, hfl⟩
      have htracks := next_tracks env hd hflush (fun tmr htmr => hx ⟨tmr, htmr⟩)
      obtain ⟨acts, hlog, hacts⟩ := htracks.log
      have hspace : ∃ a ∈ acts, a.IsSpaced := by
        by_contra hno
        refine hok ⟨fun tmr htmr => absurd ⟨tmr, htmr⟩ hx, hflush, ?_⟩
        rwa [hlog, List.drop_left]
      exact (hacts.mpr (Or.inr hspace)).not_guarded (htracks.balance h)

theorem wakeupGuarded_iff_keepsGuard (env : Env κ ω) {es : List (Event κ)} (hinit : AtcmdInit g)
    (hrun : (atMachine env).Run g es g') :
    (atMachine env).Throughout WakeupGuarded g es ↔
      (atMachine env).RunWhile (KeepsGuard env) g es g' := by
  refine Machine.Run.throughout_iff (I := fun g => Balance 0 g ∧ ¬ Disguised g) ?_ ?_ ?_ hrun ?_
  · exact fun t e h he hok => keepsGuard_next env h.1 h.2 he hok
  · exact fun t h => h.1.guarded h.2
  · exact fun t e h _ hok => not_keepsGuard_next env h.1 h.2 hok
  · have hq : queued g = [] := by simp [queued, hinit.pending, hinit.busy]
    refine ⟨⟨?_, ?_, ?_⟩, ?_⟩
    · rw [hinit.timers, hinit.wakeupTimer]
      rfl
    · simp [hq, hinit.timers]
    · simp [hq]
    · simp [Disguised, hq]

def lateRun : List (Event Unit) := [.submit (filledText (ascii "AT") (some ())), .expire 0]

theorem wakeupGuarded_iff_keepsGuard_late :
    (atMachine idleEnv).Throughout WakeupGuarded gsmdInit lateRun ↔
      (atMachine idleEnv).RunWhile (KeepsGuard idleEnv) gsmdInit lateRun
        ((atMachine idleEnv).after gsmdInit lateRun) :=
  wakeupGuarded_iff_keepsGuard idleEnv gsmdInit_init (Machine.Checks.runWhile (by decide))

theorem wakeupGuarded_lost :
    (atMachine idleEnv).Run gsmdInit lateRun ((atMachine idleEnv).after gsmdInit lateRun) ∧
      ¬ WakeupGuarded ((atMachine idleEnv).after gsmdInit lateRun) := by
  refine ⟨Machine.Checks.runWhile (by decide), fun h => ?_⟩
  have hguard := h.guarded (wakeupAtcmd.queued 1) (by decide) rfl
  revert hguard
  decide

end SystemTestSuite.GsmDaemon
