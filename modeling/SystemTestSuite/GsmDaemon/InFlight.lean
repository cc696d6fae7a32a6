import SystemTestSuite.GsmDaemon.QueueEffects

namespace SystemTestSuite.GsmDaemon

open Library

variable {κ ω : Type}

def Begins (g : Gsmd κ ω) : Event κ → Prop
  | .writable (.wrote (_ + 1)) _ =>
    g.interpreterReady = true ∧ ∃ pos ∈ g.pendingAtcmds.head?, pos.cur = 0
  | _ => False

def OneInFlight (g : Gsmd κ ω) : Prop :=
  g.busyAtcmds.length ≤ 1 ∧ ∀ e, Enabled g e → Begins g e → g.busyAtcmds = []

/-- While a command executes, no command joins an empty `pending_atcmds`, unless the line ends
the executing one, and no prompt comes when another command waits. -/
def KeepsTurn (env : Env κ ω) (g : Gsmd κ ω) (e : Event κ) : Prop :=
  g.busyAtcmds = [] ∨
    match e with
    | .submit _ => g.pendingAtcmds ≠ []
    | .line buf => g.pendingAtcmds ≠ [] ∨ finalResult env g buf ≠ none ∨
        (mlParse env g buf).2.pendingAtcmds = []
    | .prompt => g.pendingAtcmds = []
    | _ => True

structure Turn (g : Gsmd κ ω) : Prop where
  busy : g.busyAtcmds.length ≤ 1
  fdWrite : g.fdWrite = true → g.busyAtcmds = [] ∨ g.pendingAtcmds = []

namespace Turn

variable {g g' : Gsmd κ ω}

theorem tail (h : Turn g) : g.busyAtcmds.tail = [] := by
  apply List.eq_nil_of_length_eq_zero
  have hlen := h.busy
  rw [List.length_tail]
  omega

theorem queued (h : Turn g) {new : List (GsmdAtcmd κ)} (hq : Queued new g g')
    (hturn : g.busyAtcmds = [] ∨ g.pendingAtcmds ≠ [] ∨ g'.pendingAtcmds = []) : Turn g' := by
  refine ⟨hq.busy ▸ h.busy, fun hw => ?_⟩
  rw [hq.busy]
  rcases hturn with hb | hp | hp
  · exact Or.inl hb
  · have hsame : g'.fdWrite = g.fdWrite := by
      rw [hq.fdWrite, List.isEmpty_eq_false_iff.mpr hp]
      simp
    exact (h.fdWrite (hsame ▸ hw)).imp_right (absurd · hp)
  · exact Or.inr hp

theorem unqueued (h : Turn g) {new : List (GsmdAtcmd κ)} (hq : Unqueued new g g') : Turn g' := by
  have hb : g'.busyAtcmds = [] := hq.busy.trans h.tail
  exact ⟨by simp [hb], fun _ => Or.inl hb⟩

theorem line (h : Turn g) (env : Env κ ω) (buf : Bytes) (hturn : KeepsTurn env g (.line buf)) :
    Turn (mlParse env g buf).2 := by
  cases hr : finalResult env g buf with
  | none =>
    obtain ⟨new, hq⟩ := (mlParse_info env g hr).queued
    apply h.queued hq
    exact hturn.imp_right (Or.imp_right (Or.resolve_left · (by simp [hr])))
  | some r =>
    rw [mlParse_final env g hr]
    rcases finalCb_cases env g buf r.1 r.2 with heq | hf
    · rwa [heq]
    · obtain ⟨new, hq⟩ := hf.unqueued
      exact h.unqueued hq

theorem write (h : Turn g) (hw : g.fdWrite = true) (rc : WriteRc) (crDone : Bool) :
    Turn (atcmdSelectWrite g rc crDone) := by
  rcases atcmdSelectWrite_cases g rc crDone with heq | ⟨_, _, heq⟩ | ⟨pos, rest, n, hr, hp, rfl⟩
  · rwa [heq]
  · rw [heq]
    exact ⟨h.busy, fun hw' => by cases hw'⟩
  · have hb : g.busyAtcmds = [] := (h.fdWrite hw).resolve_right (by simp [hp])
    rw [atcmdSelectWrite_wrote g hr hp]
    split_ifs
    · exact ⟨by simp [hb], fun hw' => by cases hw'⟩
    · exact ⟨by simp [hb], fun _ => Or.inl hb⟩

theorem expire (h : Turn g) (tmr : ℕ) : Turn (timerExpire g tmr) := by
  rcases timerExpire_cases g tmr with ⟨_, heq⟩ | ⟨_, _, heq⟩ | ⟨cmd, busy, _, hb, heq⟩
  · rw [heq]
    exact ⟨h.busy, h.fdWrite⟩
  · rw [heq]
    exact ⟨h.busy, h.fdWrite⟩
  · have hnil : busy = [] := by simpa [hb] using h.tail
    rw [heq]
    exact ⟨by simp [hnil], fun _ => Or.inl hnil⟩

theorem next (h : Turn g) (env : Env κ ω) {e : Event κ} (he : (uncancelled env).enabled g e)
    (hturn : KeepsTurn env g e) : Turn (next env g e) := by
  cases e with
  | submit cmd =>
    obtain ⟨first, serial, hq⟩ := atcmdSubmit_queued g cmd
    exact h.queued hq (hturn.imp_right Or.inl)
  | cancel cmd => exact absurd trivial he.2
  | writable rc crDone => exact h.write he.1.1 rc crDone
  | line buf => exact h.line env buf hturn
  | prompt => exact ⟨h.busy, fun _ => hturn⟩
  | expire tmr => exact h.expire tmr

theorem oneInFlight (h : Turn g) : OneInFlight g := by
  refine ⟨h.busy, fun e he hb => ?_⟩
  match e, hb with
  | .writable (.wrote (n + 1)) crDone, ⟨_, pos, hpos, _⟩ =>
    apply (h.fdWrite he.1).resolve_right
    intro hp
    simp [hp] at hpos

end Turn

theorem oneInFlight_of_keepsTurn (env : Env κ ω) {g : Gsmd κ ω}
    (h : (uncancelled env).ReachableWhile (KeepsTurn env) g) : OneInFlight g := by
  apply Turn.oneInFlight
  refine h.invariant ?_ (fun t e ht he hok => ht.next env he hok)
  intro s hs
  exact ⟨by simp [hs.busy], fun _ => Or.inl hs.busy⟩

theorem overtakes_of_not_keepsTurn (env : Env κ ω) {g : Gsmd κ ω} {e : Event κ}
    (hturn : ¬ KeepsTurn env g e) :
    (next env g e).fdWrite = true ∧ (next env g e).busyAtcmds ≠ [] ∧
      (next env g e).pendingAtcmds ≠ [] := by
  have hqueued {g' : Gsmd κ ω} {new : List (GsmdAtcmd κ)} (hq : Queued new g g')
      (hb : g.busyAtcmds ≠ []) (hp : g.pendingAtcmds = []) (hp' : g'.pendingAtcmds ≠ []) :
      g'.fdWrite = true ∧ g'.busyAtcmds ≠ [] ∧ g'.pendingAtcmds ≠ [] := by
    have hnew : new ≠ [] := by simpa [hq.pending, hp] using hp'
    exact ⟨by simp [hq.fdWrite, hp, hnew], hq.busy ▸ hb, hp'⟩
  cases e with
  | submit cmd =>
    simp only [KeepsTurn, not_or, ne_eq, not_not] at hturn
    obtain ⟨first, serial, hq⟩ := atcmdSubmit_queued g cmd
    exact hqueued hq hturn.1 hturn.2 (by simp [next, hq.pending])
  | line buf =>
    simp only [KeepsTurn, not_or, ne_eq, not_not] at hturn
    obtain ⟨hb, hp, hr, hp'⟩ := hturn
    obtain ⟨new, hq⟩ := (mlParse_info env g hr).queued
    exact hqueued hq hb hp hp'
  | prompt =>
    simp only [KeepsTurn, not_or] at hturn
    exact ⟨rfl, hturn.1, hturn.2⟩
  | _ => exact absurd (Or.inr trivial) hturn

instance (env : Env κ ω) (g : Gsmd κ ω) : (e : Event κ) → Decidable (KeepsTurn env g e)
  | .submit _ => inferInstanceAs (Decidable (_ ∨ _))
  | .line _ => inferInstanceAs (Decidable (_ ∨ _ ∨ _ ∨ _))
  | .prompt => inferInstanceAs (Decidable (_ ∨ _))
  | .cancel _ | .writable _ _ | .expire _ => inferInstanceAs (Decidable (_ ∨ True))

def overtakingRun : List (Event Unit) :=
  [.submit (filledText (ascii "ATA") (some ())), .writable (.wrote 1) true, .line (ascii "OK"),
    .writable (.wrote 3) true, .submit (filledText (ascii "ATH") (some ())),
    .writable (.wrote 1) true]

theorem oneInFlight_of_keepsTurn_ata :
    OneInFlight ((uncancelled idleEnv).after gsmdInit (overtakingRun.take 4)) :=
  oneInFlight_of_keepsTurn idleEnv
    ⟨gsmdInit, overtakingRun.take 4, gsmdInit_init, Machine.Checks.runWhile (by decide)⟩

theorem oneInFlight_overtaken :
    (uncancelled idleEnv).Run gsmdInit overtakingRun
        ((uncancelled idleEnv).after gsmdInit overtakingRun) ∧
      ¬ OneInFlight ((uncancelled idleEnv).after gsmdInit overtakingRun) := by
  refine ⟨Machine.Checks.runWhile (by decide), fun h => ?_⟩
  have hlen := h.1
  revert hlen
  decide

end SystemTestSuite.GsmDaemon
