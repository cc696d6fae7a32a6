import SystemTestSuite.GsmDaemon.FinalCalls

namespace SystemTestSuite.GsmDaemon

open Library

variable {κ ω : Type}

def QueueOrder (g : Gsmd κ ω) : Prop :=
  (pipeline g).InOrder ∧ (pipeline g).dropped ⊆ wakeups g ∧ FinalCalled g.log

/-- What the wakeup timer discards was put in the queue by `atcmd_wakeup_modem`. -/
def DiscardsWakeup (g : Gsmd κ ω) (e : Event κ) : Prop :=
  ∀ tmr cmd, e = .expire tmr → ExpiresOn g tmr cmd → cmd.cb = some .nullWakeupCb

theorem next_refines (env : Env κ ω) {g : Gsmd κ ω} {e : Event κ} (h : Ledger g)
    (hc : ¬ e.IsCancel) :
    Ledger (next env g e) ∧ Pipeline.Steps (pipeline g) (pipeline (next env g e)) := by
  by_cases hexp : ∃ tmr cmd, e = .expire tmr ∧ ExpiresOn g tmr cmd
  · obtain ⟨tmr, cmd, rfl, hon⟩ := hexp
    rcases timerExpire_cases g tmr with ⟨ht, _⟩ | ⟨_, hno, _⟩ | ⟨cmd, busy, _, hb, heq⟩
    · exact absurd hon.1 ht
    · exact absurd hon (hno cmd)
    · obtain ⟨hledger, hstep, _⟩ := h.discard hb heq
      exact ⟨hledger, .single hstep⟩
  · have hadv := h.advances env hc (fun tmr cmd he hon => hexp ⟨tmr, cmd, he, hon⟩)
    exact ⟨hadv.ledger, hadv.steps⟩

theorem next_discards (env : Env κ ω) {g : Gsmd κ ω} {tmr : ℕ} {cmd : GsmdAtcmd κ} (h : Ledger g)
    (hon : ExpiresOn g tmr cmd) :
    (pipeline (next env g (.expire tmr))).dropped = (pipeline g).dropped ++ [cmd.serial] ∧
      wakeups (next env g (.expire tmr)) = wakeups g ∧
      (cmd.serial ∈ wakeups g ↔ cmd.cb = some .nullWakeupCb) := by
  rcases timerExpire_cases g tmr with ⟨ht, _⟩ | ⟨_, hno, _⟩ | ⟨cmd', busy, hon', hb, heq⟩
  · exact absurd hon.1 ht
  · exact absurd hon (hno cmd)
  · obtain rfl : cmd' = cmd := Option.some.inj (hon'.2.1.symm.trans hon.2.1)
    obtain ⟨_, _, hdropped, hwake⟩ := h.discard hb heq
    exact ⟨hdropped, hwake, h.tagged cmd' (by simp [hb])⟩

theorem queueOrder_iff_discardsWakeup (env : Env κ ω) {g g' : Gsmd κ ω} {es : List (Event κ)}
    (hinit : AtcmdInit g) (hrun : (uncancelled env).Run g es g') :
    (uncancelled env).Throughout QueueOrder g es ↔
      (uncancelled env).RunWhile DiscardsWakeup g es g' := by
  refine Machine.Run.throughout_iff
    (I := fun g => Ledger g ∧ (pipeline g).dropped ⊆ wakeups g ∧ Recorded g) ?_ ?_ ?_ hrun ?_
  · rintro t e ⟨hledger, hdropped, hrecorded⟩ ⟨_, hc⟩ hok
    refine ⟨(next_refines env hledger hc).1, ?_, hrecorded.next env hc⟩
    by_cases hexp : ∃ tmr cmd, e = .expire tmr ∧ ExpiresOn t tmr cmd
    · obtain ⟨tmr, cmd, rfl, hon⟩ := hexp
      obtain ⟨hd, hw, htag⟩ := next_discards env hledger hon
      have hmem : cmd.serial ∈ wakeups t := htag.mpr (hok tmr cmd rfl hon)
      change (pipeline (next env t (.expire tmr))).dropped ⊆ wakeups (next env t (.expire tmr))
      rw [hd, hw]
      exact List.append_subset.mpr ⟨hdropped, by simpa using hmem⟩
    · have hadv := hledger.advances env hc (fun tmr cmd he hon => hexp ⟨tmr, cmd, he, hon⟩)
      change (pipeline (next env t e)).dropped ⊆ wakeups (next env t e)
      rw [hadv.dropped]
      exact fun s hs => hadv.wakeups (hdropped hs)
  · exact fun t ⟨hledger, hdropped, hrecorded⟩ =>
      ⟨hledger.order.inOrder, hdropped, hrecorded.called⟩
  · rintro t e ⟨hledger, _⟩ _ hok ⟨_, hsub, _⟩
    apply hok
    rintro tmr cmd rfl hon
    obtain ⟨hd, hw, htag⟩ := next_discards env hledger hon
    change (pipeline (next env t (.expire tmr))).dropped ⊆ wakeups (next env t (.expire tmr)) at hsub
    rw [hd, hw] at hsub
    exact htag.mp (hsub (by simp))
  · refine ⟨ledger_init hinit, ?_, recorded_init hinit⟩
    simp [pipeline, hinit.log]

/-- The passthrough text " X" is sent while the modem is slow: the next submit starts a timer. -/
def spacedRun : List (Event Unit) :=
  [.submit (filledText (ascii " X") (some ())), .writable (.wrote 1) true, .line (ascii "OK"),
    .writable (.wrote 2) true, .submit (filledText (ascii "AT") (some ())), .expire 3]

theorem queueOrder_iff_discardsWakeup_spaced :
    (uncancelled idleEnv).Throughout QueueOrder gsmdInit spacedRun ↔
      (uncancelled idleEnv).RunWhile DiscardsWakeup gsmdInit spacedRun
        ((uncancelled idleEnv).after gsmdInit spacedRun) :=
  queueOrder_iff_discardsWakeup idleEnv gsmdInit_init (Machine.Checks.runWhile (by decide))

theorem queueOrder_discards_client :
    (uncancelled idleEnv).Run gsmdInit spacedRun ((uncancelled idleEnv).after gsmdInit spacedRun) ∧
      ¬ QueueOrder ((uncancelled idleEnv).after gsmdInit spacedRun) := by
  refine ⟨Machine.Checks.runWhile (by decide), fun h => ?_⟩
  have hsub := h.2.1
  revert hsub
  decide

end SystemTestSuite.GsmDaemon
