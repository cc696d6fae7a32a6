import SystemTestSuite.GsmDaemon.FinalResult
import SystemTestSuite.Library.Machine

/-!
The AT layer as a machine: what reaches it from clients, from the UART and from the timers, in
any order.
-/

namespace SystemTestSuite.GsmDaemon

open Library

variable {κ ω : Type}

inductive Event (κ : Type) where
  | submit (cmd : FilledAtcmd κ)
  | cancel (cmd : FilledAtcmd κ)
  | writable (rc : WriteRc) (crDone : Bool)
  | line (buf : Bytes)
  | prompt
  | expire (tmr : ℕ)

def Event.IsCancel : Event κ → Prop
  | .cancel _ => True
  | _ => False

instance : (e : Event κ) → Decidable e.IsCancel
  | .cancel _ => .isTrue trivial
  | .submit _ | .writable _ _ | .line _ | .prompt | .expire _ => .isFalse id

def WriteRc.Within : WriteRc → ℕ → Prop
  | .error, _ => True
  | .wrote n, len => n ≤ len

/-- `select` reports the UART writable only when asked to, `write` takes no more than it is given,
and only registered timers expire. -/
def Enabled (g : Gsmd κ ω) : Event κ → Prop
  | .writable rc _ => g.fdWrite = true ∧ ∀ pos ∈ g.pendingAtcmds.head?, rc.Within pos.lineLen
  | .expire tmr => tmr ∈ g.timers
  | _ => True

instance : (rc : WriteRc) → (len : ℕ) → Decidable (rc.Within len)
  | .error, _ => .isTrue trivial
  | .wrote n, len => inferInstanceAs (Decidable (n ≤ len))

instance (g : Gsmd κ ω) : (e : Event κ) → Decidable (Enabled g e)
  | .writable _ _ => inferInstanceAs (Decidable (_ ∧ _))
  | .expire _ => inferInstanceAs (Decidable (_ ∈ _))
  | .submit _ | .cancel _ | .line _ | .prompt => .isTrue trivial

def next (env : Env κ ω) (g : Gsmd κ ω) : Event κ → Gsmd κ ω
  | .submit cmd => atcmdSubmit g cmd
  | .cancel cmd => (cancelAtcmd env g cmd).2
  | .writable rc crDone => atcmdSelectWrite g rc crDone
  | .line buf => (mlParse env g buf).2
  | .prompt => atcmdPrompt g
  | .expire tmr => timerExpire g tmr

def atMachine (env : Env κ ω) : Machine (Gsmd κ ω) (Event κ) :=
  ⟨AtcmdInit, Enabled, next env⟩

def uncancelled (env : Env κ ω) : Machine (Gsmd κ ω) (Event κ) :=
  (atMachine env).restrict (¬ ·.IsCancel)

instance (env : Env κ ω) (g : Gsmd κ ω) (e : Event κ) : Decidable ((atMachine env).enabled g e) :=
  inferInstanceAs (Decidable (Enabled g e))

instance (env : Env κ ω) (g : Gsmd κ ω) (e : Event κ) :
    Decidable ((uncancelled env).enabled g e) :=
  inferInstanceAs (Decidable (Enabled g e ∧ ¬ e.IsCancel))

def idleEnv : Env Unit Unit where
  extChars := ascii "%@"
  unsolicit := []
  callback _ world _ _ := ⟨0, world, []⟩
  scribble _ text := text
  initsettings := filledText (ascii "ATZ") (some ())
  generateEventFromCme world _ := world
  generateEventFromCms world _ := world

def gsmdInit : Gsmd Unit Unit where
  v0 := false
  interpreterReady := true
  fdWrite := false
  pendingAtcmds := []
  busyAtcmds := []
  mlbuf := Memory.zero
  mlbufLen := 0
  mlunsolicited := false
  wakeupTimer := none
  timers := []
  world := ()
  serial := 0
  log := []

theorem gsmdInit_init : AtcmdInit gsmdInit := ⟨rfl, rfl, rfl, rfl, rfl, rfl, rfl, rfl⟩

def skipped (pos : GsmdAtcmd κ) (n : ℕ) : ℕ :=
  if strchr pos.unsent LF = none ∨ n + 1 = pos.lineLen then n + 2 else n + 1

def written (pos : GsmdAtcmd κ) (n : ℕ) : GsmdAtcmd κ :=
  { pos with buflen := pos.buflen - skipped pos n, cur := pos.cur + skipped pos n }

def writeActs (pos : GsmdAtcmd κ) (n : ℕ) (crDone : Bool) : List (Act κ) :=
  .write pos.serial pos.cur ((pos.buf.drop pos.cur).take (n + 1)) ::
    if crDone then [.writeCr] else []

theorem written_pos (pos : GsmdAtcmd κ) (n : ℕ) : 0 < (written pos n).cur := by
  have hskip : 0 < skipped pos n := by
    unfold skipped
    split_ifs <;> omega
  exact Nat.add_pos_right _ hskip

theorem atcmdSelectWrite_zero (g : Gsmd κ ω) (hready : g.interpreterReady = true)
    (crDone : Bool) : atcmdSelectWrite g (.wrote 0) crDone = g.atcmdWaitPendingQueue := by
  unfold atcmdSelectWrite
  rw [if_pos hready]
  cases g.pendingAtcmds <;> rfl

theorem atcmdSelectWrite_wrote (g : Gsmd κ ω) {pos : GsmdAtcmd κ} {rest : List (GsmdAtcmd κ)}
    (hready : g.interpreterReady = true) (hp : g.pendingAtcmds = pos :: rest) (n : ℕ)
    (crDone : Bool) :
    atcmdSelectWrite g (.wrote (n + 1)) crDone =
      if (written pos n).buflen = 0 then
        { g with
          pendingAtcmds := rest
          busyAtcmds := g.busyAtcmds ++ [written pos n]
          fdWrite := false
          log := g.log ++ writeActs pos n crDone }
      else
        { g with
          pendingAtcmds := written pos n :: rest
          fdWrite := g.fdWrite && decide (skipped pos n < pos.lineLen)
          log := g.log ++ writeActs pos n crDone } := by
  unfold atcmdSelectWrite
  rw [if_pos hready, hp]
  dsimp only
  change (if (written pos n).buflen = 0 then _ else if skipped pos n < pos.lineLen then _ else _) = _
  by_cases hb : (written pos n).buflen = 0
  · rw [if_pos hb, if_pos hb]
    cases crDone <;> simp [Gsmd.emit, Gsmd.atcmdWaitPendingQueue, writeActs, written, skipped]
  · rw [if_neg hb, if_neg hb]
    by_cases hs : skipped pos n < pos.lineLen
    · rw [if_pos hs]
      cases crDone <;> simp [Gsmd.emit, writeActs, hs] <;> rfl
    · rw [if_neg hs]
      cases crDone <;> simp [Gsmd.emit, Gsmd.atcmdWaitPendingQueue, writeActs, hs] <;> rfl

theorem atcmdSelectWrite_cases (g : Gsmd κ ω) (rc : WriteRc) (crDone : Bool) :
    atcmdSelectWrite g rc crDone = g ∨
      (g.pendingAtcmds = [] ∨ rc = .wrote 0) ∧ g.interpreterReady = true ∧
        atcmdSelectWrite g rc crDone = g.atcmdWaitPendingQueue ∨
      ∃ pos rest n, g.interpreterReady = true ∧ g.pendingAtcmds = pos :: rest ∧
        rc = .wrote (n + 1) := by
  by_cases hready : g.interpreterReady = true
  · cases hp : g.pendingAtcmds with
    | nil => exact Or.inr (Or.inl (by simp [atcmdSelectWrite, hready, hp]))
    | cons pos rest =>
      cases rc with
      | error => exact Or.inl (by simp [atcmdSelectWrite, hready, hp])
      | wrote n =>
        cases n with
        | zero => exact Or.inr (Or.inl (by simp [atcmdSelectWrite, hready, hp]))
        | succ n => exact Or.inr (Or.inr ⟨pos, rest, n, hready, rfl, rfl⟩)
  · exact Or.inl (if_neg hready)

def ExpiresOn (g : Gsmd κ ω) (tmr : ℕ) (cmd : GsmdAtcmd κ) : Prop :=
  g.wakeupTimer = some tmr ∧ g.busyAtcmds.head? = some cmd ∧ cmd.buf.head? = some SP

theorem timerExpire_cases (g : Gsmd κ ω) (tmr : ℕ) :
    (g.wakeupTimer ≠ some tmr ∧
        timerExpire g tmr = { g with timers := g.timers.erase tmr }) ∨
      (g.wakeupTimer = some tmr ∧ (∀ cmd, ¬ ExpiresOn g tmr cmd) ∧
        timerExpire g tmr = { g with timers := g.timers.erase tmr, wakeupTimer := none }) ∨
      ∃ cmd busy, ExpiresOn g tmr cmd ∧ g.busyAtcmds = cmd :: busy ∧
        timerExpire g tmr =
          { g with
            timers := g.timers.erase tmr
            wakeupTimer := none
            busyAtcmds := busy
            fdWrite := g.fdWrite || (busy.isEmpty && !g.pendingAtcmds.isEmpty)
            log := g.log ++ [.discard cmd.serial] } := by
  unfold timerExpire wakeupTimeout
  by_cases ht : g.wakeupTimer = some tmr
  · right
    cases hb : g.busyAtcmds with
    | nil =>
      exact Or.inl ⟨ht, by simp [ExpiresOn, hb], by simp [ht]⟩
    | cons cmd busy =>
      by_cases hs : cmd.buf.head? = some SP
      · refine Or.inr ⟨cmd, busy, ⟨ht, by simp [hb], hs⟩, rfl, ?_⟩
        cases busy <;> cases g.pendingAtcmds <;>
          simp [ht, hs, Gsmd.emit, Gsmd.atcmdWakePendingQueue]
      · exact Or.inl ⟨ht, by simp [ExpiresOn, hb, hs], by simp [ht, hs]⟩
  · exact Or.inl ⟨ht, if_pos ht⟩

end SystemTestSuite.GsmDaemon
