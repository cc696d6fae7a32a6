import SystemTestSuite.GsmDaemon.QueueEffects

namespace SystemTestSuite.GsmDaemon

open Library

variable {κ ω : Type}

def unprompted (serial : ℕ) (log : List (Act κ)) : Bool :=
  log.foldl (fun b a => match a with
    | .write s _ _ => b || s == serial
    | .prompt => false
    | _ => b) false

def Awaits (g : Gsmd κ ω) (pos : GsmdAtcmd κ) : Prop :=
  0 < pos.cur ∧ pos.buf[pos.cur - 1]? = some LF ∧ unprompted pos.serial g.log = true

instance (g : Gsmd κ ω) (pos : GsmdAtcmd κ) : Decidable (Awaits g pos) :=
  inferInstanceAs (Decidable (_ ∧ _ ∧ _))

def WriteInterest (g : Gsmd κ ω) : Prop :=
  g.interpreterReady = true → g.busyAtcmds = [] → ∀ pos ∈ g.pendingAtcmds.head?,
    ¬ Awaits g pos → g.fdWrite = true

/-- With no command executing, `write` does not return 0 for a command that could go on, and does
not leave exactly one byte of a last line behind. -/
def WritesOn (g : Gsmd κ ω) : Event κ → Prop
  | .writable rc _ => g.interpreterReady = true → g.busyAtcmds = [] →
      ∀ pos ∈ g.pendingAtcmds.head?,
        (rc = .wrote 0 → Awaits g pos) ∧
        ∀ n, rc = .wrote (n + 1) → strchr pos.unsent LF = none → n + 2 = pos.lineLen →
          pos.buf[pos.cur + n + 1]? = some LF
  | _ => True

def Interest (g : Gsmd κ ω) : Prop :=
  g.busyAtcmds = [] → ∀ pos ∈ g.pendingAtcmds.head?, ¬ Awaits g pos → g.fdWrite = true

theorem unprompted_append (serial : ℕ) (log : List (Act κ)) {acts : List (Act κ)}
    (h : ∀ a ∈ acts, ¬ a.IsTransfer) : unprompted serial (log ++ acts) = unprompted serial log := by
  unfold unprompted
  rw [List.foldl_append]
  generalize log.foldl _ false = b
  induction acts with
  | nil => rfl
  | cons a acts ih =>
    have ha := h a (by simp)
    have hrest := ih (fun a ha => h a (by simp [ha]))
    cases a <;> first | exact hrest | exact absurd trivial ha

theorem unprompted_writeActs (log : List (Act κ)) (pos : GsmdAtcmd κ) (n : ℕ) (crDone : Bool) :
    unprompted pos.serial (log ++ writeActs pos n crDone) = true := by
  cases crDone <;> simp [unprompted, writeActs]

theorem written_endline {pos : GsmdAtcmd κ} {n : ℕ} (h : strchr pos.unsent LF = some (n + 1)) :
    (written pos n).buf[(written pos n).cur - 1]? = some LF := by
  have hskip : skipped pos n = n + 2 := if_pos (Or.inr (by simp [GsmdAtcmd.lineLen, h]))
  have hbyte := cstr_getElem? (cstr_getElem? (strchr_getElem? h))
  rw [List.getElem?_drop] at hbyte
  simpa [written, hskip] using hbyte

namespace Interest

variable {g g' : Gsmd κ ω}

theorem queued (h : Interest g) {new : List (GsmdAtcmd κ)} (hq : Queued new g g') :
    Interest g' := by
  intro hb pos hpos hwait
  rw [hq.busy] at hb
  rw [hq.fdWrite]
  cases hp : g.pendingAtcmds with
  | nil =>
    rw [hq.pending, hp] at hpos
    cases new with
    | nil => simp at hpos
    | cons c cs => simp
  | cons c cs =>
    have hc : c = pos := by simpa [hq.pending, hp] using hpos
    obtain ⟨acts, hlog, hacts⟩ := hq.log
    have hwait' : ¬ Awaits g pos := by
      rwa [Awaits, hlog, unprompted_append pos.serial g.log hacts] at hwait
    simp [h hb pos (by simp [hp, hc]) hwait']

theorem unqueued {new : List (GsmdAtcmd κ)} (hq : Unqueued new g g') : Interest g' := by
  intro hb pos hpos _
  have hp : g.pendingAtcmds ++ new ≠ [] := by
    intro hnil
    simp [hq.pending, hnil] at hpos
  rw [hq.busy] at hb
  rw [hq.fdWrite, hb]
  simp [hp]

theorem write (h : Interest g) (hw : g.fdWrite = true) {rc : WriteRc} (crDone : Bool)
    (hrc : ∀ pos ∈ g.pendingAtcmds.head?, rc.Within pos.lineLen)
    (hok : WritesOn g (.writable rc crDone)) : Interest (atcmdSelectWrite g rc crDone) := by
  rcases atcmdSelectWrite_cases g rc crDone with heq | ⟨hor, hr, heq⟩ | ⟨pos, rest, n, hr, hp, rfl⟩
  · rwa [heq]
  · rw [heq]
    intro hb pos hpos hwait
    rcases hor with hp | hz
    · rw [show g.atcmdWaitPendingQueue.pendingAtcmds = [] from hp] at hpos
      cases hpos
    · exact absurd ((hok hr hb pos hpos).1 hz) hwait
  · rw [atcmdSelectWrite_wrote g hr hp]
    split_ifs with hlen
    · intro hb
      simp at hb
    · intro hb c hc hwait
      obtain rfl : written pos n = c := by simpa using hc
      have hle : n + 1 ≤ pos.lineLen := hrc pos (by simp [hp])
      have hprompt := unprompted_writeActs g.log pos n crDone
      have hcur : 0 < (written pos n).cur := written_pos pos n
      have hline : (written pos n).buf[(written pos n).cur - 1]? ≠ some LF :=
        fun hlf => hwait ⟨hcur, hlf, hprompt⟩
      cases hs : strchr pos.unsent LF with
      | some i =>
        have hi : pos.lineLen = i := by simp [GsmdAtcmd.lineLen, hs]
        have hne : n + 1 ≠ pos.lineLen := by
          rintro heq
          exact hline (written_endline (by rw [hs, heq, hi]))
        have hskip : skipped pos n = n + 1 := if_neg (by simp [hs, hne])
        simp [hw, hskip]
        omega
      | none =>
        have hskip : skipped pos n = n + 2 := if_pos (Or.inl hs)
        have hpos : pos.lineLen = pos.buflen - 1 := by simp [GsmdAtcmd.lineLen, hs]
        have hlen' : pos.buflen - (n + 2) ≠ 0 := by simpa [written, hskip] using hlen
        have hshort : n + 2 ≠ pos.lineLen := by
          intro heq
          have hlf := (hok hr hb pos (by simp [hp])).2 n rfl hs heq
          exact hline (by simpa [written, hskip, ← Nat.add_assoc] using hlf)
        simp [hw, hskip]
        omega

theorem cancel (h : Interest g) (env : Env κ ω) (cmd : FilledAtcmd κ) :
    Interest (cancelAtcmd env g cmd).2 := by
  rcases cancelAtcmd_cases env g cmd with heq | hf
  · obtain ⟨first, serial, hq⟩ := atcmdSubmit_queued g cmd
    exact heq ▸ h.queued hq
  · obtain ⟨new, hq⟩ := hf.unqueued
    exact unqueued hq

theorem line (h : Interest g) (env : Env κ ω) (buf : Bytes) : Interest (mlParse env g buf).2 := by
  rcases mlParse_cases env g buf with hs | ⟨_, hf⟩
  · obtain ⟨new, hq⟩ := hs.queued
    exact h.queued hq
  · obtain ⟨new, hq⟩ := hf.unqueued
    exact unqueued hq

theorem expire (h : Interest g) (tmr : ℕ) : Interest (timerExpire g tmr) := by
  rcases timerExpire_cases g tmr with ⟨_, heq⟩ | ⟨_, _, heq⟩ | ⟨cmd, busy, _, hb, heq⟩
  · exact heq ▸ h
  · exact heq ▸ h
  · rw [heq]
    intro hnil pos hpos _
    have hp : g.pendingAtcmds ≠ [] := by
      rintro hp
      simp [hp] at hpos
    have hnil' : busy = [] := hnil
    simp [hnil', hp]

theorem next (h : Interest g) (env : Env κ ω) {e : Event κ} (he : Enabled g e)
    (hok : WritesOn g e) : Interest (next env g e) := by
  cases e with
  | submit cmd =>
    obtain ⟨first, serial, hq⟩ := atcmdSubmit_queued g cmd
    exact h.queued hq
  | cancel cmd => exact h.cancel env cmd
  | writable rc crDone => exact h.write he.1 crDone he.2 hok
  | line buf => exact h.line env buf
  | prompt => exact fun _ _ _ _ => rfl
  | expire tmr => exact h.expire tmr

end Interest

theorem stalls_of_not_writesOn (env : Env κ ω) {g : Gsmd κ ω} {e : Event κ}
    (hok : ¬ WritesOn g e) : ¬ WriteInterest (next env g e) := by
  cases e with
  | writable rc crDone =>
    simp only [WritesOn, not_forall] at hok
    obtain ⟨hr, hb, pos, hpos, hok⟩ := hok
    rcases not_and_or.mp hok with hzero | hshort
    · obtain ⟨rfl, hwait⟩ := Classical.not_imp.mp hzero
      intro h
      rw [next, atcmdSelectWrite_zero g hr] at h
      cases h hr hb pos hpos hwait
    · simp only [not_forall] at hshort
      obtain ⟨n, rfl, hs, hn, hbyte⟩ := hshort
      obtain ⟨rest, hp⟩ := List.head?_eq_some_iff.mp hpos
      have hlen : pos.lineLen = pos.buflen - 1 := by simp [GsmdAtcmd.lineLen, hs]
      have hskip : skipped pos n = n + 2 := if_pos (Or.inl hs)
      have hleft : (written pos n).buflen ≠ 0 := by
        simp only [written, hskip]
        omega
      have hwait : (written pos n).buf[(written pos n).cur - 1]? ≠ some LF := by
        simpa [written, hskip, ← Nat.add_assoc] using hbyte
      intro h
      rw [next, atcmdSelectWrite_wrote g hr hp, if_neg hleft] at h
      have hw := h hr hb (written pos n) (by simp) (fun hawait => hwait hawait.2.1)
      simp [hskip, hn] at hw
  | _ => exact absurd trivial hok

theorem writeInterest_iff_writesOn (env : Env κ ω) {g g' : Gsmd κ ω} {es : List (Event κ)}
    (hinit : AtcmdInit g) (hrun : (atMachine env).Run g es g') :
    (atMachine env).Throughout WriteInterest g es ↔
      (atMachine env).RunWhile WritesOn g es g' := by
  refine Machine.Run.throughout_iff (I := Interest) ?_ ?_ ?_ hrun ?_
  · exact fun t e h he hok => h.next env he hok
  · exact fun t h _ => h
  · exact fun t e _ _ hok => stalls_of_not_writesOn env hok
  · intro _ pos hpos
    simp [hinit.pending] at hpos

def emptyTextRun : List (Event Unit) :=
  [.submit (filledText [] (some ())), .writable (.wrote 1) true, .line (ascii "OK"),
    .writable (.wrote 0) true]

theorem writeInterest_iff_writesOn_empty :
    (atMachine idleEnv).Throughout WriteInterest gsmdInit emptyTextRun ↔
      (atMachine idleEnv).RunWhile WritesOn gsmdInit emptyTextRun
        ((atMachine idleEnv).after gsmdInit emptyTextRun) :=
  writeInterest_iff_writesOn idleEnv gsmdInit_init (Machine.Checks.runWhile (by decide))

theorem writeInterest_stalled :
    (atMachine idleEnv).Run gsmdInit emptyTextRun
        ((atMachine idleEnv).after gsmdInit emptyTextRun) ∧
      ¬ WriteInterest ((atMachine idleEnv).after gsmdInit emptyTextRun) := by
  refine ⟨Machine.Checks.runWhile (by decide), ?_⟩
  unfold WriteInterest
  decide

end SystemTestSuite.GsmDaemon
