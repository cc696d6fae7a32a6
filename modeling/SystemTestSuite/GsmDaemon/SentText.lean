import SystemTestSuite.GsmDaemon.WriteInterest
import SystemTestSuite.Library.LineEnds

namespace SystemTestSuite.GsmDaemon

open Library

variable {κ ω : Type} {env : Env κ ω} {g g' g'' : Gsmd κ ω}

def outputStep (serial : ℕ) (st : Bool × Bytes) : Act κ → Bool × Bytes
  | .write s _ bytes => (s == serial, if s = serial then st.2 ++ bytes else st.2)
  | .writeCr => (st.1, if st.1 then st.2 ++ [CR] else st.2)
  | _ => st

def output (serial : ℕ) (log : List (Act κ)) : Bytes := (log.foldl (outputStep serial) (false, [])).2

def GsmdAtcmd.text (cmd : GsmdAtcmd κ) : Bytes := cstr cmd.buf

def GsmdAtcmd.lines (cmd : GsmdAtcmd κ) : Bytes := endedLines LF CR cmd.text

structure WritesText (g : Gsmd κ ω) : Prop where
  pending : ∀ c ∈ g.pendingAtcmds, output c.serial g.log = c.lines.take c.cur
  busy : ∀ c ∈ g.busyAtcmds, output c.serial g.log = c.lines

/-- The `n + 1` bytes are in the text; where the byte behind them is skipped it ends a line and the
CR is written, elsewhere the CR is not. -/
def KeepsLines (pos : GsmdAtcmd κ) (n : ℕ) (crDone : Bool) : Prop :=
  pos.cur + (n + 1) ≤ pos.text.length ∧
    if strchr pos.unsent LF = none ∨ n + 1 = pos.lineLen then
      crDone = true ∧ EndsLine LF CR pos.text (pos.cur + (n + 1))
    else crDone = false

instance (pos : GsmdAtcmd κ) (n : ℕ) (crDone : Bool) : Decidable (KeepsLines pos n crDone) :=
  inferInstanceAs (Decidable (_ ∧ _))

def WritesLines (g : Gsmd κ ω) : Event κ → Prop
  | .writable (.wrote (n + 1)) crDone =>
    g.interpreterReady = true → ∀ pos ∈ g.pendingAtcmds.head?, KeepsLines pos n crDone
  | _ => True

def Stopped (g : Gsmd κ ω) : Prop := ∃ pos ∈ g.pendingAtcmds.head?, Awaits g pos ∧ 0 < pos.lineLen

def BeginsPrompted (g : Gsmd κ ω) : Prop :=
  ∀ n crDone, Enabled g (.writable (.wrote (n + 1)) crDone) → g.interpreterReady = true →
    ∀ pos ∈ g.pendingAtcmds.head?, ¬ Awaits g pos

def SendsLines (g : Gsmd κ ω) : Prop := WritesText g ∧ BeginsPrompted g

/-- The last executing command is not completed or discarded while another one waits for a
prompt. -/
def HoldsLine (env : Env κ ω) (g : Gsmd κ ω) : Event κ → Prop
  | .line buf => finalResult env g buf ≠ none → g.busyAtcmds.length = 1 → ¬ Stopped g
  | .expire tmr => (∃ cmd, ExpiresOn g tmr cmd) → g.busyAtcmds.length = 1 → ¬ Stopped g
  | _ => True

def Act.IsWire : Act κ → Prop
  | .write .. | .writeCr | .prompt => True
  | _ => False

theorem output_append (serial : ℕ) (log : List (Act κ)) {acts : List (Act κ)}
    (h : ∀ a ∈ acts, ¬ a.IsWire) : output serial (log ++ acts) = output serial log := by
  unfold output
  rw [List.foldl_append]
  generalize log.foldl (outputStep serial) (false, []) = st
  induction acts with
  | nil => rfl
  | cons a acts ih =>
    have ha := h a List.mem_cons_self
    have hrest := ih (fun a ha => h a (List.mem_cons_of_mem _ ha))
    cases a <;> first | exact hrest | exact absurd trivial ha

theorem output_write (log : List (Act κ)) (pos : GsmdAtcmd κ) (n : ℕ) (crDone : Bool) :
    output pos.serial (log ++ writeActs pos n crDone) =
      output pos.serial log ++ (pos.buf.drop pos.cur).take (n + 1) ++
        (if crDone then [CR] else []) := by
  cases crDone <;> simp [output, writeActs, outputStep]

theorem output_other (log : List (Act κ)) {pos : GsmdAtcmd κ} {serial : ℕ} (h : pos.serial ≠ serial)
    (n : ℕ) (crDone : Bool) :
    output serial (log ++ writeActs pos n crDone) = output serial log := by
  cases crDone <;> simp [output, writeActs, outputStep, h]

structure Distinct (g : Gsmd κ ω) : Prop where
  nodup : ((g.pendingAtcmds ++ g.busyAtcmds).map GsmdAtcmd.serial).Nodup
  lt : ∀ c ∈ g.pendingAtcmds ++ g.busyAtcmds, c.serial < g.serial

def Unsent (c : GsmdAtcmd κ) : Prop := c.cur = 0 ∧ c.buflen = c.buf.length ∧ 0 ∈ c.buf

structure Shifts (g g' : Gsmd κ ω) : Prop where
  pending : ∀ c ∈ g'.pendingAtcmds, c ∈ g.pendingAtcmds ∨
    g.serial ≤ c.serial ∧ c.serial < g'.serial ∧ Unsent c
  busy : ∀ c ∈ g'.busyAtcmds, c ∈ g.busyAtcmds
  distinct : Distinct g → Distinct g'
  serial : g.serial ≤ g'.serial
  log : ∃ acts, g'.log = g.log ++ acts ∧ ∀ a ∈ acts, ¬ a.IsWire

theorem Shifts.trans (h : Shifts g g') (k : Shifts g' g'') : Shifts g g'' := by
  obtain ⟨acts, hlog, hacts⟩ := h.log
  obtain ⟨acts', hlog', hacts'⟩ := k.log
  refine ⟨?_, fun c hc => h.busy c (k.busy c hc), fun hd => k.distinct (h.distinct hd),
    h.serial.trans k.serial, acts ++ acts', ?_, ?_⟩
  · intro c hc
    rcases k.pending c hc with hold | ⟨hge, hlt, hunsent⟩
    · rcases h.pending c hold with hold | ⟨hge, hlt, hunsent⟩
      · exact Or.inl hold
      · exact Or.inr ⟨hge, hlt.trans_le k.serial, hunsent⟩
    · exact Or.inr ⟨h.serial.trans hge, hlt, hunsent⟩
  · rw [hlog', hlog, List.append_assoc]
  · intro a ha
    rcases List.mem_append.mp ha with ha | ha
    · exact hacts a ha
    · exact hacts' a ha

theorem Shifts.same (hp : g'.pendingAtcmds = g.pendingAtcmds) (hb : g'.busyAtcmds = g.busyAtcmds)
    (hs : g.serial ≤ g'.serial) {acts : List (Act κ)} (hlog : g'.log = g.log ++ acts)
    (hacts : ∀ a ∈ acts, ¬ a.IsWire) : Shifts g g' := by
  refine ⟨?_, ?_, ?_, hs, acts, hlog, hacts⟩
  · rw [hp]
    exact fun c hc => Or.inl hc
  · rw [hb]
    exact fun c hc => hc
  · rintro ⟨hnodup, hlt⟩
    refine ⟨by rwa [hp, hb], ?_⟩
    rw [hp, hb]
    exact fun c hc => (hlt c hc).trans_le hs

theorem Act.IsReport.not_wire {a : Act κ} (h : a.IsReport) : ¬ a.IsWire := by
  cases a <;> first | exact id | exact h.elim

theorem Quiet.shifts (h : Quiet g g') : Shifts g g' := by
  obtain ⟨acts, hlog, hreport⟩ := h.log
  exact Shifts.same h.pending h.busy h.serial.ge hlog (fun a ha => (hreport a ha).not_wire)

theorem nullWakeupCb_shifts (g : Gsmd κ ω) : Shifts g (nullWakeupCb g) := by
  obtain ⟨hp, hb, _, hs, hl, _⟩ := nullWakeupCb_queues g
  have hlog : (nullWakeupCb g).log = g.log ++ [] := by rw [hl, List.append_nil]
  exact Shifts.same hp hb hs.ge hlog (List.forall_mem_nil _)

theorem unsent_queued (c : FilledAtcmd (AtcmdCb κ)) (serial : ℕ) : Unsent (c.queued serial) :=
  ⟨rfl, rfl, List.mem_of_getLast? c.terminated⟩

theorem distinct_new {c : GsmdAtcmd κ} (h : Distinct g)
    (hserial : c.serial = g.serial) (hs : g'.serial = g.serial + 1)
    (hperm : (g'.pendingAtcmds ++ g'.busyAtcmds).Perm (c :: (g.pendingAtcmds ++ g.busyAtcmds))) :
    Distinct g' := by
  constructor
  · rw [(hperm.map GsmdAtcmd.serial).nodup_iff, List.map_cons, List.nodup_cons]
    refine ⟨?_, h.nodup⟩
    intro hmem
    obtain ⟨c', hc', heq⟩ := List.mem_map.mp hmem
    have hlt := h.lt c' hc'
    omega
  · intro c' hc'
    rcases List.mem_cons.mp (hperm.mem_iff.mp hc') with rfl | hold
    · omega
    · have hlt := h.lt c' hold
      omega

theorem Shifts.new {c : FilledAtcmd (AtcmdCb κ)}
    (hp : ∀ d ∈ g'.pendingAtcmds, d ∈ g.pendingAtcmds ∨ d = c.queued g.serial)
    (hperm : (g'.pendingAtcmds ++ g'.busyAtcmds).Perm
      (c.queued g.serial :: (g.pendingAtcmds ++ g.busyAtcmds)))
    (hb : g'.busyAtcmds = g.busyAtcmds) (hs : g'.serial = g.serial + 1)
    (hlog : g'.log = g.log ++ [.submit g.serial c.cb c.buf]) : Shifts g g' := by
  refine ⟨?_, fun d hd => hb ▸ hd, fun hd => distinct_new hd rfl hs hperm, by omega, _, hlog, ?_⟩
  · intro d hd
    apply (hp d hd).imp_right
    rintro rfl
    refine ⟨le_rfl, ?_, unsent_queued c g.serial⟩
    rw [hs]
    exact Nat.lt_succ_self _
  · intro a ha
    rw [List.mem_singleton.mp ha]
    exact id

theorem enqueue_shifts (g : Gsmd κ ω) (c : FilledAtcmd (AtcmdCb κ)) : Shifts g (enqueue g c) := by
  apply Shifts.new (c := c)
  · intro d hd
    exact (List.mem_append.mp hd).imp_right List.mem_singleton.mp
  · change (g.pendingAtcmds ++ [c.queued g.serial] ++ g.busyAtcmds).Perm _
    rw [List.append_assoc]
    exact List.perm_middle
  · rfl
  · rfl
  · rfl

theorem atcmdSubmit_shifts (g : Gsmd κ ω) (c : FilledAtcmd κ) : Shifts g (atcmdSubmit g c) := by
  rw [atcmdSubmit_eq]
  split
  · have htimer : Shifts g (wakeupTimerStart g) :=
      Shifts.same rfl rfl (Nat.le_succ _) (List.append_nil _).symm (List.forall_mem_nil _)
    exact (htimer.trans (enqueue_shifts _ wakeupAtcmd)).trans (enqueue_shifts _ c.client)
  · exact enqueue_shifts g c.client

theorem Submits.shifts {woken : Prop} (h : Submits woken g g') : Shifts g g' := by
  induction h with
  | refl => exact (Quiet.refl g).shifts
  | quiet _ hq ih => exact ih.trans hq.shifts
  | submit c _ ih => exact ih.trans (atcmdSubmit_shifts _ c)
  | wakeup _ _ ih => exact ih.trans (nullWakeupCb_shifts _)

theorem Called.shifts {cmd : GsmdAtcmd κ} (h : Called cmd g g') : Shifts g g' := by
  unfold Called at h
  split at h
  · exact h.shifts
  · obtain ⟨g₀, h₀, h₁⟩ := h
    exact (h₀.shifts.trans (nullWakeupCb_shifts g₀)).trans h₁.shifts
  · exact h.shifts

theorem Shifts.tail (hp : g'.pendingAtcmds = g.pendingAtcmds)
    (hb : g'.busyAtcmds = g.busyAtcmds.tail) (hs : g'.serial = g.serial) {a : Act κ}
    (hlog : g'.log = g.log ++ [a]) (ha : ¬ a.IsWire) : Shifts g g' := by
  have hsub : (g'.pendingAtcmds ++ g'.busyAtcmds).Sublist (g.pendingAtcmds ++ g.busyAtcmds) := by
    rw [hp, hb]
    exact (List.Sublist.refl _).append (List.tail_sublist _)
  refine ⟨?_, ?_, ?_, hs.ge, [a], hlog, ?_⟩
  · rw [hp]
    exact fun c hc => Or.inl hc
  · rw [hb]
    exact fun c hc => List.mem_of_mem_tail hc
  · rintro ⟨hnodup, hlt⟩
    exact ⟨hnodup.sublist (hsub.map _), fun c hc => hs.symm ▸ hlt c (hsub.subset hc)⟩
  · intro b hb
    rwa [List.mem_singleton.mp hb]

theorem Finishes.shifts (h : Finishes g g') : Shifts g g' := by
  obtain ⟨cmd, busy, g₁, ret, hb, hc, -, rfl⟩ := h
  apply hc.shifts.trans
  rw [unlinkBusy_eq]
  exact Shifts.tail rfl rfl rfl rfl id

theorem cancelQueue_shifts (g : Gsmd κ ω) (cmd : FilledAtcmd κ) : Shifts g (cancelQueue g cmd) := by
  apply Shifts.new (c := cmd.client)
  · intro d hd
    exact (List.mem_cons.mp hd).symm
  · exact List.Perm.refl _
  · rfl
  · rfl
  · rfl

theorem timerExpire_shifts (g : Gsmd κ ω) (tmr : ℕ) : Shifts g (timerExpire g tmr) := by
  rcases timerExpire_cases g tmr with ⟨_, heq⟩ | ⟨_, _, heq⟩ | ⟨cmd, busy, _, hb, heq⟩
  · rw [heq]
    exact Shifts.same rfl rfl le_rfl (List.append_nil _).symm (List.forall_mem_nil _)
  · rw [heq]
    exact Shifts.same rfl rfl le_rfl (List.append_nil _).symm (List.forall_mem_nil _)
  · have htail : busy = g.busyAtcmds.tail := by rw [hb]; rfl
    rw [heq]
    exact Shifts.tail rfl htail rfl rfl id

theorem cancelAtcmd_shifts (env : Env κ ω) (g : Gsmd κ ω) (cmd : FilledAtcmd κ) :
    Shifts g (cancelAtcmd env g cmd).2 := by
  rcases cancelAtcmd_cases env g cmd with heq | hf
  · rw [heq]
    exact atcmdSubmit_shifts g cmd
  · exact (cancelQueue_shifts g cmd).trans hf.shifts

theorem mlParse_shifts (env : Env κ ω) (g : Gsmd κ ω) (buf : Bytes) :
    Shifts g (mlParse env g buf).2 := by
  rcases mlParse_cases env g buf with hs | ⟨_, hf⟩
  · exact hs.shifts
  · exact hf.shifts

end SystemTestSuite.GsmDaemon
