import SystemTestSuite.GsmDaemon.SentLines

namespace SystemTestSuite.GsmDaemon

open Library

variable {κ ω : Type} {g g' : Gsmd κ ω} {pos : GsmdAtcmd κ} {n : ℕ}

theorem Act.not_transfer {a : Act κ} (h : ¬ a.IsWire) : ¬ a.IsTransfer := by
  cases a <;> first | exact id | exact absurd trivial h

theorem Shifts.unprompted (h : Shifts g g') (serial : ℕ) :
    unprompted serial g'.log = unprompted serial g.log := by
  obtain ⟨acts, hlog, hacts⟩ := h.log
  rw [hlog]
  exact unprompted_append serial g.log (fun a ha => Act.not_transfer (hacts a ha))

theorem Shifts.awaits (h : Shifts g g') (c : GsmdAtcmd κ) : Awaits g' c ↔ Awaits g c := by
  rw [Awaits, h.unprompted, Awaits]

structure Parked (g : Gsmd κ ω) : Prop where
  ready : ∀ s, unprompted s g.log = true → g.interpreterReady = true
  off : Stopped g → g.fdWrite = false

namespace Parked

theorem begins (h : Parked g) : BeginsPrompted g := by
  intro n crDone he _ pos hpos hwait
  have hlen : n + 1 ≤ pos.lineLen := he.2 pos hpos
  have hoff := h.off ⟨pos, hpos, hwait, by omega⟩
  exact Bool.noConfusion (hoff.symm.trans he.1)

theorem moves (h : Parked g) (hs : Shifts g g')
    (hr : g.interpreterReady = true → g'.interpreterReady = true)
    (hhead : ∀ pos ∈ g'.pendingAtcmds.head?, pos.cur = 0 ∨ pos ∈ g.pendingAtcmds.head?)
    (hw : Stopped g → g'.fdWrite = g.fdWrite) : Parked g' := by
  constructor
  · intro s hun
    rw [hs.unprompted] at hun
    exact hr (h.ready s hun)
  · rintro ⟨pos, hpos, hwait, hlen⟩
    rcases hhead pos hpos with hcur | hold
    · exact absurd hwait.1 (by omega)
    · have hstop : Stopped g := ⟨pos, hold, (hs.awaits pos).mp hwait, hlen⟩
      rw [hw hstop]
      exact h.off hstop

end Parked

theorem Stopped.pending (h : Stopped g) : ∃ pos rest, g.pendingAtcmds = pos :: rest := by
  obtain ⟨pos, hpos, _⟩ := h
  cases hp : g.pendingAtcmds with
  | nil => rw [hp] at hpos; cases hpos
  | cons c cs => exact ⟨c, cs, rfl⟩

theorem head_append {new : List (GsmdAtcmd κ)} (hp : g'.pendingAtcmds = g.pendingAtcmds ++ new)
    (hnew : ∀ c ∈ new, c.cur = 0) :
    ∀ pos ∈ g'.pendingAtcmds.head?, pos.cur = 0 ∨ pos ∈ g.pendingAtcmds.head? := by
  intro pos hpos
  rw [hp] at hpos
  cases hpend : g.pendingAtcmds with
  | nil =>
    rw [hpend, List.nil_append] at hpos
    exact Or.inl (hnew pos (List.mem_of_mem_head? hpos))
  | cons c cs =>
    rw [hpend] at hpos
    exact Or.inr hpos

namespace Parked

theorem queued (h : Parked g) (hs : Shifts g g') {new : List (GsmdAtcmd κ)}
    (hq : Queued new g g') : Parked g' := by
  apply h.moves hs hq.ready (head_append hq.pending hq.unsent)
  intro hstop
  obtain ⟨pos, rest, hp⟩ := hstop.pending
  rw [hq.fdWrite, hp]
  simp

theorem unqueued (h : Parked g) (hs : Shifts g g') {new : List (GsmdAtcmd κ)}
    (hq : Unqueued new g g') (hb : g.busyAtcmds ≠ [])
    (hhold : g.busyAtcmds.length = 1 → ¬ Stopped g) : Parked g' := by
  apply h.moves hs hq.ready (head_append hq.pending hq.unsent)
  intro hstop
  obtain ⟨pos, rest, hp⟩ := hstop.pending
  have hlen : g.busyAtcmds.length ≠ 1 := fun hone => hhold hone hstop
  have htail : g.busyAtcmds.tail ≠ [] := by
    intro hnil
    have hzero := congrArg List.length hnil
    rw [List.length_tail, List.length_nil] at hzero
    have hpos := List.length_pos_iff.mpr hb
    omega
  rw [hq.fdWrite, hp, List.isEmpty_eq_false_iff.mpr htail]
  simp

theorem cancel (h : Parked g) (env : Env κ ω) (cmd : FilledAtcmd κ) :
    Parked (cancelAtcmd env g cmd).2 := by
  rcases cancelAtcmd_cases env g cmd with heq | hf
  · obtain ⟨first, serial, hq⟩ := atcmdSubmit_queued g cmd
    rw [heq]
    exact h.queued (atcmdSubmit_shifts g cmd) hq
  · have hqueue : Parked (cancelQueue g cmd) := by
      apply h.moves (cancelQueue_shifts g cmd) id
      · intro pos hpos
        obtain rfl : cmd.client.queued g.serial = pos := Option.some.inj hpos
        exact Or.inl rfl
      · exact fun _ => rfl
    obtain ⟨new, hq⟩ := hf.unqueued
    have hshifts := hf.shifts
    obtain ⟨cur, busy, _, _, hb, _⟩ := hf
    apply hqueue.unqueued hshifts hq
    · rw [hb]
      exact List.cons_ne_nil _ _
    · rintro _ ⟨pos, hpos, hwait, _⟩
      obtain rfl : cmd.client.queued g.serial = pos := Option.some.inj hpos
      exact absurd hwait.1 (lt_irrefl 0)

theorem line (h : Parked g) (env : Env κ ω) (buf : Bytes) (hhold : HoldsLine env g (.line buf)) :
    Parked (mlParse env g buf).2 := by
  rcases mlParse_cases env g buf with hs | ⟨hfinal, hf⟩
  · obtain ⟨new, hq⟩ := hs.queued
    exact h.queued hs.shifts hq
  · obtain ⟨new, hq⟩ := hf.unqueued
    have hshifts := hf.shifts
    obtain ⟨cmd, busy, _, _, hb, _⟩ := hf
    exact h.unqueued hshifts hq (hb ▸ List.cons_ne_nil _ _) (hhold hfinal)

theorem expire (h : Parked g) {tmr : ℕ} {env : Env κ ω} (hhold : HoldsLine env g (.expire tmr)) :
    Parked (timerExpire g tmr) := by
  have hshifts := timerExpire_shifts g tmr
  rcases timerExpire_cases g tmr with ⟨_, heq⟩ | ⟨_, _, heq⟩ | ⟨cmd, busy, hon, hb, heq⟩
  · rw [heq] at hshifts ⊢
    exact h.moves hshifts id (fun pos hpos => Or.inr hpos) (fun _ => rfl)
  · rw [heq] at hshifts ⊢
    exact h.moves hshifts id (fun pos hpos => Or.inr hpos) (fun _ => rfl)
  · have hmany : Stopped g → busy ≠ [] := by
      rintro hstop rfl
      apply hhold ⟨cmd, hon⟩ _ hstop
      rw [hb]
      rfl
    rw [heq] at hshifts ⊢
    apply h.moves hshifts id (fun pos hpos => Or.inr hpos)
    intro hstop
    simp [hmany hstop]

theorem write (h : Parked g) (hsent : Sent g) {rc : WriteRc} {crDone : Bool}
    (he : Enabled g (.writable rc crDone)) (hok : WritesLines g (.writable rc crDone)) :
    Parked (atcmdSelectWrite g rc crDone) := by
  rcases atcmdSelectWrite_cases g rc crDone with heq | ⟨_, _, heq⟩ | ⟨pos, rest, n, hr, hp, rfl⟩
  · rwa [heq]
  · rw [heq]
    exact ⟨h.ready, fun _ => rfl⟩
  · have hhead : pos ∈ g.pendingAtcmds.head? := by rw [hp]; rfl
    have hsized := hsent.sized pos (List.mem_of_mem_head? hhead)
    have hkeeps := hok hr pos hhead
    rw [atcmdSelectWrite_wrote g hr hp]
    split_ifs
    · exact ⟨fun _ _ => hr, fun _ => rfl⟩
    · refine ⟨fun _ _ => hr, ?_⟩
      rintro ⟨c, hc, ⟨_, hlf, _⟩, _⟩
      obtain rfl : written pos n = c := Option.some.inj hc
      have hskip := hsized.skipped_of_lf hkeeps hlf
      simp [hskip]

end Parked

theorem prompt_output (g : Gsmd κ ω) (serial : ℕ) :
    output serial (atcmdPrompt g).log = output serial g.log := by
  unfold output
  change ((g.log ++ [Act.prompt]).foldl (outputStep serial) (false, [])).2 = _
  rw [List.foldl_append]
  rfl

theorem prompt_unprompted (g : Gsmd κ ω) (serial : ℕ) :
    unprompted serial (atcmdPrompt g).log = false := by
  unfold unprompted
  change (g.log ++ [Act.prompt]).foldl _ false = false
  rw [List.foldl_append]
  rfl

theorem Sent.prompt (h : Sent g) : Sent (atcmdPrompt g) := by
  refine ⟨⟨h.distinct.nodup, h.distinct.lt⟩, ?_, h.sized, ?_, ?_⟩
  · intro s hs
    rw [prompt_output]
    exact h.fresh s hs
  · intro c hc
    rw [prompt_output]
    exact h.text.pending c hc
  · intro c hc
    rw [prompt_output]
    exact h.text.busy c hc

theorem Parked.prompt (g : Gsmd κ ω) : Parked (atcmdPrompt g) := by
  constructor
  · intro s hun
    rw [prompt_unprompted] at hun
    cases hun
  · rintro ⟨pos, _, ⟨_, _, hun⟩, _⟩
    rw [prompt_unprompted] at hun
    cases hun

theorem Sent.write (h : Sent g) {rc : WriteRc} {crDone : Bool}
    (he : Enabled g (.writable rc crDone)) (hok : WritesLines g (.writable rc crDone)) :
    Sent (atcmdSelectWrite g rc crDone) := by
  rcases atcmdSelectWrite_cases g rc crDone with heq | ⟨_, _, heq⟩ | ⟨pos, rest, n, hr, hp, rfl⟩
  · rwa [heq]
  · rw [heq]
    exact h.shifts
      (Shifts.same rfl rfl le_rfl (List.append_nil _).symm (List.forall_mem_nil _))
  · have hhead : pos ∈ g.pendingAtcmds.head? := by rw [hp]; rfl
    exact h.wrote hr hp (he.2 pos hhead) (hok hr pos hhead)

theorem sent_next (env : Env κ ω) {e : Event κ} (h : Sent g) (he : Enabled g e)
    (hok : WritesLines g e) : Sent (next env g e) := by
  cases e with
  | writable rc crDone => exact h.write he hok
  | prompt => exact h.prompt
  | submit cmd => exact h.shifts (atcmdSubmit_shifts g cmd)
  | cancel cmd => exact h.shifts (cancelAtcmd_shifts env g cmd)
  | line buf => exact h.shifts (mlParse_shifts env g buf)
  | expire tmr => exact h.shifts (timerExpire_shifts g tmr)

theorem parked_next (env : Env κ ω) {e : Event κ} (hsent : Sent g) (h : Parked g)
    (he : Enabled g e) (hok : WritesLines g e) (hhold : HoldsLine env g e) :
    Parked (next env g e) := by
  cases e with
  | submit cmd =>
    obtain ⟨first, serial, hq⟩ := atcmdSubmit_queued g cmd
    exact h.queued (atcmdSubmit_shifts g cmd) hq
  | cancel cmd => exact h.cancel env cmd
  | writable rc crDone => exact h.write hsent he hok
  | line buf => exact h.line env buf hhold
  | prompt => exact Parked.prompt g
  | expire tmr => exact h.expire hhold

theorem not_writesText_next (env : Env κ ω) {e : Event κ} (h : Sent g) (he : Enabled g e)
    (hok : ¬ WritesLines g e) : ¬ WritesText (next env g e) := by
  match e with
  | .writable (.wrote (n + 1)) crDone =>
    simp only [WritesLines, not_forall] at hok
    obtain ⟨hr, pos, hpos, hok⟩ := hok
    obtain ⟨rest, hp⟩ := List.head?_eq_some_iff.mp hpos
    intro hw
    exact hok (h.keeps hr hp (he.2 pos hpos) hw)
  | .writable .error _ | .writable (.wrote 0) _ => exact absurd trivial hok
  | .submit _ | .cancel _ | .line _ | .prompt | .expire _ => exact absurd trivial hok

theorem Stopped.early (h : Stopped g) (hpark : Parked g) (hs : Shifts g g')
    (hr : g.interpreterReady = true → g'.interpreterReady = true)
    {new : List (GsmdAtcmd κ)} (hp : g'.pendingAtcmds = g.pendingAtcmds ++ new)
    (hw : g'.fdWrite = true) : ¬ BeginsPrompted g' := by
  intro hbegins
  obtain ⟨pos, rest, hpend⟩ := h.pending
  obtain ⟨pos', hpos, hwait, hlen⟩ := h
  rw [hpend] at hpos
  obtain rfl : pos = pos' := Option.some.inj hpos
  have hhead : g'.pendingAtcmds.head? = some pos := by
    rw [hp, hpend]
    rfl
  have hready := hr (hpark.ready pos.serial hwait.2.2)
  apply hbegins 0 true _ hready pos hhead ((hs.awaits pos).mpr hwait)
  refine ⟨hw, ?_⟩
  intro c hc
  obtain rfl : pos = c := Option.some.inj (hhead.symm.trans hc)
  exact hlen

theorem unqueued_wakes {new : List (GsmdAtcmd κ)} (hq : Unqueued new g g')
    (hone : g.busyAtcmds.length = 1) (hstop : Stopped g) : g'.fdWrite = true := by
  obtain ⟨pos, rest, hp⟩ := hstop.pending
  obtain ⟨cmd, hb⟩ := List.length_eq_one_iff.mp hone
  rw [hq.fdWrite, hb, hp]
  simp

theorem not_beginsPrompted_next (env : Env κ ω) {e : Event κ} (h : Parked g)
    (hhold : ¬ HoldsLine env g e) : ¬ BeginsPrompted (next env g e) := by
  cases e with
  | line buf =>
    simp only [HoldsLine, Classical.not_imp, not_not] at hhold
    obtain ⟨hfinal, hone, hstop⟩ := hhold
    obtain ⟨r, hr⟩ := Option.ne_none_iff_exists'.mp hfinal
    obtain ⟨cmd, hb⟩ := List.length_eq_one_iff.mp hone
    have hf : Finishes g (mlParse env g buf).2 := by
      rw [mlParse_final env g hr]
      exact finalCb_finishes env hb buf r.1 r.2
    obtain ⟨new, hq⟩ := hf.unqueued
    exact hstop.early h hf.shifts hq.ready hq.pending (unqueued_wakes hq hone hstop)
  | expire tmr =>
    simp only [HoldsLine, Classical.not_imp, not_not] at hhold
    obtain ⟨⟨cmd, hon⟩, hone, hstop⟩ := hhold
    have hshifts := timerExpire_shifts g tmr
    rcases timerExpire_cases g tmr with ⟨ht, _⟩ | ⟨_, hno, _⟩ | ⟨cmd', busy, _, hb, heq⟩
    · exact absurd hon.1 ht
    · exact absurd hon (hno cmd)
    · obtain ⟨pos, rest, hp⟩ := hstop.pending
      have hnil : busy = [] := by
        rw [hb] at hone
        exact List.eq_nil_of_length_eq_zero (Nat.succ.inj hone)
      rw [next]
      rw [heq] at hshifts ⊢
      apply hstop.early h hshifts id (List.append_nil _).symm
      simp [hnil, hp]
  | _ => exact absurd trivial hhold

theorem sendsLines_iff_writesLines (env : Env κ ω) {es : List (Event κ)} (hinit : AtcmdInit g)
    (hrun : (atMachine env).Run g es g') :
    (atMachine env).Throughout SendsLines g es ↔
      (atMachine env).RunWhile (fun g e => WritesLines g e ∧ HoldsLine env g e) g es g' := by
  refine Machine.Run.throughout_iff (I := fun g => Sent g ∧ Parked g) ?_ ?_ ?_ hrun ?_
  · rintro t e ⟨hsent, hpark⟩ he ⟨hok, hhold⟩
    exact ⟨sent_next env hsent he hok, parked_next env hsent hpark he hok hhold⟩
  · exact fun t ⟨hsent, hpark⟩ => ⟨hsent.text, hpark.begins⟩
  · rintro t e ⟨hsent, hpark⟩ he hok ⟨hw, hbegins⟩
    by_cases hlines : WritesLines t e
    · exact not_beginsPrompted_next env hpark (fun hhold => hok ⟨hlines, hhold⟩) hbegins
    · exact not_writesText_next env hsent he hlines hw
  · have hout (s : ℕ) : output s g.log = [] := by
      rw [hinit.log]
      rfl
    have hun (s : ℕ) : unprompted s g.log = false := by
      rw [hinit.log]
      rfl
    refine ⟨⟨⟨?_, ?_⟩, fun s _ => hout s, ?_, ?_, ?_⟩, ?_, ?_⟩
    all_goals simp [hinit.pending, hinit.busy, hun, Stopped]

def shortWriteRun : List (Event Unit) :=
  [.submit (filledText (ascii "AT+CMGS=3\n07F") (some ())), .writable (.wrote 1) true,
    .line (ascii "OK"), .writable (.wrote 9) true, .prompt, .writable (.wrote 3) true,
    .line (ascii "OK"), .submit (filledText (ascii "AT") (some ())), .writable (.wrote 1) true,
    .line (ascii "OK"), .writable (.wrote 1) true]

theorem sendsLines_iff_writesLines_short :
    (atMachine idleEnv).Throughout SendsLines gsmdInit shortWriteRun ↔
      (atMachine idleEnv).RunWhile (fun g e => WritesLines g e ∧ HoldsLine idleEnv g e) gsmdInit
        shortWriteRun ((atMachine idleEnv).after gsmdInit shortWriteRun) :=
  sendsLines_iff_writesLines idleEnv gsmdInit_init (Machine.Checks.runWhile (by decide))

theorem sendsLines_torn :
    (atMachine idleEnv).Run gsmdInit shortWriteRun
        ((atMachine idleEnv).after gsmdInit shortWriteRun) ∧
      ¬ SendsLines ((atMachine idleEnv).after gsmdInit shortWriteRun) := by
  refine ⟨Machine.Checks.runWhile (by decide), fun h => ?_⟩
  have htext := h.1.pending
  revert htext
  decide

end SystemTestSuite.GsmDaemon
