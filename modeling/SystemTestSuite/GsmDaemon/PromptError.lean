import SystemTestSuite.GsmDaemon.WriteInterest

namespace SystemTestSuite.GsmDaemon

open Library

variable {κ ω : Type}

def PartlySent (g : Gsmd κ ω) (pos : GsmdAtcmd κ) : Prop :=
  g.busyAtcmds = [] ∧ g.pendingAtcmds.head? = some pos ∧ Awaits g pos

inductive ErrorLine (buf : Bytes) : ℤ → Prop
  | error : cstr buf = ascii "ERROR" → ErrorLine buf 4
  | cms (n : ℕ) : cstr buf = ascii "+CMS ERROR: " ++ ascii (toString n) → ErrorLine buf n
  | cme (n : ℕ) : cstr buf = ascii "+CME ERROR: " ++ ascii (toString n) → ErrorLine buf n

def Act.isCallOf (serial : ℕ) : Act κ → Bool
  | .call s _ _ => s == serial
  | _ => false

def EndedBy (env : Env κ ω) (g : Gsmd κ ω) (pos : GsmdAtcmd κ) (buf : Bytes) (ret : ℤ) : Prop :=
  let g' := (mlParse env g buf).2
  (∃ resp, (g'.log.drop g.log.length).filter (Act.isCallOf pos.serial) =
    [.call pos.serial resp ret]) ∧
    pos.serial ∉ g'.pendingAtcmds.map GsmdAtcmd.serial ∧
    (g'.pendingAtcmds ≠ [] → g'.fdWrite = true)

def Event.IsPrompt : Event κ → Prop
  | .prompt => True
  | _ => False

instance : (e : Event κ) → Decidable e.IsPrompt
  | .prompt => .isTrue trivial
  | .submit _ | .cancel _ | .writable _ _ | .line _ | .expire _ => .isFalse id

theorem cstr_drop_cstr (s : Bytes) (n : ℕ) : cstr ((cstr s).drop n) = (cstr s).drop n :=
  cstr_of_no_nul (fun b hb => cstr_ne_zero b (List.mem_of_mem_drop hb))

theorem finalCb_idle (env : Env κ ω) {g : Gsmd κ ω} (hb : g.busyAtcmds = []) (buf : Bytes)
    (ret : Option ℤ) (err : Option FinalError) : finalCb env g buf ret err = (0, g) := by
  rw [finalCb, hb]

theorem mlParse_errorLine (env : Env κ ω) {g : Gsmd κ ω} {buf : Bytes} {ret : ℤ}
    (hb : g.busyAtcmds = []) (h : ErrorLine buf ret) : (mlParse env g buf).2 = g := by
  have hecho : ¬ echoLine g buf := by simp [echoLine, hb]
  have hextended {text : Bytes} (htext : cstr buf = 43 :: text) (hcolon : strchr buf 58 = some 10)
      (hpfx : strncmp ((cstr buf).drop 1) (ascii "CME ERROR") 9 ∨
        strncmp ((cstr buf).drop 1) (ascii "CMS ERROR") 9) : (mlParse env g buf).2 = g := by
    have hready : ¬ readyLine buf := by
      rintro (hr | hr)
      · simp [hr] at htext
      · rw [hr] at htext
        exact absurd (List.cons.inj htext).1 (by decide)
    have hext : extendedLine env buf := ⟨43, by simp [htext], Or.inl rfl⟩
    rw [mlParse, if_neg hready, if_neg hecho, if_pos hext, mlExtended, hcolon]
    dsimp only
    by_cases hcme : strncmp ((cstr buf).drop 1) (ascii "CME ERROR") 9
    · rw [if_pos hcme, finalCb_idle env hb]
    · rw [if_neg hcme, if_pos (hpfx.resolve_left hcme), finalCb_idle env hb]
  cases h with
  | error htext =>
    have hready : ¬ readyLine buf := by
      rw [readyLine, htext]
      decide
    rw [mlParse, if_neg hready, if_neg hecho]
    split_ifs
    · have hcolon : strchr buf 58 = none := by
        rw [strchr, htext]
        rfl
      rw [mlExtended, hcolon]
    · have hring : ¬ ringLine g.v0 buf := by
        rw [ringLine, htext]
        rintro (hr | ⟨_, hd⟩)
        · exact absurd hr (by decide)
        · exact absurd hd (by decide)
      rw [mlBasic]
      dsimp only
      rw [if_neg hring, if_pos (Or.inl htext), finalCb_idle env hb]
  | cms n htext =>
    refine hextended htext ?_ (Or.inr ?_)
    · rw [strchr, htext]
      rfl
    · rw [strncmp, cstr_drop_cstr, htext]
      rfl
  | cme n htext =>
    refine hextended htext ?_ (Or.inl ?_)
    · rw [strchr, htext]
      rfl
    · rw [strncmp, cstr_drop_cstr, htext]
      rfl

/-- Nothing executes, something waits, and nobody asks for the UART to be writable. -/
structure Stuck (g : Gsmd κ ω) : Prop where
  busy : g.busyAtcmds = []
  pending : g.pendingAtcmds ≠ []
  fdWrite : g.fdWrite = false

theorem Stuck.queued {g g' : Gsmd κ ω} (h : Stuck g) {new : List (GsmdAtcmd κ)}
    (hq : Queued new g g') : Stuck g' := by
  refine ⟨hq.busy.trans h.busy, ?_, ?_⟩
  · rw [hq.pending]
    exact List.append_ne_nil_of_left_ne_nil h.pending _
  · rw [hq.fdWrite, h.fdWrite, List.isEmpty_eq_false_iff.mpr h.pending]
    rfl

theorem Stuck.next {g : Gsmd κ ω} (h : Stuck g) (env : Env κ ω) {e : Event κ}
    (he : Enabled g e) (hprompt : ¬ e.IsPrompt) : ∃ new, Queued new g (next env g e) := by
  cases e with
  | submit cmd =>
    obtain ⟨first, serial, hq⟩ := atcmdSubmit_queued g cmd
    exact ⟨_, hq⟩
  | cancel cmd =>
    obtain ⟨first, serial, hq⟩ := atcmdSubmit_queued g cmd
    have heq : GsmDaemon.next env g (.cancel cmd) = atcmdSubmit g cmd := by
      simp [GsmDaemon.next, cancelAtcmd, h.busy]
    exact ⟨_, heq ▸ hq⟩
  | writable rc crDone =>
    exact absurd he.1 (by simp [h.fdWrite])
  | line buf =>
    rcases mlParse_cases env g buf with hs | ⟨_, cmd, busy, _, _, hb, _⟩
    · exact hs.queued
    · simp [h.busy] at hb
  | prompt => exact absurd trivial hprompt
  | expire tmr =>
    refine ⟨[], ?_⟩
    rcases timerExpire_cases g tmr with ⟨_, heq⟩ | ⟨_, _, heq⟩ | ⟨cmd, busy, _, hb, _⟩
    · rw [GsmDaemon.next, heq]
      exact ⟨by simp, rfl, by simp, id, by simp, [], by simp, by simp⟩
    · rw [GsmDaemon.next, heq]
      exact ⟨by simp, rfl, by simp, id, by simp, [], by simp, by simp⟩
    · simp [h.busy] at hb

theorem Stuck.run {env : Env κ ω} {g g' : Gsmd κ ω} {es : List (Event κ)} (h : Stuck g)
    (hrun : (atMachine env).RunWhile (fun _ e => ¬ e.IsPrompt) g es g') :
    ∃ new, Queued new g g' := by
  induction hrun with
  | nil => exact ⟨[], Queued.refl g⟩
  | snoc _ he hprompt ih =>
    obtain ⟨new, hq⟩ := ih
    obtain ⟨new', hq'⟩ := (h.queued hq).next env he hprompt
    exact ⟨_, hq.trans hq'⟩

/-- No error line ends the command that waits for its prompt. The line is lost, and where the
write bit is off, nothing is sent any more until a prompt comes. -/
theorem errorLine_never_ends (env : Env κ ω) {g : Gsmd κ ω} {pos : GsmdAtcmd κ} {buf : Bytes}
    {ret : ℤ} (hpos : PartlySent g pos) (herr : ErrorLine buf ret) :
    ¬ EndedBy env g pos buf ret ∧
      (g.fdWrite = false → ∀ es g',
        (atMachine env).RunWhile (fun _ e => ¬ e.IsPrompt) (mlParse env g buf).2 es g' →
        g'.busyAtcmds = [] ∧ g'.pendingAtcmds.head? = some pos ∧
          ∃ acts, g'.log = g.log ++ acts ∧ ∀ a ∈ acts, ¬ a.IsTransfer) := by
  obtain ⟨hb, hp, _⟩ := hpos
  rw [EndedBy, mlParse_errorLine env hb herr]
  obtain ⟨rest, hpending⟩ := List.head?_eq_some_iff.mp hp
  constructor
  · rintro ⟨_, hgone, _⟩
    exact hgone (by simp [hpending])
  · intro hw es g' hrun
    have hstuck : Stuck g := ⟨hb, by simp [hpending], hw⟩
    obtain ⟨new, hq⟩ := hstuck.run hrun
    exact ⟨hq.busy.trans hb, by simp [hq.pending, hpending], hq.log⟩

def sendRun : List (Event Unit) :=
  [.submit (filledText (ascii "AT+CMGS=8\n0001000391214300" ++ [26]) (some ())),
    .writable (.wrote 1) true, .line (ascii "OK"), .writable (.wrote 9) true]

def sendState : Gsmd Unit Unit := (atMachine idleEnv).after gsmdInit sendRun

def sendHead : GsmdAtcmd Unit where
  serial := 2
  ctx := 0
  cb := some (.client ())
  ret := -255
  buflen := 18
  id := 0
  cur := 10
  buf := ascii "AT+CMGS=8\n0001000391214300" ++ [26, 0]

theorem sendState_partlySent : PartlySent sendState sendHead := by
  unfold PartlySent
  decide

theorem errorLine_never_ends_cms :
    ¬ EndedBy idleEnv sendState sendHead (ascii "+CMS ERROR: 304") 304 ∧
      (sendState.fdWrite = false → ∀ es g',
        (atMachine idleEnv).RunWhile (fun _ e => ¬ e.IsPrompt)
          (mlParse idleEnv sendState (ascii "+CMS ERROR: 304")).2 es g' →
        g'.busyAtcmds = [] ∧ g'.pendingAtcmds.head? = some sendHead ∧
          ∃ acts, g'.log = sendState.log ++ acts ∧ ∀ a ∈ acts, ¬ a.IsTransfer) :=
  errorLine_never_ends idleEnv sendState_partlySent (.cms 304 (by decide))

theorem errorLine_leaves_sending :
    (atMachine idleEnv).Run gsmdInit sendRun sendState ∧ PartlySent sendState sendHead ∧
      ErrorLine (ascii "+CMS ERROR: 304") 304 ∧
      ¬ EndedBy idleEnv sendState sendHead (ascii "+CMS ERROR: 304") 304 := by
  refine ⟨Machine.Checks.runWhile (by decide), sendState_partlySent, .cms 304 (by decide), ?_⟩
  rintro ⟨_, hgone, _⟩
  revert hgone
  decide

end SystemTestSuite.GsmDaemon
