import SystemTestSuite.GsmDaemon.FinalResult
import SystemTestSuite.Library.LineBuffer

namespace SystemTestSuite.GsmDaemon

open Library

variable {κ ω : Type}

def cbLeaves (env : Env κ ω) (cb : AtcmdCb κ) (mem : Memory) (resp : Option Bytes) : Memory :=
  match cb, resp with
  | .client k, some text => mem.store 0 ((env.scribble k text).take text.length)
  | _, _ => mem

theorem cbLeaves_congr (env : Env κ ω) (cb : AtcmdCb κ) (m m' : Memory) (resp : Option Bytes)
    (h : ∀ i < mlparseBufSize, m i = m' i) :
    ∀ i < mlparseBufSize, cbLeaves env cb m resp i = cbLeaves env cb m' resp i := by
  intro i hi
  unfold cbLeaves
  split
  · exact Memory.store_congr _ (h i hi)
  · exact h i hi

def mlRoom (n : ℕ) : ℕ := (mlparseBufSize + 2 ^ 32 - n) % 2 ^ 32

theorem mlRoom_eq (n : ℕ) (h : n ≤ mlparseBufSize) : mlRoom n = mlparseBufSize - n := by
  simp only [mlRoom, mlparseBufSize] at h ⊢
  omega

def mlShape (env : Env κ ω) (cb : AtcmdCb κ) : LineBuffer.Shape where
  sep := LF
  size := mlparseBufSize
  room := mlRoom
  left := cbLeaves env cb
  size_pos := by decide
  room_eq := mlRoom_eq
  left_congr := cbLeaves_congr env cb

def mlBuffer (g : Gsmd κ ω) : LineBuffer := ⟨g.mlbuf, g.mlbufLen⟩

def receive (env : Env κ ω) (g : Gsmd κ ω) (lines : List Bytes) : Gsmd κ ω :=
  lines.foldl (fun g buf => (mlParse env g buf).2) g

def mark (env : Env κ ω) (lines : List Bytes) : List LineBuffer.Line :=
  lines.map (fun buf => (decide (extendedLine env buf), buf))

/-- `cmd` is executing, and no unsolicited message waits for its second line. -/
structure Executes (cb : AtcmdCb κ) (cmd : GsmdAtcmd κ) (g : Gsmd κ ω) : Prop where
  busy : g.busyAtcmds.head? = some cmd
  cb : cmd.cb = some cb
  mlunsolicited : g.mlunsolicited = false

def InfoLine (env : Env κ ω) (g : Gsmd κ ω) (buf : Bytes) : Prop :=
  ¬ readyLine buf ∧ ¬ echoLine g buf ∧
    if extendedLine env buf then
      ResponseLine env g buf ∧ ∀ cmd ∈ g.busyAtcmds.head?, takesExtended env cmd
    else ¬ ringLine g.v0 buf ∧ basicResult g.v0 buf = none

instance (env : Env κ ω) (g : Gsmd κ ω) (buf : Bytes) : Decidable (InfoLine env g buf) :=
  inferInstanceAs (Decidable (¬ readyLine buf ∧ ¬ echoLine g buf ∧
    if extendedLine env buf then
      ResponseLine env g buf ∧ ∀ cmd ∈ g.busyAtcmds.head?, takesExtended env cmd
    else ¬ ringLine g.v0 buf ∧ basicResult g.v0 buf = none))

def InfoLines (env : Env κ ω) (g : Gsmd κ ω) : List Bytes → Prop
  | [] => True
  | buf :: lines => InfoLine env g buf ∧ InfoLines env (mlParse env g buf).2 lines

theorem InfoLine.ne_nil {env : Env κ ω} {g : Gsmd κ ω} {buf : Bytes} (h : InfoLine env g buf) :
    buf ≠ [] := by
  rintro rfl
  exact h.1 (Or.inl rfl)

def mlAppended (env : Env κ ω) (cb : AtcmdCb κ) (g : Gsmd κ ω) (buf : Bytes) : Gsmd κ ω :=
  { g with
    mlbuf := ((mlBuffer g).add (mlShape env cb) buf).mem
    mlbufLen := ((mlBuffer g).add (mlShape env cb) buf).len }

theorem mlAppend_eq (env : Env κ ω) (cb : AtcmdCb κ) (g : Gsmd κ ω) (rc : ℤ) (buf : Bytes) :
    mlAppend env g rc buf =
      if g.mlunsolicited then
        let t := mlAppended env cb g buf
        let r := unsolicitedParse env t (mlbufText t) t.mlbufLen
        if r.1 = -EAGAIN then (0, r.2)
        else (r.1, { r.2 with mlunsolicited := false, mlbufLen := 0 })
      else (rc, mlAppended env cb g buf) := by
  unfold mlAppend mlAppended LineBuffer.add
  by_cases hlen : g.mlbufLen = 0
  · simp [mlBuffer, hlen, mlShape, mlRoom]
  · simp [mlBuffer, hlen, mlShape, mlRoom]

theorem mlAppend_buffer (env : Env κ ω) (cb : AtcmdCb κ) {g : Gsmd κ ω}
    (h : g.mlunsolicited = false) (rc : ℤ) (buf : Bytes) :
    (mlAppend env g rc buf).2 = mlAppended env cb g buf := by
  rw [mlAppend_eq env cb, h]
  rfl

structure CallsBack (env : Env κ ω) (cmd : GsmdAtcmd κ) (cb : AtcmdCb κ) (resp : Option Bytes)
    (g g' : Gsmd κ ω) : Prop where
  v0 : g'.v0 = g.v0
  busy : g'.busyAtcmds = g.busyAtcmds
  mlunsolicited : g'.mlunsolicited = g.mlunsolicited
  calls : calls g' = calls g ++ [(cmd.serial, resp, cmd.ret)]

theorem calls_emit_call (g : Gsmd κ ω) (serial : ℕ) (resp : Option Bytes) (ret : ℤ) :
    calls (g.emit (.call serial resp ret)) = calls g ++ [(serial, resp, ret)] := by
  simp [calls, Gsmd.emit, Act.call?]

theorem callCb_callsBack (env : Env κ ω) (g : Gsmd κ ω) (cmd : GsmdAtcmd κ) (cb : AtcmdCb κ)
    (resp : Option Bytes) (inMlbuf : Bool) :
    CallsBack env cmd cb resp g (callCb env g cmd cb resp inMlbuf).2 := by
  have hcall := calls_emit_call g cmd.serial resp cmd.ret
  cases cb with
  | nullWakeupCb =>
    have ht := nullWakeupCb_text (g.emit (.call cmd.serial resp cmd.ret))
    rw [callCb_wakeup]
    exact ⟨ht.v0, ht.busy, ht.mlunsolicited, ht.calls.trans hcall⟩
  | client k =>
    have ht := react_text (g.emit (.call cmd.serial resp cmd.ret)) (env.callback k g.world cmd resp)
    cases resp with
    | none => exact ⟨ht.v0, ht.busy, ht.mlunsolicited, ht.calls.trans hcall⟩
    | some text =>
      cases inMlbuf with
      | false => exact ⟨ht.v0, ht.busy, ht.mlunsolicited, ht.calls.trans hcall⟩
      | true => exact ⟨ht.v0, ht.busy, ht.mlunsolicited, ht.calls.trans hcall⟩

theorem callCb_mlbuf (env : Env κ ω) (g : Gsmd κ ω) (cmd : GsmdAtcmd κ) (cb : AtcmdCb κ)
    (resp : Option Bytes) :
    (callCb env g cmd cb resp true).2.mlbuf = cbLeaves env cb g.mlbuf resp := by
  cases cb with
  | nullWakeupCb =>
    rw [callCb_wakeup, (nullWakeupCb_text _).mlbuf]
    rfl
  | client k =>
    have ht := react_text (g.emit (.call cmd.serial resp cmd.ret)) (env.callback k g.world cmd resp)
    cases resp with
    | none => exact ht.mlbuf
    | some text =>
      exact congrArg (fun m : Memory => m.store 0 ((env.scribble k text).take text.length)) ht.mlbuf

structure Steps (env : Env κ ω) (cb : AtcmdCb κ) (cmd : GsmdAtcmd κ) (line : LineBuffer.Line)
    (g g' : Gsmd κ ω) : Prop where
  v0 : g'.v0 = g.v0
  busy : g'.busyAtcmds = g.busyAtcmds
  mlunsolicited : g'.mlunsolicited = g.mlunsolicited
  buffer : mlBuffer g' = ((mlBuffer g).step (mlShape env cb) line).2
  calls : calls g' = calls g ++
    ((mlBuffer g).step (mlShape env cb) line).1.map (fun resp => (cmd.serial, resp, cmd.ret))

theorem mlAppend_steps (env : Env κ ω) {cb : AtcmdCb κ} {cmd : GsmdAtcmd κ} {g : Gsmd κ ω}
    (h : g.mlunsolicited = false) (rc : ℤ) {line : LineBuffer.Line}
    (hstart : ¬ (line.1 = true ∧ g.mlbufLen ≠ 0)) :
    Steps env cb cmd line g (mlAppend env g rc line.2).2 := by
  have hstep : (mlBuffer g).step (mlShape env cb) line =
      ([], (mlBuffer g).add (mlShape env cb) line.2) := if_neg hstart
  rw [mlAppend_buffer env cb h rc line.2]
  exact ⟨rfl, rfl, rfl, by rw [hstep]; rfl, by rw [hstep]; exact (List.append_nil _).symm⟩

theorem mlResponse_steps (env : Env κ ω) {cb : AtcmdCb κ} {cmd : GsmdAtcmd κ} {g : Gsmd κ ω}
    (h : Executes cb cmd g) (hext : takesExtended env cmd) (rc : ℤ) (buf : Bytes) :
    Steps env cb cmd (true, buf) g (mlResponse env g rc buf).2 := by
  obtain ⟨busy, hb⟩ := List.head?_eq_some_iff.mp h.busy
  by_cases hlen : g.mlbufLen = 0
  · have heq : mlResponse env g rc buf = mlAppend env g rc buf := by
      simp [mlResponse, hb, hext, hlen]
    rw [heq]
    exact mlAppend_steps env h.mlunsolicited rc (by simp [hlen])
  · have hc := callCb_callsBack env g cmd cb (g.mlbuf.string? 0 mlparseBufSize) true
    have hm := callCb_mlbuf env g cmd cb (g.mlbuf.string? 0 mlparseBufSize)
    obtain ⟨r, hr⟩ : ∃ r, r = callCb env g cmd cb (g.mlbuf.string? 0 mlparseBufSize) true := ⟨_, rfl⟩
    rw [← hr] at hc hm
    have heq : mlResponse env g rc buf = mlAppend env { r.2 with mlbufLen := 0 } r.1 buf := by
      simp [mlResponse, hb, hext, hlen, h.cb, hr]
    have hstep : (mlBuffer g).step (mlShape env cb) (true, buf) =
        ([(mlBuffer g).read (mlShape env cb)],
          LineBuffer.add (mlShape env cb)
            ⟨cbLeaves env cb g.mlbuf ((mlBuffer g).read (mlShape env cb)), 0⟩ buf) :=
      if_pos ⟨rfl, hlen⟩
    have happend := mlAppend_buffer env cb (g := { r.2 with mlbufLen := 0 })
      (hc.mlunsolicited.trans h.mlunsolicited) r.1 buf
    rw [heq, happend]
    refine ⟨hc.v0, hc.busy, hc.mlunsolicited, ?_, ?_⟩
    · rw [hstep]
      simp only [mlBuffer, hm]
      rfl
    · rw [hstep]
      exact hc.calls

theorem SameText.executes {cb : AtcmdCb κ} {cmd : GsmdAtcmd κ} {g g' : Gsmd κ ω}
    (ht : SameText g g') (h : Executes cb cmd g) : Executes cb cmd g' :=
  ⟨by rw [ht.busy, h.busy], h.cb, ht.mlunsolicited.trans h.mlunsolicited⟩

theorem SameText.steps {env : Env κ ω} {cb : AtcmdCb κ} {cmd : GsmdAtcmd κ}
    {line : LineBuffer.Line} {g g' g'' : Gsmd κ ω} (ht : SameText g g')
    (h : Steps env cb cmd line g' g'') : Steps env cb cmd line g g'' := by
  have hbuf : mlBuffer g' = mlBuffer g := by rw [mlBuffer, ht.mlbuf, ht.mlbufLen, mlBuffer]
  exact ⟨h.v0.trans ht.v0, h.busy.trans ht.busy, h.mlunsolicited.trans ht.mlunsolicited,
    by rw [h.buffer, hbuf], by rw [h.calls, hbuf, ht.calls]⟩

structure PlainLine (env : Env κ ω) (g : Gsmd κ ω) (buf : Bytes) : Prop where
  ready : ¬ readyLine buf
  echo : ¬ echoLine g buf
  extended : ¬ extendedLine env buf
  ring : ¬ ringLine g.v0 buf
  final : basicResult g.v0 buf = none

theorem mlParse_plain {env : Env κ ω} {g : Gsmd κ ω} {buf : Bytes} (h : PlainLine env g buf) :
    mlParse env g buf = mlAppend env g 0 buf := by
  have hfinal := h.final
  unfold mlParse
  rw [if_neg h.ready, if_neg h.echo, if_neg h.extended]
  unfold basicResult at hfinal
  unfold mlBasic
  dsimp only at hfinal ⊢
  split_ifs at hfinal ⊢ with hring
  · exact absurd hring h.ring
  · rfl

theorem infoLine_steps (env : Env κ ω) {cb : AtcmdCb κ} {cmd : GsmdAtcmd κ} {g : Gsmd κ ω}
    (h : Executes cb cmd g) {buf : Bytes} (hinfo : InfoLine env g buf) :
    Steps env cb cmd (decide (extendedLine env buf), buf) g (mlParse env g buf).2 := by
  obtain ⟨hready, hecho, hline⟩ := hinfo
  split_ifs at hline with hext
  · obtain ⟨hline, htake⟩ := hline
    have htake' : takesExtended env cmd := htake cmd h.busy
    obtain ⟨rc, t, ht, -, heq⟩ := hline.handed
    unfold mlParse
    rw [decide_eq_true hext, if_neg hready, if_neg hecho, if_pos hext, heq]
    exact ht.steps (mlResponse_steps env (ht.executes h) htake' rc buf)
  · obtain ⟨hring, hnone⟩ := hline
    rw [mlParse_plain ⟨hready, hecho, hext, hring, hnone⟩, decide_eq_false hext]
    exact mlAppend_steps env h.mlunsolicited 0 (by simp)

end SystemTestSuite.GsmDaemon
