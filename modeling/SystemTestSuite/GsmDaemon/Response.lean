import SystemTestSuite.GsmDaemon.Assembly
import SystemTestSuite.GsmDaemon.MlbufText
import SystemTestSuite.Library.LineTexts

namespace SystemTestSuite.GsmDaemon

open Library

variable {κ ω : Type} {env : Env κ ω} {cb : AtcmdCb κ} {cmd : GsmdAtcmd κ} {g : Gsmd κ ω}

theorem unlinkBusy_calls (g : Gsmd κ ω) (cmd : GsmdAtcmd κ) :
    calls (unlinkBusy g cmd) = calls g := by
  unfold unlinkBusy
  dsimp only
  split_ifs <;> simp [calls, Gsmd.emit, Gsmd.atcmdWakePendingQueue, Act.call?]

theorem atcmdDone_calls (env : Env κ ω) (g : Gsmd κ ω) {cmd : GsmdAtcmd κ}
    (hcb : cmd.cb = some cb) (buf : Bytes) :
    calls (atcmdDone env g cmd buf).2 =
      calls g ++ [(cmd.serial, (mlBuffer g).close (mlShape env cb) (cstr buf), cmd.ret)] := by
  by_cases hlen : g.mlbufLen = 0
  · have hclose : (mlBuffer g).close (mlShape env cb) (cstr buf) = some (cstr buf) :=
      if_neg (not_not.mpr hlen)
    rw [atcmdDone_empty env hcb hlen, unlinkBusy_calls, hclose]
    exact (callCb_callsBack env g cmd cb (some (cstr buf)) false).calls
  · have hclose : (mlBuffer g).close (mlShape env cb) (cstr buf) =
        (terminated g).mlbuf.string? 0 mlparseBufSize := if_pos hlen
    rw [atcmdDone_text env hcb hlen, unlinkBusy_calls, hclose]
    exact (callCb_callsBack env (terminated g) cmd cb _ true).calls

theorem finalLine_calls (env : Env κ ω) (h : Executes cb cmd g) {buf : Bytes}
    {r : Option ℤ × Option FinalError} (hr : finalResult env g buf = some r) :
    calls (mlParse env g buf).2 = calls g ++
      [(cmd.serial, (mlBuffer g).close (mlShape env cb) (cstr buf), r.1.getD cmd.ret)] := by
  obtain ⟨busy, hb⟩ := List.head?_eq_some_iff.mp h.busy
  have ht := generateErrorEvent_text env g (r.1.getD cmd.ret) r.2
  have hbuf : mlBuffer (generateErrorEvent env g (r.1.getD cmd.ret) r.2) = mlBuffer g := by
    rw [mlBuffer, ht.mlbuf, ht.mlbufLen, mlBuffer]
  rw [mlParse_final env g hr, finalCb, hb]
  have hdone := atcmdDone_calls env (generateErrorEvent env g (r.1.getD cmd.ret) r.2)
    (show ({ cmd with ret := r.1.getD cmd.ret } : GsmdAtcmd κ).cb = some cb from h.cb) buf
  rw [hbuf, ht.calls] at hdone
  exact hdone

structure Received (env : Env κ ω) (cb : AtcmdCb κ) (cmd : GsmdAtcmd κ) (lines : List Bytes)
    (g g' : Gsmd κ ω) : Prop where
  executes : Executes cb cmd g'
  v0 : g'.v0 = g.v0
  buffer : mlBuffer g' = ((mlBuffer g).run (mlShape env cb) (mark env lines)).2
  calls : calls g' = calls g ++ ((mlBuffer g).run (mlShape env cb) (mark env lines)).1.map
    (fun resp => (cmd.serial, resp, cmd.ret))

theorem Steps.executes {line : LineBuffer.Line} {g' : Gsmd κ ω} (hs : Steps env cb cmd line g g')
    (h : Executes cb cmd g) : Executes cb cmd g' :=
  ⟨by rw [hs.busy, h.busy], h.cb, hs.mlunsolicited.trans h.mlunsolicited⟩

theorem receive_infoLines (h : Executes cb cmd g) {lines : List Bytes}
    (hinfo : InfoLines env g lines) : Received env cb cmd lines g (receive env g lines) := by
  induction lines generalizing g with
  | nil => exact ⟨h, rfl, rfl, (List.append_nil _).symm⟩
  | cons buf lines ih =>
    have hs := infoLine_steps env h hinfo.1
    have hrest := ih (hs.executes h) hinfo.2
    refine ⟨hrest.executes, hrest.v0.trans hs.v0, ?_, ?_⟩
    · have hb := hrest.buffer
      rw [hs.buffer] at hb
      exact hb
    · have hc := hrest.calls
      rw [hs.buffer, hs.calls, List.append_assoc, ← List.map_append] at hc
      exact hc

theorem receive_calls (h : Executes cb cmd g) {lines : List Bytes} (hinfo : InfoLines env g lines)
    {final : Bytes} {r : Option ℤ × Option FinalError}
    (hr : finalResult env (receive env g lines) final = some r) :
    calls (receive env g (lines ++ [final])) = calls g ++
      ((mlBuffer g).run (mlShape env cb) (mark env lines)).1.map
        (fun resp => (cmd.serial, resp, cmd.ret)) ++
      [(cmd.serial, ((mlBuffer g).run (mlShape env cb) (mark env lines)).2.close (mlShape env cb)
        (cstr final), r.1.getD cmd.ret)] := by
  have hrec := receive_infoLines h hinfo
  have hfinal := finalLine_calls env hrec.executes hr
  rw [hrec.calls, hrec.buffer] at hfinal
  rw [receive, List.foldl_append]
  exact hfinal

def responses (g : Gsmd κ ω) : List (ℕ × Option Bytes) := (calls g).map (fun c => (c.1, c.2.1))

theorem receive_responses (h : Executes cb cmd g) {lines : List Bytes}
    (hinfo : InfoLines env g lines) {final : Bytes}
    (hfinal : finalResult env (receive env g lines) final ≠ none) :
    responses (receive env g (lines ++ [final])) = responses g ++
      ((mlBuffer g).strings (mlShape env cb) (mark env lines) (cstr final)).map
        (fun resp => (cmd.serial, resp)) := by
  obtain ⟨r, hr⟩ := Option.ne_none_iff_exists'.mp hfinal
  rw [responses, receive_calls h hinfo hr]
  simp [responses, LineBuffer.strings]

def infoTexts (env : Env κ ω) (lines : List Bytes) : List Bytes :=
  (LineBuffer.groups [] (mark env lines)).map (joinLines LF)

/-- Each call gets the lines since the call before, joined by line feeds, or the final line when
there are none. -/
def Assembles (env : Env κ ω) (cmd : GsmdAtcmd κ) (g : Gsmd κ ω) (lines : List Bytes)
    (final : Bytes) : Prop :=
  responses (receive env g (lines ++ [final])) = responses g ++
    (LineBuffer.orFinal (cstr final) (infoTexts env lines)).map
      (fun text => (cmd.serial, some text))

theorem InfoLines.ne_nil {lines : List Bytes} (h : InfoLines env g lines) :
    ∀ line ∈ mark env lines, line.2 ≠ [] := by
  induction lines generalizing g with
  | nil => simp [mark]
  | cons buf lines ih =>
    intro line hline
    rcases List.mem_cons.mp hline with rfl | hrest
    · exact h.1.ne_nil
    · exact ih h.2 line hrest

theorem assembles_iff_strings (h : Executes cb cmd g) {lines : List Bytes}
    (hinfo : InfoLines env g lines) {final : Bytes}
    (hfinal : finalResult env (receive env g lines) final ≠ none) :
    Assembles env cmd g lines final ↔
      (mlBuffer g).strings (mlShape env cb) (mark env lines) (cstr final) =
        (LineBuffer.orFinal (cstr final) (infoTexts env lines)).map some := by
  have hinj : Function.Injective (fun resp : Option Bytes => (cmd.serial, resp)) :=
    fun _ _ heq => (Prod.mk.inj heq).2
  obtain ⟨texts, htexts⟩ : ∃ texts, texts = LineBuffer.orFinal (cstr final) (infoTexts env lines) :=
    ⟨_, rfl⟩
  have hmap : texts.map (fun text => (cmd.serial, some text)) =
      (texts.map some).map (fun resp => (cmd.serial, resp)) := by simp
  rw [Assembles, ← htexts, receive_responses h hinfo hfinal, hmap, List.append_cancel_left_eq]
  exact hinj.list_map.eq_iff

/-- Text left in `mlbuf` must read like the final line. Without any, the texts must be C strings
of `mlbuf`, and behind each but the last a NUL must be left there. -/
def EndsClean (env : Env κ ω) (cb : AtcmdCb κ) (g : Gsmd κ ω) (lines : List Bytes)
    (final : Bytes) : Prop :=
  if g.mlbufLen = 0 then
    (∀ text ∈ infoTexts env lines, LineBuffer.Fits (mlShape env cb) text) ∧
      LineBuffer.EndsOnNul (mlShape env cb) g.mlbuf (infoTexts env lines)
  else
    lines = [] ∧ g.mlbuf.slice 0 g.mlbufLen = cstr final ∧ (cstr final).length < mlparseBufSize

theorem mlBuffer_spoken (env : Env κ ω) (cb : AtcmdCb κ) (g : Gsmd κ ω) (h : g.mlbufLen = 0)
    {lines : List Bytes} (hlines : ∀ line ∈ mark env lines, line.2 ≠ []) (final : Bytes) :
    (mlBuffer g).strings (mlShape env cb) (mark env lines) final =
      LineBuffer.spoken (mlShape env cb) g.mlbuf final (infoTexts env lines) := by
  have hholds : LineBuffer.Holds (mlShape env cb) g.mlbuf (mlBuffer g) [] := by
    rw [mlBuffer, h]
    exact LineBuffer.holds_empty g.mlbuf
  exact LineBuffer.strings_eq hlines hholds final

theorem mlBuffer_held (env : Env κ ω) (cb : AtcmdCb κ) (h : g.mlbufLen ≠ 0) (hno : NoNul g)
    {lines : List Bytes} (hlines : ∀ line ∈ mark env lines, line.2 ≠ []) (final : Bytes) :
    (mlBuffer g).strings (mlShape env cb) (mark env lines) final =
        (LineBuffer.orFinal final (infoTexts env lines)).map some ↔
      lines = [] ∧ g.mlbuf.slice 0 g.mlbufLen = final ∧ final.length < mlparseBufSize := by
  have hholds := LineBuffer.holds_one (S := mlShape env cb) (mlBuffer g) h
  have hone : joinLines (mlShape env cb).sep [g.mlbuf.slice 0 g.mlbufLen] =
      g.mlbuf.slice 0 g.mlbufLen := LineBuffer.joinLines_singleton _ _
  have hno' : ∀ c ∈ joinLines (mlShape env cb).sep [g.mlbuf.slice 0 g.mlbufLen], c ≠ 0 := by
    rwa [hone]
  have hiff := LineBuffer.spoken_held_iff (S := mlShape env cb) (by decide : LF ≠ 0) g.mlbuf final
    (List.cons_ne_nil _ _) hno' (mark env lines)
  have hnil : mark env lines = [] ↔ lines = [] := List.map_eq_nil_iff
  rw [hone, hnil] at hiff
  rw [LineBuffer.strings_eq hlines hholds final]
  exact hiff

theorem assembles_iff_endsClean (h : Executes cb cmd g) (hno : NoNul g) {lines : List Bytes}
    (hinfo : InfoLines env g lines) {final : Bytes}
    (hfinal : finalResult env (receive env g lines) final ≠ none) :
    Assembles env cmd g lines final ↔ EndsClean env cb g lines final := by
  rw [assembles_iff_strings h hinfo hfinal, EndsClean]
  split_ifs with hlen
  · rw [mlBuffer_spoken env cb g hlen hinfo.ne_nil]
    exact LineBuffer.spoken_eq_iff g.mlbuf (cstr final) (infoTexts env lines)
  · exact mlBuffer_held env cb hlen hno hinfo.ne_nil (cstr final)

def readRun : List (Event Unit) :=
  [.submit (filledText (ascii "AT+CPBR=1,3") (some ())), .writable (.wrote 1) true,
    .line (ascii "OK"), .writable (.wrote 11) true]

def readState : Gsmd Unit Unit := (atMachine idleEnv).after gsmdInit readRun

def readHead : GsmdAtcmd Unit where
  serial := 2
  ctx := 0
  cb := some (.client ())
  ret := -255
  buflen := 0
  id := 0
  cur := 12
  buf := ascii "AT+CPBR=1,3" ++ [0]

def readLines : List Bytes :=
  [ascii "+CPBR: 1,\"0911223344\",129,\"Ada\"", ascii "+CPBR: 2,\"112\",129,\"Bo\"",
    ascii "+CPBR: 3,\"1\",129,\"C\""]

theorem readState_executes : Executes (.client ()) readHead readState :=
  ⟨by decide, rfl, by decide⟩

theorem readLines_info : InfoLines idleEnv readState readLines := by
  refine ⟨?_, ?_, ?_, trivial⟩ <;> decide

theorem readLines_final :
    finalResult idleEnv (receive idleEnv readState readLines) (ascii "OK") ≠ none := by
  decide

theorem assembles_iff_endsClean_cpbr :
    Assembles idleEnv readHead readState readLines (ascii "OK") ↔
      EndsClean idleEnv (.client ()) readState readLines (ascii "OK") :=
  assembles_iff_endsClean readState_executes (.of_empty (by decide)) readLines_info readLines_final

theorem assembles_tail :
    (atMachine idleEnv).Run gsmdInit readRun readState ∧
      Executes (.client ()) readHead readState ∧ InfoLines idleEnv readState readLines ∧
      finalResult idleEnv (receive idleEnv readState readLines) (ascii "OK") ≠ none ∧
      ¬ Assembles idleEnv readHead readState readLines (ascii "OK") := by
  refine ⟨Machine.Checks.runWhile (by decide), readState_executes, readLines_info,
    readLines_final, ?_⟩
  unfold Assembles
  decide

end SystemTestSuite.GsmDaemon
