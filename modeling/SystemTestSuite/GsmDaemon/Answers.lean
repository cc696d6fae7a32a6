import SystemTestSuite.GsmDaemon.Response

namespace SystemTestSuite.GsmDaemon

open Library

variable {κ ω : Type} {env : Env κ ω} {k : κ} {cmd : GsmdAtcmd κ} {g : Gsmd κ ω}

/-- A line of the answer: it repeats the prefix of the command, or it is plain text. -/
structure AnswerLine (env : Env κ ω) (v0 : Bool) (cmd : GsmdAtcmd κ) (buf : Bytes) : Prop where
  ready : ¬ readyLine buf
  echo : cstr buf ≠ cstr cmd.buf
  line : if extendedLine env buf then
      (∃ colon ∈ strchr buf 58, prefixMatches buf colon cmd) ∧ extendedResult buf = none ∧
        takesExtended env cmd
    else ¬ ringLine v0 buf ∧ basicResult v0 buf = none

structure OkLine (env : Env κ ω) (v0 : Bool) (cmd : GsmdAtcmd κ) (buf : Bytes) : Prop where
  ready : ¬ readyLine buf
  echo : cstr buf ≠ cstr cmd.buf
  extended : ¬ extendedLine env buf
  result : basicResult v0 buf = some (some 0, none)

def exchange (env : Env κ ω) (k : κ) (cmd : GsmdAtcmd κ) : ω → List (Option Bytes) → ω
  | w, [] => w
  | w, [resp] => (env.callback k w { cmd with ret := 0 } resp).world
  | w, resp :: resps => exchange env k cmd (env.callback k w cmd resp).world resps

def told (env : Env κ ω) (k : κ) (cmd : GsmdAtcmd κ) (w : ω) (resps : List (Option Bytes)) : ω :=
  resps.foldl (fun w resp => (env.callback k w cmd resp).world) w

theorem exchange_append (w : ω) (resps : List (Option Bytes)) (last : Option Bytes) :
    exchange env k cmd w (resps ++ [last]) =
      (env.callback k (told env k cmd w resps) { cmd with ret := 0 } last).world := by
  induction resps generalizing w with
  | nil => rfl
  | cons resp resps ih =>
    cases hrest : resps ++ [last] with
    | nil => simp at hrest
    | cons next rest =>
      rw [List.cons_append, hrest, exchange, ← hrest, ih]
      · rfl
      · exact List.cons_ne_nil _ _

theorem Executes.echo_iff {cb : AtcmdCb κ} (h : Executes cb cmd g) {buf : Bytes} :
    echoLine g buf ↔ cstr buf = cstr cmd.buf := by
  rw [echoLine, h.busy]
  simp

theorem AnswerLine.info {cb : AtcmdCb κ} {buf : Bytes} (hl : AnswerLine env g.v0 cmd buf)
    (h : Executes cb cmd g) : InfoLine env g buf := by
  refine ⟨hl.ready, fun he => hl.echo (h.echo_iff.mp he), ?_⟩
  have hline := hl.line
  split_ifs at hline ⊢ with hext
  · obtain ⟨⟨colon, hcolon, hpfx⟩, hnone, htake⟩ := hline
    refine ⟨⟨⟨colon, hcolon, Or.inl ?_⟩, hnone⟩, ?_⟩
    · rw [h.busy]
      simpa using hpfx
    · intro c hc
      rw [h.busy] at hc
      rwa [← Option.some.inj hc]
  · exact hline

theorem atcmdSubmit_world (g : Gsmd κ ω) (c : FilledAtcmd κ) :
    (atcmdSubmit g c).world = g.world := by
  rw [atcmdSubmit_eq]
  split <;> rfl

theorem react_world (g : Gsmd κ ω) (r : Reaction κ ω) : (react g r).world = r.world := by
  have hfold : ∀ (cs : List (FilledAtcmd κ)) (h : Gsmd κ ω),
      (cs.foldl atcmdSubmit h).world = h.world := by
    intro cs
    induction cs with
    | nil => exact fun h => rfl
    | cons c cs ih =>
      intro h
      rw [List.foldl_cons, ih, atcmdSubmit_world]
  exact hfold r.submits _

theorem callCb_world (env : Env κ ω) (g : Gsmd κ ω) (cmd : GsmdAtcmd κ) (k : κ)
    (resp : Option Bytes) (inMlbuf : Bool) :
    (callCb env g cmd (.client k) resp inMlbuf).2.world =
      (env.callback k g.world cmd resp).world := by
  have hr := react_world (g.emit (.call cmd.serial resp cmd.ret)) (env.callback k g.world cmd resp)
  cases resp with
  | none => exact hr
  | some text =>
    cases inMlbuf with
    | false => exact hr
    | true => exact hr

theorem mlParse_answer (h : Executes (.client k) cmd g) {buf : Bytes}
    (hl : AnswerLine env g.v0 cmd buf) (hext : extendedLine env buf) :
    mlParse env g buf = mlResponse env g 0 buf := by
  have hline := hl.line
  rw [if_pos hext] at hline
  obtain ⟨⟨colon, hcolon, hpfx⟩, hnone, _⟩ := hline
  have hecho : ¬ echoLine g buf := fun he => hl.echo (h.echo_iff.mp he)
  have hany : (g.busyAtcmds.head?.any fun cmd => prefixMatches buf colon cmd) = true := by
    rw [h.busy]
    simpa using hpfx
  unfold mlParse
  rw [if_neg hl.ready, if_neg hecho, if_pos hext, mlExtended_none env g hcolon hnone, if_pos hany]

theorem answerLine_world (h : Executes (.client k) cmd g) {buf : Bytes}
    (hl : AnswerLine env g.v0 cmd buf) :
    (mlParse env g buf).2.world = told env k cmd g.world
      ((mlBuffer g).step (mlShape env (.client k)) (decide (extendedLine env buf), buf)).1 := by
  by_cases hext : extendedLine env buf
  · rw [mlParse_answer h hl hext, decide_eq_true hext]
    have htake : takesExtended env cmd := by
      have hline := hl.line
      rw [if_pos hext] at hline
      exact hline.2.2
    obtain ⟨busy, hb⟩ := List.head?_eq_some_iff.mp h.busy
    by_cases hlen : g.mlbufLen = 0
    · have hstep : (mlBuffer g).step (mlShape env (.client k)) (true, buf) =
          ([], (mlBuffer g).add (mlShape env (.client k)) buf) := if_neg (fun hs => hs.2 hlen)
      have heq : mlResponse env g 0 buf = mlAppend env g 0 buf := by
        simp [mlResponse, hb, htake, hlen]
      rw [heq, mlAppend_buffer env (.client k) h.mlunsolicited, hstep]
      rfl
    · obtain ⟨r, hr⟩ : ∃ r, r = callCb env g cmd (.client k) (g.mlbuf.string? 0 mlparseBufSize) true :=
        ⟨_, rfl⟩
      have hc := callCb_callsBack env g cmd (.client k) (g.mlbuf.string? 0 mlparseBufSize) true
      have hw := callCb_world env g cmd k (g.mlbuf.string? 0 mlparseBufSize) true
      rw [← hr] at hc hw
      have heq : mlResponse env g 0 buf = mlAppend env { r.2 with mlbufLen := 0 } r.1 buf := by
        simp [mlResponse, hb, htake, hlen, h.cb, hr]
      have hstep : ((mlBuffer g).step (mlShape env (.client k)) (true, buf)).1 =
          [(mlBuffer g).read (mlShape env (.client k))] := by
        rw [LineBuffer.step, if_pos ⟨rfl, hlen⟩]
      have happend := mlAppend_buffer env (.client k) (g := { r.2 with mlbufLen := 0 })
        (hc.mlunsolicited.trans h.mlunsolicited) r.1 buf
      rw [heq, happend, hstep]
      exact hw
  · have hline := hl.line
    rw [if_neg hext] at hline
    have hecho : ¬ echoLine g buf := fun he => hl.echo (h.echo_iff.mp he)
    have hstep : (mlBuffer g).step (mlShape env (.client k)) (false, buf) =
        ([], (mlBuffer g).add (mlShape env (.client k)) buf) :=
      if_neg (fun hs => Bool.false_ne_true hs.1)
    rw [mlParse_plain ⟨hl.ready, hecho, hext, hline.1, hline.2⟩,
      mlAppend_buffer env (.client k) h.mlunsolicited, decide_eq_false hext, hstep]
    rfl

theorem receive_answerLines (h : Executes (.client k) cmd g) {lines : List Bytes}
    (hlines : ∀ buf ∈ lines, AnswerLine env g.v0 cmd buf) :
    Executes (.client k) cmd (receive env g lines) ∧ (receive env g lines).v0 = g.v0 ∧
      mlBuffer (receive env g lines) =
        ((mlBuffer g).run (mlShape env (.client k)) (mark env lines)).2 ∧
      (receive env g lines).world = told env k cmd g.world
        ((mlBuffer g).run (mlShape env (.client k)) (mark env lines)).1 := by
  induction lines generalizing g with
  | nil => exact ⟨h, rfl, rfl, rfl⟩
  | cons buf lines ih =>
    have hl := hlines buf List.mem_cons_self
    have hs := infoLine_steps env h (hl.info h)
    have hrest : ∀ buf' ∈ lines, AnswerLine env (mlParse env g buf).2.v0 cmd buf' := by
      rw [hs.v0]
      exact fun buf' hbuf' => hlines buf' (List.mem_cons_of_mem _ hbuf')
    obtain ⟨hexec, hv0, hbuf, hworld⟩ := ih (hs.executes h) hrest
    refine ⟨hexec, hv0.trans hs.v0, ?_, ?_⟩
    · rw [hs.buffer] at hbuf
      exact hbuf
    · rw [hs.buffer, answerLine_world h hl] at hworld
      exact hworld.trans List.foldl_append.symm

theorem unlinkBusy_world (g : Gsmd κ ω) (cmd : GsmdAtcmd κ) : (unlinkBusy g cmd).world = g.world := by
  unfold unlinkBusy
  dsimp only
  split_ifs <;> rfl

theorem atcmdDone_world (env : Env κ ω) (g : Gsmd κ ω) {cmd : GsmdAtcmd κ}
    (hcb : cmd.cb = some (.client k)) (buf : Bytes) :
    (atcmdDone env g cmd buf).2.world = (env.callback k g.world cmd
      ((mlBuffer g).close (mlShape env (.client k)) (cstr buf))).world := by
  by_cases hlen : g.mlbufLen = 0
  · have hclose : (mlBuffer g).close (mlShape env (.client k)) (cstr buf) = some (cstr buf) :=
      if_neg (not_not.mpr hlen)
    rw [atcmdDone_empty env hcb hlen, unlinkBusy_world, hclose]
    exact callCb_world env g cmd k (some (cstr buf)) false
  · have hclose : (mlBuffer g).close (mlShape env (.client k)) (cstr buf) =
        (terminated g).mlbuf.string? 0 mlparseBufSize := if_pos hlen
    rw [atcmdDone_text env hcb hlen, unlinkBusy_world, hclose]
    exact callCb_world env (terminated g) cmd k _ true

theorem OkLine.final {cb : AtcmdCb κ} {buf : Bytes} (hl : OkLine env g.v0 cmd buf)
    (h : Executes cb cmd g) : finalResult env g buf = some (some 0, none) := by
  unfold finalResult
  rw [if_neg hl.ready, if_neg (fun he => hl.echo (h.echo_iff.mp he)), if_neg hl.extended, hl.result]

theorem okLine_world (h : Executes (.client k) cmd g) {buf : Bytes}
    (hl : OkLine env g.v0 cmd buf) :
    (mlParse env g buf).2.world = (env.callback k g.world { cmd with ret := 0 }
      ((mlBuffer g).close (mlShape env (.client k)) (cstr buf))).world := by
  obtain ⟨busy, hb⟩ := List.head?_eq_some_iff.mp h.busy
  rw [mlParse_final env g (hl.final h), finalCb, hb]
  exact atcmdDone_world env g
    (show ({ cmd with ret := 0 } : GsmdAtcmd κ).cb = some (.client k) from h.cb) buf

theorem answer_strings (h : Executes (.client k) cmd g) {lines : List Bytes}
    (hlines : ∀ buf ∈ lines, AnswerLine env g.v0 cmd buf) {final : Bytes}
    (hfinal : OkLine env g.v0 cmd final) :
    (receive env g (lines ++ [final])).world = exchange env k cmd g.world
      ((mlBuffer g).strings (mlShape env (.client k)) (mark env lines) (cstr final)) := by
  obtain ⟨hexec, hv0, hbuf, hworld⟩ := receive_answerLines h hlines
  rw [← hv0] at hfinal
  have hlast := okLine_world hexec hfinal
  rw [LineBuffer.strings, exchange_append, ← hworld, ← hbuf, receive, List.foldl_append]
  exact hlast

theorem mark_ne_nil (h : Executes (.client k) cmd g) {lines : List Bytes}
    (hlines : ∀ buf ∈ lines, AnswerLine env g.v0 cmd buf) :
    ∀ line ∈ mark env lines, line.2 ≠ [] := by
  intro line hline
  obtain ⟨buf, hbuf, rfl⟩ := List.mem_map.mp hline
  exact ((hlines buf hbuf).info h).ne_nil

theorem answer_world (h : Executes (.client k) cmd g) (hlen : g.mlbufLen = 0) {lines : List Bytes}
    (hlines : ∀ buf ∈ lines, AnswerLine env g.v0 cmd buf) {final : Bytes}
    (hfinal : OkLine env g.v0 cmd final) :
    (receive env g (lines ++ [final])).world = exchange env k cmd g.world
      (LineBuffer.spoken (mlShape env (.client k)) g.mlbuf (cstr final) (infoTexts env lines)) := by
  rw [answer_strings h hlines hfinal,
    mlBuffer_spoken env (.client k) g hlen (mark_ne_nil h hlines)]

def listNames : List Bytes := [ascii "+CMGL", ascii "+CPBR", ascii "+CPBF"]

theorem listNames_five : ∀ name ∈ listNames, name.length = 5 := by decide

theorem listNames_plus : ∀ name ∈ listNames, name.head? = some 43 := by decide

theorem listNames_plain : ∀ name ∈ listNames, ∀ c ∈ name, c ≠ 0 ∧ c ≠ 58 := by
  have hall : (listNames.all fun name => name.all fun c => c ≠ 0 && c ≠ 58) = true := rfl
  simpa using hall

theorem listNames_no_error : ∀ name ∈ listNames, (name.drop 1).take 3 ≠ ascii "CME" ∧
    (name.drop 1).take 3 ≠ ascii "CMS" := by decide

theorem strncmp_head {a b : Bytes} {n m : ℕ} (hm : m ≤ n) (h : strncmp a b n) :
    (cstr a).take m = (cstr b).take m := by
  have htake := congrArg (List.take m) h
  rwa [List.take_take, List.take_take, min_eq_left hm] at htake

theorem named_answers {v0 : Bool} {name args more buf : Bytes} (hname : name ∈ listNames)
    (hcmd : cmd.buf = ascii "AT" ++ (name ++ args)) (hbuf : cstr buf = name ++ 58 :: more) :
    AnswerLine env v0 cmd buf := by
  have hfive := listNames_five name hname
  have hplain := listNames_plain name hname
  obtain ⟨rest, hrest⟩ : ∃ rest, name = 43 :: rest := by
    have hplus := listNames_plus name hname
    cases name with
    | nil => cases hplus
    | cons c rest => exact ⟨rest, by rw [Option.some.inj hplus]⟩
  have hhead : (cstr buf).head? = some 43 := by
    rw [hbuf, hrest]
    rfl
  have hcolon : strchr buf 58 = some 5 := by
    have hnone : name.findIdx? (· = 58) = none := by
      rw [List.findIdx?_eq_none_iff]
      intro c hc
      simpa using (hplain c hc).2
    rw [strchr, hbuf, List.findIdx?_append, hnone, hfive]
    rfl
  have herror : ∀ text : Bytes, (name.drop 1).take 3 ≠ (cstr text).take 3 →
      ¬ strncmp ((cstr buf).drop 1) text 9 := by
    intro text hne h
    have hno : ∀ c ∈ name.drop 1, c ≠ 0 := fun c hc => (hplain c (List.mem_of_mem_drop hc)).1
    have htake := strncmp_head (by decide : 3 ≤ 9) h
    rw [hbuf, List.drop_append_of_le_length (by omega), cstr_append hno,
      List.take_append_of_le_length (by rw [List.length_drop]; omega)] at htake
    exact hne htake
  have hcmdhead : (cstr cmd.buf).head? = some 65 := by
    rw [hcmd, cstr_append (no_nul_of_all rfl)]
    rfl
  refine ⟨?_, ?_, ?_⟩
  · rintro (hnil | hready)
    · rw [hnil] at hhead
      cases hhead
    · rw [hready] at hhead
      exact absurd hhead (by decide)
  · intro hecho
    rw [hecho, hcmdhead] at hhead
    exact absurd hhead (by decide)
  rw [if_pos ⟨43, hhead, Or.inl rfl⟩]
  refine ⟨⟨5, hcolon, ?_⟩, ?_, ?_⟩
  · have hdrop : cmd.buf.drop 2 = name ++ args := by rw [hcmd]; rfl
    rw [prefixMatches, hdrop, strncmp, hbuf, cstr_append (fun c hc => (hplain c hc).1), ← hfive,
      List.take_left, List.take_left]
  · obtain ⟨hcme, hcms⟩ := listNames_no_error name hname
    rw [extendedResult, hcolon]
    dsimp only
    rw [if_neg (herror (ascii "CME ERROR") hcme), if_neg (herror (ascii "CMS ERROR") hcms)]
  · left
    rw [hcmd, hrest]
    rfl

end SystemTestSuite.GsmDaemon
