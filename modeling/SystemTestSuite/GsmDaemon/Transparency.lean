import SystemTestSuite.GsmDaemon.SecondLine
import SystemTestSuite.Library.LineLoss

namespace SystemTestSuite.GsmDaemon

open Library

variable {κ ω : Type} {env : Env κ ω} {cb : AtcmdCb κ} {cmd : GsmdAtcmd κ} {g g' : Gsmd κ ω}

def OwnLine (env : Env κ ω) (v0 : Bool) (cmd : GsmdAtcmd κ) (buf : Bytes) : Prop :=
  ¬ readyLine buf ∧ cstr buf ≠ cstr cmd.buf ∧
    if extendedLine env buf then
      (∃ colon ∈ strchr buf 58, prefixMatches buf colon cmd ∨
        (env.unsolicit.find? (fun i => strncmp (cstr buf) i.pfx i.pfx.length)).isNone = true) ∧
      extendedResult buf = none ∧ takesExtended env cmd
    else ¬ ringLine v0 buf ∧ basicResult v0 buf = none

instance (env : Env κ ω) (v0 : Bool) (cmd : GsmdAtcmd κ) (buf : Bytes) :
    Decidable (OwnLine env v0 cmd buf) :=
  inferInstanceAs (Decidable (¬ readyLine buf ∧ cstr buf ≠ cstr cmd.buf ∧
    if extendedLine env buf then
      (∃ colon ∈ strchr buf 58, prefixMatches buf colon cmd ∨
        (env.unsolicit.find? (fun i => strncmp (cstr buf) i.pfx i.pfx.length)).isNone = true) ∧
      extendedResult buf = none ∧ takesExtended env cmd
    else ¬ ringLine v0 buf ∧ basicResult v0 buf = none))

theorem OwnLine.info {buf : Bytes} (h : OwnLine env g.v0 cmd buf) (hexec : Executes cb cmd g) :
    InfoLine env g buf := by
  obtain ⟨hready, hecho, hline⟩ := h
  refine ⟨hready, by simpa [echoLine, hexec.busy] using hecho, ?_⟩
  split_ifs at hline ⊢ with hext
  · obtain ⟨⟨colon, hcolon, hown⟩, hnone, htake⟩ := hline
    refine ⟨⟨⟨colon, hcolon, ?_⟩, hnone⟩, by simpa [hexec.busy] using htake⟩
    rcases hown with hmatch | hfree
    · exact Or.inl (by simpa [hexec.busy] using hmatch)
    · refine Or.inr ?_
      rw [unsolicitedParse, Option.isNone_iff_eq_none.mp hfree]
  · exact hline

theorem ownLines_info {lines : List Bytes} (hexec : Executes cb cmd g)
    (h : ∀ buf ∈ lines, OwnLine env g.v0 cmd buf) : InfoLines env g lines := by
  induction lines generalizing g with
  | nil => trivial
  | cons buf lines ih =>
    have hinfo := (h buf (by simp)).info hexec
    have hs := infoLine_steps env hexec hinfo
    refine ⟨hinfo, ih (hs.executes hexec) (fun line hline => ?_)⟩
    rw [hs.v0]
    exact h line (by simp [hline])

theorem finalResult_congr {buf : Bytes} (hv : g'.v0 = g.v0)
    (hb : g'.busyAtcmds.head? = g.busyAtcmds.head?) :
    finalResult env g' buf = finalResult env g buf := by
  have hecho : echoLine g' buf ↔ echoLine g buf := by rw [echoLine, echoLine, hb]
  simp only [finalResult, hv, hecho]

theorem PlainLine.congr {buf : Bytes} (hv : g'.v0 = g.v0) (hb : g'.busyAtcmds = g.busyAtcmds) :
    PlainLine env g' buf ↔ PlainLine env g buf := by
  have hecho : echoLine g' buf ↔ echoLine g buf := by rw [echoLine, echoLine, hb]
  constructor
  · rintro ⟨hready, hnecho, hext, hring, hfinal⟩
    exact ⟨hready, fun h => hnecho (hecho.mpr h), hext, hv ▸ hring, hv ▸ hfinal⟩
  · rintro ⟨hready, hnecho, hext, hring, hfinal⟩
    exact ⟨hready, fun h => hnecho (hecho.mp h), hext, hv ▸ hring, hv ▸ hfinal⟩

theorem SameTurn.executes (h : SameTurn g g') (huns : g'.mlunsolicited = false)
    (hexec : Executes cb cmd g) : Executes cb cmd g' :=
  ⟨by rw [h.busy, hexec.busy], hexec.cb, huns⟩

theorem receive_append (env : Env κ ω) (g : Gsmd κ ω) (lines more : List Bytes) :
    receive env g (lines ++ more) = receive env (receive env g lines) more := List.foldl_append

theorem receive_same_iff (hexec : Executes cb cmd g) (hturn : SameTurn g g')
    (huns : g'.mlunsolicited = false) {lines : List Bytes}
    (hown : ∀ buf ∈ lines, OwnLine env g.v0 cmd buf) {final : Bytes}
    (hfinal : finalResult env g final ≠ none) :
    calls (receive env g' (lines ++ [final])) = calls (receive env g (lines ++ [final])) ↔
      (mlBuffer g').strings (mlShape env cb) (mark env lines) (cstr final) =
        (mlBuffer g).strings (mlShape env cb) (mark env lines) (cstr final) := by
  have hexec' := hturn.executes huns hexec
  have hinfo := ownLines_info hexec hown
  have hinfo' : InfoLines env g' lines := ownLines_info hexec' (by rwa [hturn.v0])
  have hrec := receive_infoLines hexec hinfo
  have hrec' := receive_infoLines hexec' hinfo'
  obtain ⟨r, hr⟩ := Option.ne_none_iff_exists'.mp hfinal
  have hr₁ : finalResult env (receive env g lines) final = some r :=
    (finalResult_congr hrec.v0 (hrec.executes.busy.trans hexec.busy.symm)).trans hr
  have hr₂ : finalResult env (receive env g' lines) final = some r :=
    (finalResult_congr (hrec'.v0.trans hturn.v0)
      (hrec'.executes.busy.trans hexec.busy.symm)).trans hr
  have hinj : Function.Injective (fun resp : Option Bytes => (cmd.serial, resp, cmd.ret)) :=
    fun _ _ heq => (Prod.mk.inj (Prod.mk.inj heq).2).1
  rw [receive_calls hexec hinfo hr₁, receive_calls hexec' hinfo' hr₂, hturn.calls,
    List.append_assoc, List.append_assoc, List.append_cancel_left_eq, LineBuffer.strings,
    LineBuffer.strings]
  constructor
  · intro heq
    obtain ⟨hmap, hlast⟩ := List.append_inj' heq (by simp)
    have hclose := (Prod.mk.inj (Prod.mk.inj (List.cons.inj hlast).1).2).1
    rw [hinj.list_map hmap, hclose]
  · intro heq
    obtain ⟨hrun, hlast⟩ := List.append_inj' heq (by simp)
    rw [hrun, (List.cons.inj hlast).1]

def Transparent (env : Env κ ω) (g : Gsmd κ ω) (pre msg : List Bytes) (text : Bytes)
    (post : List Bytes) (final : Bytes) : Prop :=
  calls (receive env g (pre ++ msg ++ post ++ [final])) =
      calls (receive env g (pre ++ post ++ [final])) ∧
    dispatches (receive env g (pre ++ msg)) = dispatches (receive env g pre) ++ [text]

/-- What was in `mlbuf` when the header overwrote it makes no difference to the lines that
follow. -/
def Recovers (env : Env κ ω) (cb : AtcmdCb κ) (g : Gsmd κ ω) (text : Bytes) (post : List Bytes)
    (final : Bytes) : Prop :=
  if g.mlbufLen = 0 then
    LineBuffer.SameTails (mlShape env cb) g.mlbuf (g.mlbuf.store 0 text) (infoTexts env post)
  else
    LineBuffer.NoLoss (mlShape env cb) g.mlbuf (g.mlbuf.store 0 text)
      (g.mlbuf.slice 0 g.mlbufLen) (cstr final) (mark env post)

/-- Messages of one line do no harm. A second line must not pass for another line, it must be
followed by a NUL in `mlbuf`, and there must be nothing to lose there. -/
def Harmless (env : Env κ ω) (cb : AtcmdCb κ) (g : Gsmd κ ω) (msg post : List Bytes)
    (final : Bytes) : Prop :=
  match msg with
  | [buf, pdu] => PlainLine env g pdu ∧ Stands g.mlbuf (buf ++ LF :: pdu) ∧
      Recovers env cb g (buf ++ LF :: pdu) post final
  | _ => True

theorem strings_recover_iff (hno : NoNul g) {text : Bytes}
    (hdone : MessageDone g.mlbuf text g g') {post : List Bytes}
    (hpost : ∀ line ∈ mark env post, line.2 ≠ []) (final : Bytes) :
    (mlBuffer g').strings (mlShape env cb) (mark env post) (cstr final) =
        (mlBuffer g).strings (mlShape env cb) (mark env post) (cstr final) ↔
      Recovers env cb g text post final := by
  have hholds : LineBuffer.Holds (mlShape env cb) (g.mlbuf.store 0 text) (mlBuffer g') [] := by
    rw [mlBuffer, hdone.mlbufLen]
    exact .congr hdone.mlbuf
  rw [LineBuffer.strings_eq hpost hholds, Recovers, eq_comm]
  split_ifs with hlen
  · rw [mlBuffer_spoken env cb g hlen hpost]
    exact LineBuffer.spoken_same_iff _ _ (cstr final) (infoTexts env post)
  · have hone := LineBuffer.holds_one (S := mlShape env cb) (mlBuffer g) hlen
    have hjoin : joinLines (mlShape env cb).sep [g.mlbuf.slice 0 g.mlbufLen] =
        g.mlbuf.slice 0 g.mlbufLen := LineBuffer.joinLines_singleton _ _
    have hiff := LineBuffer.spoken_noLoss_iff (S := mlShape env cb) (by decide : LF ≠ 0) g.mlbuf
      (g.mlbuf.store 0 text) (cstr final) (List.cons_ne_nil _ _) (by rwa [hjoin]) (mark env post)
    rw [hjoin] at hiff
    rw [LineBuffer.strings_eq hpost hone]
    exact hiff

theorem oneLine_transparent (hexec : Executes cb cmd g) {buf : Bytes}
    (hparse : (mlParse env g buf).2 = (unsolicitedParse env g buf buf.length).2)
    (hdone : Dispatched env g buf buf.length) {post : List Bytes}
    (hown : ∀ buf ∈ post, OwnLine env g.v0 cmd buf) {final : Bytes}
    (hfinal : finalResult env g final ≠ none) :
    Transparent env g [] [buf] (cstr buf) post final := by
  have ht := unsolicitedParse_text env g buf buf.length
  have hbuf : mlBuffer (unsolicitedParse env g buf buf.length).2 = mlBuffer g := by
    rw [mlBuffer, ht.mlbuf, ht.mlbufLen, mlBuffer]
  have hafter : receive env g [buf] = (unsolicitedParse env g buf buf.length).2 := hparse
  constructor
  · rw [List.nil_append, List.nil_append, List.append_assoc, receive_append, hafter,
      receive_same_iff hexec ht.turn (ht.mlunsolicited.trans hexec.mlunsolicited) hown hfinal, hbuf]
  · rw [List.nil_append, hafter, unsolicitedParse_dispatches, if_pos hdone]
    rfl

theorem twoLine_transparent_iff (hexec : Executes cb cmd g) (hno : NoNul g) {buf pdu : Bytes}
    (hforeign : Foreign env g buf) (hagain : (unsolicitedParse env g buf buf.length).1 = -EAGAIN)
    (hready : ¬ readyLine pdu) (hext : ¬ extendedLine env pdu)
    (hdone : Dispatched env (mlParse env g buf).2 (buf ++ LF :: pdu) (buf ++ LF :: pdu).length)
    {post : List Bytes} (hown : ∀ buf ∈ post, OwnLine env g.v0 cmd buf) {final : Bytes}
    (hfinal : finalResult env g final ≠ none) :
    Transparent env g [] [buf, pdu] (buf ++ LF :: pdu) post final ↔
      Harmless env cb g [buf, pdu] post final := by
  obtain ⟨hturn, huns, hbuffer, hdisp⟩ := header_turn hforeign hagain
  have hne : buf ≠ [] := fun hnil => hforeign.ready (Or.inl (by rw [hnil]; rfl))
  have hwaits : Waits g.mlbuf buf (mlParse env g buf).2 := ⟨hne, huns, hbuffer⟩
  have hafter : receive env g [buf, pdu] = (mlParse env (mlParse env g buf).2 pdu).2 := rfl
  have hnil : receive env g [] = g := rfl
  have hpost : ∀ line ∈ mark env post, line.2 ≠ [] := (ownLines_info hexec hown).ne_nil
  rw [Transparent, Harmless, List.nil_append, List.nil_append, List.append_assoc, receive_append,
    hafter, hnil, ← hdisp, ← PlainLine.congr hturn.v0 hturn.busy]
  by_cases hplain : PlainLine env (mlParse env g buf).2 pdu
  · rw [second_dispatches cb hwaits hplain hdone, and_comm, and_iff_right hplain]
    refine and_congr_right (fun hstands => ?_)
    have hmsg := second_done cb hwaits hplain hdone hstands
    have hdone' : MessageDone g.mlbuf (buf ++ LF :: pdu) g _ :=
      { hmsg with turn := hturn.trans hmsg.turn }
    rw [receive_same_iff hexec hdone'.turn hdone'.mlunsolicited hown hfinal]
    exact strings_recover_iff hno hdone' hpost final
  · exact iff_of_false (fun h => second_missed hready hext hplain h.2) (fun h => hplain h.1)

theorem transparent_append (env : Env κ ω) (g : Gsmd κ ω) (pre msg : List Bytes) (text : Bytes)
    (post : List Bytes) (final : Bytes) :
    Transparent env g pre msg text post final ↔
      Transparent env (receive env g pre) [] msg text post final := by
  have hnil : receive env (receive env g pre) [] = receive env g pre := rfl
  simp only [Transparent, List.append_assoc, receive_append, List.nil_append, hnil]

theorem transparent_iff_harmless (hexec : Executes cb cmd g) {pre : List Bytes}
    (hpre : ∀ buf ∈ pre, OwnLine env g.v0 cmd buf) (hno : NoNul (receive env g pre))
    {msg : List Bytes} {text : Bytes} (hmsg : Message env (receive env g pre) msg text)
    {post : List Bytes} (hpost : ∀ buf ∈ post, OwnLine env g.v0 cmd buf) {final : Bytes}
    (hfinal : finalResult env g final ≠ none) :
    Transparent env g pre msg text post final ↔
      Harmless env cb (receive env g pre) msg post final := by
  have hrec := receive_infoLines hexec (ownLines_info hexec hpre)
  have hown : ∀ buf ∈ post, OwnLine env (receive env g pre).v0 cmd buf := by rwa [hrec.v0]
  have hfinal' : finalResult env (receive env g pre) final ≠ none := by
    rwa [finalResult_congr hrec.v0 (hrec.executes.busy.trans hexec.busy.symm)]
  rw [transparent_append]
  cases hmsg with
  | @ring buf hready hecho hext hring hdone =>
    refine iff_of_true (oneLine_transparent hrec.executes ?_ hdone hown hfinal') trivial
    unfold mlParse mlBasic
    rw [if_neg hready, if_neg hecho, if_neg hext, if_pos hring]
  | @line buf hforeign hdone hrc =>
    refine iff_of_true (oneLine_transparent hrec.executes ?_ hdone hown hfinal') trivial
    rw [mlParse_foreign hforeign]
    dsimp only
    rw [if_neg hdone.2, if_pos hrc]
  | twoLine hforeign hagain hready hext hdone =>
    exact twoLine_transparent_iff hrec.executes hno hforeign hagain hready hext hdone hown hfinal'

/-- The start of `cmt_parse`; the PDU is taken to be good, with no user to be told. -/
def cmtParseStart (_ : Unit) (buf : Bytes) (_ : ℕ) : Reaction Unit Unit :=
  let param := (cstr buf).drop ((strchr buf 58).getD 0 + 2)
  match strchr param 44 with
  | none => ⟨-EINVAL, (), []⟩
  | some comma =>
    if (strtoul (param.drop (comma + 1))).2.head? = some LF then ⟨0, (), []⟩
    else ⟨-EAGAIN, (), []⟩

def smsEnv : Env Unit Unit := { idleEnv with unsolicit := [⟨ascii "+CMT", cmtParseStart⟩] }

def smsLines : List Bytes := [ascii "+CMT: ,23", ascii "07915892000000F001000B915892214365F7000021"]

def smsText : Bytes := ascii "+CMT: ,23\n07915892000000F001000B915892214365F7000021"

def entryLines : List Bytes := [ascii "+CPBR: 1,\"112\",129,\"Ada\""]

def smsState : Gsmd Unit Unit := (atMachine smsEnv).after gsmdInit readRun

theorem smsState_executes : Executes (.client ()) readHead smsState :=
  ⟨by decide, rfl, by decide⟩

theorem entryLines_own : ∀ buf ∈ entryLines, OwnLine smsEnv smsState.v0 readHead buf := by
  decide

theorem smsLines_message : Message smsEnv (receive smsEnv smsState entryLines) smsLines smsText :=
  .twoLine ⟨by decide, by decide, by decide, ⟨4, by decide, by decide⟩, by decide⟩ (by decide)
    (by decide) (by decide) (by decide)

theorem transparent_iff_harmless_cmt :
    Transparent smsEnv smsState entryLines smsLines smsText [] (ascii "OK") ↔
      Harmless smsEnv (.client ()) (receive smsEnv smsState entryLines) smsLines [] (ascii "OK") :=
  transparent_iff_harmless smsState_executes entryLines_own
    (mlParse_noNul (.of_empty (by decide)) (no_nul_of_cstr (by decide))) smsLines_message (by simp) (by decide)

theorem transparent_lost :
    (atMachine smsEnv).Run gsmdInit readRun smsState ∧
      Executes (.client ()) readHead smsState ∧
      (∀ buf ∈ entryLines, OwnLine smsEnv smsState.v0 readHead buf) ∧
      Message smsEnv (receive smsEnv smsState entryLines) smsLines smsText ∧
      finalResult smsEnv smsState (ascii "OK") ≠ none ∧
      ¬ Transparent smsEnv smsState entryLines smsLines smsText [] (ascii "OK") := by
  refine ⟨Machine.Checks.runWhile (by decide), smsState_executes, entryLines_own,
    smsLines_message, by decide, ?_⟩
  rintro ⟨hcalls, _⟩
  exact absurd hcalls (by decide)

end SystemTestSuite.GsmDaemon
