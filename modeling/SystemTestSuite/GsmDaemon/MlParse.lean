import SystemTestSuite.GsmDaemon.Atcmd

/-!
The mid-level parser of `gsmd/atcmd.c` and the hand-over to `unsolicited.c`. A line is the
`len` bytes the low-level parser delivers; the string functions stop at the first NUL.
-/

namespace SystemTestSuite.GsmDaemon

open Library

def ENOENT : ℤ := 2
def EAGAIN : ℤ := 11
def EINVAL : ℤ := 22
def ENOMEM : ℤ := 12

/-- What a callback or a handler outside this layer does: its return value, the state it
leaves, and the commands it submits on the way. -/
structure Reaction (κ ω : Type) where
  rc : ℤ
  world : ω
  submits : List (FilledAtcmd κ)

structure GsmdUnsolicit (κ ω : Type) where
  pfx : Bytes
  parse : ω → Bytes → ℕ → Reaction κ ω

/-- The rest of the daemon as this layer sees it. `scribble` is what a callback leaves of a text
it was given in `mlbuf` (some run `strtok` on it), `initsettings` the command of
`gsmd_initsettings`. -/
structure Env (κ ω : Type) where
  extChars : Bytes
  unsolicit : List (GsmdUnsolicit κ ω)
  callback : κ → ω → GsmdAtcmd κ → Option Bytes → Reaction κ ω
  scribble : κ → Bytes → Bytes
  initsettings : FilledAtcmd κ
  generateEventFromCme : ω → ℤ → ω
  generateEventFromCms : ω → ℤ → ω

variable {κ ω : Type}

def react (g : Gsmd κ ω) (r : Reaction κ ω) : Gsmd κ ω :=
  r.submits.foldl atcmdSubmit { g with world := r.world }

def unsolicitedParse (env : Env κ ω) (g : Gsmd κ ω) (buf : Bytes) (len : ℕ) : ℤ × Gsmd κ ω :=
  match env.unsolicit.find? (fun i => strncmp (cstr buf) i.pfx i.pfx.length) with
  | none => (-ENOENT, g)
  | some i =>
    let r := i.parse g.world (cstr buf) len
    let g := react g r
    (r.rc, if r.rc = -EAGAIN then g else g.emit (.unsolicited (cstr buf)))

def mlbufText (g : Gsmd κ ω) : Bytes := g.mlbuf.text mlparseBufSize

/-- A call of `cmd->cb`; `inMlbuf` tells whether the text it may write to lies in `mlbuf`. -/
def callCb (env : Env κ ω) (g : Gsmd κ ω) (cmd : GsmdAtcmd κ) (cb : AtcmdCb κ)
    (resp : Option Bytes) (inMlbuf : Bool) : ℤ × Gsmd κ ω :=
  let g := g.emit (.call cmd.serial resp cmd.ret)
  match cb with
  | .nullWakeupCb => (0, nullWakeupCb g)
  | .client k =>
    let r := env.callback k g.world cmd resp
    let g := react g r
    match resp with
    | some text =>
      let left := (env.scribble k text).take text.length
      (r.rc, if inMlbuf then { g with mlbuf := g.mlbuf.store 0 left } else g)
    | none => (r.rc, g)

/-- `cmd` is the head of `busy_atcmds`. -/
def atcmdDone (env : Env κ ω) (g : Gsmd κ ω) (cmd : GsmdAtcmd κ) (buf : Bytes) :
    ℤ × Gsmd κ ω :=
  let r : ℤ × Gsmd κ ω :=
    match cmd.cb with
    | none => (0, g)
    | some cb =>
      let called :=
        if g.mlbufLen ≠ 0 then
          let g := { g with mlbuf := g.mlbuf.store g.mlbufLen [0] }
          callCb env g cmd cb (g.mlbuf.string? 0 mlparseBufSize) true
        else callCb env g cmd cb (some (cstr buf)) false
      (called.1, { called.2 with mlbufLen := 0 })
  let g := { r.2 with busyAtcmds := r.2.busyAtcmds.tail }.emit (.finish cmd.serial)
  (r.1, if g.busyAtcmds = [] ∧ g.pendingAtcmds ≠ [] then g.atcmdWakePendingQueue else g)

inductive FinalError where
  | cme | cms
  deriving DecidableEq, Repr

def generateErrorEvent (env : Env κ ω) (g : Gsmd κ ω) (ret : ℤ) : Option FinalError → Gsmd κ ω
  | some .cme => { g with world := env.generateEventFromCme g.world ret }.emit (.cmeEvent ret)
  | some .cms => { g with world := env.generateEventFromCms g.world ret }.emit (.cmsEvent ret)
  | none => g

/-- The label `final_cb` of `ml_parse`; `ret` is the new `cmd->ret`, if it is set. -/
def finalCb (env : Env κ ω) (g : Gsmd κ ω) (buf : Bytes) (ret : Option ℤ)
    (err : Option FinalError) : ℤ × Gsmd κ ω :=
  match g.busyAtcmds with
  | [] => (0, g)
  | cmd :: _ =>
    let cmd := { cmd with ret := ret.getD cmd.ret }
    atcmdDone env (generateErrorEvent env g cmd.ret err) cmd buf

/-- The end of `ml_parse`: the line goes to `mlbuf`, and from there to the unsolicited parsers
when its first line has asked for more. The room is computed in `unsigned int`. -/
def mlAppend (env : Env κ ω) (g : Gsmd κ ω) (rc : ℤ) (buf : Bytes) : ℤ × Gsmd κ ω :=
  let g := if g.mlbufLen ≠ 0 then
      { g with mlbuf := g.mlbuf.store g.mlbufLen [LF], mlbufLen := g.mlbufLen + 1 }
    else g
  let room := (mlparseBufSize + 2 ^ 32 - g.mlbufLen) % 2 ^ 32
  let text := buf.take room
  let g := { g with
    mlbuf := g.mlbuf.store g.mlbufLen text
    mlbufLen := g.mlbufLen + text.length }
  if g.mlunsolicited then
    let r := unsolicitedParse env g (mlbufText g) g.mlbufLen
    if r.1 = -EAGAIN then (0, r.2)
    else (r.1, { r.2 with mlunsolicited := false, mlbufLen := 0 })
  else (rc, g)

/-- Only a command that starts with an extension character gets extended responses; the byte
behind a shorter command text is taken to be NUL. -/
def takesExtended (env : Env κ ω) (cmd : GsmdAtcmd κ) : Prop :=
  cmd.buf[2]?.getD 0 = 43 ∨ strchrFinds env.extChars (cmd.buf[2]?.getD 0)

instance (env : Env κ ω) (cmd : GsmdAtcmd κ) : Decidable (takesExtended env cmd) :=
  inferInstanceAs (Decidable (_ ∨ _))

def mlResponse (env : Env κ ω) (g : Gsmd κ ω) (rc : ℤ) (buf : Bytes) : ℤ × Gsmd κ ω :=
  match g.busyAtcmds with
  | [] => mlAppend env g rc buf
  | cmd :: _ =>
    if ¬ takesExtended env cmd then (-EINVAL, g)
    else if g.mlbufLen ≠ 0 then
      match cmd.cb with
      | none => mlAppend env { g with mlbufLen := 0 } rc buf
      | some cb =>
        -- no terminator is stored on this path
        let r := callCb env g cmd cb (g.mlbuf.string? 0 mlparseBufSize) true
        mlAppend env { r.2 with mlbufLen := 0 } r.1 buf
    else mlAppend env g rc buf

def prefixMatches (buf : Bytes) (colon : ℕ) (cmd : GsmdAtcmd κ) : Prop :=
  strncmp buf (cmd.buf.drop 2) colon

instance (buf : Bytes) (colon : ℕ) (cmd : GsmdAtcmd κ) : Decidable (prefixMatches buf colon cmd) :=
  inferInstanceAs (Decidable (strncmp _ _ _))

def mlExtended (env : Env κ ω) (g : Gsmd κ ω) (buf : Bytes) : ℤ × Gsmd κ ω :=
  match strchr buf 58 with
  | none => (-EINVAL, g)
  | some colon =>
    let errNr := toInt32 (strtoul ((cstr buf).drop (colon + 1))).1
    if strncmp ((cstr buf).drop 1) (ascii "CME ERROR") 9 then
      finalCb env g buf (some errNr) (some .cme)
    else if strncmp ((cstr buf).drop 1) (ascii "CMS ERROR") 9 then
      finalCb env g buf (some errNr) (some .cms)
    else if (g.busyAtcmds.head?.any fun cmd => prefixMatches buf colon cmd) then
      mlResponse env g 0 buf
    else
      let r := unsolicitedParse env g buf buf.length
      if r.1 = -EAGAIN then
        (0, { r.2 with
          mlbufLen := buf.length
          mlbuf := r.2.mlbuf.store 0 buf
          mlunsolicited := true })
      else if r.1 ≠ -ENOENT then r
      else mlResponse env r.2 r.1 buf

def ringLine (v0 : Bool) (buf : Bytes) : Prop :=
  cstr buf = ascii "RING" ∨ v0 = true ∧ (cstr buf).head? = some 50

instance (v0 : Bool) (buf : Bytes) : Decidable (ringLine v0 buf) :=
  inferInstanceAs (Decidable (_ ∨ _))

def mlBasic (env : Env κ ω) (g : Gsmd κ ω) (buf : Bytes) : ℤ × Gsmd κ ω :=
  let digit (c : UInt8) : Prop := g.v0 = true ∧ (cstr buf).head? = some c
  if ringLine g.v0 buf then unsolicitedParse env g buf buf.length
  else if cstr buf = ascii "ERROR" ∨ digit 52 then finalCb env g buf (some 4) none
  else if strncmp buf (ascii "OK") 2 ∨ digit 48 then finalCb env g buf (some 0) none
  else if strncmp buf (ascii "NO CARRIER") 11 ∨ digit 51 then finalCb env g buf none none
  else if strncmp buf (ascii "BUSY") 4 ∨ digit 55 then finalCb env g buf none none
  else mlAppend env g 0 buf

def extendedLine (env : Env κ ω) (buf : Bytes) : Prop :=
  ∃ c, (cstr buf).head? = some c ∧ (c = 43 ∨ strchrFinds env.extChars c)

instance (env : Env κ ω) (buf : Bytes) : Decidable (extendedLine env buf) :=
  match h : (cstr buf).head? with
  | none => .isFalse (by simp [extendedLine, h])
  | some c => decidable_of_iff (c = 43 ∨ strchrFinds env.extChars c) (by simp [extendedLine, h])

def readyLine (buf : Bytes) : Prop :=
  cstr buf = [] ∨ cstr buf = ascii "AT-Command Interpreter ready"

instance (buf : Bytes) : Decidable (readyLine buf) := inferInstanceAs (Decidable (_ ∨ _))

def echoLine (g : Gsmd κ ω) (buf : Bytes) : Prop :=
  (g.busyAtcmds.head?.any fun cmd => cstr buf = cstr cmd.buf) = true

instance (g : Gsmd κ ω) (buf : Bytes) : Decidable (echoLine g buf) :=
  inferInstanceAs (Decidable (_ = true))

def mlParse (env : Env κ ω) (g : Gsmd κ ω) (buf : Bytes) : ℤ × Gsmd κ ω :=
  if readyLine buf then (0, atcmdSubmit { g with interpreterReady := true } env.initsettings)
  else if echoLine g buf then (0, g)
  else if extendedLine env buf then mlExtended env g buf
  else mlBasic env g buf

def cancelAtcmd (env : Env κ ω) (g : Gsmd κ ω) (cmd : FilledAtcmd κ) : ℤ × Gsmd κ ω :=
  match g.busyAtcmds with
  | [] => (0, atcmdSubmit g cmd)
  | cur :: _ =>
    let g := if g.mlbufLen ≠ 0 then { g with mlbufLen := 0 } else g
    let g := { g with
      pendingAtcmds := cmd.client.queued g.serial :: g.pendingAtcmds
      serial := g.serial + 1
      log := g.log ++ [.submit g.serial cmd.client.cb cmd.buf] }
    atcmdDone env g cur (ascii "OK")

end SystemTestSuite.GsmDaemon
