import SystemTestSuite.GsmDaemon.Llparse
import SystemTestSuite.Library.CString

/-!
The queues of AT commands of `gsmd/atcmd.c`. `κ` names the completion callbacks of the rest
of the daemon, `ω` is the state they work on. `log` records what the layer does to the outside:
it is written only, no branch reads it. Allocations are taken to succeed.
-/

namespace SystemTestSuite.GsmDaemon

open Library

def mlparseBufSize : ℕ := 65535

inductive AtcmdCb (κ : Type) where
  | nullWakeupCb
  | client (k : κ)
  deriving DecidableEq, Repr

/-- A command as `atcmd_fill` returns it, not queued yet. A caller may print another text into
`buf`, within its bounds. -/
structure FilledAtcmd (α : Type) where
  ctx : ℕ
  cb : Option α
  id : ℕ
  buf : Bytes
  terminated : buf.getLast? = some 0

/-- `serial` stands for the address of the block: no two commands share one. -/
structure GsmdAtcmd (κ : Type) where
  serial : ℕ
  ctx : ℕ
  cb : Option (AtcmdCb κ)
  ret : ℤ
  buflen : ℕ
  id : ℕ
  cur : ℕ
  buf : Bytes
  deriving DecidableEq, Repr

inductive Act (κ : Type) where
  | submit (serial : ℕ) (cb : Option (AtcmdCb κ)) (buf : Bytes)
  | write (serial cur : ℕ) (bytes : Bytes)
  | writeCr
  | prompt
  | call (serial : ℕ) (resp : Option Bytes) (ret : ℤ)
  | finish (serial : ℕ)
  | discard (serial : ℕ)
  | unsolicited (text : Bytes)
  | cmeEvent (number : ℤ)
  | cmsEvent (number : ℤ)
  deriving DecidableEq, Repr

/-- `fdWrite` is the bit `GSMD_FD_WRITE` of `gfd_uart.when`, `v0` the bit `GSMD_FLAG_V0` of
`flags`; `timers` are the registered wakeup timers and `serial` the next free address. -/
structure Gsmd (κ ω : Type) where
  v0 : Bool
  interpreterReady : Bool
  fdWrite : Bool
  pendingAtcmds : List (GsmdAtcmd κ)
  busyAtcmds : List (GsmdAtcmd κ)
  mlbuf : Memory
  mlbufLen : ℕ
  mlunsolicited : Bool
  wakeupTimer : Option ℕ
  timers : List ℕ
  world : ω
  serial : ℕ
  log : List (Act κ)

variable {κ ω α : Type}

/-- `none` when `buflen` is 0: the code then stores to `buf[-1]`. -/
def atcmdFill (cmd : Bytes) (rlen : ℕ) (cb : Option α) (ctx id : ℕ) : Option (FilledAtcmd α) :=
  let buflen := if rlen > (cstr cmd).length then rlen else (cstr cmd).length
  if buflen = 0 then none
  else some ⟨ctx, cb, id, strncpy cmd (buflen - 1) ++ [0], by simp⟩

def filledText (text : Bytes) (cb : Option α) : FilledAtcmd α := ⟨0, cb, 0, text ++ [0], by simp⟩

def FilledAtcmd.client (c : FilledAtcmd κ) : FilledAtcmd (AtcmdCb κ) :=
  ⟨c.ctx, c.cb.map .client, c.id, c.buf, c.terminated⟩

def FilledAtcmd.queued (c : FilledAtcmd (AtcmdCb κ)) (serial : ℕ) : GsmdAtcmd κ :=
  { serial, ctx := c.ctx, cb := c.cb, ret := -255, buflen := c.buf.length, id := c.id, cur := 0,
    buf := c.buf }

def GsmdAtcmd.unsent (cmd : GsmdAtcmd κ) : Bytes := cstr (cmd.buf.drop cmd.cur)

def GsmdAtcmd.lineLen (cmd : GsmdAtcmd κ) : ℕ :=
  match strchr cmd.unsent LF with
  | some cr => cr
  | none => cmd.buflen - 1

namespace Gsmd

def emit (g : Gsmd κ ω) (a : Act κ) : Gsmd κ ω := { g with log := g.log ++ [a] }

def atcmdWakePendingQueue (g : Gsmd κ ω) : Gsmd κ ω := { g with fdWrite := true }

def atcmdWaitPendingQueue (g : Gsmd κ ω) : Gsmd κ ω := { g with fdWrite := false }

def addPending (g : Gsmd κ ω) (c : FilledAtcmd (AtcmdCb κ)) : Gsmd κ ω :=
  { g with
    pendingAtcmds := g.pendingAtcmds ++ [c.queued g.serial]
    serial := g.serial + 1
    log := g.log ++ [.submit g.serial c.cb c.buf] }

end Gsmd

def gsmdCtx : ℕ := 0

def wakeupAtcmd : FilledAtcmd (AtcmdCb κ) := ⟨gsmdCtx, some .nullWakeupCb, 0, [SP, 0], rfl⟩

theorem wakeupAtcmd_fill :
    atcmdFill (ascii " \r") 2 (some (.nullWakeupCb : AtcmdCb κ)) gsmdCtx 0 = some wakeupAtcmd := rfl

def wakeupTimerStart (g : Gsmd κ ω) : Gsmd κ ω :=
  { g with
    wakeupTimer := some g.serial
    timers := g.timers ++ [g.serial]
    serial := g.serial + 1 }

def atcmdWakeupModem (g : Gsmd κ ω) : Gsmd κ ω :=
  if g.wakeupTimer = none then
    let g := wakeupTimerStart g
    let g := if g.pendingAtcmds = [] then g.atcmdWakePendingQueue else g
    g.addPending wakeupAtcmd
  else g

def atcmdSubmit (g : Gsmd κ ω) (cmd : FilledAtcmd κ) : Gsmd κ ω :=
  let g := atcmdWakeupModem g
  let g' := g.addPending cmd.client
  if g.pendingAtcmds = [] then g'.atcmdWakePendingQueue else g'

def nullWakeupCb (g : Gsmd κ ω) : Gsmd κ ω :=
  match g.wakeupTimer with
  | some tmr => { g with timers := g.timers.erase tmr, wakeupTimer := none }
  | none => g

inductive WriteRc where
  | error
  | wrote (n : ℕ)
  deriving DecidableEq, Repr

/-- The write half of `atcmd_select_cb`. The loop over `pending_atcmds` never gets past its
first command. `crDone` tells whether the unchecked write of the CR succeeds. -/
def atcmdSelectWrite (g : Gsmd κ ω) (rc : WriteRc) (crDone : Bool) : Gsmd κ ω :=
  if g.interpreterReady then
    match g.pendingAtcmds with
    | [] => g.atcmdWaitPendingQueue
    | pos :: rest =>
      match rc with
      | .error => g
      | .wrote 0 => g.atcmdWaitPendingQueue
      | .wrote (n + 1) =>
        let len := pos.lineLen
        -- skip the LF or the NUL
        let rc := if strchr pos.unsent LF = none ∨ n + 1 = len then n + 2 else n + 1
        let pos' := { pos with buflen := pos.buflen - rc, cur := pos.cur + rc }
        let g := g.emit (.write pos.serial pos.cur ((pos.buf.drop pos.cur).take (n + 1)))
        let g := if crDone then g.emit .writeCr else g
        if pos'.buflen = 0 then
          { g with
            pendingAtcmds := rest
            busyAtcmds := g.busyAtcmds ++ [pos'] }.atcmdWaitPendingQueue
        else if rc < len then { g with pendingAtcmds := pos' :: rest }
        else { g with pendingAtcmds := pos' :: rest }.atcmdWaitPendingQueue
  else g

def atcmdPrompt (g : Gsmd κ ω) : Gsmd κ ω := (g.emit .prompt).atcmdWakePendingQueue

def wakeupTimeout (g : Gsmd κ ω) (tmr : ℕ) : Gsmd κ ω :=
  if g.wakeupTimer ≠ some tmr then g
  else
    let g := { g with wakeupTimer := none }
    match g.busyAtcmds with
    | [] => g
    | cmd :: busy =>
      if cmd.buf.head? = some SP then
        let g := { g with busyAtcmds := busy }.emit (.discard cmd.serial)
        if busy = [] ∧ g.pendingAtcmds ≠ [] then g.atcmdWakePendingQueue else g
      else g

/-- `gsmd_timer_check_n_run` unlinks a timer and then calls it. -/
def timerExpire (g : Gsmd κ ω) (tmr : ℕ) : Gsmd κ ω :=
  wakeupTimeout { g with timers := g.timers.erase tmr } tmr

/-- `main` and `atcmd_init` up to the first event; `mlbuf` is fresh from the allocator. -/
structure AtcmdInit (g : Gsmd κ ω) : Prop where
  fdWrite : g.fdWrite = false
  pending : g.pendingAtcmds = []
  busy : g.busyAtcmds = []
  mlbufLen : g.mlbufLen = 0
  mlunsolicited : g.mlunsolicited = false
  wakeupTimer : g.wakeupTimer = none
  timers : g.timers = []
  log : g.log = []

end SystemTestSuite.GsmDaemon
