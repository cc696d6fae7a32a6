import SystemTestSuite.GsmDaemon.UsockRequests

/-!
The daemon as a whole: the clients, their requests, and the AT layer whose callbacks answer them.
What the daemon does on its own account (the settings at the start, the alive check, the handlers of
unsolicited messages, the vendor plug-in) is a parameter; its commands have no client for their
`ctx`.
-/

namespace SystemTestSuite.GsmDaemon

open Library

variable {κ ω : Type}

inductive DaemonCb (κ : Type) where
  | usock (cb : UsockCb)
  | own (k : κ)
  deriving DecidableEq

/-- `users` is `g->users` with the addresses; `steps` counts the callbacks and events so far. Once
`aborted` is set there is no daemon any more. -/
structure World (ω : Type) where
  users : List (ℕ × Client)
  on : Bool
  aborted : Bool
  steps : ℕ
  rest : ω

def World.addresses (w : World ω) : List ℕ := w.users.map Prod.fst

structure OwnAtcmd (κ : Type) where
  cb : Option κ
  id : ℕ
  buf : Bytes
  terminated : buf.getLast? = some 0

def OwnAtcmd.filled (c : OwnAtcmd κ) : FilledAtcmd (DaemonCb κ) :=
  ⟨gsmdCtx, c.cb.map .own, c.id, c.buf, c.terminated⟩

def FilledAtcmd.usock (c : FilledAtcmd UsockCb) : FilledAtcmd (DaemonCb κ) :=
  ⟨c.ctx, c.cb.map .usock, c.id, c.buf, c.terminated⟩

/-- `evts` are what it gives to `usock_evt_send`. -/
structure OwnReaction (κ ω : Type) where
  rc : ℤ
  rest : ω
  evts : List (GsmdUcmd × ℕ)
  submits : List (OwnAtcmd κ)

/-- `unset`, `behind`, `heap`, `links` and `ptr` are what the memory holds at each step: where
nothing was written to, behind the NUL of a text for a callback, and in the blocks for events.
`vmailScribble` is what `network_vmail_cb` leaves of its text. -/
structure Own (κ ω : Type) where
  textMode : Bool
  extChars : Bytes
  unsolicit : List (Bytes × (ω → Bytes → ℕ → OwnReaction κ ω))
  callback : κ → ω → GsmdAtcmd (DaemonCb κ) → Option Bytes → OwnReaction κ ω
  scribble : κ → Bytes → Bytes
  vmailScribble : Bytes → Bytes
  initsettings : OwnAtcmd κ
  generateEventFromCme : ω → ℤ → ω × List (GsmdUcmd × ℕ)
  generateEventFromCms : ω → ℤ → ω × List (GsmdUcmd × ℕ)
  unset : ℕ → Unset
  behind : ℕ → Bytes
  heap : ℕ → ℕ → Memory
  links : ℕ → Memory
  ptr : ℕ → ℕ

def World.setClient (w : World ω) (gu : ℕ) (client : Client) : World ω :=
  { w with users := w.users.map (fun u => if u.1 = gu then (gu, client) else u) }

def evtSend (own : Own κ ω) (w : World ω) (evt : GsmdUcmd × ℕ) : World ω :=
  let gus := w.users.map (fun u => u.2.gu)
  let sent := usockEvtSend (own.heap w.steps) (own.links w.steps) (own.ptr w.steps) gus evt.1 evt.2
  { w with
    users := List.zipWith (fun u gu => (u.1, { u.2 with gu := gu })) w.users sent.2
    steps := w.steps + 1 }

def evtsSend (own : Own κ ω) (w : World ω) (r : ω × List (GsmdUcmd × ℕ)) : World ω :=
  r.2.foldl (evtSend own) { w with rest := r.1 }

def OwnReaction.reaction (own : Own κ ω) (w : World ω) (r : OwnReaction κ ω) :
    Reaction (DaemonCb κ) (World ω) :=
  ⟨r.rc, evtsSend own w (r.rest, r.evts), r.submits.map OwnAtcmd.filled⟩

/-- What the callback of a client's command does. A reply for a client that has gone is lost. -/
def usockCallback (own : Own κ ω) (cb : UsockCb) (w : World ω) (cmd : GsmdAtcmd (DaemonCb κ))
    (resp : Option Bytes) : Reaction (DaemonCb κ) (World ω) :=
  let w' := { w with steps := w.steps + 1 }
  match resp.bind fun text => runCb cb (own.unset w.steps) cmd (text ++ 0 :: own.behind w.steps) with
  | none => ⟨0, w', []⟩
  | some o =>
    let w' := { w' with on := w.on || o.on }
    match w.users.lookup cmd.ctx with
    | none => ⟨o.rc, w', []⟩
    | some client => ⟨o.rc, w'.setClient cmd.ctx (o.client client), []⟩

/-- What a run of `strtok` leaves of a text; `inside` tells whether a token has begun. -/
def strtokLeaves (delim : UInt8) : Bool → Bytes → Bytes
  | _, [] => []
  | inside, b :: text =>
    if b = delim then (if inside then 0 else b) :: strtokLeaves delim false text
    else b :: strtokLeaves delim true text

def usockScribble (own : Own κ ω) (cb : UsockCb) (text : Bytes) : Bytes :=
  match cb with
  | .phonebookFindCb | .phonebookReadrgCb => strtokLeaves LF false text
  | .networkVmailCb => own.vmailScribble text
  | _ => text

def daemonEnv (own : Own κ ω) : Env (DaemonCb κ) (World ω) where
  extChars := own.extChars
  unsolicit := own.unsolicit.map fun i =>
    ⟨i.1, fun w buf len => (i.2 w.rest buf len).reaction own w⟩
  callback k w cmd resp :=
    match k with
    | .usock cb => usockCallback own cb w cmd resp
    | .own k => (own.callback k w.rest cmd resp).reaction own w
  scribble k text :=
    match k with
    | .usock cb => usockScribble own cb text
    | .own k => own.scribble k text
  initsettings := own.initsettings.filled
  generateEventFromCme w number := evtsSend own w (own.generateEventFromCme w.rest number)
  generateEventFromCms w number := evtsSend own w (own.generateEventFromCms w.rest number)

abbrev Daemon (κ ω : Type) := Gsmd (DaemonCb κ) (World ω)

/-- `request` is a read of `len` bytes into the buffer on the stack; `own` is a command that one of
the daemon's own timers submits. -/
inductive DaemonEvent (κ : Type) where
  | connect (gu : ℕ)
  | eof (gu : ℕ)
  | request (gu : ℕ) (buf : Memory) (len : ℕ)
  | userWritable (gu : ℕ) (rc : ℕ → ℤ)
  | own (cmd : OwnAtcmd κ)
  | writable (rc : WriteRc) (crDone : Bool)
  | line (buf : Bytes)
  | prompt
  | expire (tmr : ℕ)

def newClient : Client := ⟨⟨[], false, 0xffffffff⟩, [], []⟩

def usockEvent : Event UsockCb → Event (DaemonCb κ)
  | .submit cmd => .submit cmd.usock
  | .cancel cmd => .cancel cmd.usock
  | .writable rc crDone => .writable rc crDone
  | .line buf => .line buf
  | .prompt => .prompt
  | .expire tmr => .expire tmr

def DaemonEnabled (g : Daemon κ ω) : DaemonEvent κ → Prop
  | .connect gu => gu ≠ gsmdCtx ∧ gu ∉ g.world.addresses
  | .eof gu | .request gu _ _ => gu ∈ g.world.addresses
  | .userWritable gu _ => (g.world.users.lookup gu).any (fun client => client.gu.fdWrite) = true
  | .own _ => True
  | .writable rc crDone => Enabled g (.writable rc crDone)
  | .line buf => Enabled g (.line buf)
  | .prompt => Enabled g .prompt
  | .expire tmr => Enabled g (.expire tmr)

instance (g : Daemon κ ω) : (e : DaemonEvent κ) → Decidable (DaemonEnabled g e)
  | .connect _ => inferInstanceAs (Decidable (_ ∧ _))
  | .eof _ | .request _ _ _ => inferInstanceAs (Decidable (_ ∈ _))
  | .userWritable _ _ => inferInstanceAs (Decidable (_ = true))
  | .own _ => .isTrue trivial
  | .writable rc crDone => inferInstanceAs (Decidable (Enabled g (.writable rc crDone)))
  | .line buf => inferInstanceAs (Decidable (Enabled g (.line buf)))
  | .prompt => inferInstanceAs (Decidable (Enabled g .prompt))
  | .expire tmr => inferInstanceAs (Decidable (Enabled g (.expire tmr)))

def rcvMessage (own : Own κ ω) (g : Daemon κ ω) (gu : ℕ) (client : Client) (buf : Memory)
    (len : ℕ) : Daemon κ ω :=
  match usockRcvMessage own.textMode (own.unset g.world.steps).ucmd gu client buf len with
  | .error .aborts => { g with world := { g.world with aborted := true } }
  | .error _ => g
  | .ok handled =>
    let w := { g.world.setClient gu handled.client with
      on := handled.on.getD g.world.on
      steps := g.world.steps + 1 }
    (handled.events.map usockEvent).foldl (next (daemonEnv own)) { g with world := w }

def daemonNext (own : Own κ ω) (g : Daemon κ ω) : DaemonEvent κ → Daemon κ ω
  | .connect gu => { g with world := { g.world with users := (gu, newClient) :: g.world.users } }
  | .eof gu =>
    { g with world := { g.world with users := g.world.users.filter (fun u => u.1 ≠ gu) } }
  | .request gu buf len =>
    match g.world.users.lookup gu with
    | none => g
    | some client => rcvMessage own g gu client buf len
  | .userWritable gu rc =>
    match g.world.users.lookup gu with
    | none => g
    | some client =>
      { g with world := g.world.setClient gu { client with gu := (userCbWrite rc client.gu).2 } }
  | .own cmd => atcmdSubmit g cmd.filled
  | .writable rc crDone => next (daemonEnv own) g (.writable rc crDone)
  | .line buf => next (daemonEnv own) g (.line buf)
  | .prompt => next (daemonEnv own) g .prompt
  | .expire tmr => next (daemonEnv own) g (.expire tmr)

structure DaemonInit (g : Daemon κ ω) : Prop where
  atcmd : AtcmdInit g
  users : g.world.users = []
  runs : g.world.aborted = false

def daemon (own : Own κ ω) : Machine (Daemon κ ω) (DaemonEvent κ) where
  start := DaemonInit
  enabled g e := g.world.aborted = false ∧ DaemonEnabled g e
  next := daemonNext own

instance (own : Own κ ω) (g : Daemon κ ω) (e : DaemonEvent κ) :
    Decidable ((daemon own).enabled g e) := inferInstanceAs (Decidable (_ ∧ DaemonEnabled g e))

end SystemTestSuite.GsmDaemon
