import SystemTestSuite.GsmDaemon.Listing
import SystemTestSuite.GsmDaemon.PhonebookEntry

namespace SystemTestSuite.GsmDaemon

open Library

variable {κ ω : Type} {own : Own κ ω} {gu len : ℕ} {g : Daemon κ ω} {kind : PbKind}
  {client : Client} {buf : Memory}

def HangupRequest (buf : Memory) : Prop :=
  (hdrAt buf 0).msgType = gsmdMsgVoicecall ∧ (hdrAt buf 0).msgSubtype = gsmdVoicecallHangup

def RetrieveRequest (kind : PbKind) (buf : Memory) : Prop :=
  (hdrAt buf 0).msgType = gsmdMsgPhonebook ∧ (hdrAt buf 0).msgSubtype = kind.retrieve

/-- The client stays and takes nothing, and the read at the head of `busy_atcmds` waits. -/
def Aside (gu : ℕ) (g : Daemon κ ω) : DaemonEvent κ → Prop
  | .eof gu' => gu' ≠ gu
  | .request gu' buf _ => (∀ kind : PbKind, gu' = gu → ¬ RetrieveRequest kind buf) ∧
      (HangupRequest buf → HeadSpeaks (FillsList gu) g)
  | .line _ => HeadSpeaks (FillsList gu) g
  | _ => True

theorem keepsPb_same (hlookup : g.world.users.lookup gu = some client) (on : Bool) (steps : ℕ)
    (gu' : ℕ) :
    KeepsPb gu' g.world { g.world.setClient gu client with on := on, steps := steps } :=
  setClient_keepsPb hlookup fun _ => rfl

theorem submits_keepsPb {es : List (Event UsockCb)}
    (h : ∀ e ∈ es, ∃ c, e = .submit c ∧ Serving gu c.ctx) (gu' : ℕ) (g : Daemon κ ω) :
    KeepsPb gu' g.world ((es.map usockEvent).foldl (next (daemonEnv own)) g).world := by
  induction es generalizing g with
  | nil => rfl
  | cons e es ih =>
    obtain ⟨⟨c, rfl, -⟩, hrest⟩ := List.forall_mem_cons.mp h
    have hnext : KeepsPb gu' g.world (next (daemonEnv own) g (usockEvent (.submit c))).world :=
      next_keepsPb fun hcalls => hcalls.elim
    exact (ih hrest _).trans hnext

theorem rcvMessage_keepsPb {gu' : ℕ} (hlookup : g.world.users.lookup gu' = some client)
    (haside : Aside gu g (.request gu' buf len)) :
    KeepsPb gu g.world (rcvMessage own g gu' client buf len).world := by
  obtain ⟨-, hhangup⟩ := haside
  unfold rcvMessage
  cases hmessage : usockRcvMessage own.textMode (own.unset g.world.steps).ucmd gu' client buf len with
  | error refusal => cases refusal <;> rfl
  | ok handled =>
    have hdoes := usockRcvMessage_does handled hmessage
    dsimp only
    cases hdoes with
    | queues hqueues =>
      refine (submits_keepsPb hqueues.submits gu _).trans ?_
      rw [hqueues.client]
      exact keepsPb_same hlookup _ _ _
    | @cancels c htype hsub _ =>
      have hnext (w : World ω) :
          KeepsPb gu w (next (daemonEnv own) { g with world := w } (.cancel c.usock)).world :=
        next_keepsPb fun _ => hhangup ⟨htype, hsub⟩
      exact (hnext _).trans (keepsPb_same hlookup _ _ _)
    | subscribes mask => exact setClient_keepsPb hlookup fun kind => by cases kind <;> rfl
    | retrieves _ _ _ => exact setClient_keepsPb hlookup fun kind => by cases kind <;> rfl

theorem lookup_filter_ne {users : List (ℕ × Client)} {gu' : ℕ} (h : gu' ≠ gu) :
    (users.filter fun u => u.1 ≠ gu').lookup gu = users.lookup gu := by
  induction users with
  | nil => rfl
  | cons u users ih =>
    obtain ⟨address, c⟩ := u
    by_cases heq : address = gu'
    · have hne : (gu == address) = false := by
        rw [heq]
        simpa using Ne.symm h
      rw [List.filter_cons_of_neg (by simpa using heq), List.lookup_cons, hne]
      exact ih
    · rw [List.filter_cons_of_pos (by simpa using heq), List.lookup_cons, List.lookup_cons, ih]

theorem daemonNext_keepsPb (hlookup : g.world.users.lookup gu = some client) {e : DaemonEvent κ}
    (he : DaemonEnabled g e) (haside : Aside gu g e) :
    KeepsPb gu g.world (daemonNext own g e).world := by
  cases e with
  | connect gu' =>
    have hne : (gu == gu') = false := by
      have hmem : gu ∈ g.world.addresses := lookup_mem hlookup
      have hne : gu ≠ gu' := fun heq => he.2 (heq ▸ hmem)
      simpa using hne
    funext kind
    change ((g.world.users.cons (gu', newClient)).lookup gu).map kind.list = _
    rw [List.lookup_cons, hne]
    rfl
  | eof gu' =>
    funext kind
    exact congrArg (Option.map kind.list) (lookup_filter_ne haside)
  | request gu' buf len =>
    cases hlookup' : g.world.users.lookup gu' with
    | none =>
      rw [daemonNext, hlookup']
      rfl
    | some client' =>
      rw [daemonNext, hlookup']
      exact rcvMessage_keepsPb hlookup' haside
  | userWritable gu' rc =>
    cases hlookup' : g.world.users.lookup gu' with
    | none =>
      rw [daemonNext, hlookup']
      rfl
    | some client' =>
      rw [daemonNext, hlookup']
      exact setClient_keepsPb hlookup' fun kind => by cases kind <;> rfl
  | own cmd =>
    have hsubmit : KeepsPb gu g.world (next (daemonEnv own) g (.submit cmd.filled)).world :=
      next_keepsPb fun hcalls => hcalls.elim
    exact hsubmit
  | line buf => exact next_keepsPb fun _ => haside
  | writable _ _ | prompt | expire _ => exact next_keepsPb fun hcalls => hcalls.elim

def RangeAtcmd (kind : PbKind) (cmd : GsmdAtcmd (DaemonCb κ)) : Prop :=
  ∃ args, cmd.buf = ascii "AT" ++ (kind.name ++ args)

def SubmitsRange (κ : Type) (kind : PbKind) (gu : ℕ) (handled : Handled) : Prop :=
  ∃ c : FilledAtcmd UsockCb, handled.events = [.submit c] ∧ c.cb = some kind.cb ∧ c.ctx = gu ∧
    ∀ serial, RangeAtcmd kind ((c.usock : FilledAtcmd (DaemonCb κ)).client.queued serial)

theorem submitsRange_print {start text : Bytes} {rlen : ℕ} {id : UInt16}
    (htext : ∃ args, text = ascii "AT" ++ (kind.name ++ args)) :
    OnceAccepted (SubmitsRange κ kind gu) (filled start rlen (some kind.cb) gu id >>= fun cmd =>
      .ok (submits client (cmd.print text))) := by
  obtain ⟨args, rfl⟩ := htext
  apply onceAccepted_bind
  intro cmd hcmd
  obtain ⟨hcb, hctx⟩ := filled_made hcmd
  apply onceAccepted_ok
  obtain ⟨rest, hrest⟩ : ∃ rest, (cmd.print (ascii "AT" ++ (kind.name ++ args))).buf =
      ascii "AT" ++ (kind.name ++ rest) :=
    ⟨_, (List.append_assoc _ _ _).trans (congrArg _ (List.append_assoc _ _ _))⟩
  exact ⟨_, rfl, hcb, hctx, fun _ => ⟨rest, hrest⟩⟩

theorem usockRcvPhonebook_range {block : GsmdUcmd}
    (hsub : (hdrAt buf 0).msgSubtype = kind.subtype) :
    OnceAccepted (SubmitsRange κ kind gu) (usockRcvPhonebook block gu client buf len) := by
  unfold usockRcvPhonebook
  dsimp only
  cases kind with
  | readrg =>
    have hreadrg : (hdrAt buf 0).msgSubtype = gsmdPhonebookReadrg := hsub
    rw [hreadrg, if_neg (by decide), if_neg (by decide), if_neg (by decide), if_neg (by decide),
      if_pos rfl]
    exact onceAccepted_guard (submitsRange_print ⟨_, List.append_assoc _ _ _⟩)
  | find =>
    have hfind : (hdrAt buf 0).msgSubtype = gsmdPhonebookFind := hsub
    rw [hfind, if_neg (by decide), if_neg (by decide), if_pos rfl]
    exact onceAccepted_guard (submitsRange_print ⟨_, List.append_assoc _ _ _⟩)

theorem PbKind.name_list (kind : PbKind) : kind.name ∈ listNames := by
  cases kind <;> decide

theorem line_answers {v0 : Bool} {cmd : GsmdAtcmd (DaemonCb κ)} (h : RangeAtcmd kind cmd)
    (e : PbEntry) : AnswerLine (daemonEnv own) v0 cmd (e.line kind) := by
  obtain ⟨args, hargs⟩ := h
  apply named_answers kind.name_list hargs
  rw [cstr_of_no_nul fun c hc => (e.line_plain kind c hc).1]
  rfl

theorem line_fits {e : PbEntry} (h : e.Fits) (kind : PbKind) :
    (e.line kind).length < mlparseBufSize := by
  have hindex := h.index
  have hnumber := h.number
  have htype := h.type
  have htext := h.text
  have hdecimal := decimal_length_le e.index
  have hdecimal' := decimal_length_le e.type
  have hname : kind.name.length = 5 := listNames_five _ kind.name_list
  unfold pbType pbNumb at hnumber
  unfold sizeofPhonebook pbText at htext
  have hcolon : (ascii ": ").length = 2 := rfl
  have hcomma : (ascii ",\"").length = 2 := rfl
  have hquote : (ascii "\",").length = 2 := rfl
  have hlast : (ascii "\"").length = 1 := rfl
  unfold mlparseBufSize
  simp only [PbEntry.line, List.length_append]
  omega

theorem answer_client {cmd : GsmdAtcmd (DaemonCb κ)}
    (hexec : Executes (.client (.usock kind.cb)) cmd g) (hcmd : RangeAtcmd kind cmd)
    (hext : PlainExtChars own.extChars) (hlen : g.mlbufLen = 0) {e : PbEntry} (hfits : e.Fits)
    (hlookup : g.world.users.lookup cmd.ctx = some client) :
    ∃ r m, Counts kind 1 r ∧ e.StoredIn m ∧
      (receive (daemonEnv own) g [e.line kind, ascii "OK"]).world.users.lookup cmd.ctx =
        some (client.takes (some (kind.outcome r [m]))) := by
  have hhead : (cstr cmd.buf).head? = some 65 := by
    obtain ⟨args, hargs⟩ := hcmd
    rw [hargs]
    rfl
  have hlines : ∀ buf ∈ [e.line kind], AnswerLine (daemonEnv own) g.v0 cmd buf :=
    List.forall_mem_singleton.mpr (line_answers hcmd e)
  have hworld := answer_world hexec hlen hlines (ok_answers hext hhead)
  have htexts : infoTexts (daemonEnv own) [e.line kind] = [e.line kind] := by
    simp [infoTexts, mark, LineBuffer.groups, joinLines]
  have hno (c : UInt8) (hc : c ∈ e.line kind) : c ≠ 0 := (e.line_plain kind c hc).1
  have hhanded : LineBuffer.handed (mlShape (daemonEnv own) (.client (.usock kind.cb))) Memory.zero
      (e.line kind) = some (e.line kind) :=
    (LineBuffer.handed_zero_iff hno _).mpr ⟨rfl, line_fits hfits kind⟩
  obtain ⟨r, m, houtcome, hcounts, hstored⟩ :=
    @range_outcome e κ ω own hfits kind { cmd with ret := 0 } g.world.steps
  refine ⟨r, m, hcounts, hstored, ?_⟩
  change (receive (daemonEnv own) g ([e.line kind] ++ [ascii "OK"])).world.users.lookup cmd.ctx = _
  rw [hworld, htexts, LineBuffer.spoken, hhanded, exchange_client hlookup, outcomes, houtcome]
  rfl

theorem usockRcvPhonebook_retrieve (block : GsmdUcmd) (gu : ℕ) (client : Client)
    (hsub : (hdrAt buf 0).msgSubtype = kind.retrieve) (hlen : sizeofHdr + 4 ≤ len) :
    usockRcvPhonebook block gu client buf len =
      if tallocRefuses (sizeofPhonebook * uintAt buf sizeofHdr % 2 ^ 32) then .error .enomem
      else (pbRetrieve block (uintAt buf sizeofHdr) kind.retrieve (kind.list client)).map
        fun ucmd => { client := { client with gu := usockCmdEnqueue ucmd client.gu } } := by
  unfold usockRcvPhonebook
  dsimp only
  rw [hsub]
  cases kind with
  | readrg =>
    simp only [PbKind.retrieve, if_neg (not_lt.mpr hlen)]
    rfl
  | find =>
    simp only [PbKind.retrieve, if_neg (not_lt.mpr hlen)]
    rfl

theorem usockRcvMessage_retrieve (textMode : Bool) (block : GsmdUcmd) (gu : ℕ) (client : Client)
    (hversion : (hdrAt buf 0).version = gsmdProtoVersion) (hrequest : RetrieveRequest kind buf)
    (hlen : sizeofHdr + 4 ≤ len) :
    usockRcvMessage textMode block gu client buf len =
      if tallocRefuses (sizeofPhonebook * uintAt buf sizeofHdr % 2 ^ 32) then .error .enomem
      else (pbRetrieve block (uintAt buf sizeofHdr) kind.retrieve (kind.list client)).map
        fun ucmd => { client := { client with gu := usockCmdEnqueue ucmd client.gu } } := by
  obtain ⟨htype, hsub⟩ := hrequest
  have hpcmd : usockRcvPcmd buf = some .rcvPhonebook := by
    rw [usockRcvPcmd, hversion, htype]
    rfl
  rw [usockRcvMessage, hpcmd]
  exact usockRcvPhonebook_retrieve block gu client hsub hlen

inductive PbDue
  | counted (kind : PbKind) (n : ℕ)
  | returned (kind : PbKind) (es : List PbEntry)

def PbDue.Met : PbDue → GsmdUcmd → Prop
  | counted kind n => Counts kind n
  | returned kind es => Returns kind es

structure PbTurn where
  before : List GsmdUcmd
  due : PbDue

/-- `answers` are the entries of each answer since the client last took some; `turn` is what the
last event owes the client. -/
structure PbRun (κ ω : Type) where
  g : Daemon κ ω
  answers : PbKind → List (List PbEntry)
  turn : Option PbTurn

inductive PbEvent (κ : Type)
  | other (e : DaemonEvent κ)
  | answer (kind : PbKind) (es : List PbEntry)
  | retrieve (kind : PbKind) (buf : Memory) (len : ℕ)

def finishedFor (gu : ℕ) (g : Daemon κ ω) : List GsmdUcmd :=
  ((g.world.users.lookup gu).map fun client => client.gu.finishedUcmds).getD []

def PbStart (gu : ℕ) (r : PbRun κ ω) : Prop :=
  r.g.world.pbList gu = (fun _ => some []) ∧ r.answers = (fun _ => []) ∧ r.turn = none

def PbEnabled (gu : ℕ) (r : PbRun κ ω) : PbEvent κ → Prop
  | .other e => r.g.world.aborted = false ∧ DaemonEnabled r.g e ∧ Aside gu r.g e
  | .answer kind es => r.g.world.aborted = false ∧ es ≠ [] ∧ ∃ cmd, r.g.busyAtcmds.head? = some cmd ∧
      cmd.cb = some (.client (.usock kind.cb)) ∧ cmd.ctx = gu ∧ RangeAtcmd kind cmd
  | .retrieve kind buf len => r.g.world.aborted = false ∧
      (hdrAt buf 0).version = gsmdProtoVersion ∧ RetrieveRequest kind buf ∧ sizeofHdr + 4 ≤ len

def takesLast (r : PbRun κ ω) (kind : PbKind) (num : ℕ) : Option (List PbEntry) :=
  (r.answers kind).getLast?.filter fun es => es.length = num

def pbNext (own : Own κ ω) (gu : ℕ) (r : PbRun κ ω) : PbEvent κ → PbRun κ ω
  | .other e => { r with g := daemonNext own r.g e, turn := none }
  | .answer kind es =>
    { g := receive (daemonEnv own) r.g (es.map (PbEntry.line kind) ++ [ascii "OK"])
      answers := Function.update r.answers kind (r.answers kind ++ [es])
      turn := some ⟨finishedFor gu r.g, .counted kind es.length⟩ }
  | .retrieve kind buf len =>
    let g := daemonNext own r.g (.request gu buf len)
    { g := g
      answers := if g.world.aborted ∨ tallocRefuses (sizeofPhonebook * uintAt buf sizeofHdr % 2 ^ 32)
        then r.answers else Function.update r.answers kind []
      turn := (takesLast r kind (uintAt buf sizeofHdr)).map fun es =>
        ⟨finishedFor gu r.g, .returned kind es⟩ }

def pbMachine (own : Own κ ω) (gu : ℕ) : Machine (PbRun κ ω) (PbEvent κ) :=
  ⟨PbStart gu, PbEnabled gu, pbNext own gu⟩

/-- The client got one reply for the last event, and that tells it what it should. -/
def PbServed (gu : ℕ) (r : PbRun κ ω) : Prop :=
  ∀ turn ∈ r.turn, ∃ reply, finishedFor gu r.g = turn.before ++ [reply] ∧ turn.due.Met reply

/-- One entry to an answer, with nothing in `mlbuf` before; no request for as many entries as the last
answer had. -/
def OneByOne (r : PbRun κ ω) : PbEvent κ → Prop
  | .other _ => True
  | .answer _ es => (∃ e, es = [e] ∧ e.Fits) ∧ r.g.mlbufLen = 0 ∧ r.g.mlunsolicited = false
  | .retrieve kind buf _ => takesLast r kind (uintAt buf sizeofHdr) = none

structure PbInv (gu : ℕ) (r : PbRun κ ω) : Prop where
  lists : ∀ kind, ∃ ms, r.g.world.pbList gu kind = some ms ∧
    List.Forall₂ (fun e m => e.Fits ∧ PbEntry.StoredIn e m) (r.answers kind).flatten ms
  single : ∀ kind, ∀ es ∈ r.answers kind, es.length = 1
  served : PbServed gu r

theorem pbList_some {w : World ω} {ms : List Memory} (h : w.pbList gu kind = some ms) :
    ∃ client, w.users.lookup gu = some client ∧ kind.list client = ms :=
  Option.map_eq_some_iff.mp h

theorem finishedFor_client (h : g.world.users.lookup gu = some client) :
    finishedFor gu g = client.gu.finishedUcmds := by
  rw [finishedFor, h]
  rfl

variable {r : PbRun κ ω}

theorem PbInv.held (h : PbInv gu r) : ∃ client, r.g.world.users.lookup gu = some client ∧
    ∀ kind : PbKind, List.Forall₂ (fun e m => e.Fits ∧ PbEntry.StoredIn e m)
      (r.answers kind).flatten (kind.list client) := by
  obtain ⟨_, hsome, -⟩ := h.lists .readrg
  obtain ⟨client, hclient, -⟩ := pbList_some hsome
  refine ⟨client, hclient, fun kind => ?_⟩
  obtain ⟨ms, hms, hstored⟩ := h.lists kind
  rw [World.pbList, hclient] at hms
  rwa [Option.some.inj hms]

theorem PbInv.other (h : PbInv gu r) {e : DaemonEvent κ} (he : DaemonEnabled r.g e)
    (haside : Aside gu r.g e) : PbInv gu (pbNext own gu r (.other e)) := by
  obtain ⟨client, hclient, -⟩ := h.held
  have hkeeps : KeepsPb gu r.g.world (daemonNext own r.g e).world :=
    daemonNext_keepsPb hclient he haside
  refine ⟨fun kind => ?_, h.single, fun turn hturn => by cases hturn⟩
  change ∃ ms, (daemonNext own r.g e).world.pbList gu kind = some ms ∧ _
  rw [hkeeps]
  exact h.lists kind

theorem PbInv.answer (h : PbInv gu r) (hext : PlainExtChars own.extChars)
    {cmd : GsmdAtcmd (DaemonCb κ)}
    (hexec : Executes (.client (.usock kind.cb)) cmd r.g) (hctx : cmd.ctx = gu)
    (hcmd : RangeAtcmd kind cmd) (hlen : r.g.mlbufLen = 0) {e : PbEntry} (hfits : e.Fits) :
    PbInv gu (pbNext own gu r (.answer kind [e])) := by
  obtain ⟨client, hclient, hstored⟩ := h.held
  rw [← hctx] at hclient
  obtain ⟨reply, m, hcounts, hm, hanswer⟩ := answer_client hexec hcmd hext hlen hfits hclient
  rw [hctx] at hclient hanswer
  constructor
  · intro kind'
    refine ⟨_, congrArg (Option.map kind'.list) hanswer, ?_⟩
    have hlist : kind'.list (client.takes (some (kind.outcome reply [m]))) =
        kind'.list client ++ if kind' = kind then [m] else [] := by
      rw [Client.takes, client_list, outcome_entries]
    rw [hlist]
    change List.Forall₂ _ (Function.update r.answers kind (r.answers kind ++ [[e]]) kind').flatten _
    by_cases hkind : kind' = kind
    · rw [hkind, Function.update_self, if_pos rfl, List.flatten_append, List.flatten_singleton]
      exact List.rel_append (hstored kind) (.cons ⟨hfits, hm⟩ .nil)
    · rw [Function.update_of_ne hkind, if_neg hkind, List.append_nil]
      exact hstored kind'
  · intro kind'
    change ∀ es ∈ Function.update r.answers kind (r.answers kind ++ [[e]]) kind', es.length = 1
    by_cases hkind : kind' = kind
    · rw [hkind, Function.update_self, List.forall_mem_append, List.forall_mem_singleton]
      exact ⟨h.single kind, rfl⟩
    · rw [Function.update_of_ne hkind]
      exact h.single kind'
  · intro turn hturn
    obtain rfl := Option.some.inj hturn
    refine ⟨reply, ?_, hcounts⟩
    have hsome : (some (kind.outcome reply [m])).bind CbOutcome.reply = some reply :=
      outcome_reply kind reply [m]
    have hreply : replies [some (kind.outcome reply [m])] = [reply] := replies_cons_some hsome []
    rw [finishedFor_client hclient, ← hreply, ← takes_finished]
    exact finishedFor_client hanswer

theorem takesLast_some {num : ℕ} {es : List PbEntry} (hes : takesLast r kind num = some es) :
    es ∈ r.answers kind ∧ es.length = num := by
  obtain ⟨hlast, hnum⟩ := Option.filter_eq_some_iff.mp hes
  exact ⟨List.mem_of_getLast? hlast, of_decide_eq_true hnum⟩

theorem retrieve_cases (own : Own κ ω) (hclient : g.world.users.lookup gu = some client)
    (hversion : (hdrAt buf 0).version = gsmdProtoVersion) (hrequest : RetrieveRequest kind buf)
    (hlen : sizeofHdr + 4 ≤ len) :
    (tallocRefuses (sizeofPhonebook * uintAt buf sizeofHdr % 2 ^ 32) ∧
      daemonNext own g (.request gu buf len) = g) ∨
    (¬ tallocRefuses (sizeofPhonebook * uintAt buf sizeofHdr % 2 ^ 32) ∧
      kind.list client ≠ [] ∧ daemonNext own g (.request gu buf len) =
        { g with world := { g.world with aborted := true } }) ∨
    (¬ tallocRefuses (sizeofPhonebook * uintAt buf sizeofHdr % 2 ^ 32) ∧ kind.list client = [] ∧
      ∃ ucmd, daemonNext own g (.request gu buf len) =
        { g with world := { g.world.setClient gu
          { client with gu := usockCmdEnqueue ucmd client.gu } with steps := g.world.steps + 1 } }) := by
  have hmessage := usockRcvMessage_retrieve own.textMode
    (own.unset g.world.steps).ucmd gu client hversion hrequest hlen
  rw [daemonNext, hclient]
  dsimp only
  rw [rcvMessage, hmessage]
  by_cases hrefused : tallocRefuses (sizeofPhonebook * uintAt buf sizeofHdr % 2 ^ 32)
  · rw [if_pos hrefused]
    exact .inl ⟨hrefused, rfl⟩
  · rw [if_neg hrefused]
    cases hlist : kind.list client with
    | nil => exact .inr (.inr ⟨hrefused, rfl, _, rfl⟩)
    | cons pb entries => exact .inr (.inl ⟨hrefused, List.cons_ne_nil _ _, rfl⟩)

theorem PbInv.retrieve (h : PbInv gu r) (hruns : r.g.world.aborted = false)
    (hversion : (hdrAt buf 0).version = gsmdProtoVersion) (hrequest : RetrieveRequest kind buf)
    (hlen : sizeofHdr + 4 ≤ len) (hnone : takesLast r kind (uintAt buf sizeofHdr) = none) :
    PbInv gu (pbNext own gu r (.retrieve kind buf len)) := by
  obtain ⟨client, hclient, hstored⟩ := h.held
  have hturn : ∀ turn ∈ (pbNext own gu r (.retrieve kind buf len)).turn, False := by
    intro turn hmem
    change turn ∈ (takesLast r kind (uintAt buf sizeofHdr)).map _ at hmem
    rw [hnone] at hmem
    cases hmem
  rcases retrieve_cases own hclient hversion hrequest hlen with
    ⟨hrefused, hafter⟩ | ⟨-, -, hafter⟩ | ⟨hroom, hlist, ucmd, hafter⟩
  · rw [pbNext, hafter] at hturn ⊢
    rw [if_pos (Or.inr hrefused)]
    exact ⟨h.lists, h.single, fun turn hmem => (hturn turn hmem).elim⟩
  · rw [pbNext, hafter] at hturn ⊢
    rw [if_pos (Or.inl rfl)]
    exact ⟨h.lists, h.single, fun turn hmem => (hturn turn hmem).elim⟩
  · have hgone : ¬ ((daemonNext own r.g (.request gu buf len)).world.aborted = true ∨
        tallocRefuses (sizeofPhonebook * uintAt buf sizeofHdr % 2 ^ 32)) := by
      rw [hafter]
      exact not_or.mpr ⟨Bool.eq_false_iff.mp hruns, hroom⟩
    have hlookup : (daemonNext own r.g (.request gu buf len)).world.users.lookup gu =
        some { client with gu := usockCmdEnqueue ucmd client.gu } := by
      rw [hafter]
      exact lookup_setClient hclient _
    rw [pbNext] at hturn ⊢
    rw [if_neg hgone]
    refine ⟨fun kind' => ?_, fun kind' => ?_, fun turn hmem => (hturn turn hmem).elim⟩
    · refine ⟨_, congrArg (Option.map kind'.list) hlookup, ?_⟩
      have hkept : kind'.list { client with gu := usockCmdEnqueue ucmd client.gu } =
          kind'.list client := by
        cases kind' <;> rfl
      rw [hkept]
      change List.Forall₂ _ (Function.update r.answers kind [] kind').flatten _
      by_cases hkind : kind' = kind
      · rw [hkind, Function.update_self, hlist]
        exact .nil
      · rw [Function.update_of_ne hkind]
        exact hstored kind'
    · change ∀ es ∈ Function.update r.answers kind [] kind', es.length = 1
      by_cases hkind : kind' = kind
      · rw [hkind, Function.update_self]
        exact List.forall_mem_nil _
      · rw [Function.update_of_ne hkind]
        exact h.single kind'

theorem PbInv.retrieve_ends (h : PbInv gu r) (hversion : (hdrAt buf 0).version = gsmdProtoVersion)
    (hrequest : RetrieveRequest kind buf) (hlen : sizeofHdr + 4 ≤ len)
    (hlast : takesLast r kind (uintAt buf sizeofHdr) ≠ none) :
    ¬ PbServed gu (pbNext own gu r (.retrieve kind buf len)) := by
  obtain ⟨es, hes⟩ := Option.ne_none_iff_exists'.mp hlast
  obtain ⟨hmem, hnum⟩ := takesLast_some hes
  have hone := h.single kind es hmem
  obtain ⟨client, hclient, hstored⟩ := h.held
  have hlist : kind.list client ≠ [] := by
    intro hnil
    have hlen := (hstored kind).length_eq
    rw [hnil, List.length_nil, List.length_eq_zero_iff, List.flatten_eq_nil_iff] at hlen
    rw [hlen es hmem] at hone
    cases hone
  have hsmall : ¬ tallocRefuses (sizeofPhonebook * uintAt buf sizeofHdr % 2 ^ 32) := by
    rw [← hnum, hone]
    decide
  intro hserved
  obtain ⟨reply, hfinished, -⟩ := hserved ⟨finishedFor gu r.g, .returned kind es⟩
    (by rw [pbNext, hes]; rfl)
  rcases retrieve_cases own hclient hversion hrequest hlen with
    ⟨hrefused, -⟩ | ⟨-, -, hafter⟩ | ⟨-, hnil, -⟩
  · exact hsmall hrefused
  · have hsame : finishedFor gu (pbNext own gu r (.retrieve kind buf len)).g = finishedFor gu r.g := by
      rw [pbNext, hafter]
      rfl
    rw [hsame] at hfinished
    exact List.cons_ne_nil _ _ (List.self_eq_append_right.mp hfinished)
  · exact hlist hnil

theorem pbInv_step (hext : PlainExtChars own.extChars) (e : PbEvent κ) (h : PbInv gu r)
    (he : PbEnabled gu r e) (hone : OneByOne r e) : PbInv gu (pbNext own gu r e) := by
  cases e with
  | other e => exact h.other he.2.1 he.2.2
  | answer kind es =>
    obtain ⟨-, -, cmd, hbusy, hcb, hctx, hcmd⟩ := he
    obtain ⟨⟨e, rfl, hfits⟩, hlen, hunsolicited⟩ := hone
    exact h.answer hext ⟨hbusy, hcb, hunsolicited⟩ hctx hcmd hlen hfits
  | retrieve kind buf len =>
    obtain ⟨hruns, hversion, hrequest, hlen⟩ := he
    exact h.retrieve hruns hversion hrequest hlen hone

theorem PbStart.inv (h : PbStart gu r) : PbInv gu r := by
  obtain ⟨hlists, hanswers, hturn⟩ := h
  refine ⟨fun kind => ?_, fun kind => ?_, fun turn ht => ?_⟩
  · rw [hlists, hanswers]
    exact ⟨[], rfl, .nil⟩
  · rw [hanswers]
    exact List.forall_mem_nil _
  · rw [hturn] at ht
    cases ht

/-- Entry by entry the client is told what the modem has; when it asks for the entries of its last
answer, the daemon ends without a reply. -/
theorem phonebook_oneByOne (hext : PlainExtChars own.extChars) {s t : PbRun κ ω}
    (hs : (pbMachine own gu).start s) {es : List (PbEvent κ)}
    (h : (pbMachine own gu).RunWhile OneByOne s es t) :
    (pbMachine own gu).Throughout (PbServed gu) s es ∧
      ∀ kind buf len, (pbMachine own gu).enabled t (.retrieve kind buf len) →
        takesLast t kind (uintAt buf sizeofHdr) ≠ none →
        ¬ PbServed gu ((pbMachine own gu).next t (.retrieve kind buf len)) := by
  have hstep (r : PbRun κ ω) (e : PbEvent κ) (hinv : PbInv gu r) (he : PbEnabled gu r e)
      (hone : OneByOne r e) : PbInv gu (pbNext own gu r e) := pbInv_step hext e hinv he hone
  constructor
  · exact h.throughout (I := PbInv gu) hstep (fun _ hinv => hinv.served) (PbStart.inv hs)
  · intro kind buf len he hlast
    obtain ⟨-, hversion, hrequest, hlen⟩ := he
    exact (h.invariant hstep (PbStart.inv hs)).retrieve_ends hversion hrequest hlen hlast

def readrgRequest : Memory :=
  Memory.zero.store 0 [1, gsmdMsgPhonebook, gsmdPhonebookReadrg, 0, 5, 0, 2, 0, 1, 2]

def retrieveRequest : Memory :=
  Memory.zero.store 0 [1, gsmdMsgPhonebook, gsmdPhonebookRetrieveReadrg, 0, 5, 0, 4, 0, 1, 0, 0, 0]

def pbConnected : PbRun Unit Unit :=
  ⟨(daemon idleOwn).after daemonStart [.connect 1], fun _ => [], none⟩

theorem pbConnected_start : PbStart 1 pbConnected := by
  refine ⟨?_, rfl, rfl⟩
  funext kind
  cases kind <;> rfl

def pbAsk : List (PbEvent Unit) :=
  [.other (.request 1 readrgRequest 10), .other (.writable (.wrote 1) true),
    .other (.line (ascii "OK")), .other (.writable (.wrote 11) true)]

def pbAsked : PbRun Unit Unit := (pbMachine idleOwn 1).after pbConnected pbAsk

def pbHead (serial : ℕ) : GsmdAtcmd (DaemonCb Unit) where
  serial := serial
  ctx := 1
  cb := some (.client (.usock .phonebookReadrgCb))
  ret := -255
  buflen := 0
  id := 5
  cur := 12
  buf := ascii "AT+CPBR=1,2" ++ [0]

theorem pbHead_range (serial : ℕ) : RangeAtcmd .readrg (pbHead serial) := ⟨ascii "=1,2" ++ [0], rfl⟩

theorem readrg_aside {r : PbRun Unit Unit} : Aside 1 r.g (.request 1 readrgRequest 10) := by
  refine ⟨?_, fun h => absurd h.1 (by decide)⟩
  rintro kind - ⟨-, hsub⟩
  cases kind with
  | readrg => exact absurd hsub (by decide)
  | find => exact absurd hsub (by decide)

theorem wakeup_speaks {g : Daemon Unit Unit}
    (h : ∀ cmd ∈ g.busyAtcmds.head?, cmd.cb = some .nullWakeupCb) : HeadSpeaks (FillsList 1) g := by
  intro cmd hcmd k hk
  rw [h cmd hcmd] at hk
  cases hk

theorem pbAsk_run : (pbMachine idleOwn 1).RunWhile OneByOne pbConnected pbAsk pbAsked := by
  refine Machine.RunWhile.cons ?_ trivial (Machine.RunWhile.cons ?_ trivial
    (Machine.RunWhile.cons ?_ trivial (Machine.RunWhile.single ?_ trivial)))
  · exact ⟨by decide, by decide, readrg_aside⟩
  · exact ⟨by decide, by decide, trivial⟩
  · exact ⟨by decide, trivial, wakeup_speaks (by decide +kernel)⟩
  · exact ⟨by decide, by decide, trivial⟩

theorem answer_enabled {r : PbRun Unit Unit} (serial : ℕ) {es : List PbEntry}
    (hruns : r.g.world.aborted = false) (hhead : r.g.busyAtcmds.head? = some (pbHead serial))
    (h : es ≠ []) : (pbMachine idleOwn 1).enabled r (.answer .readrg es) :=
  ⟨hruns, h, pbHead serial, hhead, rfl, rfl, pbHead_range serial⟩

def annEntry : PbEntry where
  index := 1
  number := ascii "12"
  type := 129
  text := ascii "Ann"
  number_quotable := by decide
  text_quotable := by decide

def bobEntry : PbEntry where
  index := 2
  number := ascii "34"
  type := 129
  text := ascii "Bob"
  number_quotable := by decide
  text_quotable := by decide

theorem annEntry_fits : annEntry.Fits := by
  refine ⟨by decide, by decide, by decide, by decide, ?_⟩
  have hall : (annEntry.text.all fun c => c ≠ 44) = true := rfl
  simpa using hall

theorem bobEntry_fits : bobEntry.Fits := by
  refine ⟨by decide, by decide, by decide, by decide, ?_⟩
  have hall : (bobEntry.text.all fun c => c ≠ 44) = true := rfl
  simpa using hall

def pbTold : PbRun Unit Unit := (pbMachine idleOwn 1).next pbAsked (.answer .readrg [annEntry])

def pbAskedAgain : PbRun Unit Unit := (pbMachine idleOwn 1).after pbTold pbAsk

theorem pbTold_run : (pbMachine idleOwn 1).RunWhile OneByOne pbConnected
    (pbAsk ++ [.answer .readrg [annEntry]]) pbTold := by
  have henabled : (pbMachine idleOwn 1).enabled pbAsked (.answer .readrg [annEntry]) := by
    apply answer_enabled 2
    · decide
    · decide +kernel
    · exact List.cons_ne_nil _ _
  exact pbAsk_run.snoc henabled ⟨⟨annEntry, rfl, annEntry_fits⟩, by decide, by decide⟩

theorem phonebook_oneByOne_ann :
    (pbMachine idleOwn 1).Throughout (PbServed 1) pbConnected
        ((pbAsk ++ [.answer .readrg [annEntry]]) ++
          (pbAsk ++ [.answer .readrg [bobEntry]])) ∧
      ∀ kind buf len,
        (pbMachine idleOwn 1).enabled
          ((pbMachine idleOwn 1).next pbAskedAgain (.answer .readrg [bobEntry]))
          (.retrieve kind buf len) →
        takesLast ((pbMachine idleOwn 1).next pbAskedAgain (.answer .readrg [bobEntry])) kind
          (uintAt buf sizeofHdr) ≠ none →
        ¬ PbServed 1 ((pbMachine idleOwn 1).next
          ((pbMachine idleOwn 1).next pbAskedAgain (.answer .readrg [bobEntry]))
          (.retrieve kind buf len)) := by
  have hask : (pbMachine idleOwn 1).RunWhile OneByOne pbTold pbAsk pbAskedAgain := by
    refine Machine.RunWhile.cons ?_ trivial (Machine.RunWhile.cons ?_ trivial
      (Machine.RunWhile.cons ?_ trivial (Machine.RunWhile.single ?_ trivial)))
    · exact ⟨by decide, by decide, readrg_aside⟩
    · exact ⟨by decide, by decide +kernel, trivial⟩
    · exact ⟨by decide, trivial, wakeup_speaks (by decide +kernel)⟩
    · exact ⟨by decide, by decide +kernel, trivial⟩
  have henabled : (pbMachine idleOwn 1).enabled pbAskedAgain (.answer .readrg [bobEntry]) := by
    apply answer_enabled 5
    · decide
    · decide +kernel
    · exact List.cons_ne_nil _ _
  have hrun := pbTold_run.append (hask.snoc henabled
    ⟨⟨bobEntry, rfl, bobEntry_fits⟩, by decide, by decide⟩)
  exact phonebook_oneByOne (by decide) pbConnected_start hrun

/-- An answer with two entries: the client is told twice of one. And the one entry of an answer cannot be
taken. -/
theorem phonebook_two :
    (pbMachine idleOwn 1).start pbConnected ∧
      (pbMachine idleOwn 1).Run pbConnected (pbAsk ++ [.answer .readrg [annEntry, bobEntry]])
        ((pbMachine idleOwn 1).next pbAsked (.answer .readrg [annEntry, bobEntry])) ∧
      ¬ PbServed 1 ((pbMachine idleOwn 1).next pbAsked (.answer .readrg [annEntry, bobEntry])) ∧
      (pbMachine idleOwn 1).Run pbConnected
        ((pbAsk ++ [.answer .readrg [annEntry]]) ++ [.retrieve .readrg retrieveRequest 12])
        ((pbMachine idleOwn 1).next pbTold (.retrieve .readrg retrieveRequest 12)) ∧
      ¬ PbServed 1 ((pbMachine idleOwn 1).next pbTold (.retrieve .readrg retrieveRequest 12)) := by
  refine ⟨pbConnected_start, ?_, fun h => ?_, ?_, fun h => ?_⟩
  · refine pbAsk_run.run.snoc ?_ trivial
    apply answer_enabled 2
    · decide
    · decide +kernel
    · exact List.cons_ne_nil _ _
  · obtain ⟨reply, hfinished, -⟩ := h _ rfl
    have htwo : (finishedFor 1 ((pbMachine idleOwn 1).next pbAsked
        (.answer .readrg [annEntry, bobEntry])).g).length = 2 := by
      decide +kernel
    have hnone : finishedFor 1 pbAsked.g = [] := by
      have hlength : (finishedFor 1 pbAsked.g).length = 0 := by
        decide +kernel
      exact List.length_eq_zero_iff.mp hlength
    rw [hfinished] at htwo
    change (finishedFor 1 pbAsked.g ++ [reply]).length = 2 at htwo
    rw [hnone] at htwo
    cases htwo
  · exact pbTold_run.run.snoc ⟨by decide, by decide, ⟨by decide, by decide⟩, by decide⟩ trivial
  · obtain ⟨reply, hfinished, -⟩ := h _ rfl
    have hsame : (finishedFor 1 ((pbMachine idleOwn 1).next pbTold
        (.retrieve .readrg retrieveRequest 12)).g).length = (finishedFor 1 pbTold.g).length := by
      decide +kernel
    rw [hfinished] at hsame
    change (finishedFor 1 pbTold.g ++ [reply]).length = _ at hsame
    rw [List.length_append, List.length_singleton] at hsame
    omega

end SystemTestSuite.GsmDaemon
