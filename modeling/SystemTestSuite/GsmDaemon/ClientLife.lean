import SystemTestSuite.GsmDaemon.Daemon
import SystemTestSuite.GsmDaemon.RequestEffects

namespace SystemTestSuite.GsmDaemon

open Library

variable {κ ω : Type} {S : ℕ → Prop} {client : Client} {gu len : ℕ} {buf : Memory}

theorem Does.respects {block : GsmdUcmd} {handled : Handled}
    (h : Does block gu client buf len handled) (hgsmd : S gsmdCtx) (hgu : S gu) :
    handled.Respects S := by
  cases h with
  | queues hqueues =>
    intro e he
    obtain ⟨c, rfl, hctx⟩ := hqueues.submits e he
    change S c.ctx
    rcases hctx with hctx | hctx
    · rwa [hctx]
    · rwa [hctx]
  | @cancels c _ _ hctx =>
    have hserves : S c.ctx := by rwa [hctx]
    exact List.forall_mem_singleton.mpr hserves
  | subscribes _ | retrieves _ _ _ => exact List.forall_mem_nil _

theorem setClient_addresses (w : World ω) (gu : ℕ) (client : Client) :
    (w.setClient gu client).addresses = w.addresses := by
  unfold World.addresses World.setClient
  rw [List.map_map]
  apply List.map_congr_left
  intro u _
  by_cases h : u.1 = gu
  · simp [h]
  · simp [h]

theorem usockEvtSendLoop_length (heap : ℕ → Memory) (links : Memory) (ucmd : GsmdUcmd) (evt : ℕ)
    (gus : List GsmdUser) (ptr n : ℕ) :
    (usockEvtSendLoop heap links ucmd evt ptr n gus).2.length = gus.length := by
  induction gus generalizing ptr n with
  | nil => rfl
  | cons gu gus ih =>
    rw [usockEvtSendLoop]
    split_ifs <;> simp [ih]

theorem evtSend_addresses (own : Own κ ω) (w : World ω) (evt : GsmdUcmd × ℕ) :
    (evtSend own w evt).addresses = w.addresses := by
  have hlen : (usockEvtSend (own.heap w.steps) (own.links w.steps) (own.ptr w.steps)
      (w.users.map (fun u => u.2.gu)) evt.1 evt.2).2.length = w.users.length := by
    rw [usockEvtSend, usockEvtSendLoop_length, List.length_map]
  unfold World.addresses evtSend
  apply List.ext_getElem
  · simp [hlen]
  · intro i _ _
    simp

theorem evtsSend_addresses (own : Own κ ω) (w : World ω) (r : ω × List (GsmdUcmd × ℕ)) :
    (evtsSend own w r).addresses = w.addresses := by
  have hfold (evts : List (GsmdUcmd × ℕ)) (v : World ω) :
      (evts.foldl (evtSend own) v).addresses = v.addresses := by
    induction evts generalizing v with
    | nil => rfl
    | cons evt evts ih => exact (ih _).trans (evtSend_addresses own v evt)
  exact hfold r.2 _

theorem usockCallback_addresses (own : Own κ ω) (cb : UsockCb) (w : World ω)
    (cmd : GsmdAtcmd (DaemonCb κ)) (resp : Option Bytes) :
    (usockCallback own cb w cmd resp).world.addresses = w.addresses ∧
      (usockCallback own cb w cmd resp).submits = [] := by
  unfold usockCallback
  dsimp only
  split
  · exact ⟨rfl, rfl⟩
  · split
    · exact ⟨rfl, rfl⟩
    · exact ⟨setClient_addresses _ _ _, rfl⟩

theorem OwnReaction.respects {own : Own κ ω} {w : World ω} {as : List ℕ} (hgsmd : S gsmdCtx)
    (hw : w.addresses = as) (r : OwnReaction κ ω) :
    (r.reaction own w).Respects S (fun w => w.addresses = as) := by
  constructor
  · exact (evtsSend_addresses own w _).trans hw
  · intro c hc
    obtain ⟨c', -, rfl⟩ := List.mem_map.mp hc
    exact hgsmd

theorem daemonEnv_respects (own : Own κ ω) (as : List ℕ) (hgsmd : S gsmdCtx) :
    (daemonEnv own).Respects S (fun w => w.addresses = as) where
  gsmd := hgsmd
  callback k w cmd resp hw := by
    cases k with
    | usock cb =>
      obtain ⟨hsame, hnone⟩ := usockCallback_addresses own cb w cmd resp
      refine ⟨hsame.trans hw, ?_⟩
      intro c hc
      change c ∈ (usockCallback own cb w cmd resp).submits at hc
      rw [hnone] at hc
      cases hc
    | own k => exact OwnReaction.respects hgsmd hw _
  unsolicit i hi w buf len hw := by
    obtain ⟨i', -, rfl⟩ := List.mem_map.mp hi
    exact OwnReaction.respects hgsmd hw _
  initsettings := hgsmd
  cme w number hw := (evtsSend_addresses own w _).trans hw
  cms w number hw := (evtsSend_addresses own w _).trans hw

variable {g t : Daemon κ ω}

def Gsmd.atcmds (g : Daemon κ ω) : List (GsmdAtcmd (DaemonCb κ)) := g.pendingAtcmds ++ g.busyAtcmds

/-- Every queued command whose `ctx` is a client has that client on `g->users`. -/
def HasClients (g : Daemon κ ω) : Prop :=
  ∀ c ∈ g.atcmds, c.ctx ≠ gsmdCtx → c.ctx ∈ g.world.addresses

instance (g : Daemon κ ω) : Decidable (HasClients g) := inferInstanceAs (Decidable (∀ _ ∈ _, _))

def QuitsIdle (g : Daemon κ ω) : DaemonEvent κ → Prop
  | .eof gu => ∀ c ∈ g.atcmds, c.ctx ≠ gu
  | _ => True

instance (g : Daemon κ ω) : (e : DaemonEvent κ) → Decidable (QuitsIdle g e)
  | .eof _ => inferInstanceAs (Decidable (∀ _ ∈ _, _))
  | .connect _ | .request _ _ _ | .userWritable _ _ | .own _ | .writable _ _ | .line _ | .prompt
  | .expire _ => .isTrue trivial

def Live (as : List ℕ) (ctx : ℕ) : Prop := ctx = gsmdCtx ∨ ctx ∈ as

def Serves (as : List ℕ) (g : Daemon κ ω) : Prop :=
  Guarded (Live as) (fun w => w.addresses = as) g

def Served (g : Daemon κ ω) : Prop := ∃ as, gsmdCtx ∉ as ∧ Serves as g

theorem Served.hasClients (h : Served g) : HasClients g := by
  obtain ⟨as, -, hserves⟩ := h
  intro c hc hctx
  rw [hserves.world]
  rcases List.mem_append.mp hc with hpending | hbusy
  · exact (hserves.pending c hpending).resolve_left hctx
  · exact (hserves.busy c hbusy).resolve_left hctx

theorem Serves.next {as : List ℕ} (h : Serves as g) (own : Own κ ω) {e : Event (DaemonCb κ)}
    (he : e.Respects (Live as)) : Serves as (next (daemonEnv own) g e) :=
  Guarded.next h (daemonEnv_respects own as (Or.inl rfl)) he

theorem Serves.users {as : List ℕ} (h : Serves as g) (as' : List ℕ) {w : World ω}
    (hw : w.addresses = as')
    (hctx : ∀ c ∈ g.atcmds, Live as c.ctx → Live as' c.ctx) :
    Serves as' { g with world := w } where
  pending c hc := hctx c (List.mem_append_left _ hc) (h.pending c hc)
  busy c hc := hctx c (List.mem_append_right _ hc) (h.busy c hc)
  world := hw

theorem usockEvent_respects {e : Event UsockCb} (h : e.Respects S) :
    (usockEvent e : Event (DaemonCb κ)).Respects S := by
  cases e <;> exact h

theorem Serves.message {as : List ℕ} {own : Own κ ω} (h : Serves as g) (hgu : gu ∈ as)
    (client : Client) (buf : Memory) (len : ℕ) :
    Serves as (rcvMessage own g gu client buf len) := by
  have hfold (es : List (Event UsockCb)) (hes : ∀ e ∈ es, e.Respects (Live as)) (t : Daemon κ ω)
      (ht : Serves as t) :
      Serves as ((es.map usockEvent).foldl (GsmDaemon.next (daemonEnv own)) t) := by
    induction es generalizing t with
    | nil => exact ht
    | cons e es ih =>
      apply ih (fun e' he' => hes e' (List.mem_cons_of_mem e he'))
      exact ht.next own (usockEvent_respects (hes e List.mem_cons_self))
  unfold rcvMessage
  split
  · exact h.users as h.world (fun _ _ hlive => hlive)
  · exact h
  · rename_i handled hok
    apply hfold handled.events
    · exact (usockRcvMessage_does handled hok).respects (Or.inl rfl) (Or.inr hgu)
    apply h.users as _ (fun _ _ hlive => hlive)
    exact (setClient_addresses g.world gu handled.client).trans h.world

theorem lookup_mem {w : World ω} {client : Client} (h : w.users.lookup gu = some client) :
    gu ∈ w.addresses := by
  obtain ⟨l₁, l₂, heq, -⟩ := List.lookup_eq_some_iff.mp h
  rw [World.addresses, heq]
  simp

theorem served_daemonNext {own : Own κ ω} {e : DaemonEvent κ} (h : Served g)
    (hen : (daemon own).enabled g e) (hok : QuitsIdle g e) : Served (daemonNext own g e) := by
  obtain ⟨as, hgsmd, hserves⟩ := h
  obtain ⟨-, hen⟩ := hen
  cases e with
  | connect gu =>
    obtain ⟨hne, -⟩ := hen
    refine ⟨gu :: as, ?_, ?_⟩
    · rw [List.mem_cons, not_or]
      exact ⟨Ne.symm hne, hgsmd⟩
    · apply hserves.users
      · exact congrArg (gu :: ·) hserves.world
      · exact fun c _ hlive => hlive.imp_right (List.mem_cons_of_mem gu)
  | eof gu =>
    refine ⟨as.filter (· ≠ gu), fun hmem => hgsmd (List.mem_of_mem_filter hmem), ?_⟩
    apply hserves.users
    · have hworld : g.world.addresses = as := hserves.world
      rw [← hworld]
      unfold World.addresses
      rw [List.filter_map]
      rfl
    · intro c hc hlive
      apply hlive.imp_right
      intro hmem
      exact List.mem_filter.mpr ⟨hmem, decide_eq_true (hok c hc)⟩
  | request gu buf len =>
    refine ⟨as, hgsmd, ?_⟩
    simp only [daemonNext]
    split
    · exact hserves
    · rename_i client hlookup
      have hmem := lookup_mem hlookup
      rw [hserves.world] at hmem
      exact hserves.message hmem client buf len
  | userWritable gu rc =>
    refine ⟨as, hgsmd, ?_⟩
    simp only [daemonNext]
    split
    · exact hserves
    · apply hserves.users as _ (fun _ _ hlive => hlive)
      exact (setClient_addresses _ _ _).trans hserves.world
  | own cmd => exact ⟨as, hgsmd, Guarded.submit hserves (Or.inl rfl) (Or.inl rfl)⟩
  | writable rc crDone => exact ⟨as, hgsmd, hserves.next own (e := .writable rc crDone) trivial⟩
  | line buf => exact ⟨as, hgsmd, hserves.next own (e := .line buf) trivial⟩
  | prompt => exact ⟨as, hgsmd, hserves.next own (e := .prompt) trivial⟩
  | expire tmr => exact ⟨as, hgsmd, hserves.next own (e := .expire tmr) trivial⟩

theorem eof_breaks {own : Own κ ω} {e : DaemonEvent κ} (h : Served g)
    (hen : (daemon own).enabled g e) (hno : ¬ QuitsIdle g e) :
    ¬ HasClients (daemonNext own g e) := by
  obtain ⟨as, hgsmd, hserves⟩ := h
  cases e with
  | eof gu =>
    have hgu : gu ∈ g.world.addresses := hen.2
    simp only [QuitsIdle, not_forall, not_not] at hno
    obtain ⟨c, hc, rfl⟩ := hno
    intro hall
    have hgone : c.ctx ∈ ((g.world.users.filter (fun u => u.1 ≠ c.ctx)).map Prod.fst) := by
      apply hall c hc
      rintro heq
      rw [heq, hserves.world] at hgu
      exact hgsmd hgu
    obtain ⟨u, hu, heq⟩ := List.mem_map.mp hgone
    have hne := of_decide_eq_true (List.mem_filter.mp hu).2
    exact hne heq
  | connect _ | request _ _ _ | userWritable _ _ | own _ | writable _ _ | line _ | prompt | expire _ =>
    exact absurd trivial hno

theorem hasClients_iff_quitsIdle {own : Own κ ω} {es : List (DaemonEvent κ)} (hinit : DaemonInit g)
    (hrun : (daemon own).Run g es t) :
    (daemon own).Throughout HasClients g es ↔ (daemon own).RunWhile QuitsIdle g es t := by
  apply Machine.Run.throughout_iff (I := Served) _ _ _ hrun
  · refine ⟨[], List.not_mem_nil, ?_, ?_, ?_⟩
    · rw [hinit.atcmd.pending]
      exact List.forall_mem_nil _
    · rw [hinit.atcmd.busy]
      exact List.forall_mem_nil _
    · rw [World.addresses, hinit.users]
      rfl
  · exact fun t e hi hen hok => served_daemonNext hi hen hok
  · exact fun t hi => hi.hasClients
  · exact fun t e hi hen hno => eof_breaks hi hen hno

def idleOwn : Own Unit Unit where
  textMode := false
  extChars := ascii "%@"
  unsolicit := []
  callback _ world _ _ := ⟨0, world, [], []⟩
  scribble _ text := text
  vmailScribble text := text
  initsettings := ⟨some (), 0, ascii "ATZ" ++ [0], rfl⟩
  generateEventFromCme world _ := (world, [])
  generateEventFromCms world _ := (world, [])
  unset _ := ⟨⟨0, ⟨0, 0, 0, 0, 0, 0⟩, Memory.zero⟩, fun _ => Memory.zero, 0, Memory.zero,
    ⟨0, Memory.zero, ⟨0, Memory.zero⟩, ⟨0, 0, 0, 0, ⟨0, 0, 0, 0, 0, 0, 0⟩, Memory.zero⟩⟩⟩
  behind _ := []
  heap _ _ := Memory.zero
  links _ := Memory.zero
  ptr _ := 0

def daemonStart : Daemon Unit Unit where
  v0 := false
  interpreterReady := true
  fdWrite := false
  pendingAtcmds := []
  busyAtcmds := []
  mlbuf := Memory.zero
  mlbufLen := 0
  mlunsolicited := false
  wakeupTimer := none
  timers := []
  world := ⟨[], false, false, 0, ()⟩
  serial := 0
  log := []

theorem daemonStart_init : DaemonInit daemonStart :=
  ⟨⟨rfl, rfl, rfl, rfl, rfl, rfl, rfl, rfl⟩, rfl, rfl⟩

def atRequest : Memory := Memory.zero.store 0 ([1, 2, 1, 0, 5, 0, 3, 0] ++ ascii "AT")

def idleQuit : List (DaemonEvent Unit) := [.connect 1, .connect 2, .request 1 atRequest 11, .eof 2]

theorem hasClients_iff_quitsIdle_two :
    (daemon idleOwn).Throughout HasClients daemonStart idleQuit := by
  have hquit : (daemon idleOwn).RunWhile QuitsIdle daemonStart idleQuit
      ((daemon idleOwn).after daemonStart idleQuit) := by
    apply Machine.Checks.runWhile
    decide
  exact (hasClients_iff_quitsIdle daemonStart_init hquit.run).mpr hquit

theorem hasClients_dangling :
    DaemonInit daemonStart ∧
      (daemon idleOwn).Run daemonStart [.connect 1, .request 1 atRequest 11, .eof 1]
        ((daemon idleOwn).after daemonStart [.connect 1, .request 1 atRequest 11, .eof 1]) ∧
      ¬ HasClients
        ((daemon idleOwn).after daemonStart [.connect 1, .request 1 atRequest 11, .eof 1]) := by
  refine ⟨daemonStart_init, ?_, by decide⟩
  apply Machine.Checks.runWhile
  decide

end SystemTestSuite.GsmDaemon
