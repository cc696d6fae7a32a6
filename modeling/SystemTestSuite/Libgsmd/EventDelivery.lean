import SystemTestSuite.GsmDaemon.Daemon
import SystemTestSuite.GsmDaemon.EventFanout
import SystemTestSuite.GsmDaemon.Replies
import SystemTestSuite.GsmDaemon.UnsolicitedFields
import SystemTestSuite.Libgsmd.EventDispatch

/-!
Events on their way from the modem to the clients: the daemon queues them for its users, writes the
queues to the sockets, and the processes read their sockets, in any order.
-/

namespace SystemTestSuite.Libgsmd

open Library GsmDaemon

/-- A client with its end of the daemon: `socket` is written and not yet read, `due` is all that the
daemon has queued for it. -/
structure Conn (η ε σ : Type) where
  address : ℕ
  gu : GsmdUser
  socket : Bytes
  client : LgsmProcess η ε σ
  due : List GsmdMsg

def ucmdMessage (ucmd : GsmdUcmd) : GsmdMsg := ⟨ucmd.hdr, ucmd.payload, Memory.slice_length ..⟩

/-- `reply` is anything else that the daemon queues for a user. -/
inductive WireEvent (η ε σ : Type)
  | connect (address : ℕ) (state : σ)
  | eof (address : ℕ)
  | subscribe (address : ℕ) (mask : UInt32)
  | reply (address : ℕ) (ucmd : GsmdUcmd)
  | event (u : Unset) (src : EventSource) (heap : ℕ → Memory) (links : Memory) (ptr : ℕ)
  | userWritable (address : ℕ) (rc : ℕ → ℤ)
  | read (address : ℕ) (stale : Memory) (n : ℕ)
  | call (address : ℕ) (registration : Registration η ε)

variable {η ε σ : Type}

def onConn (cs : List (Conn η ε σ)) (address : ℕ) (f : Conn η ε σ → Conn η ε σ) :
    List (Conn η ε σ) := cs.map fun c => if c.address = address then f c else c

namespace Conn

variable (c : Conn η ε σ)

def queued (ucmd : GsmdUcmd) : Conn η ε σ :=
  { c with gu := usockCmdEnqueue ucmd c.gu, due := c.due ++ [ucmdMessage ucmd] }

def wrote (rc : ℕ → ℤ) : Conn η ε σ :=
  let r := userCbWrite rc c.gu
  { c with gu := r.2, socket := c.socket ++ r.1 }

def hasRead (app : LgsmApp η ε σ) (stale : Memory) (n : ℕ) : Conn η ε σ :=
  let chunk := c.socket.take n
  { c with
    socket := c.socket.drop n
    client := (c.client.handlePacket app (stale.store 0 chunk) chunk.length).2 }

end Conn

def sendEvent (heap : ℕ → Memory) (links : Memory) (ptr : ℕ) (cs : List (Conn η ε σ))
    (evt : ℕ) (ucmd : GsmdUcmd) : List (Conn η ε σ) :=
  let sent := usockEvtSend heap links ptr (cs.map Conn.gu) ucmd evt
  List.zipWith (fun c gu =>
    let due := if subscribed evt c.gu then c.due ++ [ucmdMessage ucmd] else c.due
    { c with gu := gu, due := due }) cs sent.2

def wireEnabled (cs : List (Conn η ε σ)) : WireEvent η ε σ → Prop
  | .connect address _ => ∀ c ∈ cs, c.address ≠ address
  | .reply _ ucmd => ucmd.hdr.msgType < numGsmdMsgs ∧ ucmd.hdr.msgType ≠ gsmdMsgEvent
  | .userWritable address rc => ∀ c ∈ cs, c.address = address →
      c.gu.fdWrite = true ∧ Bounded rc c.gu.finishedUcmds
  | .read address _ n => ∀ c ∈ cs, c.address = address → 0 < n ∧ n ≤ c.socket.length
  | _ => True

def wireNext (app : LgsmApp η ε σ) (cs : List (Conn η ε σ)) : WireEvent η ε σ → List (Conn η ε σ)
  | .connect address state => ⟨address, newClient.gu, [], lgsmInit state, []⟩ :: cs
  | .eof address => cs.filter (·.address ≠ address)
  | .subscribe address mask =>
    onConn cs address fun c => { c with gu := { c.gu with subscriptions := mask } }
  | .reply address ucmd => onConn cs address (·.queued ucmd)
  | .event u src heap links ptr =>
    match src.event u with
    | none => cs
    | some (evt, ucmd) => sendEvent heap links ptr cs evt ucmd
  | .userWritable address rc => onConn cs address (·.wrote rc)
  | .read address stale n => onConn cs address (·.hasRead app stale n)
  | .call address registration =>
    onConn cs address fun c => { c with client := c.client.register registration }

def wire (app : LgsmApp η ε σ) : Machine (List (Conn η ε σ)) (WireEvent η ε σ) :=
  ⟨(· = []), wireEnabled, wireNext app⟩

/-- An event goes to one user at most, a write takes whole messages, a read ends where a message
ends, and the application leaves the handler of the events in place. -/
def Delivers (cs : List (Conn η ε σ)) : WireEvent η ε σ → Prop
  | .event u src _ _ _ => ∀ e ∈ src.event u, (cs.map Conn.gu).countP (subscribed e.1) ≤ 1
  | .userWritable address rc => ∀ c ∈ cs, c.address = address → WholeWrites rc c.gu.finishedUcmds
  | .read address _ n => ∀ c ∈ cs, c.address = address → packets.Whole (c.socket.take n)
  | .call _ registration => registration.SparesEvents
  | _ => True

structure Carries (c : Conn η ε σ) : Prop where
  stream : ∃ sent queued : List LgsmPacket, c.socket = packets.encodeAll sent ∧
    c.gu.finishedUcmds.map ucmdMessage = queued.map LgsmPacket.toGsmdMsg ∧
    c.due = c.client.handled ++ (sent ++ queued).map LgsmPacket.toGsmdMsg
  follows : Follows c.client c.client.handled (netregAfter c.client.handled)

section

variable {app : LgsmApp η ε σ} {cs : List (Conn η ε σ)} {c : Conn η ε σ} {evt ptr : ℕ}
  {ucmd : GsmdUcmd} {heap : ℕ → Memory} {links : Memory}

theorem handOut_one {gus : List GsmdUser} (h : gus.countP (subscribed evt) ≤ 1)
    (ucmds : List GsmdUcmd) : handOut evt gus (ucmd :: ucmds) =
      gus.map fun gu => if subscribed evt gu then usockCmdEnqueue ucmd gu else gu := by
  induction gus with
  | nil => rfl
  | cons gu gus ih =>
    by_cases hsub : subscribed evt gu = true
    · rw [List.countP_cons_of_pos hsub] at h
      have hnone : gus.countP (subscribed evt) = 0 := by omega
      have hrest : gus.map (fun gu => if subscribed evt gu then usockCmdEnqueue ucmd gu else gu) =
          gus := by
        apply (List.map_congr_left _).trans (List.map_id gus)
        intro gu' hgu
        exact if_neg (List.countP_eq_zero.mp hnone gu' hgu)
      rw [handOut_subscribed hsub, handOut_none hnone, List.map_cons, if_pos hsub, hrest]
    · rw [List.countP_cons_of_neg hsub] at h
      rw [handOut_other hsub, ih h, List.map_cons, if_neg hsub]

theorem sendEvent_one (h : (cs.map Conn.gu).countP (subscribed evt) ≤ 1) :
    sendEvent heap links ptr cs evt ucmd =
      cs.map fun c => if subscribed evt c.gu then c.queued ucmd else c := by
  rw [sendEvent, usockEvtSend_eq, handOut_one h]
  dsimp only
  rw [List.zipWith_map_right, List.zipWith_map_right, List.zipWith_self]
  apply List.map_congr_left
  intro c _
  by_cases hsub : subscribed evt c.gu = true
  · simp [hsub, Conn.queued]
  · simp [hsub]

theorem carries_connected (address : ℕ) (state : σ) :
    Carries (⟨address, newClient.gu, [], lgsmInit state, []⟩ : Conn η ε σ) :=
  ⟨⟨[], [], rfl, rfl, rfl⟩, follows_lgsmInit state⟩

theorem Carries.queued (h : Carries c) (hknown : ucmd.hdr.msgType < numGsmdMsgs) :
    Carries (c.queued ucmd) := by
  obtain ⟨⟨sent, queued, hsocket, hqueued, hdue⟩, hfollows⟩ := h
  refine ⟨⟨sent, queued ++ [⟨ucmdMessage ucmd, hknown⟩], hsocket, ?_, ?_⟩, hfollows⟩
  · simp [Conn.queued, usockCmdEnqueue, hqueued]
  · simp [Conn.queued, hdue]

theorem wholeWrites_front {rc : ℕ → ℤ} {ucmds : List GsmdUcmd} (h : WholeWrites rc ucmds) :
    ∃ front, ucmds = front ++ (userCbWriteLoop rc ucmds).2 ∧
      (userCbWriteLoop rc ucmds).1 = GsmDaemon.packets front := by
  induction ucmds generalizing rc with
  | nil => exact ⟨[], rfl, rfl⟩
  | cons ucmd ucmds ih =>
    rcases h with hstop | ⟨hfull, hrest⟩
    · rw [userCbWriteLoop_stopped ucmd ucmds hstop]
      exact ⟨[], rfl, rfl⟩
    · obtain ⟨front, hucmds, hbytes⟩ := ih hrest
      refine ⟨ucmd :: front, ?_, ?_⟩
      · rw [userCbWriteLoop_full ucmds hfull]
        exact congrArg (ucmd :: ·) hucmds
      · rw [userCbWriteLoop_full ucmds hfull, packets_cons, hbytes]

theorem packets_front {front : List GsmdUcmd} {queued : List LgsmPacket}
    (h : front.map ucmdMessage = queued.map LgsmPacket.toGsmdMsg) :
    GsmDaemon.packets front = packets.encodeAll queued := by
  induction front generalizing queued with
  | nil =>
    obtain rfl := List.map_eq_nil_iff.mp h.symm
    rfl
  | cons ucmd front ih =>
    cases queued with
    | nil => cases h
    | cons pk queued =>
      obtain ⟨hhead, hrest⟩ := List.cons.inj h
      have hbytes : ucmd.packet = packets.encode pk := congrArg GsmdMsg.bytes hhead
      rw [packets_cons, Framing.encodeAll_cons, ih hrest, hbytes]

theorem Carries.wrote (h : Carries c) {rc : ℕ → ℤ} (hwhole : WholeWrites rc c.gu.finishedUcmds) :
    Carries (c.wrote rc) := by
  obtain ⟨⟨sent, queued, hsocket, hqueued, hdue⟩, hfollows⟩ := h
  obtain ⟨front, hfront, hbytes⟩ := wholeWrites_front hwhole
  rw [hfront, List.map_append] at hqueued
  obtain ⟨first, later, rfl, hfirst, hlater⟩ := List.append_eq_map_iff.mp hqueued
  refine ⟨⟨sent ++ first, later, ?_, hlater.symm, ?_⟩, hfollows⟩
  · change c.socket ++ (userCbWriteLoop rc c.gu.finishedUcmds).1 = _
    rw [hbytes, packets_front hfirst.symm, hsocket, Framing.encodeAll_append]
  · rw [List.append_assoc]
    exact hdue

theorem Carries.hasRead (h : Carries c) (happ : app.SparesEvents) (stale : Memory) {n : ℕ}
    (hwhole : packets.Whole (c.socket.take n)) : Carries (c.hasRead app stale n) := by
  obtain ⟨⟨sent, queued, hsocket, hqueued, hdue⟩, hfollows⟩ := h
  have hread := hfollows.handlePacket happ stale (c.socket.take n)
  have hcut : packets.encodeAll sent =
      packets.encodeAll (packets.split (c.socket.take n)) ++ c.socket.drop n := by
    rw [hwhole, List.take_append_drop, hsocket]
  obtain ⟨left, hsent, hleft⟩ := Framing.exists_left hcut
  refine ⟨⟨left, queued, hleft, hqueued, ?_⟩, ?_⟩
  · change c.due = (c.client.handlePacket app _ _).2.handled ++ _
    rw [hread.handled, hdue, hsent, List.append_assoc, List.append_assoc, ← List.map_append]
  · have hsame : (c.hasRead app stale n).client.handled = _ := hread.handled
    rw [hsame]
    exact hread

theorem Carries.registered (h : Carries c) {r : Registration η ε} (hr : r.SparesEvents) :
    Carries { c with client := c.client.register r } := by
  have hkept := h.follows.register hr
  refine ⟨?_, ?_⟩
  · rw [hkept.handled]
    exact h.stream
  · rw [hkept.handled]
    exact hkept

theorem Carries.drained (h : Carries c) (hqueue : c.gu.finishedUcmds = []) (hsocket : c.socket = []) :
    c.client.handled = c.due := by
  obtain ⟨⟨sent, queued, hsent, hqueued, hdue⟩, -⟩ := h
  rw [hqueue] at hqueued
  rw [hsocket] at hsent
  obtain rfl := List.map_eq_nil_iff.mp hqueued.symm
  have hnone : sent = [] := (Framing.encodeAll_injective (hsent.symm.trans packets.encodeAll_nil.symm))
  rw [hdue, hnone, List.append_nil, List.map_nil, List.append_nil]

theorem carries_onConn {address : ℕ} {f : Conn η ε σ → Conn η ε σ} (h : ∀ c ∈ cs, Carries c)
    (hf : ∀ c ∈ cs, c.address = address → Carries c → Carries (f c)) :
    ∀ c ∈ onConn cs address f, Carries c := by
  intro c hc
  obtain ⟨c', hc', rfl⟩ := List.mem_map.mp hc
  split_ifs with haddress
  · exact hf c' hc' haddress (h c' hc')
  · exact h c' hc'

theorem carries_next (happ : app.SparesEvents) {e : WireEvent η ε σ} (h : ∀ c ∈ cs, Carries c)
    (hen : wireEnabled cs e) (hok : Delivers cs e) : ∀ c ∈ wireNext app cs e, Carries c := by
  cases e with
  | connect address state =>
    intro c hc
    rcases List.mem_cons.mp hc with rfl | hc
    · exact carries_connected address state
    · exact h c hc
  | eof address => exact fun c hc => h c (List.mem_of_mem_filter hc)
  | subscribe address mask => exact carries_onConn h fun c _ _ hc => ⟨hc.stream, hc.follows⟩
  | reply address ucmd => exact carries_onConn h fun c _ _ hc => hc.queued hen.1
  | event u src heap links ptr =>
    rw [wireNext]
    cases hsrc : src.event u with
    | none => exact h
    | some e =>
      obtain ⟨evt, ucmd⟩ := e
      dsimp only
      rw [sendEvent_one (hok _ hsrc)]
      intro c hc
      obtain ⟨c', hc', rfl⟩ := List.mem_map.mp hc
      split_ifs with hsub
      · apply (h c' hc').queued
        rw [(EventSource.event_isEvent hsrc).msgType]
        decide
      · exact h c' hc'
  | userWritable address rc =>
    exact carries_onConn h fun c hc haddress hcarries => hcarries.wrote (hok c hc haddress)
  | read address stale n =>
    exact carries_onConn h fun c hc haddress hcarries =>
      hcarries.hasRead happ stale (hok c hc haddress)
  | call address registration => exact carries_onConn h fun c _ _ hc => hc.registered hok

end

section

variable {app : LgsmApp η ε σ} {cs t : List (Conn η ε σ)} {es : List (WireEvent η ε σ)}

theorem carries_run (happ : app.SparesEvents) (hrun : (wire app).RunWhile Delivers [] es t) :
    ∀ c ∈ t, Carries c :=
  hrun.invariant (fun _ _ hi hen hok => carries_next happ hi hen hok) (List.forall_mem_nil _)

theorem ofNat_evt {evt : ℕ} (h : evt < numGsmdEvt) : (UInt8.ofNat evt).toNat = evt := by
  rw [UInt8.toNat_ofNat']
  exact Nat.mod_eq_of_lt (h.trans (by decide))

def WireEvent.Reports : WireEvent η ε σ → Prop
  | .event u src _ _ _ => ∃ ucmd, src.event u = some (gsmdEvtNetreg, ucmd)
  | _ => False

theorem netregOf_ucmd {ucmd : GsmdUcmd} (hevent : IsEvent gsmdEvtNetreg ucmd) :
    netregOf (ucmdMessage ucmd) = some (intAt ucmd.buf 0) := by
  have hsub : ucmd.hdr.msgSubtype.toNat = gsmdEvtNetreg := by
    rw [hevent.msgSubtype]
    rfl
  have hlen : sizeofAuxdata ≤ ucmd.hdr.len.toNat := hevent.aux.mpr (by decide)
  have hsame : auxNetregState (ucmdMessage ucmd) = intAt ucmd.buf 0 := by
    apply intAt_congr
    intro i _ hi
    have hin : i < ucmd.payload.length := by
      rw [GsmdUcmd.payload, Memory.slice_length]
      exact lt_of_lt_of_le hi ((show 0 + 4 ≤ sizeofAuxdata by decide).trans hlen)
    have hstored := Memory.store_inside Memory.zero 0 ucmd.payload hin
    rw [Nat.zero_add] at hstored
    change (Memory.zero.store 0 ucmd.payload) i = _
    rw [hstored]
    simp [GsmdUcmd.payload, Memory.slice_getElem]
  rw [← hsame]
  exact if_pos ⟨hevent.msgType, hsub, hlen⟩

theorem netregOf_otherEvent {evt : ℕ} {ucmd : GsmdUcmd} (hevent : IsEvent evt ucmd)
    (hne : evt ≠ gsmdEvtNetreg) : netregOf (ucmdMessage ucmd) = none := by
  apply if_neg
  rintro ⟨-, hsub, -⟩
  apply hne
  rw [← hsub]
  exact ((congrArg UInt8.toNat hevent.msgSubtype).trans (ofNat_evt hevent.known)).symm

/-- The client at the address is there, and `state` is the last registration state that is due to
it. -/
def Reported (address : ℕ) (state : ℤ) (cs : List (Conn η ε σ)) : Prop :=
  (∃ c ∈ cs, c.address = address) ∧ ∀ c ∈ cs, c.address = address → netregAfter c.due = state

theorem Reported.onConn {address address' : ℕ} {state : ℤ} {f : Conn η ε σ → Conn η ε σ}
    (h : Reported address state cs)
    (hf : ∀ c, (f c).address = c.address ∧ netregAfter (f c).due = netregAfter c.due) :
    Reported address state (onConn cs address' f) := by
  obtain ⟨⟨c, hc, haddress⟩, hstate⟩ := h
  refine ⟨⟨_, List.mem_map_of_mem hc, ?_⟩, ?_⟩
  · split_ifs
    · exact (hf c).1.trans haddress
    · exact haddress
  · intro c' hc' haddress'
    obtain ⟨c'', hc'', rfl⟩ := List.mem_map.mp hc'
    split_ifs at haddress' ⊢
    · exact (hf c'').2.trans (hstate c'' hc'' ((hf c'').1.symm.trans haddress'))
    · exact hstate c'' hc'' haddress'

theorem Reported.next {address : ℕ} {state : ℤ} {e : WireEvent η ε σ} (h : Reported address state cs)
    (hen : wireEnabled cs e) (hok : Delivers cs e) (hstays : e ≠ .eof address)
    (hquiet : ¬ e.Reports) : Reported address state (wireNext app cs e) := by
  obtain ⟨⟨c, hc, haddress⟩, hstate⟩ := id h
  cases e with
  | connect address' state' =>
    refine ⟨⟨c, List.mem_cons_of_mem _ hc, haddress⟩, ?_⟩
    intro c' hc' haddress'
    rcases List.mem_cons.mp hc' with rfl | hc'
    · exact absurd (haddress.trans haddress'.symm) (hen c hc)
    · exact hstate c' hc' haddress'
  | eof address' =>
    have hne : address ≠ address' := fun heq => hstays (heq ▸ rfl)
    refine ⟨⟨c, List.mem_filter.mpr ⟨hc, ?_⟩, haddress⟩, ?_⟩
    · simpa [haddress] using hne
    · exact fun c' hc' => hstate c' (List.mem_of_mem_filter hc')
  | reply address' ucmd =>
    apply h.onConn
    intro c
    refine ⟨rfl, netregAfter_append ?_⟩
    exact List.forall_mem_singleton.mpr (netregOf_other hen.2)
  | event u src heap links ptr =>
    rw [wireNext]
    cases hsrc : src.event u with
    | none => exact h
    | some e =>
      obtain ⟨evt, ucmd⟩ := e
      have hne : evt ≠ gsmdEvtNetreg := fun heq => hquiet ⟨ucmd, heq ▸ hsrc⟩
      have hnone := netregOf_otherEvent (EventSource.event_isEvent hsrc) hne
      dsimp only
      rw [sendEvent_one (hok _ hsrc)]
      refine ⟨⟨_, List.mem_map_of_mem hc, ?_⟩, ?_⟩
      · split_ifs
        · exact haddress
        · exact haddress
      · intro c' hc' haddress'
        obtain ⟨c'', hc'', rfl⟩ := List.mem_map.mp hc'
        split_ifs at haddress' ⊢
        · have hkept : netregAfter (c''.due ++ [ucmdMessage ucmd]) = netregAfter c''.due :=
            netregAfter_append (List.forall_mem_singleton.mpr hnone)
          exact hkept.trans (hstate c'' hc'' haddress')
        · exact hstate c'' hc'' haddress'
  | subscribe _ _ | userWritable _ _ | read _ _ _ | call _ _ => exact h.onConn fun _ => ⟨rfl, rfl⟩

theorem Reported.run {address : ℕ} {state : ℤ} (h : Reported address state cs)
    (hrun : (wire app).RunWhile Delivers cs es t)
    (hes : ∀ e ∈ es, e ≠ .eof address ∧ ¬ e.Reports) : Reported address state t := by
  induction hrun with
  | nil => exact h
  | snoc _ hen hok ih =>
    obtain ⟨hstays, hquiet⟩ := hes _ (List.mem_append_right _ List.mem_cons_self)
    exact (ih fun e he => hes e (List.mem_append_left _ he)).next hen hok hstays hquiet

def cregUcmd (u : Unset) (state : ℕ) (lac ci : HexField) : GsmdUcmd :=
  (((auxEvent u gsmdEvtNetreg).store 0 (intBytes state)).store auxLac
    (wordOf (digitsIn 16 lac.digits))).store auxCi (wordOf (digitsIn 16 ci.digits))

theorem cregLine_event {state : ℕ} (hsmall : state < 2 ^ 31) (u : Unset) (flags : UInt32)
    (lac ci : HexField) :
    EventSource.event u (.line flags (FieldsMessage.creg state lac ci hsmall).line) =
      some (gsmdEvtNetreg, cregUcmd u state lac ci) := by
  rw [EventSource.event, cregLine_handled]
  rfl

theorem cregUcmd_state {state : ℕ} (hsmall : state < 2 ^ 31) (u : Unset) (lac ci : HexField) :
    intAt (cregUcmd u state lac ci).buf 0 = state := by
  have hsame : intAt (cregUcmd u state lac ci).buf 0 =
      intAt (u.ucmd.buf.store 0 (intBytes state)) 0 := by
    apply intAt_congr
    intro i _ hi
    have hlac : i < auxLac := hi
    have hci : i < auxCi := hlac.trans (by decide)
    change ((((u.ucmd.buf.store 0 (intBytes state)).store auxLac _).store auxCi _) : Memory) i = _
    rw [Memory.store_before _ _ hci, Memory.store_before _ _ hlac]
  rw [hsame, intAt_store _ _ hsmall]

end

end SystemTestSuite.Libgsmd
