import SystemTestSuite.Libgsmd.EventDelivery

namespace SystemTestSuite.Libgsmd

open Library GsmDaemon

def idleApp : LgsmApp Unit Unit Unit := ⟨fun _ _ _ => ⟨0, (), []⟩, fun _ _ _ _ => ⟨0, (), []⟩⟩

theorem idleApp_spares : idleApp.SparesEvents :=
  ⟨fun _ _ _ => List.forall_mem_nil _, fun _ _ _ _ => List.forall_mem_nil _⟩

def listening : LgsmProcess Unit Unit Unit :=
  (lgsmInit ()).register (.evtHandlerRegister gsmdEvtNetreg ())

def connOne : Conn Unit Unit Unit := ⟨1, newClient.gu, [], listening, []⟩

def noHex : HexField := ⟨[], by simp, by decide⟩

theorem home_small : 1 < 2 ^ 31 := by decide

def homeLine : Bytes := (FieldsMessage.creg 1 noHex noHex home_small).line

def homeUcmd : GsmdUcmd := cregUcmd zeroed 1 noHex noHex

def homeEvent : WireEvent Unit Unit Unit :=
  .event zeroed (.line 0 homeLine) (fun _ => Memory.zero) Memory.zero 1

def homeEvents : List (WireEvent Unit Unit Unit) :=
  [.userWritable 1 (fun _ => 48), .read 1 Memory.zero 48]

def connHome : Conn Unit Unit Unit :=
  ((connOne.queued homeUcmd).wrote fun _ => 48).hasRead idleApp Memory.zero 48

theorem homeLine_event : EventSource.event zeroed (.line 0 homeLine) = some (gsmdEvtNetreg, homeUcmd) :=
  cregLine_event home_small zeroed 0 noHex noHex

theorem connOne_run : (wire idleApp).RunWhile Delivers []
    [.connect 1 (), .call 1 (.evtHandlerRegister gsmdEvtNetreg ())] [connOne] :=
  Machine.RunWhile.cons (List.forall_mem_nil _) trivial (Machine.RunWhile.single trivial trivial)

theorem connOne_listens : ([connOne].map Conn.gu).countP (subscribed gsmdEvtNetreg) ≤ 1 ∧
    ∀ c ∈ [connOne], subscribed gsmdEvtNetreg c.gu = true := by
  rw [List.forall_mem_singleton]
  decide

theorem homeEvent_next : wireNext idleApp [connOne] homeEvent = [connOne.queued homeUcmd] := by
  obtain ⟨hone, hsub⟩ := connOne_listens
  rw [homeEvent, wireNext, homeLine_event]
  dsimp only
  rw [sendEvent_one hone, List.map_cons, if_pos (hsub _ List.mem_cons_self), List.map_nil]

theorem homeEvent_run : (wire idleApp).RunWhile Delivers [connOne] [homeEvent]
    [connOne.queued homeUcmd] := by
  have hok : Delivers [connOne] homeEvent := by
    intro e he
    obtain rfl := Option.some.inj (homeLine_event.symm.trans he)
    exact connOne_listens.1
  have hrun : (wire idleApp).RunWhile Delivers [connOne] [homeEvent]
      (wireNext idleApp [connOne] homeEvent) := Machine.RunWhile.single trivial hok
  rwa [homeEvent_next] at hrun

theorem homeUcmd_length : homeUcmd.packet.length = 48 := by
  rw [packet_length]
  rfl

theorem connOne_wrote : ((connOne.queued homeUcmd).wrote fun _ => 48).socket = homeUcmd.packet ∧
    ((connOne.queued homeUcmd).wrote fun _ => 48).gu.finishedUcmds = [] := by
  have hfull : (fun _ : ℕ => (48 : ℤ)) 0 = homeUcmd.packet.length := by
    rw [homeUcmd_length]
    rfl
  have hloop : userCbWriteLoop (fun _ => 48) [homeUcmd] = (homeUcmd.packet ++ [], []) :=
    userCbWriteLoop_full [] hfull
  constructor
  · change [] ++ (userCbWriteLoop (fun _ => 48) [homeUcmd]).1 = homeUcmd.packet
    rw [hloop, List.append_nil, List.nil_append]
  · change (userCbWriteLoop (fun _ => 48) [homeUcmd]).2 = []
    rw [hloop]

theorem connHome_drained : connHome.gu.finishedUcmds = [] ∧ connHome.socket = [] := by
  refine ⟨connOne_wrote.2, ?_⟩
  change List.drop 48 ((connOne.queued homeUcmd).wrote fun _ => 48).socket = []
  rw [connOne_wrote.1, List.drop_of_length_le homeUcmd_length.le]

theorem homeUcmd_known : homeUcmd.hdr.msgType < numGsmdMsgs := by
  rw [(EventSource.event_isEvent homeLine_event).msgType]
  decide

theorem homeEvents_run : (wire idleApp).RunWhile Delivers [connOne.queued homeUcmd] homeEvents
    [connHome] := by
  obtain ⟨hsocket, -⟩ := connOne_wrote
  have hlen := homeUcmd_length
  have hfull : (48 : ℤ) = homeUcmd.packet.length := by
    rw [hlen]
    rfl
  have hwhole : packets.Whole (homeUcmd.packet.take 48) := by
    have hpacket : homeUcmd.packet = packets.encodeAll [⟨ucmdMessage homeUcmd, homeUcmd_known⟩] :=
      (List.append_nil _).symm
    rw [List.take_of_length_le hlen.le, hpacket]
    exact Framing.whole_encodeAll _
  have hwrite : (wire idleApp).RunWhile Delivers [connOne.queued homeUcmd]
      [.userWritable 1 (fun _ => 48)] [(connOne.queued homeUcmd).wrote fun _ => 48] := by
    apply Machine.RunWhile.single
    · exact List.forall_mem_singleton.mpr fun _ => ⟨rfl, hfull.le, trivial⟩
    · exact List.forall_mem_singleton.mpr fun _ => Or.inr ⟨hfull, trivial⟩
  have hread : (wire idleApp).RunWhile Delivers [(connOne.queued homeUcmd).wrote fun _ => 48]
      [.read 1 Memory.zero 48] [connHome] := by
    apply Machine.RunWhile.single
    · exact List.forall_mem_singleton.mpr fun _ => ⟨by decide, by rw [hsocket, hlen]⟩
    · exact List.forall_mem_singleton.mpr fun _ => by rwa [hsocket]
  exact hwrite.append hread

theorem connHome_run : (wire idleApp).RunWhile Delivers []
    ([.connect 1 (), .call 1 (.evtHandlerRegister gsmdEvtNetreg ())] ++ homeEvent :: homeEvents)
    [connHome] := connOne_run.append (homeEvent_run.append homeEvents_run)

variable {η ε σ : Type} {app : LgsmApp η ε σ} {s t : List (Conn η ε σ)} {es fs : List (WireEvent η ε σ)}

/-- Nothing that is due to a client is lost, repeated or overtaken on its way, and the registration
state of the client is what the last message about it says. -/
theorem events_delivered (happ : app.SparesEvents) (hrun : (wire app).RunWhile Delivers [] es t) :
    ∀ c ∈ t, packets.Whole c.socket ∧
      c.due = c.client.handled ++ (packets.split c.socket).map LgsmPacket.toGsmdMsg ++
        c.gu.finishedUcmds.map ucmdMessage ∧
      c.client.lgsmGetNetregState = netregAfter c.client.handled := by
  intro c hc
  obtain ⟨⟨sent, queued, hsocket, hqueued, hdue⟩, hfollows⟩ := carries_run happ hrun c hc
  refine ⟨?_, ?_, hfollows.netreg⟩
  · rw [hsocket]
    exact Framing.whole_encodeAll sent
  · rw [hdue, hqueued, hsocket, Framing.split_encodeAll_nil, List.map_append, List.append_assoc]

theorem events_delivered_home : connHome.due = connHome.client.handled ∧
    connHome.client.lgsmGetNetregState = netregAfter connHome.client.handled := by
  obtain ⟨-, hdue, hstate⟩ := events_delivered idleApp_spares connHome_run _ (List.mem_singleton_self _)
  obtain ⟨hqueue, hsocket⟩ := connHome_drained
  rw [hqueue, hsocket, Framing.split_nil, List.map_nil, List.map_nil, List.append_nil,
    List.append_nil] at hdue
  exact ⟨hdue, hstate⟩

variable {u : Unset} {flags : UInt32} {state address ptr : ℕ} {lac ci : HexField}
  {hsmall : state < 2 ^ 31} {heap : ℕ → Memory} {links : Memory}

/-- A `+CREG` line of the modem is what `lgsm_get_netreg_state` gives in a client that listens, once
all that is due to the client has arrived and as long as no other registration state is reported. -/
theorem netreg_reaches (happ : app.SparesEvents) (hbefore : (wire app).RunWhile Delivers [] es s)
    (hsub : ∀ c ∈ s, c.address = address → subscribed gsmdEvtNetreg c.gu = true)
    (hthere : ∃ c ∈ s, c.address = address)
    (hone : (s.map Conn.gu).countP (subscribed gsmdEvtNetreg) ≤ 1)
    (hafter : (wire app).RunWhile Delivers (wireNext app s (.event u
      (.line flags (FieldsMessage.creg state lac ci hsmall).line) heap links ptr)) fs t)
    (hquiet : ∀ e ∈ fs, e ≠ .eof address ∧ ¬ e.Reports) :
    ∀ c ∈ t, c.address = address → c.gu.finishedUcmds = [] → c.socket = [] →
      c.client.lgsmGetNetregState = state := by
  have hsrc := cregLine_event hsmall u flags lac ci
  have hok : Delivers s (.event u (.line flags (FieldsMessage.creg state lac ci hsmall).line) heap
      links ptr) := by
    intro e he
    obtain rfl := Option.some.inj (hsrc.symm.trans he)
    exact hone
  have hfirst : Reported address state (wireNext app s (.event u
      (.line flags (FieldsMessage.creg state lac ci hsmall).line) heap links ptr)) := by
    obtain ⟨c, hc, haddress⟩ := hthere
    rw [wireNext, hsrc]
    dsimp only
    rw [sendEvent_one hone]
    refine ⟨⟨_, List.mem_map_of_mem hc, ?_⟩, ?_⟩
    · rw [if_pos (hsub c hc haddress)]
      exact haddress
    · intro c' hc' haddress'
      obtain ⟨c'', hc'', rfl⟩ := List.mem_map.mp hc'
      have haddress'' : c''.address = address := by
        split_ifs at haddress'
        · exact haddress'
        · exact haddress'
      have hbrings := netregOf_ucmd (EventSource.event_isEvent hsrc)
      rw [cregUcmd_state hsmall] at hbrings
      rw [if_pos (hsub c'' hc'' haddress''), Conn.queued, netregAfter_concat, hbrings,
        Option.getD_some]
  have hlast := hfirst.run hafter hquiet
  have hen : (wire app).enabled s (.event u
      (.line flags (FieldsMessage.creg state lac ci hsmall).line) heap links ptr) := trivial
  have hrun := (hbefore.snoc hen hok).append hafter
  intro c hc haddress hqueue hsocket
  have hcarries := carries_run happ hrun c hc
  rw [LgsmProcess.lgsmGetNetregState, hcarries.follows.netreg, hcarries.drained hqueue hsocket]
  exact hlast.2 c hc haddress

theorem netreg_reaches_home : (wire idleApp).RunWhile Delivers [connOne]
      (homeEvent :: homeEvents) [connHome] ∧ connHome.client.lgsmGetNetregState = 1 := by
  have hquiet : ∀ e ∈ homeEvents, e ≠ .eof 1 ∧ ¬ e.Reports := by
    intro e he
    simp only [homeEvents, List.mem_cons, List.not_mem_nil, or_false] at he
    rcases he with rfl | rfl
    · exact ⟨nofun, id⟩
    · exact ⟨nofun, id⟩
  obtain ⟨hone, hsub⟩ := connOne_listens
  obtain ⟨hqueue, hsocket⟩ := connHome_drained
  have hnext : wireNext idleApp [connOne] (.event zeroed
      (.line 0 (FieldsMessage.creg 1 noHex noHex home_small).line) (fun _ => Memory.zero) Memory.zero 1) =
      [connOne.queued homeUcmd] := homeEvent_next
  have hafter := homeEvents_run
  rw [← hnext] at hafter
  refine ⟨homeEvent_run.append homeEvents_run, ?_⟩
  exact netreg_reaches idleApp_spares connOne_run (fun c hc _ => hsub c hc) ⟨connOne, by simp, rfl⟩
    hone hafter hquiet _ (List.mem_singleton_self _) rfl hqueue hsocket

end SystemTestSuite.Libgsmd
