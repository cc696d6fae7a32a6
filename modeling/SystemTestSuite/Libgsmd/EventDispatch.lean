import SystemTestSuite.GsmDaemon.EventSources
import SystemTestSuite.Libgsmd.Packets

/-!
The handlers of a client process, `libgsmd/libgsmd.c` and `libgsmd/libgsmd_event.c`: messages go to
the handler for their type, and one of these is `evt_demux_msghandler`, which has handlers for the
types of events. What the handlers of the application do is a parameter.
-/

namespace SystemTestSuite.Libgsmd

open Library GsmDaemon

def eio : Int32 := 5

def lgsmNetregStNotreg : ℤ := 0

inductive MsgHandler (η : Type)
  | evtDemuxMsghandler
  | app (h : η)

inductive Registration (η ε : Type)
  | registerHandler (type : ℕ) (handler : MsgHandler η)
  | unregisterHandler (type : ℕ)
  | evtHandlerRegister (evtType : ℕ) (handler : ε)
  | evtHandlerUnregister (evtType : ℕ)

/-- What a handler of the application returns, and what it registers before it does. -/
structure HandlerReaction (η ε σ : Type) where
  rc : Int32
  state : σ
  registers : List (Registration η ε)

structure LgsmApp (η ε σ : Type) where
  message : η → σ → GsmdMsg → HandlerReaction η ε σ
  event : ε → σ → UInt8 → Bytes → HandlerReaction η ε σ

structure EvtCall (ε : Type) where
  handler : ε
  evtType : UInt8
  aux : Bytes

/-- The handle, the table `evt_handlers` and the state of the application; `handled` are the messages
so far, `calls` the calls of event handlers. -/
structure LgsmProcess (η ε σ : Type) where
  handler : UInt8 → Option (MsgHandler η)
  netregState : ℤ
  evtHandlers : UInt8 → Option ε
  state : σ
  handled : List GsmdMsg
  calls : List (EvtCall ε)

variable {η ε σ : Type}

namespace LgsmProcess

variable (p : LgsmProcess η ε σ)

def lgsmRegisterHandler (type : ℕ) (handler : MsgHandler η) : Int32 × LgsmProcess η ε σ :=
  if type ≥ numGsmdMsgs.toNat then (-einval, p)
  else (0, { p with handler := Function.update p.handler (UInt8.ofNat type) (some handler) })

def lgsmUnregisterHandler (type : ℕ) : LgsmProcess η ε σ :=
  if type < numGsmdMsgs.toNat then
    { p with handler := Function.update p.handler (UInt8.ofNat type) none }
  else p

def lgsmEvtHandlerRegister (evtType : ℕ) (handler : ε) : Int32 × LgsmProcess η ε σ :=
  if evtType ≥ numGsmdEvt then (-einval, p)
  else
    (0, { p with evtHandlers := Function.update p.evtHandlers (UInt8.ofNat evtType) (some handler) })

def lgsmEvtHandlerUnregister (evtType : ℕ) : LgsmProcess η ε σ :=
  if evtType < numGsmdEvt then
    { p with evtHandlers := Function.update p.evtHandlers (UInt8.ofNat evtType) none }
  else p

def register : Registration η ε → LgsmProcess η ε σ
  | .registerHandler type handler => (p.lgsmRegisterHandler type handler).2
  | .unregisterHandler type => p.lgsmUnregisterHandler type
  | .evtHandlerRegister evtType handler => (p.lgsmEvtHandlerRegister evtType handler).2
  | .evtHandlerUnregister evtType => p.lgsmEvtHandlerUnregister evtType

def react (r : HandlerReaction η ε σ) : Int32 × LgsmProcess η ε σ :=
  (r.rc, r.registers.foldl register { p with state := r.state })

def lgsmEvtInit : LgsmProcess η ε σ :=
  ({ p with netregState := lgsmNetregStNotreg }.lgsmRegisterHandler gsmdMsgEvent.toNat
    .evtDemuxMsghandler).2

def lgsmGetNetregState : ℤ := p.netregState

end LgsmProcess

def lgsmInit (state : σ) : LgsmProcess η ε σ :=
  LgsmProcess.lgsmEvtInit ⟨fun _ => none, 0, fun _ => none, state, [], []⟩

def msgData (gmh : GsmdMsg) : Memory := Memory.zero.store 0 gmh.payload

def auxNetregState (gmh : GsmdMsg) : ℤ := intAt (msgData gmh) 0

def LgsmProcess.notesNetreg (p : LgsmProcess η ε σ) (gmh : GsmdMsg) : LgsmProcess η ε σ :=
  if gmh.hdr.msgSubtype.toNat = gsmdEvtNetreg then { p with netregState := auxNetregState gmh }
  else p

def evtDemuxMsghandler (app : LgsmApp η ε σ) (p : LgsmProcess η ε σ) (gmh : GsmdMsg) :
    Int32 × LgsmProcess η ε σ :=
  if gmh.hdr.len.toNat < sizeofAuxdata then (-eio, p)
  else if gmh.hdr.msgType ≠ gsmdMsgEvent ∨ gmh.hdr.msgSubtype.toNat ≥ numGsmdEvt then (-einval, p)
  else
    let p := p.notesNetreg gmh
    match p.evtHandlers gmh.hdr.msgSubtype with
    | some h =>
      let call : EvtCall ε := ⟨h, gmh.hdr.msgSubtype, gmh.payload⟩
      { p with calls := p.calls ++ [call] }.react
        (app.event h p.state gmh.hdr.msgSubtype gmh.payload)
    | none => (0, p)

def MsgHandler.run (app : LgsmApp η ε σ) (p : LgsmProcess η ε σ) (gmh : GsmdMsg) :
    MsgHandler η → Int32 × LgsmProcess η ε σ
  | .evtDemuxMsghandler => Libgsmd.evtDemuxMsghandler app p gmh
  | .app h => p.react (app.message h p.state gmh)

def LgsmProcess.handle (app : LgsmApp η ε σ) (p : LgsmProcess η ε σ) (gmh : GsmdMsg) :
    Option Int32 × LgsmProcess η ε σ :=
  let p := { p with handled := p.handled ++ [gmh] }
  match p.handler gmh.hdr.msgType with
  | some handler =>
    let r := handler.run app p gmh
    (some r.1, r.2)
  | none => (none, p)

def LgsmProcess.packetLoop (app : LgsmApp η ε σ) (p : LgsmProcess η ε σ) (buf : Memory)
    (off len : ℕ) (rc : Int32) : Int32 × LgsmProcess η ε σ :=
  if len = 0 then (rc, p)
  else if _hlen : len < sizeofHdr then (-einval, p)
  else
    let gmh := msgAt buf off
    if len - sizeofHdr < gmh.hdr.len.toNat then (-einval, p)
    else if gmh.hdr.msgType ≥ numGsmdMsgs then (-einval, p)
    else
      let r := p.handle app gmh
      r.2.packetLoop app buf (off + (sizeofHdr + gmh.hdr.len.toNat))
        (len - (sizeofHdr + gmh.hdr.len.toNat)) ((r.1.map (rc ||| ·)).getD rc)
termination_by len
decreasing_by
  rw [sizeofHdr] at *
  omega

def LgsmProcess.handlePacket (app : LgsmApp η ε σ) (p : LgsmProcess η ε σ) (buf : Memory)
    (len : ℕ) : Int32 × LgsmProcess η ε σ := p.packetLoop app buf 0 len 0

section

variable {app : LgsmApp η ε σ} {p : LgsmProcess η ε σ} {buf : Memory} {off len : ℕ} {rc : Int32}

theorem packetLoop_none (h : packetAt? buf off len = none) :
    (p.packetLoop app buf off len rc).2 = p := by
  rw [packetAt?] at h
  split_ifs at h with hp
  rw [LgsmProcess.packetLoop]
  by_cases hzero : len = 0
  · rw [if_pos hzero]
  rw [if_neg hzero]
  by_cases hshort : len < sizeofHdr
  · rw [dif_pos hshort]
  rw [dif_neg hshort]
  by_cases hcut : len - sizeofHdr < (hdrAt buf off).len.toNat
  · exact congrArg Prod.snd (if_pos hcut)
  · have htype : (hdrAt buf off).msgType ≥ numGsmdMsgs := by
      by_contra hknown
      exact hp ⟨by omega, UInt8.not_le.mp hknown⟩
    exact congrArg Prod.snd ((if_neg hcut).trans (if_pos htype))

theorem packetLoop_some {pk : LgsmPacket} (h : packetAt? buf off len = some pk) :
    p.packetLoop app buf off len rc =
      (p.handle app pk.toGsmdMsg).2.packetLoop app buf (off + pk.bytes.length)
        (len - pk.bytes.length) (((p.handle app pk.toGsmdMsg).1.map (rc ||| ·)).getD rc) := by
  obtain ⟨hmsg, hle, -⟩ := packetAt?_some h
  have hlen := GsmdMsg.bytes_length pk.toGsmdMsg
  have hknown := UInt8.not_le.mpr pk.known
  rw [LgsmProcess.packetLoop]
  simp only [← hmsg]
  rw [sizeofHdr] at *
  rw [if_neg (by omega), dif_neg (by omega), if_neg (by omega), if_neg hknown, ← hlen]

theorem packetLoop_eq (app : LgsmApp η ε σ) (p : LgsmProcess η ε σ) (buf : Memory) (off len : ℕ)
    (rc : Int32) : (p.packetLoop app buf off len rc).2 =
      (packets.split (buf.slice off len)).foldl (fun p pk => (p.handle app pk.toGsmdMsg).2) p := by
  induction len using Nat.strong_induction_on generalizing p off rc with
  | _ len ih =>
    have hnext := packets_next buf off len
    cases hp : packetAt? buf off len with
    | none =>
      rw [hp, Option.map_none] at hnext
      rw [packetLoop_none hp, Framing.split_none hnext]
      rfl
    | some pk =>
      obtain ⟨-, hle, -⟩ := packetAt?_some hp
      have hpos : 0 < pk.bytes.length := packets.encode_pos pk
      rw [hp, Option.map_some] at hnext
      rw [packetLoop_some hp, ih _ (by omega), Framing.split_some hnext, List.foldl_cons]

end

def Registration.SparesEvents : Registration η ε → Prop
  | registerHandler type _ | unregisterHandler type => type ≠ gsmdMsgEvent.toNat
  | _ => True

structure LgsmApp.SparesEvents (app : LgsmApp η ε σ) : Prop where
  message : ∀ h s gmh, ∀ r ∈ (app.message h s gmh).registers, r.SparesEvents
  event : ∀ h s type aux, ∀ r ∈ (app.event h s type aux).registers, r.SparesEvents

def netregOf (gmh : GsmdMsg) : Option ℤ :=
  if gmh.hdr.msgType = gsmdMsgEvent ∧ gmh.hdr.msgSubtype.toNat = gsmdEvtNetreg ∧
      sizeofAuxdata ≤ gmh.hdr.len.toNat then
    some (auxNetregState gmh)
  else none

def netregAfter (ms : List GsmdMsg) : ℤ := ((ms.filterMap netregOf).getLast?).getD lgsmNetregStNotreg

theorem netregAfter_concat (ms : List GsmdMsg) (gmh : GsmdMsg) :
    netregAfter (ms ++ [gmh]) = (netregOf gmh).getD (netregAfter ms) := by
  rw [netregAfter, List.filterMap_append, netregAfter]
  cases h : netregOf gmh with
  | none => rw [List.filterMap_cons_none h, List.filterMap_nil, List.append_nil, Option.getD_none]
  | some state =>
    rw [List.filterMap_cons_some h, List.filterMap_nil, List.getLast?_concat]
    rfl

theorem netregAfter_append {ms ns : List GsmdMsg} (h : ∀ gmh ∈ ns, netregOf gmh = none) :
    netregAfter (ms ++ ns) = netregAfter ms := by
  rw [netregAfter, List.filterMap_append, List.filterMap_eq_nil_iff.mpr h, List.append_nil,
    netregAfter]

structure ForHandlers (gmh : GsmdMsg) : Prop where
  msgType : gmh.hdr.msgType = gsmdMsgEvent
  known : gmh.hdr.msgSubtype.toNat < numGsmdEvt
  aux : sizeofAuxdata ≤ gmh.hdr.len.toNat

structure Follows (p : LgsmProcess η ε σ) (ms : List GsmdMsg) (state : ℤ) : Prop where
  handled : p.handled = ms
  demux : p.handler gsmdMsgEvent = some .evtDemuxMsghandler
  netreg : p.netregState = state
  calls : ∀ call ∈ p.calls, ∃ gmh ∈ ms, ForHandlers gmh ∧ call.evtType = gmh.hdr.msgSubtype ∧
    call.aux = gmh.payload

section

variable {app : LgsmApp η ε σ} {p : LgsmProcess η ε σ} {ms : List GsmdMsg} {state : ℤ}

theorem follows_lgsmInit (state : σ) :
    Follows (lgsmInit state : LgsmProcess η ε σ) [] (netregAfter []) := by
  have hknown : ¬ gsmdMsgEvent.toNat ≥ numGsmdMsgs.toNat := by decide
  have hevent : UInt8.ofNat gsmdMsgEvent.toNat = gsmdMsgEvent := rfl
  rw [lgsmInit, LgsmProcess.lgsmEvtInit, LgsmProcess.lgsmRegisterHandler, if_neg hknown, hevent]
  refine ⟨rfl, ?_, rfl, List.forall_mem_nil _⟩
  simp only [Function.update_self]

theorem ofNat_ne_event {type : ℕ} (hlt : type < numGsmdMsgs.toNat) (hne : type ≠ gsmdMsgEvent.toNat) :
    gsmdMsgEvent ≠ UInt8.ofNat type := by
  have hsmall : type < 11 := hlt
  intro heq
  apply hne
  rw [heq, UInt8.toNat_ofNat', Nat.mod_eq_of_lt (by omega)]

theorem Follows.register (h : Follows p ms state) {r : Registration η ε} (hr : r.SparesEvents) :
    Follows (p.register r) ms state := by
  cases r with
  | registerHandler type handler =>
    change Follows (p.lgsmRegisterHandler type handler).2 ms state
    rw [LgsmProcess.lgsmRegisterHandler]
    split_ifs with htype
    · exact h
    · refine ⟨h.handled, ?_, h.netreg, h.calls⟩
      exact (Function.update_of_ne (ofNat_ne_event (by omega) hr) _ _).trans h.demux
  | unregisterHandler type =>
    change Follows (p.lgsmUnregisterHandler type) ms state
    rw [LgsmProcess.lgsmUnregisterHandler]
    split_ifs with htype
    · refine ⟨h.handled, ?_, h.netreg, h.calls⟩
      exact (Function.update_of_ne (ofNat_ne_event htype hr) _ _).trans h.demux
    · exact h
  | evtHandlerRegister evtType handler =>
    change Follows (p.lgsmEvtHandlerRegister evtType handler).2 ms state
    rw [LgsmProcess.lgsmEvtHandlerRegister]
    split_ifs
    · exact h
    · exact ⟨h.handled, h.demux, h.netreg, h.calls⟩
  | evtHandlerUnregister evtType =>
    change Follows (p.lgsmEvtHandlerUnregister evtType) ms state
    rw [LgsmProcess.lgsmEvtHandlerUnregister]
    split_ifs
    · exact ⟨h.handled, h.demux, h.netreg, h.calls⟩
    · exact h

theorem Follows.react (h : Follows p ms state) {r : HandlerReaction η ε σ}
    (hr : ∀ reg ∈ r.registers, reg.SparesEvents) : Follows (p.react r).2 ms state := by
  have hfold (regs : List (Registration η ε)) (hregs : ∀ reg ∈ regs, reg.SparesEvents)
      (q : LgsmProcess η ε σ) (hq : Follows q ms state) :
      Follows (regs.foldl LgsmProcess.register q) ms state := by
    induction regs generalizing q with
    | nil => exact hq
    | cons reg regs ih =>
      obtain ⟨hreg, hrest⟩ := List.forall_mem_cons.mp hregs
      exact ih hrest _ (hq.register hreg)
  exact hfold r.registers hr _ ⟨h.handled, h.demux, h.netreg, h.calls⟩

theorem Follows.notesNetreg (h : Follows p ms state) {gmh : GsmdMsg}
    (htype : gmh.hdr.msgType = gsmdMsgEvent) (hlen : sizeofAuxdata ≤ gmh.hdr.len.toNat) :
    Follows (p.notesNetreg gmh) ms ((netregOf gmh).getD state) := by
  rw [LgsmProcess.notesNetreg, netregOf]
  by_cases hnetreg : gmh.hdr.msgSubtype.toNat = gsmdEvtNetreg
  · rw [if_pos hnetreg, if_pos ⟨htype, hnetreg, hlen⟩, Option.getD_some]
    exact ⟨h.handled, h.demux, by dsimp only, h.calls⟩
  · rw [if_neg hnetreg, if_neg (fun hall => hnetreg hall.2.1)]
    exact h

theorem Follows.evtDemux (h : Follows p ms state) (happ : app.SparesEvents) {gmh : GsmdMsg}
    (hmem : gmh ∈ ms) (htype : gmh.hdr.msgType = gsmdMsgEvent) :
    Follows (evtDemuxMsghandler app p gmh).2 ms ((netregOf gmh).getD state) := by
  rw [evtDemuxMsghandler]
  split_ifs with hlen hevt
  · have hshort : netregOf gmh = none := if_neg fun hall => absurd hall.2.2 (Nat.not_le.mpr hlen)
    rw [hshort]
    exact h
  · have hlarge := hevt.resolve_left (not_not_intro htype)
    have hother : netregOf gmh = none := by
      apply if_neg
      rintro ⟨-, hsub, -⟩
      rw [hsub] at hlarge
      exact absurd hlarge (by decide)
    rw [hother]
    exact h
  · have hnoted := h.notesNetreg htype (Nat.not_lt.mp hlen)
    dsimp only
    cases (p.notesNetreg gmh).evtHandlers gmh.hdr.msgSubtype with
    | none => exact hnoted
    | some handler =>
      apply Follows.react _ (happ.event _ _ _ _)
      refine ⟨hnoted.handled, hnoted.demux, hnoted.netreg, ?_⟩
      intro call hcall
      rcases List.mem_append.mp hcall with hearlier | hnew
      · exact hnoted.calls call hearlier
      · obtain rfl := List.mem_singleton.mp hnew
        have hknown := Nat.not_le.mp fun hlarge => hevt (Or.inr hlarge)
        exact ⟨gmh, hmem, ⟨htype, hknown, Nat.not_lt.mp hlen⟩, rfl, rfl⟩

theorem netregOf_other {gmh : GsmdMsg} (h : gmh.hdr.msgType ≠ gsmdMsgEvent) : netregOf gmh = none :=
  if_neg fun hall => h hall.1

theorem Follows.handle (h : Follows p ms (netregAfter ms)) (happ : app.SparesEvents)
    (gmh : GsmdMsg) :
    Follows (p.handle app gmh).2 (ms ++ [gmh]) (netregAfter (ms ++ [gmh])) := by
  have hnoted : Follows { p with handled := p.handled ++ [gmh] } (ms ++ [gmh]) (netregAfter ms) := by
    refine ⟨congrArg (· ++ [gmh]) h.handled, h.demux, h.netreg, ?_⟩
    intro call hcall
    obtain ⟨gmh', hmem, hcalled⟩ := h.calls call hcall
    exact ⟨gmh', List.mem_append_left _ hmem, hcalled⟩
  rw [netregAfter_concat, LgsmProcess.handle]
  by_cases htype : gmh.hdr.msgType = gsmdMsgEvent
  · simp only [htype, h.demux]
    exact hnoted.evtDemux happ (by simp) htype
  · rw [netregOf_other htype, Option.getD_none]
    dsimp only
    cases p.handler gmh.hdr.msgType with
    | none => exact hnoted
    | some handler =>
      cases handler with
      | evtDemuxMsghandler =>
        have hrefused : (evtDemuxMsghandler app { p with handled := p.handled ++ [gmh] } gmh).2 =
            { p with handled := p.handled ++ [gmh] } := by
          rw [evtDemuxMsghandler]
          split_ifs with hlen hevt
          · rfl
          · rfl
          · exact absurd (Or.inl htype) hevt
        change Follows (evtDemuxMsghandler app { p with handled := p.handled ++ [gmh] } gmh).2 _ _
        rw [hrefused]
        exact hnoted
      | app handler => exact hnoted.react (happ.message _ _ _)

theorem Follows.handlePacket (h : Follows p ms (netregAfter ms)) (happ : app.SparesEvents)
    (stale : Memory) (chunk : Bytes) :
    Follows (p.handlePacket app (stale.store 0 chunk) chunk.length).2
      (ms ++ (packets.split chunk).map LgsmPacket.toGsmdMsg)
      (netregAfter (ms ++ (packets.split chunk).map LgsmPacket.toGsmdMsg)) := by
  rw [LgsmProcess.handlePacket, packetLoop_eq, Memory.slice_store_same]
  induction packets.split chunk generalizing p ms with
  | nil =>
    rw [List.map_nil, List.append_nil]
    exact h
  | cons pk pks ih =>
    rw [List.foldl_cons, List.map_cons, ← List.singleton_append, ← List.append_assoc]
    exact ih (h.handle happ pk.toGsmdMsg)

end

end SystemTestSuite.Libgsmd
