import SystemTestSuite.Libgsmd.EventDelivery
import SystemTestSuite.Libgsmd.RequestRuns

/-!
The dialogue about PINs: an error of the modem asks for one, `pin_handler` of `util/pin.c` takes it
from the command line or from the standard input, and the modem gets it in a command.
-/

namespace SystemTestSuite.Libgsmd

open Library GsmDaemon

def pinSize : ℕ := 8

def gsmdPinSimPin : ℕ := 1

/-- `fscanf` of `%8s` until it has read a word, `none` when the input ends before that. -/
def readWord (stdin : Bytes) : Option (Bytes × Bytes) :=
  let rest := stdin.dropWhile isSpace
  if rest = [] then none
  else
    let word := (rest.take pinSize).takeWhile (fun b => !isSpace b)
    some (word, rest.drop word.length)

/-- What `pin_handler` has: `pin`, the input that is still to come and the calls of `lgsm_pin`. -/
structure PinClient where
  pin : Option Bytes
  stdin : Bytes
  asked : List LgsmCall

def auxPinType (aux : Bytes) : UInt32 := UInt32.ofNat (uintAt (Memory.zero.store 0 aux) 0)

/-- `none` when it does not return. -/
def pinHandler (s : PinClient) (aux : Bytes) : Option PinClient :=
  let type := auxPinType aux
  match if type.toNat = gsmdPinSimPin then s.pin else none with
  | some pin => some { s with asked := s.asked ++ [.pin type pin none] }
  | none => do
    let (pinbuf, stdin) ← readWord s.stdin
    if type.toNat = gsmdPinSimPuk ∨ type.toNat = gsmdPinSimPuk2 then
      let (pinbuf2, stdin) ← readWord stdin
      return { s with stdin := stdin, asked := s.asked ++ [.pin type pinbuf (some pinbuf2)] }
    else return { s with stdin := stdin, asked := s.asked ++ [.pin type pinbuf none] }

/-- `pin_handler` as the only handler of a process; its state is gone when it does not return. -/
def pinApp : LgsmApp Unit Unit (Option PinClient) where
  message _ s _ := ⟨0, s, []⟩
  event _ s _ aux := ⟨0, s.bind (pinHandler · aux), []⟩

def pinInit (pin : Option Bytes) (stdin : Bytes) : LgsmProcess Unit Unit (Option PinClient) :=
  ((lgsmInit (some ⟨pin, stdin, []⟩)).lgsmEvtHandlerRegister gsmdEvtPin ()).2

def pinHandlers : UInt8 → Option Unit :=
  Function.update (fun _ => none) (UInt8.ofNat gsmdEvtPin) (some ())

structure TypedWord where
  blanks : Bytes
  word : Bytes
  blank : ∀ b ∈ blanks, isSpace b = true
  nonempty : word ≠ []
  short : word.length ≤ pinSize
  plain : ∀ b ∈ word, isSpace b = false ∧ b ≠ 0

def TypedWord.text (w : TypedWord) : Bytes := w.blanks ++ w.word ++ [LF]

theorem isSpace_LF : isSpace LF = true := by decide

theorem readWord_typed {lead : Bytes} (hlead : ∀ b ∈ lead, isSpace b = true) (w : TypedWord)
    (rest : Bytes) :
    readWord (lead ++ (w.text ++ rest)) = some (w.word, LF :: rest) := by
  obtain ⟨blanks, word, hblank, hne, hshort, hplain⟩ := w
  obtain ⟨b, bs, rfl⟩ := List.exists_cons_of_ne_nil hne
  have hb : isSpace b = false := (hplain b List.mem_cons_self).1
  have hall : ∀ c ∈ lead ++ blanks, isSpace c = true := by
    intro c hc
    exact (List.mem_append.mp hc).elim (hlead c) (hblank c)
  have htyped : lead ++ (TypedWord.text ⟨blanks, b :: bs, hblank, hne, hshort, hplain⟩ ++ rest) =
      (lead ++ blanks) ++ (b :: bs ++ LF :: rest) := by
    simp [TypedWord.text]
  have hskip : ((lead ++ blanks) ++ (b :: bs ++ LF :: rest)).dropWhile isSpace =
      b :: bs ++ LF :: rest := by
    rw [List.dropWhile_append_of_pos hall, List.cons_append,
      List.dropWhile_cons_of_neg (by simp [hb])]
  have hword : ((b :: bs ++ LF :: rest).take pinSize).takeWhile (fun c => !isSpace c) =
      b :: bs := by
    rw [List.take_append, List.take_of_length_le hshort, List.takeWhile_append_of_pos]
    · rcases Nat.eq_zero_or_pos (pinSize - (b :: bs).length) with hzero | hpos
      · rw [hzero, List.take_zero, List.takeWhile_nil, List.append_nil]
      · obtain ⟨n, hn⟩ := Nat.exists_eq_add_of_lt hpos
        rw [hn, Nat.zero_add, List.take_succ_cons,
          List.takeWhile_cons_of_neg (by simp [isSpace_LF]), List.append_nil]
    · intro c hc
      rw [(hplain c hc).1]
      rfl
  rw [htyped, readWord, hskip]
  dsimp only
  rw [if_neg (by simp), hword, List.drop_left]

def IsCommandError : EventSource → Prop
  | .line _ _ => False
  | .cmeError _ | .cmsError _ => True

def pinAsked : EventSource → Option UInt32
  | .cmeError number => (cmePinType (unsignedInt number)).map fun type => UInt32.ofNat type.toNat
  | _ => none

structure PinTurn where
  u : Unset
  src : EventSource
  words : List TypedWord

namespace PinTurn

def message (t : PinTurn) : Option GsmdMsg := (t.src.event t.u).map fun e => ucmdMessage e.2

def typed (t : PinTurn) : Bytes := t.words.flatMap TypedWord.text

def wordsFor (pin : Option Bytes) (type : UInt32) : ℕ :=
  if type.toNat = gsmdPinSimPin ∧ pin.isSome = true then 0
  else if type.toNat = gsmdPinSimPuk ∨ type.toNat = gsmdPinSimPuk2 then 2
  else 1

def Answered (pin : Option Bytes) (t : PinTurn) : Prop :=
  t.words.length = ((pinAsked t.src).map (wordsFor pin)).getD 0

def call (pin : Option Bytes) (t : PinTurn) : Option LgsmCall :=
  (pinAsked t.src).map fun type =>
    match t.words with
    | [] => .pin type (pin.getD []) none
    | w :: ws => .pin type w.word (ws.head?.map TypedWord.word)

def commanded (gu : ℕ) (text : Bytes) : List Served :=
  [.returned (sizeofHdr + sizeofPin),
    .answered (some [⟨false, quoted "AT+CPIN=\"" text, some .pinCmdCb, gu, 0⟩])]

/-- What a turn is to come to. The PIN of the command line may be too long. -/
def served (pin : Option Bytes) (gu : ℕ) (t : PinTurn) : Option (List Served) :=
  (pinAsked t.src).map fun _ =>
    match t.words with
    | [] =>
      if gsmdPinMaxlen < (cstr (pin.getD [])).length then
        [.returned einvalRc, .answered (some [])]
      else commanded gu (cstr (pin.getD []))
    | [w] => commanded gu w.word
    | w :: new :: _ => commanded gu (w.word ++ ascii "\",\"" ++ new.word)

end PinTurn

section

variable {u : Unset} {src : EventSource} {type : UInt32} {pin : Option Bytes} {t : PinTurn}

theorem cmePinType_listed {n : ℕ} {type : ℤ} (h : cmePinType n = some type) :
    n ∈ errorsCreatingEvents ∧ 1 ≤ type ∧ type < 16 := by
  rw [cmePinType.eq_def] at h
  split at h <;> cases h <;> decide

theorem auxPinType_stored (u : Unset) (z : ℤ) :
    auxPinType ((auxEvent u gsmdEvtPin).store 0 (intBytes z)).payload =
      UInt32.ofNat (z % 2 ^ 32).toNat := by
  have hlen : ((auxEvent u gsmdEvtPin).store 0 (intBytes z)).payload.length = sizeofAuxdata :=
    Memory.slice_length ..
  have hsame :
      uintAt (Memory.zero.store 0 ((auxEvent u gsmdEvtPin).store 0 (intBytes z)).payload) 0 =
        uintAt (u.ucmd.buf.store 0 (intBytes z)) 0 := by
    apply uintAt_congr
    intro i _ hi
    have hsize : i < sizeofAuxdata := lt_of_lt_of_le hi (by decide)
    have hstored := Memory.store_inside Memory.zero 0
      ((auxEvent u gsmdEvtPin).store 0 (intBytes z)).payload (hsize.trans_eq hlen.symm)
    rw [Nat.zero_add] at hstored
    rw [hstored]
    simp only [GsmdUcmd.payload, Memory.slice_getElem, Nat.zero_add]
    rfl
  rw [auxPinType, hsame, uintAt_store]

theorem pinAsked_known (h : pinAsked src = some type) : type.toNat < numGsmdPin := by
  cases src with
  | line _ _ | cmsError _ => cases h
  | cmeError number =>
    obtain ⟨z, hz, rfl⟩ := Option.map_eq_some_iff.mp h
    obtain ⟨-, hlow, hhigh⟩ := cmePinType_listed hz
    rw [UInt32.toNat_ofNat', numGsmdPin]
    omega

theorem error_event (h : IsCommandError src) :
    (src.event u = none ∧ pinAsked src = none) ∨
    (∃ ucmd, src.event u = some (gsmdEvtInError, ucmd) ∧ pinAsked src = none) ∨
    ∃ ucmd type, src.event u = some (gsmdEvtPin, ucmd) ∧ pinAsked src = some type ∧
      auxPinType ucmd.payload = type := by
  cases src with
  | line _ _ => exact h.elim
  | cmsError number => exact Or.inr (Or.inl ⟨_, rfl, rfl⟩)
  | cmeError number =>
    rw [EventSource.event, generateEventFromCme, pinAsked]
    cases hz : cmePinType (unsignedInt number) with
    | none =>
      by_cases hlisted : unsignedInt number ∈ errorsCreatingEvents
      · rw [if_neg (not_not_intro hlisted)]
        exact Or.inl ⟨rfl, rfl⟩
      · rw [if_pos hlisted]
        exact Or.inr (Or.inl ⟨_, rfl, rfl⟩)
    | some z =>
      obtain ⟨hlisted, hlow, hhigh⟩ := cmePinType_listed hz
      rw [if_neg (not_not_intro hlisted)]
      refine Or.inr (Or.inr ⟨_, _, rfl, rfl, ?_⟩)
      rw [auxPinType_stored]
      congr 1
      omega

theorem preset_none (h : ¬ (type.toNat = gsmdPinSimPin ∧ pin.isSome = true)) :
    (if type.toNat = gsmdPinSimPin then pin else none) = none := by
  split_ifs with htype
  · exact Option.not_isSome_iff_eq_none.mp fun hsome => h ⟨htype, hsome⟩
  · rfl

theorem pinHandler_turn {ucmd : GsmdUcmd} {lead rest : Bytes} {asked : List LgsmCall}
    (hlead : ∀ b ∈ lead, isSpace b = true) (hasks : pinAsked t.src = some type)
    (haux : auxPinType ucmd.payload = type) (hans : t.Answered pin) :
    ∃ lead' call, (∀ b ∈ lead', isSpace b = true) ∧ t.call pin = some call ∧
      pinHandler ⟨pin, lead ++ (t.typed ++ rest), asked⟩ ucmd.payload =
        some ⟨pin, lead' ++ rest, asked ++ [call]⟩ := by
  have hreturn : ∀ b ∈ [LF], isSpace b = true := List.forall_mem_singleton.mpr isSpace_LF
  obtain ⟨u, src, words⟩ := t
  dsimp only at hasks
  rw [PinTurn.Answered, hasks, Option.map_some, Option.getD_some, PinTurn.wordsFor] at hans
  rw [PinTurn.call, hasks, Option.map_some, PinTurn.typed, pinHandler, haux]
  dsimp only at hans ⊢
  split_ifs at hans with hpreset hpuk
  · obtain ⟨htype, hsome⟩ := hpreset
    obtain ⟨given, rfl⟩ := Option.isSome_iff_exists.mp hsome
    obtain rfl := List.length_eq_zero_iff.mp hans
    rw [if_pos htype]
    exact ⟨lead, _, hlead, rfl, rfl⟩
  · obtain ⟨w, new, rfl⟩ := List.length_eq_two.mp hans
    have hfirst := readWord_typed hlead w (new.text ++ rest)
    have hsecond := readWord_typed hreturn new rest
    have htext : [w, new].flatMap TypedWord.text ++ rest = w.text ++ (new.text ++ rest) := by
      simp
    rw [preset_none hpreset, htext, hfirst]
    dsimp only [bind, Option.bind]
    rw [if_pos hpuk]
    refine ⟨[LF], _, hreturn, rfl, ?_⟩
    rw [List.singleton_append] at hsecond
    rw [hsecond]
    rfl
  · obtain ⟨w, rfl⟩ := List.length_eq_one_iff.mp hans
    have hread := readWord_typed hlead w rest
    rw [preset_none hpreset, List.flatMap_singleton, hread]
    dsimp only [bind, Option.bind]
    rw [if_neg hpuk]
    exact ⟨[LF], _, hreturn, rfl, rfl⟩

end

section

variable {η ε σ : Type} {app : LgsmApp η ε σ} {p : LgsmProcess η ε σ} {gmh : GsmdMsg}

theorem notesNetreg_spares (p : LgsmProcess η ε σ) (gmh : GsmdMsg) :
    (p.notesNetreg gmh).handler = p.handler ∧ (p.notesNetreg gmh).evtHandlers = p.evtHandlers ∧
      (p.notesNetreg gmh).state = p.state := by
  rw [LgsmProcess.notesNetreg]
  split_ifs
  · exact ⟨rfl, rfl, rfl⟩
  · exact ⟨rfl, rfl, rfl⟩

structure ProcessAt (p : LgsmProcess η ε σ) (handler : UInt8 → Option (MsgHandler η))
    (evtHandlers : UInt8 → Option ε) (state : σ) : Prop where
  handler : p.handler = handler
  evtHandlers : p.evtHandlers = evtHandlers
  state : p.state = state

variable {handler : UInt8 → Option (MsgHandler η)} {evtHandlers : UInt8 → Option ε} {state : σ}

theorem ProcessAt.unheard (h : ProcessAt p handler evtHandlers state)
    (htype : gmh.hdr.msgType = gsmdMsgEvent)
    (hdemux : handler gsmdMsgEvent = some .evtDemuxMsghandler)
    (hnone : evtHandlers gmh.hdr.msgSubtype = none) :
    ProcessAt (p.handle app gmh).2 handler evtHandlers state := by
  obtain ⟨rfl, rfl, rfl⟩ := h
  obtain ⟨hhandler, hevt, hstate⟩ := notesNetreg_spares { p with handled := p.handled ++ [gmh] } gmh
  rw [LgsmProcess.handle, htype]
  simp only [hdemux]
  change ProcessAt (evtDemuxMsghandler app { p with handled := p.handled ++ [gmh] } gmh).2 _ _ _
  rw [evtDemuxMsghandler]
  split_ifs
  · exact ⟨rfl, rfl, rfl⟩
  · exact ⟨rfl, rfl, rfl⟩
  · dsimp only
    rw [hevt]
    simp only [hnone]
    exact ⟨hhandler, hevt, hstate⟩

theorem ProcessAt.heard (h : ProcessAt p handler evtHandlers state) (hfor : ForHandlers gmh)
    (hdemux : handler gsmdMsgEvent = some .evtDemuxMsghandler) {e : ε}
    (hsome : evtHandlers gmh.hdr.msgSubtype = some e)
    (hregs : (app.event e state gmh.hdr.msgSubtype gmh.payload).registers = []) :
    ProcessAt (p.handle app gmh).2 handler evtHandlers
      (app.event e state gmh.hdr.msgSubtype gmh.payload).state := by
  obtain ⟨rfl, rfl, rfl⟩ := h
  obtain ⟨hhandler, hevt, hstate⟩ := notesNetreg_spares { p with handled := p.handled ++ [gmh] } gmh
  have hknown : ¬ (gmh.hdr.msgType ≠ gsmdMsgEvent ∨ gmh.hdr.msgSubtype.toNat ≥ numGsmdEvt) :=
    not_or.mpr ⟨not_not_intro hfor.msgType, Nat.not_le.mpr hfor.known⟩
  rw [LgsmProcess.handle, hfor.msgType]
  simp only [hdemux]
  change ProcessAt (evtDemuxMsghandler app { p with handled := p.handled ++ [gmh] } gmh).2 _ _ _
  rw [evtDemuxMsghandler, if_neg (Nat.not_lt.mpr hfor.aux), if_neg hknown]
  dsimp only
  rw [hevt]
  simp only [hsome, hstate]
  rw [LgsmProcess.react, hregs]
  exact ⟨hhandler, rfl, rfl⟩

end

section

variable {pin : Option Bytes} {t : PinTurn} {turns : List PinTurn}

theorem pinInit_at (pin : Option Bytes) (stdin : Bytes) :
    (pinInit pin stdin).handler gsmdMsgEvent = some .evtDemuxMsghandler ∧
      ProcessAt (pinInit pin stdin) (pinInit pin stdin).handler pinHandlers
        (some ⟨pin, stdin, []⟩) := by
  let s : Option PinClient := some ⟨pin, stdin, []⟩
  have hinit : Follows (lgsmInit s : LgsmProcess Unit Unit _) [] (netregAfter []) :=
    follows_lgsmInit s
  have hknown : ¬ gsmdEvtPin ≥ numGsmdEvt := by decide
  rw [pinInit, LgsmProcess.lgsmEvtHandlerRegister, if_neg hknown]
  exact ⟨hinit.demux, rfl, rfl, rfl⟩

theorem handle_turn {p : LgsmProcess Unit Unit (Option PinClient)}
    {handler : UInt8 → Option (MsgHandler Unit)} {lead rest : Bytes} {asked : List LgsmCall}
    (hdemux : handler gsmdMsgEvent = some .evtDemuxMsghandler)
    (hp : ProcessAt p handler pinHandlers (some ⟨pin, lead ++ (t.typed ++ rest), asked⟩))
    (hlead : ∀ b ∈ lead, isSpace b = true) (herror : IsCommandError t.src) (hans : t.Answered pin) :
    ∃ lead', (∀ b ∈ lead', isSpace b = true) ∧
      ProcessAt (t.message.elim p fun gmh => (p.handle pinApp gmh).2) handler pinHandlers
        (some ⟨pin, lead' ++ rest, asked ++ (t.call pin).toList⟩) := by
  have hsilent (hnone : pinAsked t.src = none) :
      lead ++ (t.typed ++ rest) = lead ++ rest ∧ asked ++ (t.call pin).toList = asked := by
    rw [PinTurn.Answered, hnone, Option.map_none, Option.getD_none] at hans
    rw [PinTurn.typed, List.length_eq_zero_iff.mp hans, PinTurn.call, hnone]
    exact ⟨rfl, List.append_nil _⟩
  rcases @error_event t.u _ herror with ⟨hevent, hnone⟩ | ⟨ucmd, hevent, hnone⟩ |
    ⟨ucmd, type, hevent, hasks, haux⟩
  · obtain ⟨htext, hcalls⟩ := hsilent hnone
    rw [PinTurn.message, hevent, hcalls]
    rw [htext] at hp
    exact ⟨lead, hlead, hp⟩
  · obtain ⟨htext, hcalls⟩ := hsilent hnone
    have hsent := EventSource.event_isEvent hevent
    rw [PinTurn.message, hevent, hcalls]
    rw [htext] at hp
    refine ⟨lead, hlead, hp.unheard hsent.msgType hdemux ?_⟩
    change pinHandlers ucmd.hdr.msgSubtype = none
    rw [hsent.msgSubtype]
    rfl
  · have hsent := EventSource.event_isEvent hevent
    have hsub : ucmd.hdr.msgSubtype = UInt8.ofNat gsmdEvtPin := hsent.msgSubtype
    have hfor : ForHandlers (ucmdMessage ucmd) := by
      refine ⟨hsent.msgType, ?_, hsent.aux.mpr (by decide)⟩
      exact (congrArg UInt8.toNat hsub).trans_lt (by decide)
    obtain ⟨lead', call, hlead', hcall, hturn⟩ := @pinHandler_turn _ _ _ ucmd lead rest asked hlead
      hasks haux hans
    rw [PinTurn.message, hevent, hcall]
    have hlisted : pinHandlers (ucmdMessage ucmd).hdr.msgSubtype = some () := by
      change pinHandlers ucmd.hdr.msgSubtype = some ()
      rw [hsub, pinHandlers, Function.update_self]
    have hheard := @ProcessAt.heard _ _ _ pinApp _ _ _ _ _ hp hfor hdemux () hlisted rfl
    have hstate : (pinApp.event () (some ⟨pin, lead ++ (t.typed ++ rest), asked⟩)
        (ucmdMessage ucmd).hdr.msgSubtype (ucmdMessage ucmd).payload).state =
          some ⟨pin, lead' ++ rest, asked ++ [call]⟩ := hturn
    rw [hstate] at hheard
    exact ⟨lead', hlead', hheard⟩

theorem handle_turns {p : LgsmProcess Unit Unit (Option PinClient)}
    {handler : UInt8 → Option (MsgHandler Unit)} {lead rest : Bytes} {asked : List LgsmCall}
    (hdemux : handler gsmdMsgEvent = some .evtDemuxMsghandler)
    (hp : ProcessAt p handler pinHandlers
      (some ⟨pin, lead ++ (turns.flatMap PinTurn.typed ++ rest), asked⟩))
    (hlead : ∀ b ∈ lead, isSpace b = true)
    (hturns : ∀ t ∈ turns, IsCommandError t.src ∧ t.Answered pin) :
    ∃ lead', (∀ b ∈ lead', isSpace b = true) ∧
      ProcessAt ((turns.filterMap PinTurn.message).foldl (fun p gmh => (p.handle pinApp gmh).2) p)
        handler pinHandlers
        (some ⟨pin, lead' ++ rest, asked ++ turns.filterMap (PinTurn.call pin)⟩) := by
  induction turns generalizing p lead asked with
  | nil => exact ⟨lead, hlead, by simpa using hp⟩
  | cons t turns ih =>
    obtain ⟨⟨herror, hans⟩, hrest⟩ := List.forall_mem_cons.mp hturns
    rw [List.flatMap_cons, List.append_assoc] at hp
    obtain ⟨lead', hlead', hturn⟩ := handle_turn hdemux hp hlead herror hans
    obtain ⟨last, hlast, hdone⟩ := ih hturn hlead' hrest
    refine ⟨last, hlast, ?_⟩
    rw [List.filterMap_cons, List.filterMap_cons]
    rw [List.append_assoc] at hdone
    cases hmessage : t.message with
    | none =>
      rw [hmessage] at hdone
      cases hcall : t.call pin with
      | none => rwa [hcall] at hdone
      | some call => rwa [hcall] at hdone
    | some gmh =>
      rw [hmessage] at hdone
      cases hcall : t.call pin with
      | none => rwa [hcall] at hdone
      | some call => rwa [hcall] at hdone

variable {textMode : Bool} {gu : ℕ}

def readEach (gu : ℕ) (calls : List (LgsmCall × UsockRead)) : List LgsmStep :=
  calls.flatMap fun c => [.call gu c.1 true true, .read gu c.2]

def LgsmCall.carriedOut (textMode : Bool) (gu : ℕ) (id : UInt16) (call : LgsmCall) : List Served :=
  match call.problem true with
  | some rc => [.returned rc, .answered (some [])]
  | none => [.returned (call.result true), .answered (call.orders textMode gu id)]

theorem call_carriedOut {a : Asked} (hempty : a.waiting gu = none) (call : LgsmCall) (r : UsockRead) :
    [a.served textMode (.call gu call true true),
        (a.next (.call gu call true true)).served textMode (.read gu r)] =
      call.carriedOut textMode gu (a.ids gu) := by
  rw [LgsmCall.carriedOut, Asked.served, Asked.served, Asked.next]
  cases hp : call.problem true with
  | some rc =>
    rw [if_neg (Option.some_ne_none _), hempty]
    rfl
  | none =>
    rw [if_pos rfl]
    dsimp only
    rw [if_pos rfl, Function.update_self]
    rfl

theorem waiting_call {a : Asked} (hempty : a.waiting gu = none) {call : LgsmCall}
    {asked : LgsmCall × UInt16} (h : asked ∈ (a.next (.call gu call true true)).waiting gu) :
    asked.1 = call := by
  rw [Asked.next] at h
  by_cases hproblem : call.problem true = none
  · rw [if_pos hproblem, if_pos rfl] at h
    change asked ∈ Function.update a.waiting gu (some (call, a.ids gu)) gu at h
    rw [Function.update_self] at h
    exact congrArg Prod.fst (Option.some.inj h).symm
  · rw [if_neg hproblem, hempty] at h
    cases h

theorem word_cstr (w : TypedWord) : cstr w.word = w.word :=
  cstr_of_no_nul fun b hb => (w.plain b hb).2

theorem ask_commanded {text : Bytes} (h : ∀ b ∈ text, b ≠ 0) :
    ask gu 0 .pinCmdCb (quoted "AT+CPIN=\"" text) =
      some [⟨false, quoted "AT+CPIN=\"" text, some .pinCmdCb, gu, 0⟩] := by
  have hname : ∀ b ∈ ascii "AT+CPIN=\"", b ≠ 0 := no_nul_of_cstr rfl
  have hquote : ∀ b ∈ ascii "\"", b ≠ 0 := no_nul_of_cstr rfl
  have hplain : ∀ b ∈ quoted "AT+CPIN=\"" text, b ≠ 0 := by
    intro b hb
    simp only [quoted, List.mem_append] at hb
    exact hb.elim (fun hfront => hfront.elim (hname b) (h b)) (hquote b)
  rw [ask, cstr_of_no_nul hplain]
  rfl

theorem pin_commanded {type : UInt32} {old text : Bytes} {new : Option Bytes}
    (hknown : type.toNat < numGsmdPin) (hold : (cstr old).length ≤ gsmdPinMaxlen)
    (hnew : (cstr (new.getD [])).length ≤ gsmdPinMaxlen)
    (hpuk : type.toNat = gsmdPinSimPuk ∨ type.toNat = gsmdPinSimPuk2 → new ≠ none)
    (htext : (if type.toNat = gsmdPinSimPuk ∨ type.toNat = gsmdPinSimPuk2 then
      cstr old ++ ascii "\",\"" ++ cstr (new.getD []) else cstr old) = text)
    (id : UInt16) :
    LgsmCall.carriedOut textMode gu id (.pin type old new) = PinTurn.commanded gu text := by
  have hproblem : LgsmCall.problem true (.pin type old new) = none := by
    have hgood : ¬ (gsmdPinMaxlen < (cstr old).length ∨
        gsmdPinMaxlen < (cstr (new.getD [])).length ∨ numGsmdPin ≤ type.toNat) := by
      omega
    rw [LgsmCall.problem, if_neg hgood, if_neg Bool.true_eq_false.mp,
      if_neg fun hbad => hpuk hbad.1 hbad.2]
  have hcomma : ∀ b ∈ ascii "\",\"", b ≠ 0 := no_nul_of_cstr rfl
  have hplain : ∀ b ∈ text, b ≠ 0 := by
    rw [← htext]
    intro b hb
    split_ifs at hb
    · simp only [List.mem_append] at hb
      exact hb.elim (fun hfront => hfront.elim (cstr_ne_zero b) (hcomma b)) (cstr_ne_zero b)
    · exact cstr_ne_zero b hb
  have horders : LgsmCall.orders textMode gu id (.pin type old new) =
      ask gu 0 .pinCmdCb (quoted "AT+CPIN=\"" text) := by
    rw [← htext, LgsmCall.orders]
    split_ifs <;> rfl
  rw [LgsmCall.carriedOut, hproblem]
  dsimp only
  rw [horders, ask_commanded hplain]
  rfl

theorem turn_served {type : UInt32} {call : LgsmCall} (hasks : pinAsked t.src = some type)
    (hans : t.Answered pin) (hcall : t.call pin = some call) (id : UInt16) :
    t.served pin gu = some (call.carriedOut textMode gu id) := by
  have hknown := pinAsked_known hasks
  have hshort (w : TypedWord) : (cstr w.word).length ≤ gsmdPinMaxlen := by
    rw [word_cstr]
    exact w.short
  obtain ⟨u, src, words⟩ := t
  dsimp only at hasks
  rw [PinTurn.Answered, hasks, Option.map_some, Option.getD_some, PinTurn.wordsFor] at hans
  rw [PinTurn.call, hasks, Option.map_some] at hcall
  obtain rfl := Option.some.inj hcall
  rw [PinTurn.served, hasks, Option.map_some]
  apply congrArg some
  dsimp only at hans ⊢
  split_ifs at hans with hpreset hpuk
  · obtain rfl := List.length_eq_zero_iff.mp hans
    have hother : ¬ (type.toNat = gsmdPinSimPuk ∨ type.toNat = gsmdPinSimPuk2) := by
      rw [hpreset.1]
      decide
    dsimp only
    by_cases hlong : gsmdPinMaxlen < (cstr (pin.getD [])).length
    · have hrefused : LgsmCall.problem true (.pin type (pin.getD []) none) = some einvalRc := by
        rw [LgsmCall.problem, if_pos (Or.inl hlong)]
      rw [if_pos hlong, LgsmCall.carriedOut, hrefused]
    · rw [if_neg hlong]
      exact (pin_commanded hknown (Nat.not_lt.mp hlong) (Nat.zero_le _) (fun h => absurd h hother)
        (if_neg hother) id).symm
  · obtain ⟨w, new, rfl⟩ := List.length_eq_two.mp hans
    have hgiven : some new.word ≠ none := Option.some_ne_none _
    refine (@pin_commanded _ _ _ _ _ (some new.word) hknown (hshort w) (hshort new)
      (fun _ => hgiven) ?_ id).symm
    rw [if_pos hpuk, Option.getD_some, word_cstr, word_cstr]
  · obtain ⟨w, rfl⟩ := List.length_eq_one_iff.mp hans
    refine (pin_commanded hknown (hshort w) (Nat.zero_le _) (fun h => absurd h hpuk) ?_ id).symm
    rw [if_neg hpuk, word_cstr]

theorem turns_served {calls : List (LgsmCall × UsockRead)} {a : Asked}
    (hempty : a.waiting gu = none) (hturns : ∀ t ∈ turns, t.Answered pin)
    (hcalls : calls.map Prod.fst = turns.filterMap (PinTurn.call pin)) :
    a.AllAlone textMode (readEach gu calls) ∧
      a.expected textMode (readEach gu calls) =
        (turns.filterMap (PinTurn.served pin gu)).flatten := by
  induction turns generalizing a calls with
  | nil =>
    obtain rfl := List.map_eq_nil_iff.mp hcalls
    exact ⟨trivial, rfl⟩
  | cons t turns ih =>
    obtain ⟨hans, hrest⟩ := List.forall_mem_cons.mp hturns
    cases hasks : pinAsked t.src with
    | none =>
      have hsilent : t.call pin = none ∧ t.served pin gu = none := by
        rw [PinTurn.call, PinTurn.served, hasks]
        exact ⟨rfl, rfl⟩
      rw [List.filterMap_cons_none hsilent.1] at hcalls
      rw [List.filterMap_cons_none hsilent.2]
      exact ih hempty hrest hcalls
    | some type =>
      obtain ⟨call, hcall⟩ : ∃ call, t.call pin = some call := by
        rw [PinTurn.call, hasks]
        exact ⟨_, rfl⟩
      rw [List.filterMap_cons_some hcall] at hcalls
      obtain ⟨⟨call', r⟩, others, rfl, hfirst, hothers⟩ := List.map_eq_cons_iff.mp hcalls
      obtain rfl : call' = call := hfirst
      have hfit (client : Client) : call'.Fits textMode client := by
        rw [PinTurn.call, hasks, Option.map_some] at hcall
        obtain rfl := Option.some.inj hcall
        cases t.words with
        | nil => exact trivial
        | cons w ws => exact trivial
      have hread : (a.next (.call gu call' true true)).Alone textMode (.read gu r) := by
        intro asked hasked
        rw [waiting_call hempty hasked]
        exact hfit r.client
      obtain ⟨halone, hexpected⟩ := @ih others
        ((a.next (.call gu call' true true)).next (.read gu r)) (Function.update_self ..) hrest hothers
      have hsteps : readEach gu ((call', r) :: others) =
          .call gu call' true true :: .read gu r :: readEach gu others := rfl
      rw [hsteps]
      refine ⟨⟨fun _ _ => hempty, hread, halone⟩, ?_⟩
      rw [Asked.expected, Asked.expected, hexpected,
        List.filterMap_cons_some (turn_served hasks hans hcall (a.ids gu)), List.flatten_cons,
        ← call_carriedOut hempty call' r]
      rfl

/-- Every error that asks for a PIN is answered: the modem gets the commands in the order of its
errors, each with the words typed for it, and no word is lost or taken for another request. -/
theorem pins_answered (textMode : Bool) (gu : ℕ) (rest : Bytes)
    (hturns : ∀ t ∈ turns, IsCommandError t.src ∧ t.Answered pin) :
    ∃ c lead, ((turns.filterMap PinTurn.message).foldl (fun p gmh => (p.handle pinApp gmh).2)
        (pinInit pin (turns.flatMap PinTurn.typed ++ rest))).state = some c ∧
      (∀ b ∈ lead, isSpace b = true) ∧ c.stdin = lead ++ rest ∧
      ∀ (ids : ℕ → UInt16) (calls : List (LgsmCall × UsockRead)), calls.map Prod.fst = c.asked →
        Sides.run textMode ⟨ids, fun _ => []⟩ (readEach gu calls) =
          (turns.filterMap (PinTurn.served pin gu)).flatten := by
  obtain ⟨hdemux, hready⟩ := pinInit_at pin (turns.flatMap PinTurn.typed ++ rest)
  have hp : ProcessAt (pinInit pin (turns.flatMap PinTurn.typed ++ rest)) _ pinHandlers
      (some ⟨pin, [] ++ (turns.flatMap PinTurn.typed ++ rest), []⟩) := hready
  obtain ⟨lead, hlead, hdone⟩ := handle_turns hdemux hp (List.forall_mem_nil _) hturns
  refine ⟨_, lead, hdone.state, hlead, rfl, ?_⟩
  intro ids calls hcalls
  obtain ⟨halone, hexpected⟩ := @turns_served pin turns textMode gu calls ⟨ids, fun _ => none⟩ rfl
    (fun t ht => (hturns t ht).2) hcalls
  rw [run_served _ agrees_start halone, hexpected]

theorem pins_answered_blocked :
    let puk : TypedWord := ⟨[], ascii "12345678", by simp, by decide, by decide, by decide +kernel⟩
    let new : TypedWord := ⟨ascii " ", ascii "4321", by decide +kernel, by decide, by decide,
      by decide +kernel⟩
    let turns : List PinTurn :=
      [⟨zeroed, .cmeError 12, [puk, new]⟩, ⟨zeroed, .cmsError 500, []⟩, ⟨zeroed, .cmeError 11, []⟩]
    ∃ c lead, ((turns.filterMap PinTurn.message).foldl (fun p gmh => (p.handle pinApp gmh).2)
        (pinInit (some (ascii "1234")) (turns.flatMap PinTurn.typed ++ ascii "q\n"))).state =
          some c ∧
      (∀ b ∈ lead, isSpace b = true) ∧ c.stdin = lead ++ ascii "q\n" ∧
      ∀ (ids : ℕ → UInt16) (calls : List (LgsmCall × UsockRead)), calls.map Prod.fst = c.asked →
        Sides.run false ⟨ids, fun _ => []⟩ (readEach 7 calls) =
          [.returned 30,
            .answered (some [⟨false, ascii "AT+CPIN=\"12345678\",\"4321\"", some .pinCmdCb, 7, 0⟩]),
            .returned 30,
            .answered (some [⟨false, ascii "AT+CPIN=\"1234\"", some .pinCmdCb, 7, 0⟩])] := by
  intro puk new turns
  have hturns : ∀ t ∈ turns, IsCommandError t.src ∧ t.Answered (some (ascii "1234")) := by
    simp only [turns, List.forall_mem_cons]
    exact ⟨⟨trivial, by rfl⟩, ⟨trivial, by rfl⟩, ⟨trivial, by rfl⟩, List.forall_mem_nil _⟩
  obtain ⟨c, lead, hstate, hlead, hstdin, hserved⟩ :=
    pins_answered false 7 (ascii "q\n") hturns
  refine ⟨c, lead, hstate, hlead, hstdin, ?_⟩
  intro ids calls hcalls
  rw [hserved ids calls hcalls]
  decide +kernel

end

end SystemTestSuite.Libgsmd
