import SystemTestSuite.GsmDaemon.UnsolicitedHandlers

/-!
Where the events come from: the unsolicited messages, and the errors of commands as
`generate_event_from_cme` and `generate_event_from_cms` of `gsmd/unsolicited.c` report them.
-/

namespace SystemTestSuite.GsmDaemon

open Library

def gsmdEvtPin : ℕ := 7
def gsmdEvtInError : ℕ := 16
def numGsmdEvt : ℕ := 17

def sizeofCbm : ℕ := 116

/-- An event whose message follows `aux`. What the parser does not set is as it was. -/
def InlinedEvent.event (u : Unset) : InlinedEvent → ℕ × GsmdUcmd
  | sms evt msg =>
    let ucmd := (usockBuildEvent u evt (sizeofAuxdata + sizeofSmsList)).store 0 (intBytes 1)
    (evt, (ucmd.store sizeofAuxdata [msg.index]).store (sizeofAuxdata + 8)
      (msg.timeStamp.slice 0 7 ++ msg.addr.bytes ++ msg.payload.bytes))
  | cbm msg =>
    let ucmd := (usockBuildEvent u gsmdEvtInCbm (sizeofAuxdata + sizeofCbm)).store 0 (intBytes 1)
    let serial := intBytes msg.scope.toNat ++ intBytes msg.msgCode ++ intBytes msg.updateNum.toNat
    let ucmd := ucmd.store sizeofAuxdata (serial ++ wordOf msg.msgId)
    let ucmd := ucmd.store (sizeofAuxdata + 16) (intBytes msg.language.toNat ++ [msg.codingScheme])
    (gsmdEvtInCbm, ucmd.store (sizeofAuxdata + 24)
      (intBytes msg.pages.toNat ++ intBytes msg.page.toNat ++ msg.data))

def InlinedEvent.Carried : InlinedEvent → Prop
  | sms evt _ => evt = gsmdEvtInSms ∨ evt = gsmdEvtInDs
  | cbm _ => True

def UnsolicitedOutcome.sent (u : Unset) (o : UnsolicitedOutcome) : Option (ℕ × GsmdUcmd) :=
  o.event.or (o.inlined.map (·.event u))

def errorsCreatingEvents : List ℕ :=
  [0, 1, 2, 5, 6, 7, 10, 11, 12, 17, 18, 40, 41, 42, 43, 44, 45, 46, 47]

/-- The `enum gsmd_pin_type` for a `+CME ERROR`, none where the event is freed again. -/
def cmePinType (cmeError : ℕ) : Option ℤ :=
  match cmeError with
  | 5 => some 3
  | 6 => some 4
  | 7 => some 5
  | 11 => some 1
  | 12 => some 2
  | 17 => some 6
  | 18 => some 7
  | 40 => some 8
  | 41 => some 9
  | 42 => some 10
  | 43 => some 11
  | 44 => some 12
  | 45 => some 13
  | 46 => some 14
  | 47 => some 15
  | _ => none

def unsignedInt (z : ℤ) : ℕ := (z % 2 ^ 32).toNat

def generateEventFromCme (u : Unset) (cmeError : ℕ) : Option (ℕ × GsmdUcmd) :=
  if cmeError ∉ errorsCreatingEvents then
    some (gsmdEvtInError, (auxEvent u gsmdEvtInError).store 0 (intBytes cmeError))
  else
    (cmePinType cmeError).map fun type =>
      (gsmdEvtPin, (auxEvent u gsmdEvtPin).store 0 (intBytes type))

def generateEventFromCms (u : Unset) (cmsError : ℕ) : ℕ × GsmdUcmd :=
  (gsmdEvtInError, (auxEvent u gsmdEvtInError).store 0 (intBytes cmsError))

inductive EventSource
  | line (flags : UInt32) (buf : Bytes)
  | cmeError (number : ℤ)
  | cmsError (number : ℤ)

def EventSource.event (u : Unset) : EventSource → Option (ℕ × GsmdUcmd)
  | line flags buf =>
    match unsolicitedHandling u flags buf buf.length with
    | some (some o) => o.sent u
    | _ => none
  | cmeError number => generateEventFromCme u (unsignedInt number)
  | cmsError number => some (generateEventFromCms u (unsignedInt number))

/-- All but a waiting call carry the whole `struct gsmd_evt_auxdata`. -/
structure IsEvent (evt : ℕ) (ucmd : GsmdUcmd) : Prop where
  known : evt < numGsmdEvt
  msgType : ucmd.hdr.msgType = gsmdMsgEvent
  msgSubtype : ucmd.hdr.msgSubtype = UInt8.ofNat evt
  aux : sizeofAuxdata ≤ ucmd.hdr.len.toNat ↔ evt ≠ gsmdEvtCallWait

def SendsEvent (u : Unset) (h : Handling) : Prop :=
  ∀ o, h = some (some o) → ∀ e ∈ o.sent u, IsEvent e.1 e.2

section

variable {u : Unset} {evt : ℕ} {ucmd : GsmdUcmd} {flags : UInt32} {text buf : Bytes} {param : ParamPtr}

theorem isEvent_built {len : ℕ} (hknown : evt < numGsmdEvt) (hlen : len < 65536)
    (haux : sizeofAuxdata ≤ len ↔ evt ≠ gsmdEvtCallWait)
    (h : ucmd.hdr = (usockBuildEvent u evt len).hdr) : IsEvent evt ucmd := by
  refine ⟨hknown, ?_, ?_, ?_⟩
  · rw [h]
    rfl
  · rw [h]
    rfl
  · rw [h, usockBuildEvent]
    simpa [Nat.mod_eq_of_lt hlen] using haux

theorem isEvent_auxEvent (hknown : evt < numGsmdEvt) (hne : evt ≠ gsmdEvtCallWait)
    (h : ucmd.hdr = (auxEvent u evt).hdr) : IsEvent evt ucmd := by
  apply isEvent_built hknown (by decide) _ h
  exact iff_of_true (le_refl _) hne

theorem sendsEvent_bind {α : Type} {o : Option α} {f : α → Handling}
    (h : ∀ a, o = some a → SendsEvent u (f a)) : SendsEvent u (o >>= f) := by
  cases o with
  | none => intro _ heq; cases heq
  | some a => exact h a rfl

theorem sendsEvent_silent {o : UnsolicitedOutcome} (h : o.sent u = none) :
    SendsEvent u (some (some o)) := by
  intro o' heq e he
  obtain rfl : o = o' := by simpa using heq
  rw [h] at he
  cases he

theorem sendsEvent_returns (rc : ℤ) : SendsEvent u (returns rc) := sendsEvent_silent rfl

theorem sendsEvent_outside : SendsEvent u (some none) := by
  intro _ heq
  cases heq

theorem sendsEvent_event {o : UnsolicitedOutcome} (he : o.event = some (evt, ucmd))
    (h : IsEvent evt ucmd) : SendsEvent u (some (some o)) := by
  intro o' heq e hmem
  obtain rfl : o = o' := by simpa using heq
  rw [UnsolicitedOutcome.sent, he] at hmem
  obtain rfl : (evt, ucmd) = e := by simpa using hmem
  exact h

theorem sendsEvent_aux {o : UnsolicitedOutcome} (hknown : evt < numGsmdEvt)
    (hne : evt ≠ gsmdEvtCallWait) (he : o.event = some (evt, ucmd))
    (h : ucmd.hdr = (auxEvent u evt).hdr) : SendsEvent u (some (some o)) :=
  sendsEvent_event he (isEvent_auxEvent hknown hne h)

theorem sendsEvent_netreg (h : ucmd.hdr = (auxEvent u gsmdEvtNetreg).hdr) (state : ℤ) :
    SendsEvent u (netreg ucmd state) := sendsEvent_aux (by decide) (by decide) rfl h

theorem cringParse_sends : SendsEvent u (cringParse u text param) := by
  apply sendsEvent_bind
  intro p _
  dsimp only
  split_ifs
  case pos => exact sendsEvent_aux (by decide) (by decide) rfl rfl
  case pos => exact sendsEvent_aux (by decide) (by decide) rfl rfl
  case pos => exact sendsEvent_aux (by decide) (by decide) rfl rfl
  case pos => exact sendsEvent_aux (by decide) (by decide) rfl rfl
  case pos => exact sendsEvent_aux (by decide) (by decide) rfl rfl
  case pos => exact sendsEvent_returns 0
  case neg => exact sendsEvent_aux (by decide) (by decide) rfl rfl

theorem cregParse_sends : SendsEvent u (cregParse u text param) := by
  apply sendsEvent_bind
  intro p _
  dsimp only
  split
  · apply sendsEvent_netreg
    rfl
  · apply sendsEvent_bind
    intro lac _
    apply sendsEvent_bind
    intro rest _
    split
    · exact sendsEvent_returns _
    · apply sendsEvent_bind
      intro ci _
      apply sendsEvent_netreg
      rfl

theorem ccwaParse_sends : SendsEvent u (ccwaParse u text) := by
  unfold ccwaParse
  dsimp only
  split
  · apply sendsEvent_event rfl
    have hshort : sizeofAuxdata ≤ sizeofAddr ↔ gsmdEvtCallWait ≠ gsmdEvtCallWait := by decide
    exact @isEvent_built u _ _ _ (by decide) (by decide) hshort rfl
  · exact sendsEvent_returns _

theorem addrParse_sends (hknown : evt < numGsmdEvt) (hne : evt ≠ gsmdEvtCallWait) :
    SendsEvent u (addrParse evt u text param) := by
  apply sendsEvent_bind
  intro p _
  split
  · exact sendsEvent_returns _
  · split_ifs
    · exact sendsEvent_returns _
    · exact sendsEvent_aux hknown hne rfl rfl

theorem ctzvParse_sends : SendsEvent u (ctzvParse u text param) := by
  apply sendsEvent_bind
  intro p _
  dsimp only
  split_ifs
  · exact sendsEvent_returns _
  · exact sendsEvent_aux (by decide) (by decide) rfl rfl

theorem copnParse_sends : SendsEvent u (copnParse text param) := by
  cases param with
  | null => exact sendsEvent_returns _
  | _ =>
    apply sendsEvent_bind
    intro p _
    split
    · exact sendsEvent_outside
    · exact sendsEvent_returns _
    · split
      · exact sendsEvent_silent rfl
      · exact sendsEvent_returns 0

theorem csqParse_sends : SendsEvent u (csqParse u text param) := by
  apply sendsEvent_bind
  intro _ _
  apply sendsEvent_bind
  intro p _
  split
  · exact sendsEvent_aux (by decide) (by decide) rfl rfl
  · exact sendsEvent_outside

theorem cpriParse_sends : SendsEvent u (cpriParse u flags text) := by
  unfold cpriParse
  split
  · exact sendsEvent_returns _
  · exact sendsEvent_silent rfl
  · exact sendsEvent_aux (by decide) (by decide) rfl rfl

theorem cpiParse_sends : SendsEvent u (cpiParse u text param) := by
  apply sendsEvent_bind
  intro _ _
  split
  · exact sendsEvent_aux (by decide) (by decide) rfl rfl
  · exact sendsEvent_returns _

theorem memIndexParse_sends (hknown : evt < numGsmdEvt) (hne : evt ≠ gsmdEvtCallWait) :
    SendsEvent u (memIndexParse evt u text param) := by
  apply sendsEvent_bind
  intro p _
  split
  · exact sendsEvent_aux hknown hne rfl rfl
  · exact sendsEvent_returns _

theorem inlined_isEvent {i : InlinedEvent} (h : i.Carried) :
    IsEvent (i.event u).1 (i.event u).2 := by
  cases i with
  | sms evt msg =>
    have hall : evt < numGsmdEvt ∧ evt ≠ gsmdEvtCallWait := by
      rcases h with rfl | rfl
      · decide
      · decide
    have hlong : sizeofAuxdata ≤ sizeofAuxdata + sizeofSmsList := Nat.le_add_right _ _
    exact @isEvent_built u _ _ _ hall.1 (by decide) (iff_of_true hlong hall.2) rfl
  | cbm msg =>
    have hlong : sizeofAuxdata ≤ sizeofAuxdata + sizeofCbm := Nat.le_add_right _ _
    have hall : gsmdEvtInCbm < numGsmdEvt ∧ gsmdEvtInCbm ≠ gsmdEvtCallWait := by decide
    exact @isEvent_built u _ _ _ hall.1 (by decide) (iff_of_true hlong hall.2) rfl

theorem smsOfHex_carried {len : ℤ} {hex : Bytes} {i : InlinedEvent}
    (hevt : evt = gsmdEvtInSms ∨ evt = gsmdEvtInDs)
    (h : smsOfHex u evt len hex = some (.ok i)) : i.Carried := by
  unfold smsOfHex at h
  split at h
  · cases h
  · simp only [Option.bind_eq_bind, Option.bind_eq_some_iff] at h
    obtain ⟨⟨rc, msg⟩, -, hret⟩ := h
    dsimp only at hret
    split_ifs at hret
    · cases hret
    · obtain rfl : InlinedEvent.sms evt msg = i := by simpa using hret
      exact hevt

theorem cbmOfHex_carried {len : ℤ} {hex : Bytes} {i : InlinedEvent}
    (h : cbmOfHex u len hex = some (.ok i)) : i.Carried := by
  unfold cbmOfHex at h
  split at h
  · cases h
  · simp only [Option.bind_eq_bind, Option.bind_eq_some_iff] at h
    obtain ⟨msg, -, hret⟩ := h
    cases msg with
    | error rc => cases hret
    | ok msg =>
      obtain rfl : InlinedEvent.cbm msg = i := by simpa using hret
      trivial

theorem cmtParse_carried (p : Bytes) {i : InlinedEvent} (h : cmtParse u (some p) = some (.ok i)) :
    i.Carried := by
  rw [cmtParse, Option.bind_some] at h
  split at h
  · cases h
  · exact smsOfHex_carried (Or.inl rfl) h

theorem cbmParse_carried (p : Bytes) {i : InlinedEvent} (h : cbmParse u (some p) = some (.ok i)) :
    i.Carried := by
  rw [cbmParse, Option.bind_some] at h
  split at h
  · cases h
  · exact cbmOfHex_carried h

theorem cdsParse_carried (p : Bytes) {i : InlinedEvent} (h : cdsParse u (some p) = some (.ok i)) :
    i.Carried := by
  rw [cdsParse, Option.bind_some] at h
  split at h
  · cases h
  · exact smsOfHex_carried (Or.inr rfl) h

theorem pduHandling_sends {parse : Unset → Option Bytes → Option (Except ℤ InlinedEvent)}
    (h : ∀ p i, parse u (some p) = some (.ok i) → i.Carried) :
    SendsEvent u (pduHandling parse u text param) := by
  apply sendsEvent_bind
  intro p _
  split
  · exact sendsEvent_outside
  · exact sendsEvent_returns _
  · rename_i i hi
    intro o heq e he
    obtain rfl : ({ inlined := some i } : UnsolicitedOutcome) = o := by simpa using heq
    obtain rfl : i.event u = e := by simpa [UnsolicitedOutcome.sent] using he
    exact inlined_isEvent (h p i hi)

theorem run_sendsEvent (handler : UnsolicitedHandler) :
    SendsEvent u (handler.run u flags text param) := by
  cases handler with
  | ringParse => exact sendsEvent_aux (by decide) (by decide) rfl rfl
  | cringParse => exact cringParse_sends
  | cregParse => exact cregParse_sends
  | ccwaParse => exact ccwaParse_sends
  | cusdParse | cccmParse | cgevParse | cgregParse | tiCtzvParse => exact sendsEvent_returns 0
  | clipParse | colpParse => exact addrParse_sends (by decide) (by decide)
  | ctzvParse => exact ctzvParse_sends
  | copnParse => exact copnParse_sends
  | csqParse => exact csqParse_sends
  | cpriParse => exact cpriParse_sends
  | cpiParse => exact cpiParse_sends
  | cmtiParse | cbmiParse | cdsiParse => exact memIndexParse_sends (by decide) (by decide)
  | cmtParse => exact pduHandling_sends fun p _ => cmtParse_carried p
  | cbmParse => exact pduHandling_sends fun p _ => cbmParse_carried p
  | cdsParse => exact pduHandling_sends fun p _ => cdsParse_carried p

end

theorem EventSource.event_isEvent {u : Unset} {src : EventSource} {evt : ℕ} {ucmd : GsmdUcmd}
    (h : src.event u = some (evt, ucmd)) : IsEvent evt ucmd := by
  cases src with
  | line flags buf =>
    rw [EventSource.event] at h
    split at h
    · rename_i o ho
      have hsends : SendsEvent u (unsolicitedHandling u flags buf buf.length) := by
        unfold unsolicitedHandling
        split
        · exact sendsEvent_returns _
        · exact run_sendsEvent _
      exact hsends o ho (evt, ucmd) h
    · cases h
  | cmeError number =>
    rw [EventSource.event, generateEventFromCme] at h
    split_ifs at h
    · obtain ⟨type, -, heq⟩ := Option.map_eq_some_iff.mp h
      obtain ⟨rfl, rfl⟩ := Prod.mk.inj heq
      exact @isEvent_auxEvent u _ _ (by decide) (by decide) rfl
    · obtain ⟨rfl, rfl⟩ := Prod.mk.inj (Option.some.inj h)
      exact @isEvent_auxEvent u _ _ (by decide) (by decide) rfl
  | cmsError number =>
    obtain ⟨rfl, rfl⟩ := Prod.mk.inj (Option.some.inj h)
    exact @isEvent_auxEvent u _ _ (by decide) (by decide) rfl

end SystemTestSuite.GsmDaemon
