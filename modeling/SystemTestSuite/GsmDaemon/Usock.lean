import SystemTestSuite.GsmDaemon.Message

/-!
The client sockets of the daemon, `gsmd/usock.c`, and the sending of events, `gsmd/unsolicited.c`.
Allocation succeeds; what a fresh allocation holds is a parameter.
-/

namespace SystemTestSuite.GsmDaemon

open Library

/-- `ptr` is the address, `buf` what follows the header. -/
structure GsmdUcmd where
  ptr : ℕ
  hdr : GsmdMsgHdr
  buf : Memory

/-- `fdWrite` is `GSMD_FD_WRITE` in `gfd.when`. -/
structure GsmdUser where
  finishedUcmds : List GsmdUcmd
  fdWrite : Bool
  subscriptions : UInt32

def GsmdUcmd.payload (ucmd : GsmdUcmd) : Bytes := ucmd.buf.slice 0 ucmd.hdr.len.toNat

def GsmdUcmd.packet (ucmd : GsmdUcmd) : Bytes := ucmd.hdr.bytes ++ ucmd.payload

def usockCmdEnqueue (ucmd : GsmdUcmd) (gu : GsmdUser) : GsmdUser :=
  { gu with finishedUcmds := gu.finishedUcmds ++ [ucmd], fdWrite := true }

inductive UsockMsgHandler
  | rcvPassthrough
  | rcvEvent
  | rcvVoicecall
  | rcvPin
  | rcvPhone
  | rcvNetwork
  | rcvSms
  | rcvCb
  | rcvPhonebook
  deriving DecidableEq, Repr

def pcmdTypeHandlers (msgType : UInt8) : Option UsockMsgHandler :=
  if msgType = gsmdMsgPassthrough then some .rcvPassthrough
  else if msgType = gsmdMsgEvent then some .rcvEvent
  else if msgType = gsmdMsgVoicecall then some .rcvVoicecall
  else if msgType = gsmdMsgPin then some .rcvPin
  else if msgType = gsmdMsgPhone then some .rcvPhone
  else if msgType = gsmdMsgNetwork then some .rcvNetwork
  else if msgType = gsmdMsgSms then some .rcvSms
  else if msgType = gsmdMsgCb then some .rcvCb
  else if msgType = gsmdMsgPhonebook then some .rcvPhonebook
  else none

/-- The handler that runs, none for `-EINVAL`. -/
def usockRcvPcmd (buf : Memory) : Option UsockMsgHandler :=
  let gph := hdrAt buf 0
  if gph.version ≠ gsmdProtoVersion then none
  else if gph.msgType ≥ numGsmdMsgs then none
  else pcmdTypeHandlers gph.msgType

structure HandlerCall where
  handler : UsockMsgHandler
  buf : Memory
  len : ℕ

def HandlerCall.bytes (c : HandlerCall) : Bytes := c.buf.slice 0 c.len

def userCbRead (stale : Memory) (chunk : Bytes) : Option HandlerCall :=
  let buf := stale.store 0 chunk
  (usockRcvPcmd buf).map (fun handler => ⟨handler, buf, chunk.length⟩)

def userCbReads (stale : ℕ → Memory) : List Bytes → List HandlerCall
  | [] => []
  | chunk :: chunks =>
    (userCbRead (stale 0) chunk).toList ++ userCbReads (fun n => stale (n + 1)) chunks

/-- The loop over the finished commands: what gets on the socket and what stays in the list, where
`rc` are the results of `write`. -/
def userCbWriteLoop (rc : ℕ → ℤ) : List GsmdUcmd → Bytes × List GsmdUcmd
  | [] => ([], [])
  | ucmd :: ucmds =>
    if rc 0 < 0 then ([], ucmd :: ucmds)
    else if rc 0 = 0 then ([], ucmd :: ucmds)
    else if rc 0 ≠ sizeofHdr + ucmd.hdr.len.toNat then
      (ucmd.packet.take (rc 0).toNat, ucmd :: ucmds)
    else
      let r := userCbWriteLoop (fun n => rc (n + 1)) ucmds
      (ucmd.packet ++ r.1, r.2)

def userCbWrite (rc : ℕ → ℤ) (gu : GsmdUser) : Bytes × GsmdUser :=
  let r := userCbWriteLoop rc gu.finishedUcmds
  (r.1, { gu with finishedUcmds := r.2, fdWrite := if r.2 = [] then false else gu.fdWrite })

def sizeofListHead : ℕ := 8

def GsmdUcmd.memory (ucmd : GsmdUcmd) (links : Memory) : Memory := fun i =>
  if i < sizeofListHead then links i
  else if i < sizeofListHead + sizeofHdr then ucmd.hdr.bytes.getD (i - sizeofListHead) 0
  else ucmd.buf (i - (sizeofListHead + sizeofHdr))

def ucmdAt (ptr : ℕ) (m : Memory) : GsmdUcmd where
  ptr := ptr
  hdr := hdrAt m sizeofListHead
  buf := fun i => m (sizeofListHead + sizeofHdr + i)

def ucmdCopy (heap : ℕ → Memory) (links : Memory) (ptr : ℕ) (orig : GsmdUcmd) : GsmdUcmd :=
  ucmdAt ptr (fun i => if i < orig.hdr.len.toNat then orig.memory links i else heap ptr i)

def subscribed (evt : ℕ) (gu : GsmdUser) : Bool :=
  gu.subscriptions.toNat &&& (1 <<< evt) ≠ 0

/-- The loop of `usock_evt_send` after `numSent` users; `ptr` is the next allocation. -/
def usockEvtSendLoop (heap : ℕ → Memory) (links : Memory) (ucmd : GsmdUcmd) (evt : ℕ) :
    ℕ → ℕ → List GsmdUser → ℕ × List GsmdUser
  | _, numSent, [] => (numSent, [])
  | ptr, numSent, gu :: gus =>
    if subscribed evt gu then
      if numSent = 0 then
        let r := usockEvtSendLoop heap links ucmd evt ptr (numSent + 1) gus
        (r.1, usockCmdEnqueue ucmd gu :: r.2)
      else
        let r := usockEvtSendLoop heap links ucmd evt (ptr + 1) (numSent + 1) gus
        (r.1, usockCmdEnqueue (ucmdCopy heap links ptr ucmd) gu :: r.2)
    else
      let r := usockEvtSendLoop heap links ucmd evt ptr numSent gus
      (r.1, gu :: r.2)

def usockEvtSend (heap : ℕ → Memory) (links : Memory) (ptr : ℕ) (gus : List GsmdUser)
    (ucmd : GsmdUcmd) (evt : ℕ) : ℕ × List GsmdUser :=
  usockEvtSendLoop heap links ucmd evt ptr 0 gus

end SystemTestSuite.GsmDaemon
