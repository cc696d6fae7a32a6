import SystemTestSuite.Libgsmd.Packets
import SystemTestSuite.Library.CString

/-!
`lgsm_blocking_wait_packet`, `libgsmd/libgsmd.c`, and the passthrough call that waits with it,
`libgsmd/libgsmd_passthrough.c`.
-/

namespace SystemTestSuite.Libgsmd

open Library GsmDaemon

/-- No `rc` while it waits. -/
structure WaitResult where
  rc : Option ℤ
  gmh : Memory
  handed : List Dispatch
  unread : List (Except ℤ Bytes)

/-- `reads` are the results of `read` (and of `select` where it fails); an empty one is the end of
the file. -/
def lgsmBlockingWaitPacket (lh : LgsmHandle) (id : UInt16) (gmh : Memory) :
    List (Except ℤ Bytes) → WaitResult
  | [] => ⟨none, gmh, [], []⟩
  | .error rc :: reads => ⟨some rc, gmh, [], reads⟩
  | .ok chunk :: reads =>
    let gmh := gmh.store 0 chunk
    if chunk = [] then ⟨some 0, gmh, [], reads⟩
    else if (hdrAt gmh 0).id = id then ⟨some chunk.length, gmh, [], reads⟩
    else
      let w := lgsmBlockingWaitPacket lh id gmh reads
      { w with handed := (lgsmHandlePacket lh gmh chunk.length).2 ++ w.handed }

def lgsmSend (nextMsgId : UInt16) (gmh : GsmdMsgHdr) : GsmdMsgHdr × UInt16 :=
  ({ gmh with id := nextMsgId }, nextMsgId + 1)

def ptBufSize : ℕ := 1024

def einvalRc : ℤ := -22

def eioRc : ℤ := -5

/-- The header of the request and the return value, where `sent` is what `send` returns; it is
compared as an unsigned number. -/
def lgsmPassthroughSend (nextMsgId : UInt16) (tx : Bytes) (sent : ℤ) : Option GsmdMsgHdr × ℤ :=
  let len := (cstr tx).length
  if ptBufSize < len then (none, einvalRc)
  else
    let gmh := (lgsmSend nextMsgId ⟨gsmdProtoVersion, gsmdMsgPassthrough, gsmdPassthroughReq, 0, 0,
      UInt16.ofNat (len + 1)⟩).1
    if sent % 2 ^ 32 < len + sizeofHdr then (some gmh, eioRc) else (some gmh, gmh.id.toNat)

inductive PassthroughReturn
  | waits
  | fails (rc : ℤ)
  | overruns
  | returns (rx : Bytes) (rxLen : UInt16)
  deriving DecidableEq

structure PassthroughResult where
  returned : PassthroughReturn
  handed : List Dispatch
  unread : List (Except ℤ Bytes)

def passthroughReturn (room : ℕ) (rgmh : Memory) : Option ℤ → PassthroughReturn
  | none => .waits
  | some rc =>
    if rc ≤ 0 then .fails rc
    else if rc < sizeofHdr then .fails einvalRc
    else if rc < sizeofHdr + (hdrAt rgmh 0).len.toNat then .fails einvalRc
    else
      match rgmh.string? sizeofHdr room with
      | none => .overruns
      | some text => .returns (text ++ [0]) (hdrAt rgmh 0).len

def lgsmPassthrough (lh : LgsmHandle) (nextMsgId : UInt16) (tx : Bytes) (sent : ℤ) (rbuf : Memory)
    (room : ℕ) (reads : List (Except ℤ Bytes)) : PassthroughResult :=
  let rc := (lgsmPassthroughSend nextMsgId tx sent).2
  if rc < 0 then ⟨.fails rc, [], reads⟩
  else
    let w := lgsmBlockingWaitPacket lh (UInt16.ofNat rc.toNat) rbuf reads
    ⟨passthroughReturn room w.gmh w.rc, w.handed, w.unread⟩

end SystemTestSuite.Libgsmd
