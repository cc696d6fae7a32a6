import SystemTestSuite.Library.Fletcher
import SystemTestSuite.Library.Framing

/-!
The UBX messages that `dm2.c` sends to the GPS receiver, and the stream of their frames.
-/

namespace SystemTestSuite.Dm2

open Library

inductive PortEvent
  | sent (bytes : Bytes)
  | usleep (usec : ℤ)
  | sleep (sec : ℕ)

def sentBytes (log : List PortEvent) : Bytes :=
  log.flatMap fun e => match e with
    | .sent bytes => bytes
    | _ => []

def portWrite (answer : List PortEvent → Bytes → ℤ) (log : List PortEvent) (buf : Bytes) :
    ℤ × List PortEvent :=
  (answer log buf, log ++ [.sent (buf.take (answer log buf).toNat)])

def bwriteLoop (answer : List PortEvent → Bytes → ℤ) (delay : ℤ) :
    Bytes → ℤ → List PortEvent → ℤ × List PortEvent
  | [], i, log => (i, log)
  | b :: buf, i, log =>
    let r := portWrite answer log [b]
    if r.1 ≠ 1 then (-1, r.2)
    else bwriteLoop answer delay buf (i + 1) (r.2 ++ [.usleep (delay * 1000)])

def bwrite (answer : List PortEvent → Bytes → ℤ) (log : List PortEvent) (buf : Bytes) (delay : ℤ) :
    ℤ × List PortEvent :=
  if delay = 0 then portWrite answer log buf else bwriteLoop answer delay buf 0 log

/-- Whether it gets to the end, and what has been sent; `size` is the length of `ubx`. -/
def gllinUbx (answer : List PortEvent → Bytes → ℤ) (log : List PortEvent) (fd : ℤ) (cls id : Int8)
    (ubx : Bytes) (delay : ℤ) : Bool × List PortEvent :=
  if fd = 0 then (true, log)
  else
    let size := ubx.length
    let header : Bytes := [0xb5, 0x62, cls.toUInt8, id.toUInt8, UInt8.ofNat (size % 256),
      UInt8.ofNat (size / 256 % 256)]
    let checksum := ubx.foldl fletcherStep ((header.drop 2).foldl fletcherStep (0, 0))
    let r := bwrite answer log header delay
    if r.1 ≠ 6 then (false, r.2)
    else
      let r := if size ≠ 0 then bwrite answer r.2 ubx delay else (0, r.2)
      if r.1 ≠ size then (false, r.2)
      else
        let r := bwrite answer r.2 [checksum.1, checksum.2] delay
        (decide (r.1 = 2), r.2)

def gpsReset (answer : List PortEvent → Bytes → ℤ) (log : List PortEvent) (fd : ℤ) (c : UInt8)
    (bbr : ℕ) : List PortEvent :=
  let bbr := if c = 99 then 0x7ff else if c = 119 then 0x1 else if c = 104 then 0x0 else bbr
  let ubx (command : UInt8) : Bytes := [UInt8.ofNat (bbr % 256), UInt8.ofNat (bbr / 256 % 256), command, 0]
  let log := (gllinUbx answer log fd 0x06 0x04 (ubx 0x8) 4).2
  (gllinUbx answer (log ++ [.sleep 2]) fd 0x06 0x04 (ubx 0x9) 4).2

structure UbxMessage where
  cls : Int8
  id : Int8
  payload : Bytes
  fits : payload.length ≤ 65535

namespace UbxMessage

def body (m : UbxMessage) : Bytes :=
  m.cls.toUInt8 :: m.id.toUInt8 :: UInt8.ofNat (m.payload.length % 256) ::
    UInt8.ofNat (m.payload.length / 256) :: m.payload

def frame (m : UbxMessage) : Bytes :=
  [0xb5, 0x62] ++ m.body ++ [(fletcher m.body).1, (fletcher m.body).2]

end UbxMessage

def ubxNext : Bytes → Option (UbxMessage × Bytes)
  | 0xb5 :: 0x62 :: cls :: id :: low :: high :: rest =>
    let size := low.toNat + 256 * high.toNat
    match rest.drop size with
    | a :: b :: more =>
      if fletcher (cls :: id :: low :: high :: rest.take size) = (a, b) then
        some (⟨cls.toInt8, id.toInt8, rest.take size, by
          have hlow := low.toNat_lt
          have hhigh := high.toNat_lt
          rw [List.length_take]
          omega⟩, more)
      else none
    | _ => none
  | _ => none

theorem toNat_byte {n : ℕ} (h : n < 256) : (UInt8.ofNat n).toNat = n := UInt8.toNat_ofNat_of_lt' h

theorem length_bytes {n : ℕ} (h : n ≤ 65535) :
    (UInt8.ofNat (n % 256)).toNat + 256 * (UInt8.ofNat (n / 256)).toNat = n := by
  rw [toNat_byte (by omega), toNat_byte (by omega)]
  omega

theorem bytes_length (low high : UInt8) :
    UInt8.ofNat ((low.toNat + 256 * high.toNat) % 256) = low ∧
      UInt8.ofNat ((low.toNat + 256 * high.toNat) / 256) = high := by
  have hlow := low.toNat_lt
  have hhigh := high.toNat_lt
  constructor
  · apply UInt8.toNat_inj.mp
    rw [toNat_byte (by omega)]
    omega
  · apply UInt8.toNat_inj.mp
    rw [toNat_byte (by omega)]
    omega

theorem ubxNext_eq {cls id low high a b : UInt8} {payload : Bytes} (more : Bytes)
    (hsize : low.toNat + 256 * high.toNat = payload.length) (hfits : payload.length ≤ 65535)
    (hsum : fletcher (cls :: id :: low :: high :: payload) = (a, b)) :
    ubxNext (0xb5 :: 0x62 :: cls :: id :: low :: high :: (payload ++ a :: b :: more)) =
      some (⟨cls.toInt8, id.toInt8, payload, hfits⟩, more) := by
  have htake : (payload ++ a :: b :: more).take payload.length = payload := List.take_left
  have hdrop : (payload ++ a :: b :: more).drop payload.length = a :: b :: more := List.drop_left
  simp only [ubxNext, hsize, htake, hdrop]
  exact if_pos hsum

theorem ubxNext_frame (m : UbxMessage) (rest : Bytes) : ubxNext (m.frame ++ rest) = some (m, rest) := by
  have hframe : m.frame ++ rest = 0xb5 :: 0x62 :: m.cls.toUInt8 :: m.id.toUInt8 ::
      UInt8.ofNat (m.payload.length % 256) :: UInt8.ofNat (m.payload.length / 256) ::
        (m.payload ++ (fletcher m.body).1 :: (fletcher m.body).2 :: rest) := by
    simp [UbxMessage.frame, UbxMessage.body]
  rw [hframe]
  exact ubxNext_eq rest (length_bytes m.fits) m.fits rfl

theorem ubxNext_some {bs rest : Bytes} {m : UbxMessage} (h : ubxNext bs = some (m, rest)) :
    bs = m.frame ++ rest := by
  unfold ubxNext at h
  split at h
  case h_2 => cases h
  rename_i cls id low high more
  dsimp only at h
  split at h
  case h_2 => cases h
  rename_i a b left hdrop
  split_ifs at h with hsum
  obtain ⟨rfl, rfl⟩ := Prod.mk.inj (Option.some.inj h)
  have hsize : (more.take (low.toNat + 256 * high.toNat)).length = low.toNat + 256 * high.toNat := by
    have hlen := congrArg List.length hdrop
    rw [List.length_drop, List.length_cons] at hlen
    rw [List.length_take]
    omega
  obtain ⟨hlow, hhigh⟩ := bytes_length low high
  rw [UbxMessage.frame, UbxMessage.body]
  dsimp only
  rw [hsize, hlow, hhigh, UInt8.toUInt8_toInt8, UInt8.toUInt8_toInt8, hsum]
  have hsplit : more = more.take (low.toNat + 256 * high.toNat) ++ a :: b :: left := by
    rw [← hdrop, List.take_append_drop]
  conv_lhs => rw [hsplit]
  simp

def ubxStream : Framing UbxMessage where
  encode := UbxMessage.frame
  next := ubxNext
  encode_pos _ := Nat.zero_lt_succ _
  next_encode := ubxNext_frame
  next_some := ubxNext_some

variable {answer : List PortEvent → Bytes → ℤ} {log : List PortEvent}

theorem sentBytes_append (log more : List PortEvent) :
    sentBytes (log ++ more) = sentBytes log ++ sentBytes more := List.flatMap_append

def Completes (answer : List PortEvent → Bytes → ℤ) : Prop := ∀ log buf, answer log buf = buf.length

theorem portWrite_complete (h : Completes answer) (log : List PortEvent) (buf : Bytes) :
    portWrite answer log buf = ((buf.length : ℤ), log ++ [PortEvent.sent buf]) := by
  rw [portWrite, h, Int.toNat_natCast, List.take_length]

theorem bwriteLoop_complete (h : Completes answer) (delay : ℤ) (buf : Bytes) (i : ℤ)
    (log : List PortEvent) :
    (bwriteLoop answer delay buf i log).1 = i + buf.length ∧
      sentBytes (bwriteLoop answer delay buf i log).2 = sentBytes log ++ buf := by
  induction buf generalizing i log with
  | nil => exact ⟨(Int.add_zero i).symm, (List.append_nil _).symm⟩
  | cons b buf ih =>
    obtain ⟨hcount, hsent⟩ := ih (i + 1) (log ++ [.sent [b]] ++ [.usleep (delay * 1000)])
    rw [bwriteLoop, portWrite_complete h]
    dsimp only
    rw [if_neg (not_not.mpr (by simp)), hcount, hsent]
    constructor
    · rw [List.length_cons]
      omega
    · rw [sentBytes_append, sentBytes_append]
      simp [sentBytes]

theorem bwrite_complete (h : Completes answer) (log : List PortEvent) (buf : Bytes) (delay : ℤ) :
    (bwrite answer log buf delay).1 = buf.length ∧
      sentBytes (bwrite answer log buf delay).2 = sentBytes log ++ buf := by
  rw [bwrite]
  split_ifs
  · rw [portWrite_complete h, sentBytes_append]
    simp [sentBytes]
  · obtain ⟨hcount, hsent⟩ := bwriteLoop_complete h delay buf 0 log
    exact ⟨hcount.trans (Int.zero_add _), hsent⟩

theorem gllinUbx_complete (h : Completes answer) (log : List PortEvent) {fd : ℤ} (hfd : fd ≠ 0)
    (m : UbxMessage) (delay : ℤ) :
    (gllinUbx answer log fd m.cls m.id m.payload delay).1 = true ∧
      sentBytes (gllinUbx answer log fd m.cls m.id m.payload delay).2 = sentBytes log ++ m.frame := by
  have hfits := m.fits
  have hhigh : m.payload.length / 256 % 256 = m.payload.length / 256 := by omega
  obtain ⟨header, hheader⟩ : ∃ header : Bytes, header = [0xb5, 0x62, m.cls.toUInt8, m.id.toUInt8,
      UInt8.ofNat (m.payload.length % 256), UInt8.ofNat (m.payload.length / 256)] := ⟨_, rfl⟩
  have hsum : m.payload.foldl fletcherStep ((header.drop 2).foldl fletcherStep (0, 0)) =
      fletcher m.body := by
    rw [← List.foldl_append, foldl_fletcherStep, hheader]
    rfl
  obtain ⟨hcount₁, hsent₁⟩ := bwrite_complete h log header delay
  obtain ⟨r₁, hr₁⟩ : ∃ r, r = bwrite answer log header delay := ⟨_, rfl⟩
  obtain ⟨r₂, hr₂, hcount₂, hsent₂⟩ : ∃ r, r = (if m.payload.length ≠ 0 then
      bwrite answer r₁.2 m.payload delay else (0, r₁.2)) ∧ r.1 = (m.payload.length : ℤ) ∧
        sentBytes r.2 = sentBytes r₁.2 ++ m.payload := by
    refine ⟨_, rfl, ?_⟩
    split_ifs with hsize
    · exact bwrite_complete h r₁.2 m.payload delay
    · have hnil : m.payload = [] := List.length_eq_zero_iff.mp (not_not.mp hsize)
      rw [hnil]
      exact ⟨rfl, (List.append_nil _).symm⟩
  obtain ⟨hcount₃, hsent₃⟩ := bwrite_complete h r₂.2 [(fletcher m.body).1, (fletcher m.body).2] delay
  rw [gllinUbx, if_neg hfd]
  dsimp only
  rw [hhigh, ← hheader, hsum, ← hr₁, ← hr₂, if_neg (not_not.mpr (by rw [hr₁, hcount₁, hheader]; rfl)),
    if_neg (not_not.mpr hcount₂)]
  refine ⟨decide_eq_true hcount₃, ?_⟩
  rw [hsent₃, hsent₂, hr₁, hsent₁, hheader, UbxMessage.frame, UbxMessage.body]
  simp

def sendAll (answer : List PortEvent → Bytes → ℤ) (fd : ℤ) (log : List PortEvent)
    (calls : List (UbxMessage × ℤ)) : List PortEvent :=
  calls.foldl (fun log c => (gllinUbx answer log fd c.1.cls c.1.id c.1.payload c.2).2) log

theorem sendAll_complete (h : Completes answer) {fd : ℤ} (hfd : fd ≠ 0) (log : List PortEvent)
    (calls : List (UbxMessage × ℤ)) :
    sentBytes (sendAll answer fd log calls) =
      sentBytes log ++ ubxStream.encodeAll (calls.map Prod.fst) := by
  induction calls generalizing log with
  | nil => exact (List.append_nil _).symm
  | cons c calls ih =>
    rw [sendAll, List.foldl_cons, ← sendAll, ih, (gllinUbx_complete h log hfd c.1 c.2).2,
      List.map_cons, Framing.encodeAll_cons, List.append_assoc]
    rfl

def resetMessage (bbr : ℕ) (command : UInt8) : UbxMessage where
  cls := 0x06
  id := 0x04
  payload := [UInt8.ofNat (bbr % 256), UInt8.ofNat (bbr / 256 % 256), command, 0]
  fits := (by decide : 4 ≤ 65535)

theorem gpsReset_received (h : Completes answer) {fd : ℤ} (hfd : fd ≠ 0) (c : UInt8) (bbr : ℕ) :
    ∃ bbr', ubxStream.split (sentBytes (gpsReset answer [] fd c bbr)) =
      [resetMessage bbr' 0x8, resetMessage bbr' 0x9] := by
  obtain ⟨bbr', hbbr⟩ : ∃ bbr', bbr' =
      if c = 99 then 0x7ff else if c = 119 then 0x1 else if c = 104 then 0x0 else bbr := ⟨_, rfl⟩
  have hstop := (gllinUbx_complete h [] hfd (resetMessage bbr' 0x8) 4).2
  have hstart := (gllinUbx_complete h ((gllinUbx answer [] fd 0x06 0x04 (resetMessage bbr' 0x8).payload
    4).2 ++ [.sleep 2]) hfd (resetMessage bbr' 0x9) 4).2
  refine ⟨bbr', ?_⟩
  rw [gpsReset, ← hbbr]
  dsimp only
  refine (congrArg ubxStream.split (hstart.trans ?_)).trans (ubxStream.split_encodeAll_nil _)
  rw [sentBytes_append]
  refine (congrArg (fun bs => bs ++ _ ++ _) hstop).trans ?_
  rfl

theorem gllinUbx_received (answer : List PortEvent → Bytes → ℤ) (h : Completes answer) (fd : ℤ)
    (hfd : fd ≠ 0) :
    (∀ log (m : UbxMessage) delay,
      sentBytes (gllinUbx answer log fd m.cls m.id m.payload delay).2 = sentBytes log ++ m.frame) ∧
      ∀ calls, ubxStream.split (sentBytes (sendAll answer fd [] calls)) = calls.map Prod.fst := by
  constructor
  · exact fun log m delay => (gllinUbx_complete h log hfd m delay).2
  · intro calls
    rw [sendAll_complete h hfd]
    exact Framing.split_encodeAll_nil _

theorem gllinUbx_received_reset :
    ubxStream.split (sentBytes (sendAll (fun _ buf => buf.length) 3 []
      [(resetMessage 0x7ff 0x8, 4), (resetMessage 0x7ff 0x9, 0)])) =
      [resetMessage 0x7ff 0x8, resetMessage 0x7ff 0x9] :=
  (gllinUbx_received (fun _ buf => buf.length) (fun _ _ => rfl) 3 (by decide)).2 _

end SystemTestSuite.Dm2
