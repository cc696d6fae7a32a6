import SystemTestSuite.GsmDaemon.SmsPdu
import SystemTestSuite.Library.Gather

namespace SystemTestSuite.GsmDaemon

open Library

variable {dst : GsmdSmsList} {data : Bytes} {udl : UInt8}

theorem addressSeptets_some {n type : UInt8} {rest : Bytes}
    (hrest : (n.toNat + 1) / 2 < rest.length) :
    ∃ number, ((List.range n.toNat).takeWhile (fun i => (i * 7 + 3) >>> 2 < n.toNat)).mapM
      (addressSeptet (n :: type :: rest)) = some number ∧ number.length ≤ n.toNat := by
  have hread : ∀ k, k < rest.length → ∃ b, (n :: type :: rest)[2 + k]? = some b := by
    intro k hk
    exact ⟨_, List.getElem?_eq_getElem (by simp; omega)⟩
  have hall : ∀ i ∈ (List.range n.toNat).takeWhile (fun i => (i * 7 + 3) >>> 2 < n.toNat),
      ∃ b, addressSeptet (n :: type :: rest) i = some b := by
    intro i hi
    have hlt := List.mem_takeWhile_imp hi
    simp only [Nat.shiftRight_eq_div_pow, decide_eq_true_eq] at hlt
    obtain ⟨high, hhigh⟩ := hread ((i * 7 + 7) >>> 3) (by rw [Nat.shiftRight_eq_div_pow]; omega)
    obtain ⟨low, hlow⟩ := hread ((i * 7) >>> 3) (by rw [Nat.shiftRight_eq_div_pow]; omega)
    rw [addressSeptet, hhigh, hlow]
    exact ⟨_, rfl⟩
  obtain ⟨number, hnumber, hlen⟩ := exists_mapM hall
  have hle := (List.takeWhile_prefix (l := List.range n.toNat)
    (fun i => decide ((i * 7 + 3) >>> 2 < n.toNat))).length_le
  rw [List.length_range] at hle
  exact ⟨number, hnumber, hlen.trans_le hle⟩

theorem addressDigits_some {n type : UInt8} {rest : Bytes}
    (hrest : (n.toNat + 1) / 2 < rest.length) :
    ∃ number, (List.range n.toNat).mapM (addressDigit (n :: type :: rest)) = some number ∧
      number.length = n.toNat := by
  have hall : ∀ i ∈ List.range n.toNat, ∃ b, addressDigit (n :: type :: rest) i = some b := by
    intro i hi
    have hlt := List.mem_range.mp hi
    have hk : 2 + i >>> 1 < (n :: type :: rest).length := by
      rw [Nat.shiftRight_eq_div_pow]
      simp only [List.length_cons]
      omega
    rw [addressDigit, List.getElem?_eq_getElem hk]
    exact ⟨_, rfl⟩
  obtain ⟨number, hnumber, hlen⟩ := exists_mapM hall
  exact ⟨number, hnumber, by rw [hlen, List.length_range]⟩

theorem smsAddress2ascii_reads (dst : GsmdAddr) {n type : UInt8} {rest : Bytes}
    (hn : n.toNat ≤ gsmdAddrMaxlen) (hrest : (n.toNat + 1) / 2 < rest.length) :
    ∃ number, number.length ≤ gsmdAddrMaxlen ∧ smsAddress2ascii dst (n :: type :: rest) =
      some (0, ⟨type, (dst.number.store 0 number).store number.length [0]⟩) := by
  by_cases htype : type &&& toaTonMask = toaTonAlphanumeric
  · obtain ⟨number, hnumber, hlen⟩ := @addressSeptets_some n type rest hrest
    refine ⟨number, hlen.trans hn, ?_⟩
    simp [smsAddress2ascii, hn, htype, hnumber]
  · obtain ⟨number, hnumber, hlen⟩ := @addressDigits_some n type rest hrest
    refine ⟨number, hlen.trans_le hn, ?_⟩
    simp [smsAddress2ascii, hn, htype, hnumber]

theorem readOctets_some {src : Bytes} {off n : ℕ} (h : off + n ≤ src.length) :
    ∃ data, readOctets src off n = some data ∧ data.length = n := by
  refine ⟨(src.drop off).take n, if_pos h, ?_⟩
  rw [List.length_take, List.length_drop]
  omega

theorem readOctets_length {src : Bytes} {off n : ℕ} (h : readOctets src off n = some data) :
    data.length = n := by
  rw [readOctets] at h
  split_ifs at h with hfit
  obtain rfl := Option.some.inj h
  rw [List.length_take, List.length_drop]
  omega

theorem tpUserData_octets (dst : GsmdSmsList)
    (hlen : smsDataBytelen dst.payload.codingScheme udl = data.length)
    (hroom : data.length ≤ gsmdSmsDataMaxlen) :
    tpUserData dst (udl :: data) (udl :: data).length =
      some (0, { dst with payload := { dst.payload with
        length := udl
        data := (dst.payload.data.store 0 data).store data.length [0] } }) := by
  have hread : readOctets (udl :: data) 1 data.length = some data := by
    simp [readOctets, Nat.add_comm]
  simp [tpUserData, hlen, hroom, hread, Int.add_comm]

theorem smsNumberBytelen_eq (type n : UInt8) : smsNumberBytelen type n = (n.toNat + 1) / 2 := by
  rw [smsNumberBytelen, ite_self, Nat.shiftRight_eq_div_pow, pow_one]

theorem smsAddress2ascii_long (dst : GsmdAddr) {n : UInt8} (rest : Bytes)
    (hn : gsmdAddrMaxlen < n.toNat) : smsAddress2ascii dst (n :: rest) = some (1, dst) := by
  simp [smsAddress2ascii, hn]

theorem readOctets_append {pre octets rest : Bytes} :
    readOctets (pre ++ (octets ++ rest)) pre.length octets.length = some octets := by
  simp [readOctets]

def deliverRead (dst : GsmdSmsList) (addr : GsmdAddr) (pid scheme : UInt8) : GsmdSmsList :=
  { dst with
    addr := addr
    payload := { dst.payload with
      isVoicemail :=
        if (smsPduDecodeDcs scheme).mwiKind = messageWaitingVoicemail ∧
          ((smsPduDecodeDcs scheme).mwiGroup = messageWaitingDiscard ∨
            (smsPduDecodeDcs scheme).mwiGroup = messageWaitingStore) then 1
        else if pid = 0x5f then 1
        else dst.payload.isVoicemail
      dcs := smsPduDecodeDcs scheme } }

theorem pduDeliver_eq {first n type pid scheme : UInt8} {address stamp body : Bytes}
    {addr : GsmdAddr} (haddr : smsAddress2ascii dst.addr
      (n :: type :: (address ++ pid :: scheme :: (stamp ++ body))) = some (0, addr))
    (hn : address.length = (n.toNat + 1) / 2) (hstamp : stamp.length = 7)
    (hbody : 0 < body.length) :
    pduDeliver dst (first :: n :: type :: (address ++ pid :: scheme :: (stamp ++ body)))
        (first :: n :: type :: (address ++ pid :: scheme :: (stamp ++ body))).length =
      match tpDcs scheme with
      | none => some (1, deliverRead dst addr pid scheme)
      | some codingScheme => tpUserData { deliverRead dst addr pid scheme with
          timeStamp := dst.timeStamp.store 0 stamp
          payload := { (deliverRead dst addr pid scheme).payload with
            codingScheme := codingScheme } } body body.length := by
  have hlen : (first :: n :: type :: (address ++ pid :: scheme :: (stamp ++ body))).length =
      12 + (n.toNat + 1) / 2 + body.length := by
    simp only [List.length_cons, List.length_append, hn, hstamp]
    omega
  have hthree : ¬ ((12 + (n.toNat + 1) / 2 + body.length : ℕ) : ℤ) < 3 := by omega
  have hlong : ¬ ((12 + (n.toNat + 1) / 2 + body.length : ℕ) : ℤ) <
      13 + ((n.toNat + 1) / 2 : ℕ) := by omega
  have hskip : (first :: n :: type :: (address ++ pid :: scheme :: (stamp ++ body))).drop
      (3 + (n.toNat + 1) / 2) = pid :: scheme :: (stamp ++ body) := by
    rw [Nat.add_comm, ← hn]
    exact List.drop_left
  have hread : readOctets (pid :: scheme :: (stamp ++ body)) 2 7 = some stamp := by
    rw [← hstamp]
    exact @readOctets_append [pid, scheme] stamp body
  have hbehind : (stamp ++ body).drop 7 = body := by
    rw [← hstamp, List.drop_left]
  have hrest : ((12 + (n.toNat + 1) / 2 + body.length : ℕ) : ℤ) - (3 + ((n.toNat + 1) / 2 : ℕ)) - 9 =
      body.length := by omega
  rw [hlen]
  simp only [pduDeliver, if_neg hthree, List.getElem?_cons_succ, List.getElem?_cons_zero,
    Option.bind_eq_bind, Option.bind_some, smsNumberBytelen_eq, if_neg hlong, List.drop_succ_cons,
    List.drop_zero, haddr, hskip, ne_eq, not_true_eq_false, if_false, hread, hbehind]
  rw [hrest]
  cases tpDcs scheme <;> rfl

theorem exists_deliver {rest : Bytes} {i : ℕ} (h : i + 10 ≤ rest.length) :
    ∃ address pid scheme stamp body, rest = address ++ pid :: scheme :: (stamp ++ body) ∧
      address.length = i ∧ stamp.length = 7 ∧ 0 < body.length := by
  have hi : i < rest.length := by omega
  have hi' : i + 1 < rest.length := by omega
  refine ⟨rest.take i, rest[i], rest[i + 1], (rest.drop (i + 2)).take 7, rest.drop (i + 9),
    ?_, ?_, ?_, ?_⟩
  · have htail := (List.take_append_drop 7 (rest.drop (i + 2))).symm
    rw [List.drop_drop] at htail
    rw [← htail, List.getElem_cons_drop, List.getElem_cons_drop, List.take_append_drop]
  · rw [List.length_take]
    omega
  · rw [List.length_take, List.length_drop]
    omega
  · rw [List.length_drop]
    omega

theorem pduSubmit_eq {flags reference n type pid scheme vpf : UInt8} {address tail : Bytes}
    {addr : GsmdAddr} (haddr : smsAddress2ascii dst.addr
      (n :: type :: (address ++ pid :: scheme :: tail)) = some (0, addr))
    (hn : address.length = (n.toNat + 1) / 2) :
    pduSubmit dst vpf (flags :: reference :: n :: type :: (address ++ pid :: scheme :: tail))
        (flags :: reference :: n :: type :: (address ++ pid :: scheme :: tail)).length =
      if tail.length < 2 then some (1, dst)
      else match tpDcs scheme with
        | none => some (1, { dst with addr := addr })
        | some codingScheme => tpUserData { dst with
            addr := addr
            timeStamp := dst.timeStamp.fill 0 7 0
            payload := { dst.payload with codingScheme := codingScheme } }
          (if vpf ≠ 0 then tail.drop 1 else tail)
          (if vpf ≠ 0 then tail.drop 1 else tail).length := by
  have hlen : (flags :: reference :: n :: type :: (address ++ pid :: scheme :: tail)).length =
      6 + (n.toNat + 1) / 2 + tail.length := by
    simp only [List.length_cons, List.length_append, hn]
    omega
  have hfour : ¬ ((6 + (n.toNat + 1) / 2 + tail.length : ℕ) : ℤ) < 4 := by omega
  have hskip : (flags :: reference :: n :: type :: (address ++ pid :: scheme :: tail)).drop
      (4 + (n.toNat + 1) / 2) = pid :: scheme :: tail := by
    rw [Nat.add_comm, ← hn]
    exact List.drop_left
  rw [hlen]
  simp only [pduSubmit, if_neg hfour, List.getElem?_cons_succ, List.getElem?_cons_zero,
    Option.bind_eq_bind, Option.bind_some, smsNumberBytelen_eq, List.drop_succ_cons,
    List.drop_zero, haddr, hskip, ne_eq, not_true_eq_false, if_false]
  by_cases hshort : tail.length < 2
  · rw [if_pos hshort, if_pos (by omega)]
    rfl
  · rw [if_neg hshort, if_neg (by omega)]
    by_cases hvpf : vpf = 0
    · have hrest : ((6 + (n.toNat + 1) / 2 + tail.length : ℕ) : ℤ) -
          (4 + ((n.toNat + 1) / 2 : ℕ)) - (2 : ℕ) = tail.length := by omega
      simp only [hvpf, not_true_eq_false, if_false, hrest]
      cases tpDcs scheme <;> rfl
    · have hrest : ((6 + (n.toNat + 1) / 2 + tail.length : ℕ) : ℤ) -
          (4 + ((n.toNat + 1) / 2 : ℕ)) - (3 : ℕ) = (tail.drop 1).length := by
        rw [List.length_drop]
        omega
      simp only [hvpf, not_false_eq_true, if_true, hrest]
      cases tpDcs scheme <;> rfl

theorem exists_submit {rest : Bytes} {i : ℕ} (h : i + 2 ≤ rest.length) :
    ∃ address pid scheme tail, rest = address ++ pid :: scheme :: tail ∧ address.length = i := by
  have hi : i < rest.length := by omega
  have hi' : i + 1 < rest.length := by omega
  refine ⟨rest.take i, rest[i], rest[i + 1], rest.drop (i + 2), ?_, ?_⟩
  · rw [List.getElem_cons_drop, List.getElem_cons_drop, List.take_append_drop]
  · rw [List.length_take]
    omega

theorem pduDeliver_rejects {first n type : UInt8} {rest : Bytes}
    (h : rest.length < 10 + (n.toNat + 1) / 2 ∨ gsmdAddrMaxlen < n.toNat) :
    pduDeliver dst (first :: n :: type :: rest) (first :: n :: type :: rest).length =
      some (1, dst) := by
  have hthree : ¬ ((first :: n :: type :: rest).length : ℤ) < 3 := by
    simp only [List.length_cons]
    omega
  simp only [pduDeliver, if_neg hthree, List.getElem?_cons_succ, List.getElem?_cons_zero,
    Option.bind_eq_bind, Option.bind_some, smsNumberBytelen_eq]
  by_cases hlen : ((first :: n :: type :: rest).length : ℤ) < 13 + ((n.toNat + 1) / 2 : ℕ)
  · rw [if_pos hlen]
    rfl
  · have hlong : gsmdAddrMaxlen < n.toNat := by
      refine h.resolve_left (fun hshort => hlen ?_)
      simp only [List.length_cons]
      omega
    rw [if_neg hlen, List.drop_succ_cons, List.drop_zero, smsAddress2ascii_long _ _ hlong]
    rfl

theorem pduSubmit_rejects {flags reference n type vpf : UInt8} {rest : Bytes}
    (h : rest.length < 4 + (n.toNat + 1) / 2 ∨ gsmdAddrMaxlen < n.toNat) :
    pduSubmit dst vpf (flags :: reference :: n :: type :: rest)
      (flags :: reference :: n :: type :: rest).length = some (1, dst) := by
  have hfour : ¬ ((flags :: reference :: n :: type :: rest).length : ℤ) < 4 := by
    simp only [List.length_cons]
    omega
  simp only [pduSubmit, if_neg hfour, List.getElem?_cons_succ, List.getElem?_cons_zero,
    Option.bind_eq_bind, Option.bind_some, smsNumberBytelen_eq]
  by_cases hlen : ((flags :: reference :: n :: type :: rest).length : ℤ) <
      8 + ((n.toNat + 1) / 2 : ℕ)
  · rw [if_pos hlen]
    rfl
  · have hlong : gsmdAddrMaxlen < n.toNat := by
      refine h.resolve_left (fun hshort => hlen ?_)
      simp only [List.length_cons]
      omega
    rw [if_neg hlen, List.drop_succ_cons, List.drop_succ_cons, List.drop_zero,
      smsAddress2ascii_long _ _ hlong]
    rfl

def addressRead (dst : GsmdSmsList) (type : UInt8) (number : Bytes) : GsmdAddr :=
  ⟨type, (dst.addr.number.store 0 number).store number.length [0]⟩

theorem pduDeliver_cases (dst : GsmdSmsList) (src : Bytes) :
    pduDeliver dst src src.length = some (1, dst) ∨
      ∃ first n type address pid scheme stamp body number,
        src = first :: n :: type :: (address ++ pid :: scheme :: (stamp ++ body)) ∧
        address.length = (n.toNat + 1) / 2 ∧ stamp.length = 7 ∧ 0 < body.length ∧
        number.length ≤ gsmdAddrMaxlen ∧
        pduDeliver dst src src.length =
          match tpDcs scheme with
          | none => some (1, deliverRead dst (addressRead dst type number) pid scheme)
          | some codingScheme => tpUserData
            { deliverRead dst (addressRead dst type number) pid scheme with
              timeStamp := dst.timeStamp.store 0 stamp
              payload :=
                { (deliverRead dst (addressRead dst type number) pid scheme).payload with
                  codingScheme := codingScheme } } body body.length := by
  match src with
  | [] | [_] | [_, _] => exact Or.inl rfl
  | first :: n :: type :: rest =>
    by_cases hbad : rest.length < 10 + (n.toNat + 1) / 2 ∨ gsmdAddrMaxlen < n.toNat
    · exact Or.inl (pduDeliver_rejects hbad)
    obtain ⟨hshort, hn⟩ := not_or.mp hbad
    obtain ⟨number, hlen, haddr⟩ := @smsAddress2ascii_reads dst.addr n type rest
      (not_lt.mp hn) (by omega)
    obtain ⟨address, pid, scheme, stamp, body, rfl, hi, hstamp, hbody⟩ :=
      @exists_deliver rest ((n.toNat + 1) / 2) (by omega)
    exact Or.inr ⟨first, n, type, address, pid, scheme, stamp, body, number, rfl, hi, hstamp, hbody,
      hlen, pduDeliver_eq haddr hi hstamp hbody⟩

theorem pduSubmit_cases (dst : GsmdSmsList) (vpf : UInt8) (src : Bytes) :
    pduSubmit dst vpf src src.length = some (1, dst) ∨
      ∃ flags reference n type address pid scheme tail number,
        src = flags :: reference :: n :: type :: (address ++ pid :: scheme :: tail) ∧
        address.length = (n.toNat + 1) / 2 ∧ 2 ≤ tail.length ∧ number.length ≤ gsmdAddrMaxlen ∧
        pduSubmit dst vpf src src.length =
          match tpDcs scheme with
          | none => some (1, { dst with addr := addressRead dst type number })
          | some codingScheme => tpUserData
            { dst with
              addr := addressRead dst type number
              timeStamp := dst.timeStamp.fill 0 7 0
              payload := { dst.payload with codingScheme := codingScheme } }
            (if vpf ≠ 0 then tail.drop 1 else tail)
            (if vpf ≠ 0 then tail.drop 1 else tail).length := by
  match src with
  | [] | [_] | [_, _] | [_, _, _] => exact Or.inl rfl
  | flags :: reference :: n :: type :: rest =>
    by_cases hbad : rest.length < 4 + (n.toNat + 1) / 2 ∨ gsmdAddrMaxlen < n.toNat
    · exact Or.inl (pduSubmit_rejects hbad)
    obtain ⟨hshort, hn⟩ := not_or.mp hbad
    obtain ⟨number, hlen, haddr⟩ := @smsAddress2ascii_reads dst.addr n type rest
      (not_lt.mp hn) (by omega)
    obtain ⟨address, pid, scheme, tail, rfl, hi⟩ :=
      @exists_submit rest ((n.toNat + 1) / 2) (by omega)
    have htail : 2 ≤ tail.length := by
      simp only [List.length_append, List.length_cons] at hshort
      omega
    have heq := @pduSubmit_eq dst flags reference n type pid scheme vpf address tail _ haddr hi
    rw [if_neg (not_lt.mpr htail)] at heq
    exact Or.inr ⟨flags, reference, n, type, address, pid, scheme, tail, number, rfl, hi, htail,
      hlen, heq⟩

/-- The sum of the first check runs over, so that nothing is rejected. -/
def WrapsAround (smsc : UInt8) (pdulen : ℤ) : Prop := 2 ^ 31 ≤ 1 + (smsc.toNat : ℤ) + pdulen

theorem bmod_sum {s : UInt8} {pdulen : ℤ} (hlow : 1 ≤ pdulen) (hhigh : pdulen < 2 ^ 31) {n : ℕ} :
    ¬ (n : ℤ) < Int.bmod (1 + s.toNat + pdulen) (2 ^ 32) ↔
      1 + s.toNat + pdulen ≤ n ∨ WrapsAround s pdulen := by
  have hs : s.toNat < 256 := s.toNat_lt
  rw [WrapsAround]
  rcases Int.lt_or_le (1 + (s.toNat : ℤ) + pdulen) (2 ^ 31) with hlt | hge
  · have hmod : Int.bmod (1 + s.toNat + pdulen) (2 ^ 32) = 1 + s.toNat + pdulen := by
      rw [Int.bmod_eq_of_le] <;> omega
    rw [hmod]
    omega
  · have hmod : Int.bmod (1 + s.toNat + pdulen) (2 ^ 32) = 1 + s.toNat + pdulen - 2 ^ 32 := by
      have hrest : (1 + (s.toNat : ℤ) + pdulen) % ((2 ^ 32 : ℕ) : ℤ) =
          1 + s.toNat + pdulen := by
        apply Int.emod_eq_of_lt <;> omega
      rw [Int.bmod_def, hrest, if_neg (by omega)]
      rfl
    rw [hmod]
    omega

def beforeType (dst : GsmdSmsList) (first : UInt8) : GsmdSmsList :=
  { dst with payload := { dst.payload with
      isVoicemail := 0
      hasHeader := if first &&& tpUdhiWithHeader ≠ 0 then 1 else 0 } }

def pduOfType (dst : GsmdSmsList) (first : UInt8) (src : Bytes) (len : ℤ) :
    Option (ℤ × GsmdSmsList) :=
  if first &&& 3 = tpMtiDeliver then pduDeliver dst src len
  else if first &&& 3 = tpMtiSubmit then pduSubmit dst ((first >>> 3) &&& 3) src len
  else if first &&& 3 = tpMtiStatusReport then pduStatusReport dst src len
  else some (1, dst)

theorem smsPduToMsg_cons (dst : GsmdSmsList) (smsc : UInt8) (rest : Bytes) (pdulen : ℤ) :
    smsPduToMsg dst (smsc :: rest) pdulen (smsc :: rest).length =
      if ((smsc :: rest).length : ℤ) < Int.bmod (1 + smsc.toNat + pdulen) (2 ^ 32) ∨ pdulen < 1 then
        some (1, dst)
      else
        match rest.drop smsc.toNat with
        | [] => none
        | first :: body =>
          pduOfType (beforeType dst first) first (first :: body) (first :: body).length := by
  have hone : ¬ ((smsc :: rest).length : ℤ) < 1 := by
    simp only [List.length_cons]
    omega
  have hskip : (smsc :: rest).drop (1 + smsc.toNat) = rest.drop smsc.toNat := by
    rw [Nat.add_comm]
    rfl
  simp only [smsPduToMsg, if_neg hone, List.getElem?_cons_zero, Option.bind_eq_bind,
    Option.bind_some, hskip]
  split_ifs with hbad
  · rfl
  cases hrest : rest.drop smsc.toNat with
  | nil => rfl
  | cons first body =>
    have hlen := congrArg List.length hrest
    rw [List.length_drop, List.length_cons] at hlen
    have hcount : ((smsc :: rest).length : ℤ) - (1 + smsc.toNat) = (first :: body).length := by
      simp only [List.length_cons]
      omega
    rw [hcount]
    rfl

theorem smsPduToMsg_passed {smsc first : UInt8} {rest body : Bytes} {pdulen : ℤ}
    (hlow : 1 ≤ pdulen) (hhigh : pdulen < 2 ^ 31)
    (hpass : 1 + smsc.toNat + pdulen ≤ (smsc :: rest).length ∨ WrapsAround smsc pdulen)
    (hrest : rest.drop smsc.toNat = first :: body) :
    smsPduToMsg dst (smsc :: rest) pdulen (smsc :: rest).length =
      pduOfType (beforeType dst first) first (first :: body) (first :: body).length := by
  rw [smsPduToMsg_cons, hrest,
    if_neg (not_or.mpr ⟨(bmod_sum hlow hhigh).mpr hpass, Int.not_lt.mpr hlow⟩)]

def exampleAddress : Bytes := [0x58, 0x92, 0x21, 0x43, 0x65, 0xf7]

def exampleStamp : Bytes := [0x70, 0x10, 0x12, 0x01, 0x00, 0x00, 0x00]

theorem exampleAddress_digits : (11 : UInt8).toNat ≤ 20 := by decide

theorem exampleAddress_length : exampleAddress.length = ((11 : UInt8).toNat + 1) / 2 := by decide

theorem exampleStamp_length : exampleStamp.length = 7 := by decide

theorem noSmsc_length : ([] : Bytes).length < 256 := by decide

end SystemTestSuite.GsmDaemon
