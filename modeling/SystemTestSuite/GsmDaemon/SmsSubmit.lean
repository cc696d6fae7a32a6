import SystemTestSuite.GsmDaemon.SmsRead

namespace SystemTestSuite.GsmDaemon

open Library

variable {src : GsmdSmsSubmit} {ds data rest : Bytes} {type scheme udl : UInt8}

def userData (src : GsmdSmsSubmit) : Bytes :=
  src.payload.data.slice 0 (smsDataBytelen src.payload.codingScheme src.payload.length)

structure Submittable (src : GsmdSmsSubmit) : Prop where
  number : ∃ ds, src.addr.number.string? 0 (gsmdAddrMaxlen + 1) = some ds ∧
    ∀ c ∈ ds, isDigit c = true
  type : src.addr.type &&& toaTonMask ≠ toaTonAlphanumeric
  scheme : src.payload.codingScheme = alphabetDefault ∨
    src.payload.codingScheme = alphabet8bit ∨ src.payload.codingScheme = alphabetUcs2
  room : smsDataBytelen src.payload.codingScheme src.payload.length ≤ gsmdSmsDataMaxlen

structure SameMessage (src : GsmdSmsSubmit) (msg : GsmdSmsList) : Prop where
  type : msg.addr.type = src.addr.type
  number : msg.addr.text = src.addr.text
  hasHeader : msg.payload.hasHeader = src.payload.hasHeader
  codingScheme : msg.payload.codingScheme = src.payload.codingScheme
  length : msg.payload.length = src.payload.length
  octets : msg.payload.data.slice 0
    (smsDataBytelen src.payload.codingScheme src.payload.length) = userData src

/-- The return value counts the octets, with `dest` NULL as well. -/
def WritesAll (src : GsmdSmsSubmit) : Prop :=
  (smsPduMakeSmssubmit true src).1.length = 2 * (smsPduMakeSmssubmit true src).2 ∧
    (smsPduMakeSmssubmit false src).2 = (smsPduMakeSmssubmit true src).2

def RoundTrips (src : GsmdSmsSubmit) : Prop :=
  ∃ pdu, hexOctets (smsPduMakeSmssubmit true src).1 = some pdu ∧
    ∀ dst, ∃ msg, smsPduToMsg dst pdu ((smsPduMakeSmssubmit true src).2 - 1)
      (smsPduMakeSmssubmit true src).2 = some (0, msg) ∧ SameMessage src msg

theorem userData_length (src : GsmdSmsSubmit) : (userData src).length =
    smsDataBytelen src.payload.codingScheme src.payload.length :=
  Memory.slice_length _ _ _

theorem smsPduMakeSmssubmit_eq (src : GsmdSmsSubmit) : smsPduMakeSmssubmit true src =
    (hexText (submitHeader src ++ userData src), (submitHeader src ++ userData src).length) := by
  rw [List.length_append, userData_length, hexText, List.flatMap_append]
  rfl

theorem writesAll (src : GsmdSmsSubmit) : WritesAll src := by
  constructor
  · rw [smsPduMakeSmssubmit_eq, hexText_length]
  · rfl

theorem addressDigit_semiOctets (hd : ∀ c ∈ ds, isDigit c = true) (n : UInt8) {i : ℕ}
    (hi : i < ds.length) :
    addressDigit (n :: type :: (semiOctets ds ++ rest)) i = some ds[i] := by
  have hhalf : i >>> 1 < (semiOctets ds).length := by
    rw [semiOctets_length, Nat.shiftRight_eq_div_pow]
    omega
  have hskip : 2 + i >>> 1 = i >>> 1 + 1 + 1 := by omega
  rw [addressDigit, hskip, List.getElem?_cons_succ, List.getElem?_cons_succ,
    List.getElem?_append_left hhalf]
  exact semiOctet_semiOctets hd hi

theorem smsAddress2ascii_digits (dst : GsmdAddr) (hd : ∀ c ∈ ds, isDigit c = true)
    (hlen : ds.length ≤ gsmdAddrMaxlen) (htype : type &&& toaTonMask ≠ toaTonAlphanumeric) :
    smsAddress2ascii dst (UInt8.ofNat ds.length :: type :: (semiOctets ds ++ rest)) =
      some (0, ⟨type, (dst.number.store 0 ds).store ds.length [0]⟩) := by
  have hn : (UInt8.ofNat ds.length).toNat = ds.length := by
    rw [UInt8.toNat_ofNat']
    exact Nat.mod_eq_of_lt (lt_of_le_of_lt hlen (by decide))
  have hdigits : (List.range ds.length).mapM
      (addressDigit (UInt8.ofNat ds.length :: type :: (semiOctets ds ++ rest))) = some ds :=
    mapM_range (fun i hi => addressDigit_semiOctets hd (UInt8.ofNat ds.length) hi)
  simp [smsAddress2ascii, hn, hlen, htype, hdigits]

theorem digits_text (number : Memory) (hd : ∀ c ∈ ds, isDigit c = true)
    (hlen : ds.length ≤ gsmdAddrMaxlen) :
    (GsmdAddr.mk type ((number.store 0 ds).store ds.length [0])).text = ds := by
  have hslice : ((number.store 0 ds).store ds.length [0]).slice 0 ds.length = ds := by
    rw [Memory.slice_store_before _ _ (by omega), Memory.slice_store_same]
  have hend : ((number.store 0 ds).store ds.length [0]) (0 + ds.length) = 0 := by
    simp [Memory.store]
  have hno : ∀ c ∈ ds, c ≠ 0 := by
    rintro c hc rfl
    exact absurd (hd 0 hc) (by decide)
  have hstring : ((number.store 0 ds).store ds.length [0]).string? 0 (gsmdAddrMaxlen + 1) =
      some ds := (Memory.string?_eq_some_iff _).mpr ⟨by omega, hslice, hno, hend⟩
  rw [GsmdAddr.text, Memory.text, hstring]
  rfl

theorem submitFlags_bits (src : GsmdSmsSubmit) :
    submitFlags src &&& 3 = tpMtiSubmit ∧ (submitFlags src >>> 3) &&& 3 = 0 ∧
      (submitFlags src &&& tpUdhiWithHeader ≠ 0 ↔ src.payload.hasHeader ≠ 0) := by
  by_cases hask : src.askDs = 0 <;> by_cases hheader : src.payload.hasHeader = 0 <;>
    simp only [submitFlags, hask, hheader, ne_eq, not_true_eq_false, not_false_eq_true, if_true,
      if_false] <;> decide

theorem submitPdu_eq (hds : src.addr.text = ds) : submitHeader src ++ userData src =
    0 :: submitFlags src :: 0 :: UInt8.ofNat ds.length :: src.addr.type ::
      (semiOctets ds ++
        (0 :: src.payload.codingScheme :: src.payload.length :: userData src)) := by
  simp [submitHeader, hds]

def readBack (dst : GsmdSmsList) (src : GsmdSmsSubmit) : GsmdSmsList :=
  { dst with
    addr := ⟨src.addr.type, (dst.addr.number.store 0 src.addr.text).store src.addr.text.length [0]⟩
    timeStamp := dst.timeStamp.fill 0 7 0
    payload := { dst.payload with
      isVoicemail := 0
      hasHeader := if src.payload.hasHeader ≠ 0 then 1 else 0
      codingScheme := src.payload.codingScheme
      length := src.payload.length
      data := (dst.payload.data.store 0 (userData src)).store (userData src).length [0] } }

theorem userData_eq_nil (h : Submittable src) : userData src = [] ↔ src.payload.length = 0 := by
  rw [← List.length_eq_zero_iff, userData_length, ← UInt8.toNat_inj, UInt8.toNat_zero]
  rcases h.scheme with hs | hs | hs
  · rw [hs, smsDataBytelen, if_pos rfl, Nat.shiftRight_eq_div_pow]
    omega
  · rw [hs]
    exact Iff.rfl
  · rw [hs]
    change src.payload.length.toNat * 2 = 0 ↔ _
    omega

theorem Submittable.digits (h : Submittable src) : (∀ c ∈ src.addr.text, isDigit c = true) ∧
    src.addr.text.length ≤ gsmdAddrMaxlen := by
  obtain ⟨ds, hnumber, hd⟩ := h.number
  have htext : src.addr.text = ds := by
    rw [GsmdAddr.text, Memory.text, hnumber]
    rfl
  rw [htext]
  exact ⟨hd, Nat.le_of_lt_succ ((Memory.string?_eq_some_iff _).mp hnumber).1⟩

theorem smsPduToMsg_written (h : Submittable src) (dst : GsmdSmsList) :
    smsPduToMsg dst (submitHeader src ++ userData src)
        ((smsPduMakeSmssubmit true src).2 - 1) (smsPduMakeSmssubmit true src).2 =
      if userData src = [] then some (1, beforeType dst (submitFlags src))
      else match tpDcs src.payload.codingScheme with
        | none => some (1, { beforeType dst (submitFlags src) with addr := (readBack dst src).addr })
        | some codingScheme => tpUserData { beforeType dst (submitFlags src) with
            addr := (readBack dst src).addr
            timeStamp := dst.timeStamp.fill 0 7 0
            payload := { (beforeType dst (submitFlags src)).payload with
              codingScheme := codingScheme } }
          (src.payload.length :: userData src) (src.payload.length :: userData src).length := by
  obtain ⟨hd, hlen⟩ := h.digits
  obtain ⟨hmti, hvpf, -⟩ := submitFlags_bits src
  have hsemi := semiOctets_length src.addr.text
  have hroom : (userData src).length ≤ gsmdSmsDataMaxlen := (userData_length src).trans_le h.room
  have haddr := @smsAddress2ascii_digits src.addr.text
    (0 :: src.payload.codingScheme :: src.payload.length :: userData src) src.addr.type
    (beforeType dst (submitFlags src)).addr hd hlen h.type
  rw [gsmdAddrMaxlen] at hlen
  rw [gsmdSmsDataMaxlen] at hroom
  have hn : (UInt8.ofNat src.addr.text.length).toNat = src.addr.text.length := by
    rw [UInt8.toNat_ofNat']
    exact Nat.mod_eq_of_lt (by omega)
  have hret : (smsPduMakeSmssubmit true src).2 = (submitHeader src ++ userData src).length := by
    rw [smsPduMakeSmssubmit_eq]
  have hcount : (submitHeader src ++ userData src).length =
      8 + (semiOctets src.addr.text).length + (userData src).length := by
    rw [submitPdu_eq rfl]
    simp only [List.length_cons, List.length_append]
    omega
  have htype : pduOfType (beforeType dst (submitFlags src)) (submitFlags src) =
      pduSubmit (beforeType dst (submitFlags src)) 0 := by
    funext body len
    rw [pduOfType, hmti, hvpf]
    rfl
  have hshort : (src.payload.length :: userData src).length < 2 ↔ userData src = [] := by
    rw [List.length_cons, ← List.length_eq_zero_iff]
    omega
  rw [hret, submitPdu_eq rfl, smsPduToMsg_passed (by rw [← submitPdu_eq rfl]; omega)
    (by rw [← submitPdu_eq rfl]; omega)
    (Or.inl (by rw [← submitPdu_eq rfl]; simp)) rfl, htype,
    pduSubmit_eq haddr (by rw [hsemi, hn]), if_congr hshort rfl rfl]
  rfl

theorem smsPduToMsg_reads (h : Submittable src) (dst : GsmdSmsList)
    (hscheme : src.payload.codingScheme ≠ alphabetUcs2) (hlength : src.payload.length ≠ 0) :
    smsPduToMsg dst (submitHeader src ++ userData src)
        ((smsPduMakeSmssubmit true src).2 - 1) (smsPduMakeSmssubmit true src).2 =
      some (0, readBack dst src) := by
  have hdcs : tpDcs src.payload.codingScheme = some src.payload.codingScheme := by
    rcases h.scheme with hs | hs | hs
    · rw [hs]; decide
    · rw [hs]; decide
    · exact absurd hs hscheme
  have hheader : (beforeType dst (submitFlags src)).payload.hasHeader =
      if src.payload.hasHeader ≠ 0 then 1 else 0 :=
    if_congr (submitFlags_bits src).2.2 rfl rfl
  rw [smsPduToMsg_written h, if_neg (mt (userData_eq_nil h).mp hlength), hdcs]
  simp only [hheader]
  exact tpUserData_octets _ (userData_length src).symm ((userData_length src).trans_le h.room)

theorem smsPduToMsg_rejects (h : Submittable src) (dst : GsmdSmsList)
    (hbad : src.payload.codingScheme = alphabetUcs2 ∨ src.payload.length = 0) :
    ∃ msg, smsPduToMsg dst (submitHeader src ++ userData src)
        ((smsPduMakeSmssubmit true src).2 - 1) (smsPduMakeSmssubmit true src).2 =
      some (1, msg) := by
  rw [smsPduToMsg_written h]
  by_cases hnil : userData src = []
  · exact ⟨_, if_pos hnil⟩
  · have hdcs : tpDcs src.payload.codingScheme = none := by
      rcases hbad with hs | hl
      · rw [hs]; decide
      · exact absurd ((userData_eq_nil h).mpr hl) hnil
    rw [if_neg hnil, hdcs]
    exact ⟨_, rfl⟩

theorem sameMessage_readBack (h : Submittable src) (dst : GsmdSmsList) :
    SameMessage src (readBack dst src) ↔
      (if src.payload.hasHeader ≠ 0 then 1 else 0) = src.payload.hasHeader := by
  obtain ⟨hd, hlen⟩ := h.digits
  refine ⟨fun hsame => hsame.hasHeader, fun hheader => ?_⟩
  exact
    { type := rfl
      number := digits_text _ hd hlen
      hasHeader := hheader
      codingScheme := rfl
      length := rfl
      octets := by
        rw [← userData_length]
        exact (Memory.slice_store_before _ _ (by omega)).trans (Memory.slice_store_same _ _ _) }

theorem roundTrips_iff_reads (src : GsmdSmsSubmit) : RoundTrips src ↔ ∀ dst, ∃ msg,
    smsPduToMsg dst (submitHeader src ++ userData src) ((smsPduMakeSmssubmit true src).2 - 1)
      (smsPduMakeSmssubmit true src).2 = some (0, msg) ∧ SameMessage src msg := by
  have hread : hexOctets (smsPduMakeSmssubmit true src).1 =
      some (submitHeader src ++ userData src) := by
    rw [smsPduMakeSmssubmit_eq, hexOctets_hexText]
  simp only [RoundTrips, hread, Option.some.injEq, exists_eq_left']

theorem header_kept (n : ℤ) : (if n ≠ 0 then 1 else 0) = n ↔ n = 0 ∨ n = 1 := by
  split_ifs with h
  · rw [eq_comm, or_iff_right h]
  · simp [not_not.mp h]

theorem not_roundTrips (h : Submittable src)
    (hbad : src.payload.codingScheme = alphabetUcs2 ∨ src.payload.length = 0) :
    ¬ RoundTrips src := by
  rw [roundTrips_iff_reads]
  intro hall
  obtain ⟨msg, hread, -⟩ := hall blankSmsList
  obtain ⟨msg', hreject⟩ := smsPduToMsg_rejects h blankSmsList hbad
  rw [hreject] at hread
  simp at hread

theorem roundTrips_iff (h : Submittable src) :
    WritesAll src ∧ RoundTrips src ↔ src.payload.codingScheme ≠ alphabetUcs2 ∧
      src.payload.length ≠ 0 ∧ (src.payload.hasHeader = 0 ∨ src.payload.hasHeader = 1) := by
  rw [and_iff_right (writesAll src)]
  by_cases hgood : src.payload.codingScheme ≠ alphabetUcs2 ∧ src.payload.length ≠ 0
  · have hreads := fun dst => smsPduToMsg_reads h dst hgood.1 hgood.2
    have hsame := fun dst => (sameMessage_readBack h dst).trans (header_kept _)
    rw [← and_assoc, and_iff_right hgood, roundTrips_iff_reads]
    constructor
    · intro hall
      obtain ⟨msg, hread, hmsg⟩ := hall blankSmsList
      rw [hreads] at hread
      obtain rfl : _ = msg := congrArg Prod.snd (Option.some.inj hread)
      exact (hsame _).mp hmsg
    · exact fun hheader dst => ⟨_, hreads dst, (hsame dst).mpr hheader⟩
  · have hbad : src.payload.codingScheme = alphabetUcs2 ∨ src.payload.length = 0 := by
      by_contra hnot
      exact hgood ⟨fun hs => hnot (Or.inl hs), fun hl => hnot (Or.inr hl)⟩
    exact iff_of_false (not_roundTrips h hbad) (fun hall => hgood ⟨hall.1, hall.2.1⟩)

def textMessage (number text : Bytes) (scheme length : UInt8) : GsmdSmsSubmit :=
  { addr := ⟨0x91, Memory.zero.store 0 number⟩
    payload :=
      { length := length
        codingScheme := scheme
        hasHeader := 0
        isVoicemail := 0
        dcs := smsPduDecodeDcs 0
        data := Memory.zero.store 0 text }
    askDs := 0 }

theorem submittable_textMessage {number text : Bytes} {length : UInt8}
    (hnumber : (cstr number).length < gsmdAddrMaxlen + 1) (hd : (cstr number).all isDigit = true)
    (hscheme : scheme = alphabetDefault ∨ scheme = alphabet8bit ∨ scheme = alphabetUcs2)
    (hroom : smsDataBytelen scheme length ≤ gsmdSmsDataMaxlen) :
    Submittable (textMessage number text scheme length) where
  number := ⟨cstr number, by
    rw [textMessage, string?_store_zero, if_pos hnumber], List.all_eq_true.mp hd⟩
  type := by
    change (0x91 : UInt8) &&& toaTonMask ≠ toaTonAlphanumeric
    decide
  scheme := hscheme
  room := hroom

theorem roundTrips_iff_text :
    let src := textMessage (ascii "447700900123") (ascii "Hi") alphabet8bit 2
    WritesAll src ∧ RoundTrips src :=
  (roundTrips_iff (submittable_textMessage (by decide) (by decide) (by decide)
    (by decide))).mpr (by decide)

theorem roundTrips_fails :
    let ucs2 := textMessage (ascii "447700900123") [0x30, 0x42] alphabetUcs2 1
    let empty := textMessage (ascii "447700900123") [] alphabetDefault 0
    (Submittable ucs2 ∧ ¬ RoundTrips ucs2) ∧ (Submittable empty ∧ ¬ RoundTrips empty) := by
  have hucs2 : Submittable (textMessage (ascii "447700900123") [0x30, 0x42] alphabetUcs2 1) :=
    submittable_textMessage (by decide) (by decide) (by decide) (by decide)
  have hempty : Submittable (textMessage (ascii "447700900123") [] alphabetDefault 0) :=
    submittable_textMessage (by decide) (by decide) (by decide) (by decide)
  exact ⟨⟨hucs2, not_roundTrips hucs2 (Or.inl rfl)⟩, ⟨hempty, not_roundTrips hempty (Or.inr rfl)⟩⟩

end SystemTestSuite.GsmDaemon
