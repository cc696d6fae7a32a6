import SystemTestSuite.GsmDaemon.SmsRead

namespace SystemTestSuite.GsmDaemon

open Library

variable {dst msg msg' : GsmdSmsList} {src : Bytes} {r : Option (ℤ × GsmdSmsList)}

structure WritesInside (dst msg : GsmdSmsList) : Prop where
  number : ∀ i, gsmdAddrMaxlen < i → msg.addr.number i = dst.addr.number i
  data : ∀ i, gsmdSmsDataMaxlen < i → msg.payload.data i = dst.payload.data i
  timeStamp : ∀ i, 7 ≤ i → msg.timeStamp i = dst.timeStamp i

def StaysInside (dst : GsmdSmsList) (r : Option (ℤ × GsmdSmsList)) : Prop :=
  ∃ ret msg, r = some (ret, msg) ∧ WritesInside dst msg

theorem WritesInside.trans (h : WritesInside dst msg) (h' : WritesInside msg msg') :
    WritesInside dst msg' where
  number i hi := (h'.number i hi).trans (h.number i hi)
  data i hi := (h'.data i hi).trans (h.data i hi)
  timeStamp i hi := (h'.timeStamp i hi).trans (h.timeStamp i hi)

theorem WritesInside.staysInside (h : WritesInside dst msg) (h' : StaysInside msg r) :
    StaysInside dst r := by
  obtain ⟨ret, msg', hr, hin⟩ := h'
  exact ⟨ret, msg', hr, h.trans hin⟩

theorem staysInside_same {ret : ℤ} (hn : msg.addr.number = dst.addr.number)
    (hd : msg.payload.data = dst.payload.data) (ht : msg.timeStamp = dst.timeStamp) :
    StaysInside dst (some (ret, msg)) :=
  ⟨ret, msg, rfl, fun i _ => congrFun hn i, fun i _ => congrFun hd i, fun i _ => congrFun ht i⟩

theorem store_text_behind (m : Memory) {text : Bytes} {size i : ℕ} (ht : text.length ≤ size)
    (hi : size < i) : ((m.store 0 text).store text.length [0]) i = m i := by
  rw [Memory.store_behind _ _ (by rw [List.length_singleton]; omega),
    Memory.store_behind _ _ (by omega)]

theorem tpUserData_inside (dst : GsmdSmsList) (hpos : 0 < src.length) :
    StaysInside dst (tpUserData dst src src.length) := by
  cases src with
  | nil => exact absurd hpos (by simp)
  | cons udl rest =>
    simp only [tpUserData, List.getElem?_cons_zero, Option.bind_eq_bind, Option.bind_some]
    split_ifs with hbad
    · exact staysInside_same rfl rfl rfl
    · obtain ⟨hlen, hmax⟩ := not_or.mp hbad
      obtain ⟨data, hdata, hcount⟩ := @readOctets_some (udl :: rest) 1
        (smsDataBytelen dst.payload.codingScheme udl) (by omega)
      rw [hdata]
      refine ⟨0, _, rfl, fun i _ => rfl, fun i hi => ?_, fun i _ => rfl⟩
      rw [← hcount]
      exact store_text_behind _ (by omega) hi

theorem writesInside_number {number : Bytes} {type : UInt8} {addr : GsmdAddr}
    (hlen : number.length ≤ gsmdAddrMaxlen)
    (haddr : addr = ⟨type, (dst.addr.number.store 0 number).store number.length [0]⟩)
    (hmsg : msg.addr = addr) (hd : msg.payload.data = dst.payload.data)
    (ht : ∀ i, 7 ≤ i → msg.timeStamp i = dst.timeStamp i) : WritesInside dst msg where
  number i hi := by
    rw [hmsg, haddr]
    exact store_text_behind _ hlen hi
  data i _ := by rw [hd]
  timeStamp := ht

theorem pduDeliver_inside (dst : GsmdSmsList) (src : Bytes) :
    StaysInside dst (pduDeliver dst src src.length) := by
  rcases pduDeliver_cases dst src with hreject | ⟨first, n, type, address, pid, scheme, stamp, body,
    number, -, -, hstamp, hbody, hlen, hread⟩
  · rw [hreject]
    exact staysInside_same rfl rfl rfl
  have hstore : ∀ i, 7 ≤ i → dst.timeStamp.store 0 stamp i = dst.timeStamp i :=
    fun i hi => Memory.store_behind _ _ (by omega)
  rw [hread]
  cases tpDcs scheme with
  | none => exact ⟨1, _, rfl, writesInside_number hlen rfl rfl rfl (fun i _ => rfl)⟩
  | some codingScheme =>
    refine WritesInside.staysInside ?_ (tpUserData_inside _ hbody)
    exact writesInside_number hlen rfl rfl rfl hstore

theorem pduSubmit_inside (dst : GsmdSmsList) (vpf : UInt8) (src : Bytes) :
    StaysInside dst (pduSubmit dst vpf src src.length) := by
  rcases pduSubmit_cases dst vpf src with hreject | ⟨flags, reference, n, type, address, pid, scheme,
    tail, number, -, -, htail, hlen, hread⟩
  · rw [hreject]
    exact staysInside_same rfl rfl rfl
  have hbody : 0 < (if vpf ≠ 0 then tail.drop 1 else tail).length := by
    split_ifs
    · rw [List.length_drop]
      omega
    · omega
  have hfill : ∀ i, 7 ≤ i → dst.timeStamp.fill 0 7 0 i = dst.timeStamp i :=
    fun i hi => if_neg (by omega)
  rw [hread]
  cases tpDcs scheme with
  | none => exact ⟨1, _, rfl, writesInside_number hlen rfl rfl rfl (fun i _ => rfl)⟩
  | some codingScheme =>
    refine WritesInside.staysInside ?_ (tpUserData_inside _ hbody)
    exact writesInside_number hlen rfl rfl rfl hfill

theorem pduStatusReport_inside (dst : GsmdSmsList) (src : Bytes) :
    StaysInside dst (pduStatusReport dst src src.length) ↔ src.length ≠ 3 := by
  match src with
  | [] | [_] | [_, _] => exact iff_of_true (staysInside_same rfl rfl rfl) (by simp)
  | [_, _, _] =>
    refine iff_of_false ?_ (by simp)
    rintro ⟨ret, msg, hr, -⟩
    cases hr
  | first :: reference :: n :: type :: rest =>
    refine iff_of_true ?_ (by simp)
    have hthree : ¬ ((first :: reference :: n :: type :: rest).length : ℤ) < 3 := by
      simp only [List.length_cons]
      omega
    have hlast : (((first :: reference :: n :: type :: rest).length : ℤ) - 1).toNat <
        (first :: reference :: n :: type :: rest).length := by
      simp only [List.length_cons]
      omega
    simp only [pduStatusReport, if_neg hthree, List.getElem?_eq_getElem hlast,
      List.getElem?_cons_succ, List.getElem?_cons_zero, Option.bind_eq_bind, Option.bind_some,
      smsNumberBytelen_eq, List.drop_succ_cons, List.drop_zero]
    split_ifs with hshort
    · exact staysInside_same rfl rfl rfl
    by_cases hn : gsmdAddrMaxlen < n.toNat
    · rw [smsAddress2ascii_long _ _ hn]
      exact staysInside_same rfl rfl rfl
    simp only [List.length_cons] at hshort
    obtain ⟨number, hlen, haddr⟩ := @smsAddress2ascii_reads dst.addr n type rest
      (not_lt.mp hn) (by omega)
    obtain ⟨stamp, hstamp, hseven⟩ := @readOctets_some
      ((first :: reference :: n :: type :: rest).drop (4 + (n.toNat + 1) / 2)) 0 7 (by
        rw [List.length_drop]
        simp only [List.length_cons]
        omega)
    rw [haddr, Option.bind_some, if_neg (by simp), hstamp]
    refine ⟨0, _, rfl, fun i hi => ?_, fun i hi => ?_, fun i hi => ?_⟩
    · exact store_text_behind _ hlen hi
    · exact Memory.store_behind dst.payload.data [0] (Nat.succ_le_of_lt (Nat.zero_lt_of_lt hi))
    · have hbehind : 0 + stamp.length ≤ i := by omega
      exact Memory.store_behind dst.timeStamp stamp hbehind

def PassesLengthCheck (src : Bytes) (pdulen : ℤ) : Prop :=
  ∃ smsc ∈ src.head?, 1 ≤ pdulen ∧
    (1 + smsc.toNat + pdulen ≤ src.length ∨ WrapsAround smsc pdulen)

def TooShort (src : Bytes) : Prop :=
  ∃ smsc ∈ src.head?, src.length ≤ 1 + smsc.toNat ∨
    src.length = 1 + smsc.toNat + 3 ∧
      ∃ first ∈ src[1 + smsc.toNat]?, first &&& 3 = tpMtiStatusReport

theorem staysInside_congr {d d' : GsmdSmsList} (hn : d.addr.number = d'.addr.number)
    (hd : d.payload.data = d'.payload.data) (ht : d.timeStamp = d'.timeStamp) :
    StaysInside d r ↔ StaysInside d' r := by
  constructor
  · rintro ⟨ret, msg, hr, h⟩
    exact ⟨ret, msg, hr, hn ▸ h.number, hd ▸ h.data, ht ▸ h.timeStamp⟩
  · rintro ⟨ret, msg, hr, h⟩
    exact ⟨ret, msg, hr, hn ▸ h.number, hd ▸ h.data, ht ▸ h.timeStamp⟩

theorem pduOfType_inside (dst : GsmdSmsList) (first : UInt8) (src : Bytes) :
    StaysInside dst (pduOfType dst first src src.length) ↔
      ¬ (first &&& 3 = tpMtiStatusReport ∧ src.length = 3) := by
  rw [pduOfType]
  split_ifs with hdeliver hsubmit hreport
  · refine iff_of_true (pduDeliver_inside _ _) (fun h => ?_)
    exact absurd (hdeliver.symm.trans h.1) (by decide)
  · refine iff_of_true (pduSubmit_inside _ _ _) (fun h => ?_)
    exact absurd (hsubmit.symm.trans h.1) (by decide)
  · rw [pduStatusReport_inside, and_iff_right hreport]
  · exact iff_of_true (staysInside_same rfl rfl rfl) (fun h => hreport h.1)

theorem passesLengthCheck_cons {smsc : UInt8} {rest : Bytes} {pdulen : ℤ} :
    PassesLengthCheck (smsc :: rest) pdulen ↔ 1 ≤ pdulen ∧
      (1 + smsc.toNat + pdulen ≤ (smsc :: rest).length ∨ WrapsAround smsc pdulen) := by
  simp [PassesLengthCheck]

theorem tooShort_of_nil {smsc : UInt8} {rest : Bytes} (h : rest.drop smsc.toNat = []) :
    TooShort (smsc :: rest) := by
  refine ⟨smsc, rfl, Or.inl ?_⟩
  rw [List.drop_eq_nil_iff] at h
  rw [List.length_cons]
  omega

theorem tooShort_of_cons {smsc first : UInt8} {rest body : Bytes}
    (h : rest.drop smsc.toNat = first :: body) :
    TooShort (smsc :: rest) ↔
      first &&& 3 = tpMtiStatusReport ∧ (first :: body).length = 3 := by
  have hlen := congrArg List.length h
  rw [List.length_drop] at hlen
  have hlen' : (smsc :: rest).length = 1 + smsc.toNat + (first :: body).length := by
    rw [List.length_cons] at hlen
    simp only [List.length_cons]
    omega
  have hfirst : (smsc :: rest)[1 + smsc.toNat]? = some first := by
    rw [Nat.add_comm, List.getElem?_cons_succ, ← Nat.add_zero smsc.toNat, ← List.getElem?_drop, h]
    rfl
  simp only [TooShort, List.head?_cons, Option.mem_some_iff, exists_eq_left', hlen', hfirst]
  constructor
  · rintro (hle | ⟨hthree, htype⟩)
    · rw [List.length_cons] at hle
      omega
    · exact ⟨htype, by omega⟩
  · rintro ⟨htype, hthree⟩
    exact Or.inr ⟨by omega, htype⟩

theorem smsPduToMsg_inside {pdulen : ℤ} (hhigh : pdulen < 2 ^ 31) :
    StaysInside dst (smsPduToMsg dst src pdulen src.length) ↔
      ¬ (PassesLengthCheck src pdulen ∧ TooShort src) := by
  cases src with
  | nil =>
    refine iff_of_true (staysInside_same rfl rfl rfl) ?_
    rintro ⟨⟨smsc, hsmsc, -⟩, -⟩
    cases hsmsc
  | cons smsc rest =>
    rw [smsPduToMsg_cons]
    by_cases hcheck : PassesLengthCheck (smsc :: rest) pdulen
    · obtain ⟨hone, hpass⟩ := passesLengthCheck_cons.mp hcheck
      rw [and_iff_right hcheck,
        if_neg (not_or.mpr ⟨(bmod_sum hone hhigh).mpr hpass, Int.not_lt.mpr hone⟩)]
      cases hrest : rest.drop smsc.toNat with
      | nil =>
        refine iff_of_false ?_ (not_not_intro (tooShort_of_nil hrest))
        rintro ⟨ret, msg, hr, -⟩
        cases hr
      | cons first body =>
        rw [tooShort_of_cons hrest, ← pduOfType_inside (beforeType dst first)]
        exact staysInside_congr rfl rfl rfl
    · refine iff_of_true ?_ (fun h => hcheck h.1)
      rw [if_pos]
      · exact staysInside_same rfl rfl rfl
      · by_contra hnot
        obtain ⟨hsum, hone⟩ := not_or.mp hnot
        exact hcheck (passesLengthCheck_cons.mpr
          ⟨Int.not_lt.mp hone, (bmod_sum (Int.not_lt.mp hone) hhigh).mp hsum⟩)

theorem smsPduToMsg_inside_hi :
    StaysInside blankSmsList (smsPduToMsg blankSmsList
      [0x07, 0x91, 0x58, 0x92, 0x00, 0x00, 0x00, 0xf0, 0x04, 0x0b, 0x91, 0x58, 0x92, 0x21, 0x43, 0x65,
        0xf7, 0x00, 0x00, 0x70, 0x10, 0x12, 0x01, 0x00, 0x00, 0x00, 0x02, 0xc8, 0x34] 21 29) :=
  (smsPduToMsg_inside (by decide)).mpr (fun h => by simpa [TooShort] using h.2)

theorem not_staysInside (h : r.isNone = true) : ¬ StaysInside dst r := by
  rintro ⟨ret, msg, rfl, -⟩
  cases h

/-- A status report of three octets, and a length that runs over. -/
theorem smsPduToMsg_overreads :
    ¬ StaysInside blankSmsList (smsPduToMsg blankSmsList [0x00, 0x02, 0x00, 0x00] 3 4) ∧
      ¬ StaysInside blankSmsList (smsPduToMsg blankSmsList [0xff] 2147483647 1) :=
  ⟨not_staysInside (by decide), not_staysInside (by decide)⟩

end SystemTestSuite.GsmDaemon
