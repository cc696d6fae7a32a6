import SystemTestSuite.GsmDaemon.SmsRead

namespace SystemTestSuite.GsmDaemon

open Library

inductive Alphabet
  | default
  | eightBit
  | ucs2
  deriving DecidableEq, Repr

def Alphabet.octets : Alphabet → ℕ → ℕ
  | .default, udl => (7 * udl + 7) / 8
  | .eightBit, udl => udl
  | .ucs2, udl => udl

def Alphabet.codingScheme : Alphabet → UInt8
  | .default => alphabetDefault
  | .eightBit => alphabet8bit
  | .ucs2 => alphabetUcs2

def Alphabet.dcsAlphabet : Alphabet → UInt8
  | .default => smsAlphabet7bitDefault
  | .eightBit => smsAlphabet8bit
  | .ucs2 => smsAlphabetUcs2

/-- A reserved alphabet is read as the default one. -/
def tpAlphabet (scheme : UInt8) : Alphabet :=
  if scheme >>> 6 = 0 then
    if (scheme >>> 2) &&& 3 = 1 then .eightBit
    else if (scheme >>> 2) &&& 3 = 2 then .ucs2
    else .default
  else if scheme >>> 4 = 0xe then .ucs2
  else if scheme >>> 4 = 0xf ∧ scheme &&& 4 ≠ 0 then .eightBit
  else .default

/-- The groups 00xx without compression, 1100, 1101, 1110 and 1111. -/
def HandledGroup (scheme : UInt8) : Prop := scheme >>> 4 ≤ 1 ∨ scheme >>> 4 ≥ 0xc

instance (scheme : UInt8) : Decidable (HandledGroup scheme) :=
  inferInstanceAs (Decidable (_ ∨ _))

structure DeliverPdu where
  smsc : Bytes
  first : UInt8
  digits : UInt8
  type : UInt8
  address : Bytes
  pid : UInt8
  scheme : UInt8
  stamp : Bytes
  udl : UInt8
  ud : Bytes
  smsc_length : smsc.length < 256
  mti : first &&& 3 = tpMtiDeliver
  digits_le : digits.toNat ≤ 20
  address_length : address.length = (digits.toNat + 1) / 2
  handled : HandledGroup scheme
  stamp_length : stamp.length = 7
  ud_length : ud.length = (tpAlphabet scheme).octets udl.toNat
  ud_le : ud.length ≤ 140

namespace DeliverPdu

variable {m : DeliverPdu} {dst : GsmdSmsList}

def tpdu (m : DeliverPdu) : Bytes :=
  m.first :: m.digits :: m.type ::
    (m.address ++ m.pid :: m.scheme :: (m.stamp ++ m.udl :: m.ud))

def octets (m : DeliverPdu) : Bytes := UInt8.ofNat m.smsc.length :: (m.smsc ++ m.tpdu)

structure Decoded (m : DeliverPdu) (msg : GsmdSmsList) : Prop where
  length : msg.payload.length = m.udl
  data : msg.payload.data.slice 0 m.ud.length = m.ud
  alphabet : ∃ a : Alphabet, msg.payload.codingScheme = a.codingScheme ∧
    msg.payload.dcs.alphabet = a.dcsAlphabet

def Decodes (dst : GsmdSmsList) (m : DeliverPdu) : Prop :=
  ∃ msg, smsPduToMsg dst m.octets m.tpdu.length m.octets.length = some (0, msg) ∧ Decoded m msg

end DeliverPdu

def SchemesAgree (scheme : UInt8) : Prop :=
  (scheme >>> 4 ≤ 1 → scheme &&& 8 = 0) ∧ (scheme >>> 4 = 0xc → scheme &&& 0xc = 0)

instance (scheme : UInt8) : Decidable (SchemesAgree scheme) :=
  inferInstanceAs (Decidable (_ ∧ _))

theorem tpDcs_table : ∀ n < 256, HandledGroup (UInt8.ofNat n) →
    (tpDcs (UInt8.ofNat n)).isSome = true ∧
      (smsPduDecodeDcs (UInt8.ofNat n)).alphabet = (tpAlphabet (UInt8.ofNat n)).dcsAlphabet ∧
      (tpDcs (UInt8.ofNat n) = some (tpAlphabet (UInt8.ofNat n)).codingScheme ↔
        SchemesAgree (UInt8.ofNat n)) := by
  decide +kernel

theorem dcsAlphabet_injective : Function.Injective Alphabet.dcsAlphabet := by
  rintro (_ | _ | _) (_ | _ | _) h <;> first | rfl | exact absurd h (by decide)

theorem tpDcs_handled {scheme : UInt8} (h : HandledGroup scheme) :
    ∃ codingScheme, tpDcs scheme = some codingScheme ∧
      ((∃ a : Alphabet, codingScheme = a.codingScheme ∧
        (smsPduDecodeDcs scheme).alphabet = a.dcsAlphabet) ↔ SchemesAgree scheme) ∧
      (SchemesAgree scheme → codingScheme = (tpAlphabet scheme).codingScheme) := by
  obtain ⟨hsome, halphabet, hagree⟩ :=
    tpDcs_table scheme.toNat scheme.toNat_lt (by rwa [UInt8.ofNat_toNat])
  rw [UInt8.ofNat_toNat] at hsome halphabet hagree
  obtain ⟨codingScheme, hc⟩ := Option.isSome_iff_exists.mp hsome
  rw [hc, Option.some_inj] at hagree
  refine ⟨codingScheme, hc, ?_, hagree.mpr⟩
  rw [← hagree, halphabet]
  constructor
  · rintro ⟨a, ha, hd⟩
    rw [ha, dcsAlphabet_injective hd]
  · exact fun ha => ⟨_, ha, rfl⟩

theorem tpUserData_short {udl : UInt8} {ud : Bytes} (dst : GsmdSmsList)
    (h : ud.length < smsDataBytelen dst.payload.codingScheme udl) :
    ∃ msg, tpUserData dst (udl :: ud) (udl :: ud).length = some (1, msg) := by
  have hlen : ((udl :: ud).length : ℤ) < 1 + smsDataBytelen dst.payload.codingScheme udl := by
    rw [List.length_cons]
    omega
  simp only [tpUserData, List.getElem?_cons_zero, Option.bind_eq_bind, Option.bind_some,
    if_pos (Or.inl hlen)]
  exact ⟨_, rfl⟩

theorem tpUserData_keeps {d msg : GsmdSmsList} {udl : UInt8} {ud : Bytes} {len ret : ℤ}
    (h : tpUserData d (udl :: ud) len = some (ret, msg)) :
    msg.payload.codingScheme = d.payload.codingScheme ∧ msg.payload.dcs = d.payload.dcs := by
  simp only [tpUserData, List.getElem?_cons_zero, Option.bind_eq_bind, Option.bind_some] at h
  split_ifs at h with hbad
  · obtain rfl : _ = msg := congrArg Prod.snd (Option.some.inj h)
    exact ⟨rfl, rfl⟩
  · obtain ⟨data, hdata, hmsg⟩ := Option.bind_eq_some_iff.mp h
    obtain rfl : _ = msg := congrArg Prod.snd (Option.some.inj hmsg)
    exact ⟨rfl, rfl⟩

theorem smsDataBytelen_alphabet (a : Alphabet) (udl : UInt8) :
    smsDataBytelen a.codingScheme udl =
      if a = .ucs2 then 2 * udl.toNat else a.octets udl.toNat := by
  cases a with
  | default =>
    rw [if_neg (by decide), Alphabet.codingScheme, smsDataBytelen, if_pos rfl,
      Nat.shiftRight_eq_div_pow, Nat.mul_comm]
    rfl
  | eightBit => rfl
  | ucs2 => exact Nat.mul_comm _ _

namespace DeliverPdu

variable {m : DeliverPdu} {dst : GsmdSmsList}

theorem decode_eq (dst : GsmdSmsList) (m : DeliverPdu) : ∃ d,
    d.payload.dcs = smsPduDecodeDcs m.scheme ∧
    ((∃ a : Alphabet, d.payload.codingScheme = a.codingScheme ∧
      (smsPduDecodeDcs m.scheme).alphabet = a.dcsAlphabet) ↔ SchemesAgree m.scheme) ∧
    (SchemesAgree m.scheme → d.payload.codingScheme = (tpAlphabet m.scheme).codingScheme) ∧
    smsPduToMsg dst m.octets m.tpdu.length m.octets.length =
      tpUserData d (m.udl :: m.ud) (m.udl :: m.ud).length := by
  obtain ⟨codingScheme, hdcs, hnames, hagree⟩ := tpDcs_handled m.handled
  have hsmsc : (UInt8.ofNat m.smsc.length).toNat = m.smsc.length := by
    rw [UInt8.toNat_ofNat']
    exact Nat.mod_eq_of_lt m.smsc_length
  have hdigits := m.digits_le
  obtain ⟨number, -, haddr⟩ := @smsAddress2ascii_reads (beforeType dst m.first).addr m.digits m.type
    (m.address ++ m.pid :: m.scheme :: (m.stamp ++ m.udl :: m.ud))
    (by rw [gsmdAddrMaxlen]; omega)
    (by rw [List.length_append, m.address_length, List.length_cons]; omega)
  have hlen : m.octets.length = 1 + m.smsc.length + m.tpdu.length := by
    rw [octets, List.length_cons, List.length_append]
    omega
  have hud := m.ud_le
  have htpdu : m.tpdu.length = 12 + (m.digits.toNat + 1) / 2 + (m.udl :: m.ud).length := by
    simp only [tpdu, List.length_cons, List.length_append, m.address_length, m.stamp_length]
    omega
  rw [List.length_cons] at htpdu
  have hrest : (m.smsc ++ m.tpdu).drop (UInt8.ofNat m.smsc.length).toNat = m.tpdu := by
    rw [hsmsc, List.drop_left]
  have hpass := @smsPduToMsg_passed dst (UInt8.ofNat m.smsc.length) m.first (m.smsc ++ m.tpdu)
    _ m.tpdu.length (by omega) (by omega) (Or.inl (by rw [hsmsc, ← octets, hlen]; omega)) hrest
  have hdeliver := @pduDeliver_eq (beforeType dst m.first) m.first m.digits m.type m.pid m.scheme
    m.address m.stamp (m.udl :: m.ud) _ haddr m.address_length m.stamp_length (Nat.succ_pos _)
  rw [hdcs] at hdeliver
  exact ⟨_, rfl, hnames, hagree, hpass.trans ((if_pos m.mti).trans hdeliver)⟩

theorem ucs2_iff {scheme : UInt8} (h : HandledGroup scheme) (hagree : SchemesAgree scheme) :
    tpAlphabet scheme = .ucs2 ↔ scheme >>> 4 = 0xe := by
  have htable : ∀ n < 256, HandledGroup (UInt8.ofNat n) → SchemesAgree (UInt8.ofNat n) →
      (tpAlphabet (UInt8.ofNat n) = .ucs2 ↔ UInt8.ofNat n >>> 4 = 0xe) := by
    decide +kernel
  rw [← UInt8.ofNat_toNat (x := scheme)] at h hagree ⊢
  exact htable _ scheme.toNat_lt h hagree

theorem decodes_iff (dst : GsmdSmsList) (m : DeliverPdu) :
    Decodes dst m ↔ SchemesAgree m.scheme ∧ (m.scheme >>> 4 = 0xe → m.udl = 0) := by
  obtain ⟨d, hdcs, hnames, hcoding, hread⟩ := decode_eq dst m
  have hroom : m.ud.length ≤ gsmdSmsDataMaxlen := m.ud_le.trans (by decide)
  rw [Decodes, hread]
  by_cases hagree : SchemesAgree m.scheme
  · have hbytes := smsDataBytelen_alphabet (tpAlphabet m.scheme) m.udl
    rw [← hcoding hagree, ← m.ud_length] at hbytes
    rw [and_iff_right hagree, ← ucs2_iff m.handled hagree]
    by_cases hfit : tpAlphabet m.scheme = .ucs2 → m.udl = 0
    · have hfull : smsDataBytelen d.payload.codingScheme m.udl = m.ud.length := by
        rw [hbytes]
        split_ifs with hucs2
        · rw [m.ud_length, hucs2, hfit hucs2]
          rfl
        · rfl
      refine iff_of_true ⟨_, tpUserData_octets d hfull hroom, rfl, ?_, ?_⟩ hfit
      · exact (Memory.slice_store_before _ _ (by omega)).trans (Memory.slice_store_same _ _ _)
      · rw [hdcs]
        exact hnames.mpr hagree
    · obtain ⟨hucs2, hudl⟩ := Classical.not_imp.mp hfit
      have hpos : 0 < m.udl.toNat :=
        Nat.pos_of_ne_zero (fun hzero => hudl (UInt8.toNat_inj.mp hzero))
      have hhalf : m.ud.length < smsDataBytelen d.payload.codingScheme m.udl := by
        rw [hbytes, if_pos hucs2, m.ud_length, hucs2, Alphabet.octets]
        omega
      obtain ⟨msg', hreject⟩ := tpUserData_short d hhalf
      refine iff_of_false ?_ hfit
      rintro ⟨msg, hmsg, -⟩
      rw [hreject] at hmsg
      simp at hmsg
  · refine iff_of_false ?_ (fun h => hagree h.1)
    rintro ⟨msg, hmsg, hdecoded⟩
    obtain ⟨hscheme, hkept⟩ := tpUserData_keeps hmsg
    have halphabet := hdecoded.alphabet
    rw [hscheme, hkept, hdcs] at halphabet
    exact hagree (hnames.mp halphabet)

def ucs2Sample : DeliverPdu where
  smsc := [0x91, 0x58, 0x92, 0x00, 0x00, 0x00, 0xf0]
  first := 0x04
  digits := 11
  type := 0x91
  address := [0x58, 0x92, 0x21, 0x43, 0x65, 0xf7]
  pid := 0
  scheme := 0x08
  stamp := [0x70, 0x10, 0x12, 0x01, 0x00, 0x00, 0x00]
  udl := 2
  ud := [0x4f, 0x60]
  smsc_length := by decide
  mti := by decide
  digits_le := by decide
  address_length := by decide
  handled := by decide
  stamp_length := by decide
  ud_length := by decide
  ud_le := by decide

theorem ucs2Sample_not_decoded : ¬ ∀ dst m, Decodes dst m := by
  intro hall
  obtain ⟨d, hdcs, hnames, -, hread⟩ := decode_eq blankSmsList ucs2Sample
  obtain ⟨msg, hmsg, hdecoded⟩ := hall blankSmsList ucs2Sample
  rw [hread] at hmsg
  obtain ⟨hscheme, hkept⟩ := tpUserData_keeps hmsg
  have halphabet := hdecoded.alphabet
  rw [hscheme, hkept, hdcs] at halphabet
  exact absurd (hnames.mp halphabet) (by decide)

end DeliverPdu

end SystemTestSuite.GsmDaemon
