import SystemTestSuite.GsmDaemon.UnsolicitedReads
import SystemTestSuite.GsmDaemon.ListEntry
import SystemTestSuite.Library.Decimal

namespace SystemTestSuite.GsmDaemon

open Library

variable {u : Unset} {flags : UInt32}

structure HexField where
  digits : Bytes
  hex : ∀ d ∈ digits, (hexValue d).isSome = true
  small : digitsIn 16 digits < 2 ^ 16

inductive FieldsMessage
  | creg (state : ℕ) (lac ci : HexField) (small : state < 2 ^ 31)
  | ccwa (number : Bytes) (type : UInt8) (plain : ∀ b ∈ number, b ≠ 0 ∧ b ≠ 44)
  | cpriStates (gsm gprs : UInt16)
  | cpri (state : ℕ)

namespace FieldsMessage

def line : FieldsMessage → Bytes
  | creg state lac ci _ =>
    ascii "+CREG: " ++ (decimal state ++ 44 :: 34 :: (lac.digits ++ 34 :: 44 :: 34 ::
      (ci.digits ++ [34])))
  | ccwa number type _ => ascii "+CCWA: " ++ number ++ 44 :: decimal type.toNat
  | cpriStates gsm gprs => ascii "%CPRI: " ++ decimal gsm.toNat ++ 44 :: decimal gprs.toNat
  | cpri state => ascii "%CPRI: " ++ decimal state

def GivenBack (flags : UInt32) (o : UnsolicitedOutcome) : FieldsMessage → Prop
  | creg state lac ci _ => ∃ ucmd, o.event = some (gsmdEvtNetreg, ucmd) ∧ intAt ucmd.buf 0 = state ∧
      (wordAt ucmd.buf auxLac).toNat = digitsIn 16 lac.digits ∧
        (wordAt ucmd.buf auxCi).toNat = digitsIn 16 ci.digits
  | ccwa number type _ => ∃ ucmd, o.event = some (gsmdEvtCallWait, ucmd) ∧
      ucmd.buf.string? auxNumber (gsmdAddrMaxlen + 1) = some (number.take gsmdAddrMaxlen) ∧
        ucmd.buf 0 = type
  | cpriStates gsm gprs => ∃ ucmd, o.event = some (gsmdEvtCipher, ucmd) ∧
      wordAt ucmd.buf auxGsm = gsm ∧ wordAt ucmd.buf auxGprs = gprs
  | cpri state => o.flags = some (ciphIndication flags state)

def Survives (u : Unset) (flags : UInt32) (msg : FieldsMessage) : Prop :=
  ∃ o, unsolicitedHandling u flags msg.line msg.line.length = some (some o) ∧ msg.GivenBack flags o

/-- The number of a waiting call starts as the line does, again and again; the cipher states are the
same and the block of the event holds this state already; a single cipher state sets nothing that
clearing `GSMD_CIPHIND_ACTIVE` does not set. -/
def Undisturbed (u : Unset) (flags : UInt32) : FieldsMessage → Prop
  | creg _ _ _ _ => True
  | ccwa number _ _ => number.take gsmdAddrMaxlen = ascii "+CCWA: +CCWA: +CCWA: +CCWA: +CCW"
  | cpriStates gsm gprs => gsm = gprs ∧ wordAt u.ucmd.buf auxGprs = gprs
  | cpri state => state = 0 ∨ flags &&& gsmdCiphindActive = 0 ∧ state ≠ 1 ∧
      (state = 2 → flags &&& gsmdCiphindDisabledSim = gsmdCiphindDisabledSim)

end FieldsMessage

theorem param_inside {pre rest : Bytes} (hpre : ∀ b ∈ pre, b ≠ 0 ∧ b ≠ 58) (hrest : ∀ b ∈ rest, b ≠ 0) :
    (paramPtr (pre ++ 58 :: 32 :: rest) (pre ++ 58 :: 32 :: rest).length).string
      (cstr (pre ++ 58 :: 32 :: rest)) = some rest := by
  have hcstr : cstr (pre ++ 58 :: 32 :: rest) = pre ++ 58 :: 32 :: rest := by
    rw [cstr_append fun b hb => (hpre b hb).1, cstr_cons (by decide), cstr_cons (by decide),
      cstr_of_no_nul hrest]
  have hlen : pre.length + 2 ≤ (pre ++ 58 :: 32 :: rest).length := by
    simp
  rw [paramPtr, strchr_at hpre (by decide), hcstr]
  dsimp only
  rw [if_neg (by omega), ParamPtr.string, stringIn, if_pos hlen]
  simp

theorem cregParse_fields {text : Bytes} {param : ParamPtr} {state : ℕ} (hsmall : state < 2 ^ 31)
    {lac ci : HexField}
    (hparam : param.string text = some (decimal state ++ 44 :: 34 :: (lac.digits ++ 34 :: 44 :: 34 ::
      (ci.digits ++ [34])))) :
    cregParse u text param = netreg ((((auxEvent u gsmdEvtNetreg).store 0 (intBytes state)).store auxLac
      (wordOf (digitsIn 16 lac.digits))).store auxCi (wordOf (digitsIn 16 ci.digits))) state := by
  obtain ⟨p, hp⟩ : ∃ p, p = decimal state ++ 44 :: 34 :: (lac.digits ++ 34 :: 44 :: 34 ::
      (ci.digits ++ [34])) := ⟨_, rfl⟩
  have hdecimal : ∀ b ∈ decimal state, b ≠ 0 ∧ b ≠ 44 := by
    intro b hb
    have hdigit := decimal_digits state b hb
    constructor <;> rintro rfl <;> cases hdigit
  have hlac : ∀ b ∈ 34 :: (lac.digits ++ [34]), b ≠ 0 ∧ b ≠ 44 := by
    intro b hb
    rcases List.mem_cons.mp hb with rfl | hb
    · decide
    rcases List.mem_append.mp hb with hb | hb
    · exact ⟨hexDigit_ne (lac.hex b hb) rfl, hexDigit_ne (lac.hex b hb) rfl⟩
    · obtain rfl := List.mem_singleton.mp hb
      decide
  have hstate : atoi p = state := by
    rw [hp]
    exact atoi_decimal hsmall fun b hb => by obtain rfl := Option.some.inj hb; rfl
  have hcomma : strchr p 44 = some (decimal state).length := by
    rw [hp]
    exact strchr_at hdecimal (by decide)
  have hrest : stringIn p ((decimal state).length + 1) =
      some ((34 :: (lac.digits ++ [34])) ++ 44 :: 34 :: (ci.digits ++ [34])) := by
    rw [stringIn, if_pos (by rw [hp]; simp), hp]
    simp
  have hlacText : stringIn p ((decimal state).length + 2) =
      some (lac.digits ++ 34 :: 44 :: 34 :: (ci.digits ++ [34])) := by
    rw [stringIn, if_pos (by rw [hp]; simp), hp]
    simp
  have hnext : strchr ((34 :: (lac.digits ++ [34])) ++ 44 :: 34 :: (ci.digits ++ [34])) 44 =
      some (34 :: (lac.digits ++ [34])).length := strchr_at hlac (by decide)
  have hciText : stringIn ((34 :: (lac.digits ++ [34])) ++ 44 :: 34 :: (ci.digits ++ [34]))
      ((34 :: (lac.digits ++ [34])).length + 2) = some (ci.digits ++ [34]) := by
    rw [stringIn, if_pos (by simp)]
    simp
  unfold cregParse
  rw [hparam, ← hp]
  simp only [Option.bind_eq_bind, Option.bind_some, hcomma, hlacText, hrest, hnext, hciText, hstate]
  rw [strtoulHex_quoted lac.hex (lac.small.trans (by decide)),
    strtoulHex_quoted ci.hex (ci.small.trans (by decide))]

theorem cregLine_handled {state : ℕ} (hsmall : state < 2 ^ 31) (lac ci : HexField) :
    unsolicitedHandling u flags (FieldsMessage.creg state lac ci hsmall).line
        (FieldsMessage.creg state lac ci hsmall).line.length =
      netreg ((((auxEvent u gsmdEvtNetreg).store 0 (intBytes state)).store auxLac
        (wordOf (digitsIn 16 lac.digits))).store auxCi (wordOf (digitsIn 16 ci.digits))) state := by
  have hnul : ∀ b ∈ decimal state ++ 44 :: 34 :: (lac.digits ++ 34 :: 44 :: 34 :: (ci.digits ++ [34])),
      b ≠ 0 := by
    intro b hb
    simp only [List.mem_append, List.mem_cons, List.not_mem_nil, or_false] at hb
    rcases hb with hb | rfl | rfl | hb | rfl | rfl | rfl | hb | rfl
    · have hdigit := decimal_digits state b hb
      rintro rfl
      cases hdigit
    · decide
    · decide
    · exact hexDigit_ne (lac.hex b hb) rfl
    · decide
    · decide
    · decide
    · exact hexDigit_ne (ci.hex b hb) rfl
    · decide
  exact cregParse_fields hsmall (param_inside (plain_of_all rfl : ∀ b ∈ ascii "+CREG", _) hnul)

theorem strtokAll_pair {pre post : Bytes} (hne : pre ≠ []) (hne' : post ≠ [])
    (hpre : ∀ b ∈ pre, b ≠ 0 ∧ b ≠ 44) (hpost : ∀ b ∈ post, b ≠ 0 ∧ b ≠ 44) :
    strtokAll 44 (pre ++ 44 :: post) = [pre ++ 0 :: post, post] := by
  have hcstr : cstr (pre ++ 44 :: post) = pre ++ 44 :: post := by
    rw [cstr_append fun b hb => (hpre b hb).1, cstr_cons (by decide),
      cstr_of_no_nul fun b hb => (hpost b hb).1]
  obtain ⟨n, hn⟩ : ∃ n, (pre ++ 44 :: post).length = n + 2 := by
    have hpos := List.length_pos_of_ne_nil hne
    refine ⟨pre.length + post.length - 1, ?_⟩
    rw [List.length_append, List.length_cons]
    omega
  have hlast := strtokLoop_last (by decide) hne' hpost n cstr_nil
  rw [List.append_nil] at hlast
  rw [strtokAll, hcstr, hn, strtokLoop_next (by decide) hne hpre, hlast]

theorem decimal_plain (n : ℕ) : ∀ b ∈ decimal n, b ≠ 0 ∧ b ≠ 44 := fun b hb =>
  ⟨decimal_ne rfl n b hb, decimal_ne rfl n b hb⟩

theorem strtokAll_number {pre : Bytes} (hne : pre ≠ []) (hpre : ∀ b ∈ pre, b ≠ 0 ∧ b ≠ 44) (n : ℕ) :
    cstr (pre ++ 44 :: decimal n) = pre ++ 44 :: decimal n ∧
      strtokAll 44 (pre ++ 44 :: decimal n) = [pre ++ 0 :: decimal n, decimal n] := by
  constructor
  · rw [cstr_append fun b hb => (hpre b hb).1, cstr_cons (by decide),
      cstr_of_no_nul fun b hb => (decimal_plain n b hb).1]
  · exact strtokAll_pair hne (decimal_ne_nil n) hpre (decimal_plain n)

theorem plain_append {pre post : Bytes} (hpre : ∀ b ∈ pre, b ≠ 0 ∧ b ≠ 44)
    (hpost : ∀ b ∈ post, b ≠ 0 ∧ b ≠ 44) : ∀ b ∈ pre ++ post, b ≠ 0 ∧ b ≠ 44 := by
  intro b hb
  exact (List.mem_append.mp hb).elim (hpre b) (hpost b)

theorem atoi_number {n : ℕ} (hn : n < 2 ^ 31) : atoi (decimal n) = n := by
  rw [← List.append_nil (decimal n)]
  exact atoi_decimal hn fun b hb => by cases hb

theorem ccwaLine_handled (u : Unset) (flags : UInt32) {number : Bytes} (type : UInt8)
    (hplain : ∀ b ∈ number, b ≠ 0 ∧ b ≠ 44) :
    unsolicitedHandling u flags (FieldsMessage.ccwa number type hplain).line
        (FieldsMessage.ccwa number type hplain).line.length =
      sends gsmdEvtCallWait ((({ usockBuildEvent u gsmdEvtCallWait sizeofAddr with
        buf := u.ucmd.buf.fill 0 sizeofAddr 0 } : GsmdUcmd).store auxNumber
          (strncpy (ascii "+CCWA: " ++ number) gsmdAddrMaxlen)).store 0 [type]) := by
  have hrun : unsolicitedHandling u flags (FieldsMessage.ccwa number type hplain).line
      (FieldsMessage.ccwa number type hplain).line.length =
        ccwaParse u (cstr (FieldsMessage.ccwa number type hplain).line) := rfl
  have hpre : ∀ b ∈ ascii "+CCWA: " ++ number, b ≠ 0 ∧ b ≠ 44 := by
    apply plain_append (plain_of_all rfl)
    exact hplain
  have hne : ascii "+CCWA: " ++ number ≠ [] := List.cons_ne_nil _ _
  obtain ⟨hcstr, htokens⟩ := strtokAll_number hne hpre type.toNat
  have hcopied : strncpy (ascii "+CCWA: " ++ number ++ 0 :: decimal type.toNat) gsmdAddrMaxlen =
      strncpy (ascii "+CCWA: " ++ number) gsmdAddrMaxlen := by
    rw [strncpy, strncpy, cstr_ended fun b hb => (hpre b hb).1,
      cstr_of_no_nul fun b hb => (hpre b hb).1]
  have htype : intByte (atoi (decimal type.toNat)) = type := by
    have hlt := type.toNat_lt
    have hvalue : (((type.toNat : ℕ) : ℤ) % 256).toNat = type.toNat := by omega
    rw [atoi_number (by omega), intByte, hvalue, UInt8.ofNat_toNat]
  rw [hrun, FieldsMessage.line, hcstr, ccwaParse, htokens]
  dsimp only
  rw [hcopied, htype]

theorem cpriStates_handled (u : Unset) (flags : UInt32) (gsm gprs : UInt16) :
    unsolicitedHandling u flags (FieldsMessage.cpriStates gsm gprs).line
        (FieldsMessage.cpriStates gsm gprs).line.length =
      some (some
        { rc := some 0
          event := some (gsmdEvtCipher, ((auxEvent u gsmdEvtCipher).store auxGsm (wordBytes 0)).store
            auxGsm (wordBytes gprs)) }) := by
  have hrun : unsolicitedHandling u flags (FieldsMessage.cpriStates gsm gprs).line
      (FieldsMessage.cpriStates gsm gprs).line.length =
        cpriParse u flags (cstr (FieldsMessage.cpriStates gsm gprs).line) := rfl
  have hpre : ∀ b ∈ ascii "%CPRI: " ++ decimal gsm.toNat, b ≠ 0 ∧ b ≠ 44 := by
    apply plain_append (plain_of_all rfl)
    exact decimal_plain gsm.toNat
  have hne : ascii "%CPRI: " ++ decimal gsm.toNat ≠ [] := List.cons_ne_nil _ _
  obtain ⟨hcstr, htokens⟩ := strtokAll_number hne hpre gprs.toNat
  have hfirst (rest : Bytes) : atoi (ascii "%CPRI: " ++ rest) = 0 := rfl
  have hsecond : intWord (atoi (decimal gprs.toNat)) = wordBytes gprs := by
    have hlt := gprs.toNat_lt
    have hvalue : (((gprs.toNat : ℕ) : ℤ) % 2 ^ 16).toNat = gprs.toNat := by omega
    rw [atoi_number (by omega), intWord, hvalue, UInt16.ofNat_toNat]
  rw [hrun, FieldsMessage.line, hcstr, cpriParse, htokens]
  dsimp only
  rw [List.append_assoc, hfirst, hsecond]
  rfl

theorem cpri_handled (state : ℕ) :
    unsolicitedHandling u flags (FieldsMessage.cpri state).line (FieldsMessage.cpri state).line.length =
      some (some { rc := some 0, flags := some (ciphIndication flags 0) }) := by
  have hrun : unsolicitedHandling u flags (FieldsMessage.cpri state).line
      (FieldsMessage.cpri state).line.length =
        cpriParse u flags (cstr (FieldsMessage.cpri state).line) := rfl
  have hplain : ∀ b ∈ ascii "%CPRI: " ++ decimal state, b ≠ 0 ∧ b ≠ 44 := by
    apply plain_append (plain_of_all rfl)
    exact decimal_plain state
  have hcstr : cstr (FieldsMessage.cpri state).line = ascii "%CPRI: " ++ decimal state :=
    cstr_of_no_nul fun b hb => (hplain b hb).1
  have htoken : strtokAll 44 (ascii "%CPRI: " ++ decimal state) =
      [ascii "%CPRI: " ++ decimal state] := by
    have hne : ascii "%CPRI: " ++ decimal state ≠ [] := List.cons_ne_nil _ _
    obtain ⟨n, hn⟩ := Nat.exists_eq_succ_of_ne_zero (List.length_pos_of_ne_nil hne).ne'
    have hlast := strtokLoop_last (by decide) hne hplain n cstr_nil
    rw [List.append_nil] at hlast
    rw [strtokAll, cstr_of_no_nul fun b hb => (hplain b hb).1, hn, hlast]
  have hvalue (rest : Bytes) : atoi (ascii "%CPRI: " ++ rest) = 0 := rfl
  rw [hrun, hcstr, cpriParse, htoken]
  dsimp only
  rw [hvalue]

theorem number_string (m : Memory) (src : Bytes) (type : UInt8) :
    (((m.fill 0 sizeofAddr 0).store auxNumber (strncpy src gsmdAddrMaxlen)).store 0 [type]).string?
      auxNumber (gsmdAddrMaxlen + 1) = some ((cstr src).take gsmdAddrMaxlen) := by
  obtain ⟨zeros, hzeros⟩ : ∃ zeros, zeros = m.fill 0 sizeofAddr 0 := ⟨_, rfl⟩
  have hzero (i : ℕ) (hi : i < sizeofAddr) : zeros i = 0 := by
    rw [hzeros]
    exact if_pos ⟨Nat.zero_le i, by omega⟩
  have hcopied : (zeros.store auxNumber (strncpy src gsmdAddrMaxlen)).string? auxNumber
      (gsmdAddrMaxlen + 1) = some ((cstr src).take gsmdAddrMaxlen) := by
    by_cases hshort : (cstr src).length < gsmdAddrMaxlen
    · rw [string?_strncpy hshort (Nat.lt_succ_of_lt hshort), List.take_of_length_le hshort.le]
    · have hend : zeros.string? (auxNumber + gsmdAddrMaxlen) 1 = some [] := by
        rw [Memory.string?, if_pos (hzero _ (by decide))]
      have hroom : gsmdAddrMaxlen + 1 - gsmdAddrMaxlen = 1 := rfl
      rw [string?_strncpy_cut (Nat.le_of_not_lt hshort) (Nat.le_succ _), hroom, hend,
        Option.map_some, List.append_nil]
  rw [← hzeros]
  apply Memory.string?_later hcopied
  intro i hlow _
  apply Memory.store_behind
  exact hlow

theorem number_survives (number : Bytes) :
    (ascii "+CCWA: " ++ number).take gsmdAddrMaxlen = number.take gsmdAddrMaxlen ↔
      number.take gsmdAddrMaxlen = ascii "+CCWA: +CCWA: +CCWA: +CCWA: +CCW" := by
  obtain ⟨pre, hpre⟩ : ∃ pre, pre = ascii "+CCWA: " := ⟨_, rfl⟩
  have hlen : pre.length = 7 := by
    rw [hpre]
    rfl
  have htake : (pre ++ number).take gsmdAddrMaxlen = pre ++ (number.take gsmdAddrMaxlen).take 25 := by
    rw [List.take_append, hlen, List.take_take, List.take_of_length_le (by rw [hlen]; decide)]
    rfl
  obtain ⟨s, hs⟩ : ∃ s, s = number.take gsmdAddrMaxlen := ⟨_, rfl⟩
  rw [← hpre, htake, ← hs]
  constructor
  · intro h
    have hagain (n : ℕ) (hn : n ≤ 25) : s.take (7 + n) = pre ++ s.take n := by
      conv_lhs => rw [← h]
      rw [← hlen, List.take_length_add_append, List.take_take, Nat.min_eq_left hn]
    have hrest : s.take 4 = pre.take 4 := by
      conv_lhs => rw [← h]
      rw [List.take_append_of_le_length (by omega)]
    rw [← h, hagain 18 (by omega), hagain 11 (by omega), hagain 4 (by omega), hrest, hpre]
    rfl
  · intro h
    rw [h, hpre]
    rfl

theorem or_and_distrib (x y z : UInt32) : (x ||| y) &&& z = (x &&& z) ||| (y &&& z) := by
  rw [← UInt32.toBitVec_inj]
  exact BitVec.and_or_distrib_right

theorem and_or_distrib (x y z : UInt32) : x &&& (y ||| z) = (x &&& y) ||| (x &&& z) := by
  rw [← UInt32.toBitVec_inj]
  exact BitVec.and_or_distrib_left

theorem clear_eq_self (x y : UInt32) : x &&& ~~~y = x ↔ x &&& y = 0 := by
  constructor
  · intro h
    rw [← h, UInt32.and_assoc, UInt32.not_and_self, UInt32.and_zero]
  · intro h
    have hsplit : x &&& (y ||| ~~~y) = x := by
      rw [UInt32.or_not_self, UInt32.and_neg_one]
    rwa [and_or_distrib, h, UInt32.zero_or] at hsplit

theorem set_and (x y : UInt32) : (x ||| y) &&& y = y := by
  have hy : (x &&& y) ||| (~~~x &&& y) = y := by
    rw [← or_and_distrib, UInt32.or_not_self, UInt32.neg_one_and]
  rw [or_and_distrib, UInt32.and_self]
  nth_rewrite 2 [← hy]
  rw [← UInt32.or_assoc, UInt32.or_self, hy]

theorem set_eq_self (x y : UInt32) : x ||| y = x ↔ x &&& y = y := by
  constructor
  · intro h
    rw [← h, set_and]
  · intro h
    rw [← h, UInt32.or_comm, UInt32.and_comm]
    nth_rewrite 2 [← UInt32.neg_one_and (a := x)]
    rw [← or_and_distrib, UInt32.or_neg_one, UInt32.neg_one_and]

theorem ciphIndication_zero_iff (u : Unset) (flags : UInt32) (state : ℕ) :
    ciphIndication flags 0 = ciphIndication flags state ↔
      (FieldsMessage.cpri state).Undisturbed u flags := by
  have hcleared : (flags &&& ~~~gsmdCiphindActive) &&& gsmdCiphindActive = 0 := by
    rw [UInt32.and_assoc, UInt32.not_and_self, UInt32.and_zero]
  have hother : ~~~gsmdCiphindActive &&& gsmdCiphindDisabledSim = gsmdCiphindDisabledSim := rfl
  have hapart : gsmdCiphindDisabledSim &&& gsmdCiphindActive = 0 := rfl
  have hzero : ciphIndication flags 0 = flags &&& ~~~gsmdCiphindActive := rfl
  rw [hzero, FieldsMessage.Undisturbed]
  by_cases h0 : state = 0
  · subst h0
    exact iff_of_true rfl (Or.inl rfl)
  rw [or_iff_right h0]
  by_cases h1 : state = 1
  · subst h1
    have hset : ciphIndication flags (1 : ℕ) = flags ||| gsmdCiphindActive := rfl
    rw [hset]
    refine iff_of_false ?_ fun h => h.2.1 rfl
    intro h
    rw [h, set_and] at hcleared
    cases hcleared
  by_cases h2 : state = 2
  · subst h2
    have hset : ciphIndication flags (2 : ℕ) = flags ||| gsmdCiphindDisabledSim := rfl
    rw [hset]
    constructor
    · intro h
      refine ⟨?_, h1, fun _ => ?_⟩
      · rw [h, or_and_distrib, hapart, UInt32.or_zero] at hcleared
        exact hcleared
      · have hsame := set_and flags gsmdCiphindDisabledSim
        rwa [← h, UInt32.and_assoc, hother] at hsame
    · rintro ⟨hactive, -, hdisabled⟩
      rw [(clear_eq_self _ _).mpr hactive, (set_eq_self _ _).mpr (hdisabled rfl)]
  · have hkept : ciphIndication flags state = flags := by
      rw [ciphIndication, if_neg (by omega), if_neg (by omega), if_neg (by omega)]
    rw [hkept, clear_eq_self]
    exact ⟨fun h => ⟨h, h1, fun h' => absurd h' h2⟩, And.left⟩

theorem creg_survives {m buf : Memory} {state : ℕ} (hsmall : state < 2 ^ 31) {lac ci : HexField}
    (hbuf : buf = ((m.store 0 (intBytes state)).store auxLac (wordOf (digitsIn 16 lac.digits))).store
      auxCi (wordOf (digitsIn 16 ci.digits))) :
    intAt buf 0 = state ∧ (wordAt buf auxLac).toNat = digitsIn 16 lac.digits ∧
      (wordAt buf auxCi).toNat = digitsIn 16 ci.digits := by
  subst hbuf
  refine ⟨?_, ?_, ?_⟩
  · have hsame : intAt (((m.store 0 (intBytes state)).store auxLac
        (wordOf (digitsIn 16 lac.digits))).store auxCi (wordOf (digitsIn 16 ci.digits))) 0 =
          intAt (m.store 0 (intBytes state)) 0 := by
      apply intAt_congr
      intro i _ hi
      rw [Memory.store_before _ _ (by unfold auxCi; omega),
        Memory.store_before _ _ (by unfold auxLac; omega)]
    exact hsame.trans (intAt_store m 0 hsmall)
  · have hkept (i : ℕ) (hi : i < auxCi) := Memory.store_before
      ((m.store 0 (intBytes state)).store auxLac (wordOf (digitsIn 16 lac.digits)))
        (wordOf (digitsIn 16 ci.digits)) hi
    rw [wordAt_congr (hkept auxLac (by decide)) (hkept (auxLac + 1) (by decide)), wordOf, wordAt_store,
      word_kept lac.small]
  · rw [wordOf, wordOf, wordAt_store, word_kept ci.small]

theorem cipher_survives (m : Memory) (gsm gprs : UInt16) :
    let buf := (m.store auxGsm (wordBytes gsm)).store auxGsm (wordBytes gprs)
    wordAt buf auxGsm = gprs ∧ wordAt buf auxGprs = wordAt m auxGprs := by
  have hkept (m : Memory) (w : UInt16) (i : ℕ) (hi : auxGprs ≤ i) :
      m.store auxGsm (wordBytes w) i = m i := Memory.store_behind m _ hi
  refine ⟨wordAt_store _ _ _, ?_⟩
  apply wordAt_congr
  · rw [hkept _ _ _ (Nat.le_refl _), hkept _ _ _ (Nat.le_refl _)]
  · rw [hkept _ _ _ (Nat.le_succ _), hkept _ _ _ (Nat.le_succ _)]

theorem fields_survive_iff (u : Unset) (flags : UInt32) (msg : FieldsMessage) :
    msg.Survives u flags ↔ msg.Undisturbed u flags := by
  cases msg with
  | creg state lac ci hsmall =>
    exact iff_of_true ⟨_, cregLine_handled hsmall lac ci, _, rfl, creg_survives hsmall rfl⟩ trivial
  | ccwa number type hplain =>
    have hhandled := ccwaLine_handled u flags type hplain
    have hstring := number_string u.ucmd.buf (ascii "+CCWA: " ++ number) type
    have hname : ∀ b ∈ ascii "+CCWA: ", b ≠ 0 ∧ b ≠ 44 := plain_of_all rfl
    rw [cstr_of_no_nul fun b hb => (plain_append hname hplain b hb).1] at hstring
    rw [FieldsMessage.Undisturbed, ← number_survives]
    constructor
    · rintro ⟨o, ho, ucmd, hevent, hnumber, -⟩
      rw [hhandled] at ho
      obtain rfl := Option.some.inj (Option.some.inj ho)
      obtain rfl := (Prod.mk.inj (Option.some.inj hevent)).2
      exact Option.some.inj (hstring.symm.trans hnumber)
    · intro h
      exact ⟨_, hhandled, _, rfl, hstring.trans (congrArg some h), rfl⟩
  | cpriStates gsm gprs =>
    have hhandled := cpriStates_handled u flags gsm gprs
    obtain ⟨hgsm, hgprs⟩ := cipher_survives u.ucmd.buf 0 gprs
    constructor
    · rintro ⟨o, ho, ucmd, hevent, hfirst, hsecond⟩
      rw [hhandled] at ho
      obtain rfl := Option.some.inj (Option.some.inj ho)
      obtain rfl := (Prod.mk.inj (Option.some.inj hevent)).2
      exact ⟨hfirst.symm.trans hgsm, hgprs.symm.trans hsecond⟩
    · rintro ⟨hsame, hheld⟩
      exact ⟨_, hhandled, _, rfl, hgsm.trans hsame.symm, hgprs.trans hheld⟩
  | cpri state =>
    rw [← ciphIndication_zero_iff]
    constructor
    · rintro ⟨o, ho, hflags⟩
      rw [cpri_handled] at ho
      obtain rfl := Option.some.inj (Option.some.inj ho)
      exact Option.some.inj hflags
    · intro h
      exact ⟨_, cpri_handled state, congrArg some h⟩

theorem cipher_states_lost : ¬∀ u flags (msg : FieldsMessage), msg.Survives u flags := by
  intro h
  obtain ⟨o, ho, ucmd, hevent, hgsm, -⟩ := h zeroed 0 (.cpriStates 1 0)
  rw [cpriStates_handled] at ho
  obtain rfl := Option.some.inj (Option.some.inj ho)
  obtain rfl := (Prod.mk.inj (Option.some.inj hevent)).2
  have hlast := (cipher_survives (auxEvent zeroed gsmdEvtCipher).buf 0 0).1
  rw [GsmdUcmd.store, GsmdUcmd.store, hlast] at hgsm
  cases hgsm

end SystemTestSuite.GsmDaemon
