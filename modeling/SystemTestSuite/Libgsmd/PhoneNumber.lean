import SystemTestSuite.GsmDaemon.SmsPdu
import SystemTestSuite.Libgsmd.Passthrough

namespace SystemTestSuite.Libgsmd

open Library GsmDaemon

def toaNpiIsdn : UInt8 := 1
def toaTonUnknown : UInt8 := (0 : UInt8) <<< 4
def toaTonInternational : UInt8 := (1 : UInt8) <<< 4
def toaReserved : UInt8 := (1 : UInt8) <<< 7

def sizeofAddr : ℕ := 34

def lgsmNumber2addr (dst : GsmdAddr) (src : Bytes) (skipplus : Bool) : ℤ × GsmdAddr :=
  if (cstr src).length + 1 > gsmdAddrMaxlen + 1 then (1, dst)
  else
    let dst : GsmdAddr :=
      if (cstr src).head? = some 43 then
        ⟨toaNpiIsdn ||| toaTonInternational ||| toaReserved,
          dst.number.store 0 ((cstr src).drop skipplus.toNat ++ [0])⟩
      else ⟨toaNpiIsdn ||| toaTonUnknown ||| toaReserved, dst.number.store 0 (cstr src ++ [0])⟩
    if (dst.number.text (gsmdAddrMaxlen + 1)).all isDigit then (0, dst) else (1, dst)

/-- The return value and the address that is sent; `sent` is what `send` returns. -/
def lgsmSmsSetSmsc (number : Bytes) (sent : ℤ) : ℤ × Option GsmdAddr :=
  let r := lgsmNumber2addr ⟨0, Memory.zero⟩ number false
  if r.1 ≠ 0 then (einvalRc, none)
  else if sent % 2 ^ 32 < sizeofAddr + sizeofHdr then (eioRc, some r.2)
  else (0, some r.2)

def withoutPlus (s : Bytes) : Bytes := if s.head? = some 43 then s.tail else s

structure IsNumber (s : Bytes) : Prop where
  digits : ∀ c ∈ withoutPlus s, isDigit c = true
  length : s.length ≤ gsmdAddrMaxlen

def International (s : Bytes) : Prop := s.head? = some 43

instance (s : Bytes) : Decidable (International s) := inferInstanceAs (Decidable (_ = _))

structure ReadsNumbers (src : Bytes) (skipplus : Bool) : Prop where
  accepts : ∀ dst, (lgsmNumber2addr dst src skipplus).1 = 0 ↔ IsNumber (cstr src)
  type : IsNumber (cstr src) → ∀ dst,
    (lgsmNumber2addr dst src skipplus).2.type &&& toaTonMask = toaTonInternational ↔
      International (cstr src)
  number : IsNumber (cstr src) → ∀ dst,
    (lgsmNumber2addr dst src skipplus).2.number.text (gsmdAddrMaxlen + 1) =
      if skipplus then withoutPlus (cstr src) else cstr src
  setsSmsc : skipplus = false → IsNumber (cstr src) → International (cstr src) → ∀ sent,
    (lgsmSmsSetSmsc src sent).2.isSome = true

variable {src : Bytes} {skipplus : Bool}

def storedNumber (src : Bytes) (skipplus : Bool) : Bytes :=
  if International (cstr src) then (cstr src).drop skipplus.toNat else cstr src

def storedType (src : Bytes) : UInt8 :=
  if International (cstr src) then toaNpiIsdn ||| toaTonInternational ||| toaReserved
  else toaNpiIsdn ||| toaTonUnknown ||| toaReserved

theorem storedNumber_no_nul : ∀ b ∈ storedNumber src skipplus, b ≠ 0 := by
  unfold storedNumber
  split_ifs
  · exact fun b hb => cstr_ne_zero b (List.mem_of_mem_drop hb)
  · exact cstr_ne_zero

theorem storedNumber_length : (storedNumber src skipplus).length ≤ (cstr src).length := by
  unfold storedNumber
  split_ifs
  · rw [List.length_drop]
    exact Nat.sub_le _ _
  · exact le_rfl

theorem text_stored_number (m : Memory) {text : Bytes} {size : ℕ} (hno : ∀ b ∈ text, b ≠ 0)
    (hlen : text.length < size) : (m.store 0 (text ++ [0])).text size = text := by
  rw [Memory.text, Memory.string?_stored m hno hlen]
  rfl

theorem lgsmNumber2addr_eq (dst : GsmdAddr) (h : (cstr src).length ≤ gsmdAddrMaxlen) :
    lgsmNumber2addr dst src skipplus =
      (if (storedNumber src skipplus).all isDigit then 0 else 1,
        ⟨storedType src, dst.number.store 0 (storedNumber src skipplus ++ [0])⟩) := by
  have hlen : (storedNumber src skipplus).length < gsmdAddrMaxlen + 1 :=
    Nat.lt_succ_of_le (storedNumber_length.trans h)
  have htext := text_stored_number dst.number (@storedNumber_no_nul src skipplus) hlen
  have haddr : (if (cstr src).head? = some 43 then
      (⟨toaNpiIsdn ||| toaTonInternational ||| toaReserved,
        dst.number.store 0 ((cstr src).drop skipplus.toNat ++ [0])⟩ : GsmdAddr)
      else ⟨toaNpiIsdn ||| toaTonUnknown ||| toaReserved, dst.number.store 0 (cstr src ++ [0])⟩) =
        ⟨storedType src, dst.number.store 0 (storedNumber src skipplus ++ [0])⟩ := by
    unfold storedType storedNumber
    by_cases hplus : International (cstr src)
    · have hhead : (cstr src).head? = some 43 := hplus
      rw [if_pos hhead, if_pos hplus, if_pos hplus]
    · have hhead : ¬ (cstr src).head? = some 43 := hplus
      rw [if_neg hhead, if_neg hplus, if_neg hplus]
  rw [lgsmNumber2addr, if_neg (by omega)]
  dsimp only
  rw [haddr, htext]
  split_ifs <;> rfl

theorem lgsmNumber2addr_long (dst : GsmdAddr) (h : gsmdAddrMaxlen < (cstr src).length) :
    lgsmNumber2addr dst src skipplus = (1, dst) := if_pos (by omega)

theorem storedNumber_digits : (∀ c ∈ storedNumber src skipplus, isDigit c = true) ↔
    (∀ c ∈ withoutPlus (cstr src), isDigit c = true) ∧
      ¬ (skipplus = false ∧ International (cstr src)) := by
  unfold storedNumber withoutPlus International
  split_ifs with hplus
  · cases skipplus with
    | true => simp [hplus]
    | false =>
      obtain ⟨rest, hrest⟩ : ∃ rest, cstr src = 43 :: rest := by
        cases hs : cstr src with
        | nil => simp [hs] at hplus
        | cons c rest =>
          rw [hs] at hplus
          exact ⟨rest, by rw [Option.some.inj hplus]⟩
      refine iff_of_false (fun h => ?_) (fun h => h.2 ⟨rfl, hplus⟩)
      have hdigit := h 43 (by rw [hrest]; exact List.mem_cons_self)
      exact absurd hdigit (by decide)
  · simp [hplus]

theorem accepts_number (dst : GsmdAddr) : (lgsmNumber2addr dst src skipplus).1 = 0 ↔
    IsNumber (cstr src) ∧ ¬ (skipplus = false ∧ International (cstr src)) := by
  rcases Nat.lt_or_ge gsmdAddrMaxlen (cstr src).length with hlong | hlen
  · rw [lgsmNumber2addr_long dst hlong]
    exact iff_of_false one_ne_zero (fun h => absurd h.1.length (by omega))
  · have hdigits := @storedNumber_digits src skipplus
    rw [lgsmNumber2addr_eq dst hlen]
    constructor
    · intro hzero
      have hall : (storedNumber src skipplus).all isDigit = true := by
        by_contra hbad
        rw [if_neg hbad] at hzero
        exact one_ne_zero hzero
      obtain ⟨hnumber, hplus⟩ := hdigits.mp (List.all_eq_true.mp hall)
      exact ⟨⟨hnumber, hlen⟩, hplus⟩
    · rintro ⟨hnumber, hplus⟩
      exact if_pos (List.all_eq_true.mpr (hdigits.mpr ⟨hnumber.digits, hplus⟩))

theorem readsNumbers_iff : ReadsNumbers src skipplus ↔
    ¬ (skipplus = false ∧ International (cstr src) ∧ IsNumber (cstr src)) := by
  constructor
  · rintro h ⟨hskip, hplus, hnumber⟩
    have hzero := (h.accepts ⟨0, Memory.zero⟩).mpr hnumber
    exact (accepts_number ⟨0, Memory.zero⟩).mp hzero |>.2 ⟨hskip, hplus⟩
  · intro h
    have hkept (hnumber : IsNumber (cstr src)) :
        ¬ (skipplus = false ∧ International (cstr src)) :=
      fun hplus => h ⟨hplus.1, hplus.2, hnumber⟩
    refine ⟨fun dst => ?_, fun hnumber dst => ?_, fun hnumber dst => ?_, ?_⟩
    · rw [accepts_number]
      exact ⟨And.left, fun hnumber => ⟨hnumber, hkept hnumber⟩⟩
    · rw [lgsmNumber2addr_eq dst hnumber.length]
      dsimp only
      unfold storedType
      split_ifs with hplus
      · exact iff_of_true (by decide) hplus
      · exact iff_of_false (by decide) hplus
    · have hlen : (storedNumber src skipplus).length < gsmdAddrMaxlen + 1 :=
        Nat.lt_succ_of_le (storedNumber_length.trans hnumber.length)
      rw [lgsmNumber2addr_eq dst hnumber.length]
      dsimp only
      rw [text_stored_number dst.number storedNumber_no_nul hlen]
      have hplus := hkept hnumber
      unfold storedNumber withoutPlus International at *
      cases skipplus with
      | true => simp
      | false => simp at hplus; simp [hplus]
    · intro hskip hnumber hplus
      exact absurd ⟨hskip, hplus, hnumber⟩ h

theorem readsNumbers_international :
    ¬ ReadsNumbers (ascii "+4912345") false := by
  intro h
  have hnumber : IsNumber (cstr (ascii "+4912345")) :=
    ⟨List.all_eq_true.mp (by decide), by decide⟩
  have hsome := h.setsSmsc rfl hnumber (by decide) 42
  exact absurd hsome (by decide)

end SystemTestSuite.Libgsmd
