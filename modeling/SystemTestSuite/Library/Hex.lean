import SystemTestSuite.Library.CString

namespace SystemTestSuite.Library

def hexDigit (n : ℕ) : UInt8 := UInt8.ofNat (if n < 10 then 48 + n else 55 + n)

def hexOctet (b : UInt8) : Bytes := [hexDigit (b.toNat / 16), hexDigit (b.toNat % 16)]

def hexText (bs : Bytes) : Bytes := bs.flatMap hexOctet

def hexValue (c : UInt8) : Option ℕ :=
  if isDigit c then some (c.toNat - 48)
  else if 65 ≤ c ∧ c ≤ 70 then some (c.toNat - 55)
  else if 97 ≤ c ∧ c ≤ 102 then some (c.toNat - 87)
  else none

def hexOctets : Bytes → Option Bytes
  | [] => some []
  | [_] => none
  | c :: d :: rest =>
    match hexValue c, hexValue d, hexOctets rest with
    | some hi, some lo, some bs => some (UInt8.ofNat (16 * hi + lo) :: bs)
    | _, _, _ => none

theorem hexOctets_pair {c d : UInt8} {rest octets : Bytes}
    (h : hexOctets (c :: d :: rest) = some octets) :
    ∃ high low more, hexValue c = some high ∧ hexValue d = some low ∧
      hexOctets rest = some more ∧ octets = UInt8.ofNat (16 * high + low) :: more := by
  rw [hexOctets] at h
  split at h
  · rename_i high low more hc hd hrest
    exact ⟨high, low, more, hc, hd, hrest, (Option.some.inj h).symm⟩
  · cases h

theorem hexOctets_digits {hex octets : Bytes} (h : hexOctets hex = some octets) :
    ∀ c ∈ hex, (hexValue c).isSome = true := by
  match hex with
  | [] => exact fun c hc => absurd hc List.not_mem_nil
  | [_] => cases h
  | c :: d :: rest =>
    obtain ⟨high, low, more, hc, hd, hrest, -⟩ := hexOctets_pair h
    intro b hb
    rcases List.mem_cons.mp hb with rfl | hb
    · rw [hc]
      rfl
    rcases List.mem_cons.mp hb with rfl | hb
    · rw [hd]
      rfl
    · exact hexOctets_digits hrest b hb

theorem hexValue_ge {b : UInt8} {n : ℕ} (h : hexValue b = some n) : b ≥ 48 := by
  unfold hexValue at h
  simp only [isDigit, Bool.and_eq_true, decide_eq_true_eq] at h
  rw [ge_iff_le, UInt8.le_iff_toNat_le]
  split_ifs at h with hdigit hupper hlower
  · exact UInt8.le_iff_toNat_le.mp hdigit.1
  · exact le_trans (by decide) (UInt8.le_iff_toNat_le.mp hupper.1)
  · exact le_trans (by decide) (UInt8.le_iff_toNat_le.mp hlower.1)

theorem hexDigit_ne {b : UInt8} (h : (hexValue b).isSome = true) {c : UInt8} (hc : hexValue c = none) :
    b ≠ c := by
  rintro rfl
  rw [hc] at h
  cases h

theorem hexDigit_not_space {b : UInt8} (h : (hexValue b).isSome = true) : isSpace b = false := by
  obtain ⟨n, hn⟩ := Option.isSome_iff_exists.mp h
  have hge := hexValue_ge hn
  simp only [ge_iff_le, UInt8.le_iff_toNat_le] at hge
  simp only [isSpace, Bool.or_eq_false_iff, decide_eq_false_iff_not, Bool.and_eq_false_iff,
    UInt8.le_iff_toNat_le]
  refine ⟨?_, Or.inr ?_⟩
  · rintro rfl
    exact absurd hge (by decide)
  · exact fun hle => absurd (hge.trans hle) (by decide)

theorem hexValue_hexDigit : ∀ n < 16, hexValue (hexDigit n) = some n := by
  decide

theorem hexText_length (bs : Bytes) : (hexText bs).length = 2 * bs.length := by
  induction bs with
  | nil => rfl
  | cons b bs ih =>
    have hcons : hexText (b :: bs) = hexOctet b ++ hexText bs := rfl
    have hoctet : (hexOctet b).length = 2 := rfl
    rw [hcons, List.length_append, hoctet, ih, List.length_cons]
    omega

theorem hexOctets_hexText (bs : Bytes) : hexOctets (hexText bs) = some bs := by
  induction bs with
  | nil => rfl
  | cons b bs ih =>
    have hb : b.toNat < 256 := b.toNat_lt
    have hhi := hexValue_hexDigit (b.toNat / 16) (by omega)
    have hlo := hexValue_hexDigit (b.toNat % 16) (by omega)
    have hsum : UInt8.ofNat (16 * (b.toNat / 16) + b.toNat % 16) = b := by
      rw [Nat.div_add_mod, UInt8.ofNat_toNat]
    have hcons : hexText (b :: bs) =
        hexDigit (b.toNat / 16) :: hexDigit (b.toNat % 16) :: hexText bs := rfl
    rw [hcons, hexOctets, hhi, hlo, ih]
    simp only [hsum]

end SystemTestSuite.Library
