import SystemTestSuite.Libgsmd.SevenBit
import SystemTestSuite.Library.CString

namespace SystemTestSuite.Libgsmd

open Library GsmDaemon

variable {s : Bytes}

def packedLength (n : ℕ) : ℕ := (7 * n + 7) / 8

theorem septet_skips {j : ℕ} (h : 7 = 8 * j % 7 + 1) :
    8 * (j + 1) / 7 = 8 * j / 7 + 2 ∧ 8 * (j + 1) % 7 = 0 := by
  omega

theorem septet_follows {j : ℕ} (h : ¬ 7 = 8 * j % 7 + 1) :
    8 * (j + 1) / 7 = 8 * j / 7 + 1 ∧ 8 * (j + 1) % 7 = 8 * j % 7 + 1 := by
  omega

theorem packingLoop_step (s : Bytes) {j : ℕ} (data : Memory) (hj : j < packedLength s.length)
    (hroom : j ≤ lgsmSmsDataMaxlen + 1) :
    packingLoop s (8 * j / 7) (8 * j % 7) j data =
      packingLoop s (8 * (j + 1) / 7) (8 * (j + 1) % 7) (j + 1)
        (data.store j [packedOctet (ofText s) j]) := by
  rw [packedLength] at hj
  rw [packingLoop, if_pos (by omega), if_neg (by omega)]
  split_ifs with hshift
  · obtain ⟨hi, hs⟩ := septet_skips hshift
    rw [hi, hs]
    rfl
  · obtain ⟨hi, hs⟩ := septet_follows hshift
    rw [hi, hs]
    rfl

theorem packingLoop_eq (s : Bytes) {j k : ℕ} (data : Memory)
    (hk : j + k = packedLength s.length) (hroom : packedLength s.length ≤ lgsmSmsDataMaxlen + 1) :
    packingLoop s (8 * j / 7) (8 * j % 7) j data =
      (8 * packedLength s.length / 7, packedLength s.length,
        data.store j ((List.range' j k).map (packedOctet (ofText s)))) := by
  induction k generalizing j data with
  | zero =>
    obtain rfl : j = packedLength s.length := hk
    have hend : ¬ 8 * packedLength s.length / 7 < s.length := by
      rw [packedLength]
      omega
    rw [packingLoop, if_neg hend, List.range'_zero, List.map_nil, Memory.store_nil]
  | succ k ih =>
    have hstore : (data.store j [packedOctet (ofText s) j]).store (j + 1)
        ((List.range' (j + 1) k).map (packedOctet (ofText s))) =
        data.store j (packedOctet (ofText s) j ::
          (List.range' (j + 1) k).map (packedOctet (ofText s))) :=
      (Memory.store_append data j [packedOctet (ofText s) j] _).symm
    rw [packingLoop_step s data (by omega) (by omega), ih _ (by omega), List.range'_succ,
      List.map_cons, hstore]

theorem packing7bitCharacter_eq (dest : LgsmSms)
    (hroom : packedLength s.length ≤ lgsmSmsDataMaxlen + 1) :
    packing7bitCharacter s dest =
      (⟨alphabetDefault,
        dest.data.store 0 ((List.range' 0 (packedLength s.length)).map (packedOctet (ofText s))),
        8 * packedLength s.length / 7⟩, packedLength s.length) := by
  have hloop := @packingLoop_eq s 0 (packedLength s.length) dest.data (Nat.zero_add _) hroom
  rw [packing7bitCharacter, hloop]

theorem packed_octet (dest : LgsmSms) (hroom : packedLength s.length ≤ lgsmSmsDataMaxlen + 1)
    {j : ℕ} (hj : j < packedLength s.length) :
    (packing7bitCharacter s dest).1.data j = packedOctet (ofText s) j := by
  have hinside := Memory.store_inside dest.data 0
    ((List.range' 0 (packedLength s.length)).map (packedOctet (ofText s))) (j := j) (by simpa using hj)
  rw [Nat.zero_add] at hinside
  rw [packing7bitCharacter_eq dest hroom]
  simpa using hinside

/-- One character too many is counted when the last octet has room for it. -/
theorem packed_length_iff (n : ℕ) : 8 * packedLength n / 7 = n ↔ n % 8 ≠ 7 := by
  obtain ⟨q, r, hr, rfl⟩ : ∃ q r, r < 8 ∧ n = 8 * q + r :=
    ⟨n / 8, n % 8, Nat.mod_lt _ (by decide), (Nat.div_add_mod n 8).symm⟩
  have hlen : packedLength (8 * q + r) = 7 * q + packedLength r := by
    rw [packedLength, packedLength]
    omega
  have hrest : ∀ r < 8, 8 * packedLength r / 7 = r ↔ r ≠ 7 := by decide
  have hmod : (8 * q + r) % 8 = r := by omega
  rw [hlen, hmod, ← hrest r hr]
  omega

structure Survives (s : Bytes) : Prop where
  length : ∀ dest, (packing7bitCharacter s dest).1.length = s.length
  returns : ∀ dest, (packing7bitCharacter s dest).2 = (7 * s.length + 7) / 8
  bits : ∀ dest, ∀ p < 8 * (packing7bitCharacter s dest).2,
    bitAt 8 (packing7bitCharacter s dest).1.data p = bitAt 7 (ofText s) p
  unpacked : ∀ dest sms, sms.hasHeader = 0 →
    sms.length.toNat = (packing7bitCharacter s dest).1.length →
    (∀ j < (packing7bitCharacter s dest).2,
      sms.data j = (packing7bitCharacter s dest).1.data j) →
    unpacking7bitCharacter sms = some (s ++ [0], s.length)

theorem unpackedAt_eq {sms : GsmdSms} {i : ℕ} (h : (i * 7 + 7) / 8 < gsmdSmsDataMaxlen + 1) :
    unpackedAt sms i = some (unpackedSeptet sms.data i) := by
  have hlow : i * 7 / 8 < gsmdSmsDataMaxlen + 1 := by omega
  simp only [unpackedAt, dataOctet, Nat.shiftRight_eq_div_pow, Nat.reducePow, if_pos h, if_pos hlow]
  rfl

theorem survives_unpacked {sms : GsmdSms} (hs : ∀ c ∈ s, c < 128) (hlen : s.length ≤ 160)
    (hheader : sms.hasHeader = 0) (hlength : sms.length.toNat = s.length)
    (hdata : ∀ j < packedLength s.length, sms.data j = packedOctet (ofText s) j) :
    unpacking7bitCharacter sms = some (s ++ [0], s.length) := by
  have hchars : (List.range' 0 s.length).mapM (unpackedAt sms) = some s := by
    apply mapM_range'
    intro i hi
    have hi' : ofText s i = s[i] := by simp [ofText, hi]
    have hsmall : ofText s i < 128 := hi' ▸ hs _ (List.getElem_mem hi)
    rw [Nat.zero_add, unpackedAt_eq (by rw [gsmdSmsDataMaxlen]; omega),
      unpacked_packed (by rw [packedLength]; omega) hsmall hdata, hi']
  rw [unpacking7bitCharacter, unpackingStart, if_neg (not_not_intro hheader)]
  simp only [Option.bind_eq_bind, Option.bind_some, Nat.sub_zero, hlength, hchars, Nat.zero_max]
  rfl

theorem survives_iff (hs : ∀ c ∈ s, 1 ≤ c ∧ c ≤ 127) (hlen : s.length ≤ 160) :
    Survives s ↔ s.length % 8 ≠ 7 := by
  have hroom : packedLength s.length ≤ lgsmSmsDataMaxlen + 1 := by
    rw [packedLength, lgsmSmsDataMaxlen]
    omega
  have hsmall : ∀ c ∈ s, c < 128 := fun c hc =>
    UInt8.lt_of_le_of_lt (hs c hc).2 (by decide)
  have hlength : ∀ dest, (packing7bitCharacter s dest).1.length = s.length ↔
      s.length % 8 ≠ 7 := by
    intro dest
    rw [packing7bitCharacter_eq dest hroom]
    exact packed_length_iff s.length
  have hreturns : ∀ dest, (packing7bitCharacter s dest).2 = packedLength s.length := by
    intro dest
    rw [packing7bitCharacter_eq dest hroom]
  constructor
  · exact fun h => (hlength ⟨0, Memory.zero, 0⟩).mp (h.length _)
  · intro hmod
    exact
      { length := fun dest => (hlength dest).mpr hmod
        returns := hreturns
        bits := fun dest p hp => by
          rw [hreturns] at hp
          have hsplit : p = 8 * (p / 8) + p % 8 := by omega
          rw [hsplit]
          exact bitAt_packed _ _ (by omega) (packed_octet dest hroom (by omega))
        unpacked := fun dest sms hheader hlen' hdata => by
          rw [(hlength dest).mpr hmod] at hlen'
          rw [hreturns] at hdata
          exact survives_unpacked hsmall hlen hheader hlen'
            (fun j hj => (hdata j hj).trans (packed_octet dest hroom hj)) }

theorem survives_hello : Survives (ascii "hellohello") := by
  have hall : (ascii "hellohello").all (fun c => 1 ≤ c ∧ c ≤ 127) = true := by decide
  exact (survives_iff (by simpa using hall) (by decide)).mpr (by decide)

theorem not_survives_seven : ¬ Survives (ascii "ABCDEFG") := by
  intro h
  have hlength := h.length ⟨0, Memory.zero, 0⟩
  rw [packing7bitCharacter_eq _ (by decide)] at hlength
  exact absurd hlength (by decide)

end SystemTestSuite.Libgsmd
