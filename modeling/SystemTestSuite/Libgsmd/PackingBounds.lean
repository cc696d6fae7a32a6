import SystemTestSuite.Libgsmd.SevenBitText

/-!
`packing_7bit_character` with every read of `src` and every write to `data` checked. `none` is an
access outside.
-/

namespace SystemTestSuite.Libgsmd

open Library GsmDaemon

variable {s : Bytes}

def lgsmDataSize : ℕ := lgsmSmsDataMaxlen + 1

def checkedPacking (src : Bytes) (i shift j : ℕ) (data : Memory) : Option (ℕ × ℕ × Memory) :=
  if i < src.length then do
    let ch1 : UInt8 ← (src ++ [0])[i]?
    let ch2 : UInt8 ← (src ++ [0])[i + 1]?
    let ch1 := (ch1 &&& 0x7f) >>> UInt8.ofNat shift
    let ch2 := (ch2 &&& 0x7f) <<< UInt8.ofNat (7 - shift)
    let ch1 := ch1 ||| ch2
    if j > lgsmDataSize then return (i, j, data)
    else if j < lgsmDataSize then
      let data := data.store j [ch1]
      if 7 = shift + 1 then checkedPacking src (i + 2) 0 (j + 1) data
      else checkedPacking src (i + 1) (shift + 1) (j + 1) data
    else none
  else some (i, j, data)
termination_by src.length - i

/-- Nothing outside `data` is written, nothing behind the NUL is read, and no more octets are
returned than `data` has. -/
def StaysInData (s : Bytes) : Prop :=
  ∀ dest : LgsmSms, (checkedPacking s 0 0 0 dest.data).isSome = true ∧
    (packing7bitCharacter s dest).2 ≤ lgsmDataSize

theorem terminated_get {i : ℕ} (h : i ≤ s.length) : (s ++ [0])[i]? = some (ofText s i) := by
  rcases Nat.lt_or_eq_of_le h with hlt | rfl
  · rw [List.getElem?_append_left hlt, ofText, List.getElem?_eq_getElem hlt, Option.getD_some]
  · rw [List.getElem?_append_right le_rfl, Nat.sub_self, ofText, List.getElem?_eq_none le_rfl]
    rfl

theorem packingLoop_of_checked {i shift j : ℕ} {data : Memory} {r : ℕ × ℕ × Memory}
    (h : checkedPacking s i shift j data = some r) : packingLoop s i shift j data = r := by
  induction i, shift, j, data using packingLoop.induct s with
  | case1 i shift j data hi hj =>
    have hbreak : j > lgsmDataSize := hj
    rw [checkedPacking, if_pos hi, terminated_get hi.le, terminated_get hi] at h
    simp only [Option.bind_eq_bind, Option.bind_some, if_pos hbreak] at h
    rw [packingLoop, if_pos hi, if_pos hj]
    exact Option.some.inj h
  | case2 i shift j data hi ch1 ch1' ch2 ch2' ch hj data' hshift ih =>
    have hgo : ¬ j > lgsmDataSize := hj
    rw [checkedPacking, if_pos hi, terminated_get hi.le, terminated_get hi] at h
    simp only [Option.bind_eq_bind, Option.bind_some, if_neg hgo, if_pos hshift] at h
    split_ifs at h
    rw [packingLoop, if_pos hi, if_neg hj, if_pos hshift]
    exact ih h
  | case3 i shift j data hi ch1 ch1' ch2 ch2' ch hj data' hshift ih =>
    have hgo : ¬ j > lgsmDataSize := hj
    rw [checkedPacking, if_pos hi, terminated_get hi.le, terminated_get hi] at h
    simp only [Option.bind_eq_bind, Option.bind_some, if_neg hgo, if_neg hshift] at h
    split_ifs at h
    rw [packingLoop, if_pos hi, if_neg hj, if_neg hshift]
    exact ih h
  | case4 i shift j data hi =>
    rw [checkedPacking, if_neg hi] at h
    rw [packingLoop, if_neg hi]
    exact Option.some.inj h

theorem checkedPacking_step (data : Memory) {j : ℕ} (hj : j < packedLength s.length)
    (hroom : j < lgsmDataSize) :
    checkedPacking s (8 * j / 7) (8 * j % 7) j data =
      checkedPacking s (8 * (j + 1) / 7) (8 * (j + 1) % 7) (j + 1)
        (data.store j [packedOctet (ofText s) j]) := by
  rw [packedLength] at hj
  rw [checkedPacking, if_pos (by omega), terminated_get (by omega), terminated_get (by omega)]
  simp only [Option.bind_eq_bind, Option.bind_some]
  rw [if_neg (by omega), if_pos hroom]
  split_ifs with hshift
  · obtain ⟨hi, hs⟩ := septet_skips hshift
    rw [hi, hs]
    rfl
  · obtain ⟨hi, hs⟩ := septet_follows hshift
    rw [hi, hs]
    rfl

theorem checkedPacking_reaches {j : ℕ} (hj : j ≤ packedLength s.length) (hroom : j ≤ lgsmDataSize)
    (data : Memory) : ∃ data', checkedPacking s 0 0 0 data =
      checkedPacking s (8 * j / 7) (8 * j % 7) j data' := by
  induction j with
  | zero => exact ⟨data, rfl⟩
  | succ j ih =>
    obtain ⟨data', hdata⟩ := ih (by omega) (by omega)
    exact ⟨_, hdata.trans (checkedPacking_step data' hj hroom)⟩

theorem checkedPacking_end {data : Memory} :
    checkedPacking s (8 * packedLength s.length / 7) (8 * packedLength s.length % 7)
      (packedLength s.length) data =
        some (8 * packedLength s.length / 7, packedLength s.length, data) := by
  have hend : ¬ 8 * packedLength s.length / 7 < s.length := by
    rw [packedLength]
    omega
  rw [checkedPacking, if_neg hend]

theorem checkedPacking_outside {data : Memory} (h : lgsmDataSize < packedLength s.length) :
    checkedPacking s (8 * lgsmDataSize / 7) (8 * lgsmDataSize % 7) lgsmDataSize data = none := by
  rw [packedLength] at h
  rw [checkedPacking, if_pos (by omega), terminated_get (by omega), terminated_get (by omega)]
  simp only [Option.bind_eq_bind, Option.bind_some]
  rw [if_neg (Nat.lt_irrefl _), if_neg (Nat.lt_irrefl _)]

theorem staysInData_iff : StaysInData s ↔ s.length ≤ 161 := by
  have hroom : packedLength s.length ≤ lgsmDataSize ↔ s.length ≤ 161 := by
    rw [packedLength, lgsmDataSize, lgsmSmsDataMaxlen]
    omega
  rw [← hroom]
  constructor
  · intro h
    by_contra hlong
    obtain ⟨data, hdata⟩ := @checkedPacking_reaches s lgsmDataSize (by omega) le_rfl Memory.zero
    have hsome := (h ⟨0, Memory.zero, 0⟩).1
    rw [hdata, checkedPacking_outside (by omega)] at hsome
    cases hsome
  · intro h dest
    obtain ⟨data, hdata⟩ := checkedPacking_reaches le_rfl h dest.data
    rw [checkedPacking_end] at hdata
    have hloop := packingLoop_of_checked hdata
    refine ⟨Option.isSome_of_eq_some hdata, ?_⟩
    rw [packing7bitCharacter, hloop]
    exact h

theorem staysInData_long : ¬ StaysInData (List.replicate 162 65) := by
  intro h
  have hlong : lgsmDataSize < packedLength (List.replicate 162 (65 : UInt8)).length := by
    rw [List.length_replicate]
    decide
  obtain ⟨data, hdata⟩ := checkedPacking_reaches hlong.le le_rfl Memory.zero
  have hsome := (h ⟨0, Memory.zero, 0⟩).1
  rw [hdata, checkedPacking_outside hlong] at hsome
  cases hsome

end SystemTestSuite.Libgsmd
