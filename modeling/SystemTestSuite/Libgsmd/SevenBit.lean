import SystemTestSuite.GsmDaemon.SmsPdu
import SystemTestSuite.Library.Gather
import SystemTestSuite.Library.Septets

/-!
The packing and unpacking of seven-bit characters of `libgsmd/libgsmd_sms.c`. `char` is unsigned,
as on the ARM target.
-/

namespace SystemTestSuite.Libgsmd

open Library GsmDaemon

def lgsmSmsDataMaxlen : ℕ := 140

/-- `addr` and `ask_ds` are not touched here. -/
structure LgsmSms where
  alpha : UInt8
  data : Memory
  length : ℕ

def packingLoop (src : Bytes) (i shift j : ℕ) (data : Memory) : ℕ × ℕ × Memory :=
  if i < src.length then
    let ch1 := ofText src i &&& 0x7f
    let ch1 := ch1 >>> UInt8.ofNat shift
    let ch2 := ofText src (i + 1) &&& 0x7f
    let ch2 := ch2 <<< UInt8.ofNat (7 - shift)
    let ch1 := ch1 ||| ch2
    if j > lgsmSmsDataMaxlen + 1 then (i, j, data)
    else
      let data := data.store j [ch1]
      if 7 = shift + 1 then packingLoop src (i + 2) 0 (j + 1) data
      else packingLoop src (i + 1) (shift + 1) (j + 1) data
  else (i, j, data)
termination_by src.length - i

def packing7bitCharacter (src : Bytes) (dest : LgsmSms) : LgsmSms × ℕ :=
  let r := packingLoop src 0 0 0 dest.data
  ({ dest with alpha := alphabetDefault, length := r.1, data := r.2.2 }, r.2.1)

/-- A read of the array `data`, which has `GSMD_SMS_DATA_MAXLEN + 1` octets. -/
def dataOctet (src : GsmdSms) (i : ℕ) : Option UInt8 :=
  if i < gsmdSmsDataMaxlen + 1 then some (src.data i) else none

def unpackedAt (src : GsmdSms) (i : ℕ) : Option UInt8 := do
  let high ← dataOctet src ((i * 7 + 7) >>> 3)
  let low ← dataOctet src ((i * 7) >>> 3)
  return septetOf high low i

def unpackingStart (src : GsmdSms) : Option ℕ :=
  if src.hasHeader ≠ 0 then (dataOctet src 0).map (fun b => ((b.toNat <<< 3) + 14) / 7)
  else some 0

/-- What is written to `dest`, and the return value; `none` is a read outside `data`. -/
def unpacking7bitCharacter (src : GsmdSms) : Option (Bytes × ℕ) := do
  let start ← unpackingStart src
  let chars ← (List.range' start (src.length.toNat - start)).mapM (unpackedAt src)
  return (chars ++ [0], max start src.length.toNat)

end SystemTestSuite.Libgsmd
