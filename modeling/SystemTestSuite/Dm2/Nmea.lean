import SystemTestSuite.GsmDaemon.Message
import SystemTestSuite.Library.FieldSplit
import SystemTestSuite.Library.Scanf

/-!
The NMEA sentences that `nmea.c` takes apart: `GPGGA`, `GPGSV` and `GPGSA`. A structure is the
memory from its start on; the sentence is split in place at each `,` and `*`.
-/

namespace SystemTestSuite.Dm2

open Library GsmDaemon

def isDelim (b : UInt8) : Bool := b = 44 || b = 42

structure Member where
  off : ℕ
  size : ℕ

def copyTo (m : Memory) (member : Member) (text : Bytes) : Memory :=
  m.store member.off (strncpy text member.size)

namespace NmeaGga

def sentence : Member := ⟨0, 8⟩
def time : Member := ⟨8, 16⟩
def latitude : Member := ⟨24, 16⟩
def la : Member := ⟨40, 4⟩
def longitude : Member := ⟨44, 16⟩
def lo : Member := ⟨60, 4⟩
def fixQuality : Member := ⟨64, 4⟩
def nos : Member := ⟨68, 4⟩
def hdop : Member := ⟨72, 8⟩
def alme : Member := ⟨80, 8⟩
def al : Member := ⟨88, 4⟩
def hog : Member := ⟨92, 8⟩
def ho : Member := ⟨100, 4⟩
def tis : Member := ⟨104, 16⟩
def dgps : Member := ⟨120, 16⟩
def checksum : Member := ⟨136, 4⟩

def members : List Member :=
  [sentence, time, latitude, la, longitude, lo, fixQuality, nos, hdop, alme, al, hog, ho, tis, dgps,
    checksum]

end NmeaGga

structure GgaState where
  gga : Memory
  i : ℕ

def ggaField (s : GgaState) (text : Bytes) : GgaState :=
  match NmeaGga.members[s.i]? with
  | some member => { gga := copyTo s.gga member text, i := s.i + 1 }
  | none => s

def gpgga (str : Bytes) (gga : Memory) : Option (Bytes × GgaState) :=
  splitFields isDelim (fun s str pptr _ => some (ggaField s (str.drop pptr))) str ⟨gga, 0⟩

namespace NmeaGsv

def sentence : Member := ⟨0, 8⟩
def nose : Member := ⟨8, 4⟩
def sn : Member := ⟨12, 4⟩
def nosa : Member := ⟨16, 4⟩
def sate (j k : ℕ) : Member := ⟨20 + 16 * j + 4 * k, 4⟩
def checksum : Member := ⟨84, 4⟩
def n : ℕ := 88

end NmeaGsv

def sizeofGsv : ℕ := 92

/-- `atoi` at `off` in a structure, `none` when it reads on behind the structure. -/
def atoiIn (m : Memory) (off size : ℕ) : Option ℤ :=
  let text := m.slice off (size - off)
  if atoiRest text = [] then none else some (atoi text)

inductive GsvWrite
  | sate (j k : ℕ)
  | member (member : Member)
  | table (prn : ℕ)

/-- `writes` records what is written to the structure and to `table_prn_sn`. -/
structure GsvState where
  gsv : Memory
  table : ℕ → ℤ
  i : ℕ
  j : ℕ
  k : ℕ
  checksum : Bool
  writes : List GsvWrite

namespace GsvState

def copy (s : GsvState) (member : Member) (text : Bytes) : GsvState :=
  { s with gsv := copyTo s.gsv member text, i := s.i + 1, writes := s.writes ++ [.member member] }

def endList (s : GsvState) : GsvState :=
  if s.checksum then { s with gsv := s.gsv.store NmeaGsv.n (intBytes s.j), i := 5 } else s

def sateNumber (s : GsvState) (k : ℕ) : Option ℤ := atoiIn s.gsv (NmeaGsv.sate s.j k).off sizeofGsv

/-- The case 4; a satellite that is left out breaks out of the `switch`. -/
def sate (s : GsvState) (text : Bytes) : Option GsvState :=
  let s : GsvState := { s with
    gsv := copyTo s.gsv (NmeaGsv.sate s.j s.k) text
    k := s.k + 1
    writes := s.writes ++ [.sate s.j s.k] }
  if s.k ≥ 4 then do
    let prn ← s.sateNumber 0
    let _el ← s.sateNumber 1
    let _az ← s.sateNumber 2
    let SN0 ← s.sateNumber 3
    if prn < 1 then some s
    else if prn > 32 then some s
    else if SN0 ≥ 3120 then some s
    else
      let s : GsvState := { s with
        table := fun p => if p = prn.toNat then SN0 else s.table p
        writes := s.writes ++ [.table prn.toNat]
        k := 0
        j := s.j + 1 }
      some s.endList
  else some s.endList

end GsvState

/-- `ended` is what stands at the end of the field when the `*` is looked for. -/
def gsvField (s : GsvState) (text : Bytes) (ended : UInt8) : Option GsvState :=
  let s := if ended = 42 then { s with checksum := true } else s
  match s.i with
  | 0 => some (s.copy NmeaGsv.sentence text)
  | 1 => some (s.copy NmeaGsv.nose text)
  | 2 => some (s.copy NmeaGsv.sn text)
  | 3 => some (s.copy NmeaGsv.nosa text)
  | 5 => some (s.copy NmeaGsv.checksum text)
  | 4 => s.sate text
  | _ => some s

def gpgsv (str : Bytes) (gsv : Memory) (table : ℕ → ℤ) : Option (Bytes × GsvState) :=
  splitFields isDelim (fun s str pptr ptr => str[ptr]?.bind (gsvField s (str.drop pptr))) str
    ⟨gsv, table, 0, 0, 0, false, []⟩

namespace NmeaGsa

def sentence : Member := ⟨0, 8⟩
def am : Member := ⟨8, 4⟩
def mode : Member := ⟨12, 4⟩
def id (j : ℕ) : Member := ⟨16 + 4 * j, 4⟩
def pdop : Member := ⟨64, 8⟩
def hdop : Member := ⟨72, 8⟩
def vdop : Member := ⟨80, 8⟩
def checksum : Member := ⟨88, 4⟩
def n : ℕ := 92

end NmeaGsa

structure GsaState where
  gsa : Memory
  i : ℕ
  j : ℕ

def GsaState.copy (s : GsaState) (member : Member) (text : Bytes) : GsaState :=
  { s with gsa := copyTo s.gsa member text, i := s.i + 1 }

def gsaField (s : GsaState) (text : Bytes) : GsaState :=
  match s.i with
  | 0 => s.copy NmeaGsa.sentence text
  | 1 => s.copy NmeaGsa.am text
  | 2 => s.copy NmeaGsa.mode text
  | 4 => s.copy NmeaGsa.pdop text
  | 5 => s.copy NmeaGsa.hdop text
  | 6 => s.copy NmeaGsa.vdop text
  | 7 => s.copy NmeaGsa.checksum text
  | 3 =>
    if s.j < 12 then { s with gsa := copyTo s.gsa (NmeaGsa.id s.j) text, j := s.j + 1 }
    else { s with i := s.i + 1 }
  | _ => s

/-- `n` counts the ids whose `strlen` is not 0. -/
def gpgsa (str : Bytes) (gsa : Memory) : Option (Bytes × Memory) :=
  (splitFields isDelim (fun s str pptr _ => some (gsaField s (str.drop pptr))) str ⟨gsa, 0, 0⟩).map
    fun r =>
      let used := (List.range 12).countP fun i => r.2.gsa (NmeaGsa.id i).off ≠ 0
      (r.1, r.2.gsa.store NmeaGsa.n (intBytes used))

end SystemTestSuite.Dm2
