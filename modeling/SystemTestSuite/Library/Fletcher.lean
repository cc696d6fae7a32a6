import SystemTestSuite.Library.Memory
import Mathlib.Data.List.Infix

namespace SystemTestSuite.Library

def byteSum (bs : Bytes) : ℕ := (bs.map UInt8.toNat).sum

def fletcher (bs : Bytes) : UInt8 × UInt8 :=
  (UInt8.ofNat (byteSum bs), UInt8.ofNat (bs.inits.map byteSum).sum)

def fletcherStep (c : UInt8 × UInt8) (b : UInt8) : UInt8 × UInt8 := (c.1 + b, c.2 + (c.1 + b))

theorem byteSum_concat (bs : Bytes) (b : UInt8) : byteSum (bs ++ [b]) = byteSum bs + b.toNat := by
  simp [byteSum]

theorem fletcher_concat (bs : Bytes) (b : UInt8) :
    fletcher (bs ++ [b]) = fletcherStep (fletcher bs) b := by
  have hinits : (bs ++ [b]).inits = bs.inits ++ [bs ++ [b]] := by
    rw [List.inits_append]
    rfl
  have hsum : UInt8.ofNat (byteSum (bs ++ [b])) = UInt8.ofNat (byteSum bs) + b := by
    rw [byteSum_concat, UInt8.ofNat_add, UInt8.ofNat_toNat]
  rw [fletcher, fletcherStep, fletcher, hinits, List.map_append, List.sum_append, List.map_singleton,
    List.sum_singleton, UInt8.ofNat_add, hsum]

theorem foldl_fletcherStep (bs : Bytes) : bs.foldl fletcherStep (0, 0) = fletcher bs := by
  induction bs using List.reverseRecOn with
  | nil => rfl
  | append_singleton bs b ih =>
    rw [List.foldl_append, List.foldl_cons, List.foldl_nil, ih, fletcher_concat]

end SystemTestSuite.Library
