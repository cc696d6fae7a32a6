import SystemTestSuite.GsmDaemon.SmsBounds
import SystemTestSuite.GsmDaemon.SmsStale

namespace SystemTestSuite.GsmDaemon

open Library

variable {dst msg : GsmdSmsList} {src src' : Bytes} {len len' : ℤ}
  {P : ℤ × GsmdSmsList → Prop}

theorem getElem?_longer (h : src <+: src') {i : ℕ} (b : UInt8) (hb : src[i]? = some b) :
    src'[i]? = some b := by
  obtain ⟨more, rfl⟩ := h
  obtain ⟨hi, rfl⟩ := List.getElem?_eq_some_iff.mp hb
  rw [List.getElem?_append_left hi, List.getElem?_eq_getElem hi]

theorem longer_drop (h : src <+: src') (n : ℕ) : src.drop n <+: src'.drop n := by
  obtain ⟨more, rfl⟩ := h
  rw [List.drop_append]
  exact List.prefix_append _ _

theorem readOctets_longer (h : src <+: src') {off n : ℕ} (octets : Bytes)
    (hr : readOctets src off n = some octets) : readOctets src' off n = some octets := by
  unfold readOctets at hr ⊢
  split_ifs at hr with hn
  have hlen := h.length_le
  obtain ⟨more, rfl⟩ := h
  have htake : n ≤ (src.drop off).length := by
    rw [List.length_drop]
    omega
  rw [if_pos (by omega), ← hr, List.drop_append_of_le_length (by omega),
    List.take_append_of_le_length htake]

theorem smsAddress2ascii_longer (h : src <+: src') {addr : GsmdAddr} (r : ℤ × GsmdAddr)
    (hr : smsAddress2ascii addr src = some r) : smsAddress2ascii addr src' = some r := by
  have hseptet : ∀ i b, addressSeptet src i = some b → addressSeptet src' i = some b := by
    intro i b hb
    simp only [addressSeptet, Option.bind_eq_bind, Option.bind_eq_some_iff] at hb ⊢
    obtain ⟨high, hhigh, low, hlow, heq⟩ := hb
    exact ⟨high, getElem?_longer h _ hhigh, low, getElem?_longer h _ hlow, heq⟩
  have hdigit : ∀ i b, addressDigit src i = some b → addressDigit src' i = some b := by
    intro i b hb
    obtain ⟨octet, hoctet, heq⟩ := Option.map_eq_some_iff.mp hb
    exact Option.map_eq_some_iff.mpr ⟨octet, getElem?_longer h _ hoctet, heq⟩
  simp only [smsAddress2ascii, Option.bind_eq_bind, Option.bind_eq_some_iff] at hr ⊢
  obtain ⟨n, hn, hr⟩ := hr
  refine ⟨n, getElem?_longer h _ hn, ?_⟩
  split_ifs at hr ⊢
  · exact hr
  · obtain ⟨type, htype, hr⟩ := Option.bind_eq_some_iff.mp hr
    rw [getElem?_longer h _ htype, Option.bind_some]
    split_ifs at hr ⊢
    · obtain ⟨number, hnumber, hr⟩ := Option.bind_eq_some_iff.mp hr
      exact Option.bind_eq_some_iff.mpr ⟨number, mapM_mono hseptet hnumber, hr⟩
    · obtain ⟨number, hnumber, hr⟩ := Option.bind_eq_some_iff.mp hr
      exact Option.bind_eq_some_iff.mpr ⟨number, mapM_mono hdigit hnumber, hr⟩

structure Longer (P : ℤ × GsmdSmsList → Prop) (src src' : Bytes) (len len' : ℤ) : Prop where
  octets : src <+: src'
  le : len ≤ len'
  rejects : ∀ dst, P (1, dst) → len = len'

theorem Longer.drop (h : Longer P src src' len len') (n : ℕ) (m : ℤ) :
    Longer P (src.drop n) (src'.drop n) (len - m) (len' - m) where
  octets := longer_drop h.octets n
  le := by
    have hle := h.le
    omega
  rejects dst hdst := by rw [h.rejects dst hdst]

theorem Longer.check (h : Longer P src src' len len') {n : ℤ} {c : Prop} [Decidable c]
    {a b : Option (ℤ × GsmdSmsList)} (hab : Keeps P a b) :
    Keeps P (if len < n ∨ c then some (1, dst) else a)
      (if len' < n ∨ c then some (1, dst) else b) := by
  have hle := h.le
  apply Keeps.guard _ _ hab
  · apply Or.imp_left
    omega
  · intro hc hP
    rwa [← h.rejects dst hP]

theorem Longer.short (h : Longer P src src' len len') {n : ℤ} {a b : Option (ℤ × GsmdSmsList)}
    (hab : Keeps P a b) :
    Keeps P (if len < n then some (1, dst) else a) (if len' < n then some (1, dst) else b) := by
  have hcheck := @Longer.check dst src src' len len' P h n False _ a b hab
  simpa only [or_false] using hcheck

theorem tpUserData_longer (h : Longer P src src' len len') :
    Keeps P (tpUserData dst src len) (tpUserData dst src' len') := by
  unfold tpUserData
  apply Keeps.bind (getElem?_longer h.octets)
  intro udl _
  apply h.check
  apply Keeps.bind (readOctets_longer h.octets)
  exact fun data _ => Keeps.refl _

theorem Longer.address (h : Longer P src src' len len') (i j k : ℕ) (n : ℤ)
    {rest rest' : UInt8 → UInt8 → ℤ × GsmdAddr → Option (ℤ × GsmdSmsList)}
    (hrest : ∀ toa digits addr, Keeps P (rest toa digits addr) (rest' toa digits addr)) :
    Keeps P
      (src[i]?.bind fun toa => src[j]?.bind fun digits =>
        if len < n + smsNumberBytelen toa digits then some (1, dst)
        else (smsAddress2ascii dst.addr (src.drop k)).bind fun addr =>
          if addr.1 ≠ 0 then some (1, { dst with addr := addr.2 }) else rest toa digits addr)
      (src'[i]?.bind fun toa => src'[j]?.bind fun digits =>
        if len' < n + smsNumberBytelen toa digits then some (1, dst)
        else (smsAddress2ascii dst.addr (src'.drop k)).bind fun addr =>
          if addr.1 ≠ 0 then some (1, { dst with addr := addr.2 }) else rest' toa digits addr) := by
  apply Keeps.bind (getElem?_longer h.octets)
  intro toa _
  apply Keeps.bind (getElem?_longer h.octets)
  intro digits _
  apply h.short
  apply Keeps.bind (smsAddress2ascii_longer (longer_drop h.octets k))
  intro addr _
  exact Keeps.guard id (fun hne _ => hne) (hrest toa digits addr)

theorem pduDeliver_longer (h : Longer P src src' len len') :
    Keeps P (pduDeliver dst src len) (pduDeliver dst src' len') := by
  unfold pduDeliver
  apply h.short
  apply h.address 2 1 1 13
  intro toa digits addr
  apply Keeps.bind (getElem?_longer (longer_drop h.octets _))
  intro pid _
  apply Keeps.bind (getElem?_longer (longer_drop h.octets _))
  intro data _
  dsimp only
  cases tpDcs data with
  | none => exact Keeps.refl _
  | some codingScheme =>
    apply Keeps.bind (readOctets_longer (longer_drop h.octets _))
    intro stamp _
    exact tpUserData_longer ((h.drop _ _).drop 9 9)

theorem pduSubmit_longer (h : Longer P src src' len len') (vpf : UInt8) :
    Keeps P (pduSubmit dst vpf src len) (pduSubmit dst vpf src' len') := by
  unfold pduSubmit
  apply h.short
  apply h.address 3 2 2 8
  intro toa digits addr
  apply Keeps.bind (getElem?_longer (longer_drop h.octets _))
  intro data _
  dsimp only
  cases tpDcs data with
  | none => exact Keeps.refl _
  | some codingScheme => exact tpUserData_longer ((h.drop _ _).drop _ _)

theorem pduStatusReport_longer (h : Longer P src src' len len')
    (hlast : ∀ s, src[(len - 1).toNat]? = some s → src'[(len' - 1).toNat]? = some s) :
    Keeps P (pduStatusReport dst src len) (pduStatusReport dst src' len') := by
  unfold pduStatusReport
  apply h.short
  apply Keeps.bind (getElem?_longer h.octets)
  intro reference _
  apply Keeps.bind hlast
  intro status _
  apply h.address 3 2 2 13
  intro toa digits addr
  apply Keeps.bind (readOctets_longer (longer_drop h.octets _))
  exact fun stamp _ => Keeps.refl _

theorem pduOfType_longer (h : Longer P src src' len len') (first : UInt8)
    (hlast : first &&& 3 = tpMtiStatusReport → ∀ s,
      src[(len - 1).toNat]? = some s → src'[(len' - 1).toNat]? = some s) :
    Keeps P (pduOfType dst first src len) (pduOfType dst first src' len') := by
  unfold pduOfType
  split_ifs with hdeliver hsubmit hreport
  · exact pduDeliver_longer h
  · exact pduSubmit_longer h _
  · exact pduStatusReport_longer h (hlast hreport)
  · exact Keeps.refl _

def IsReport (src : Bytes) : Prop :=
  ∃ smsc ∈ src.head?, ∃ first ∈ src[1 + smsc.toNat]?, first &&& 3 = tpMtiStatusReport

theorem isReport_iff {smsc first : UInt8} (hsmsc : src[0]? = some smsc)
    (hfirst : src[1 + smsc.toNat]? = some first) :
    IsReport src ↔ first &&& 3 = tpMtiStatusReport := by
  rw [IsReport, List.head?_eq_getElem?, hsmsc]
  simp only [Option.mem_some_iff, exists_eq_left', hfirst]

theorem smsPduToMsg_longer (h : Longer P src src' len len') {pdulen : ℤ}
    (hlast : IsReport src → ∀ (n : ℕ) s, (src.drop n)[(len - n - 1).toNat]? = some s →
      (src'.drop n)[(len' - n - 1).toNat]? = some s) :
    Keeps P (smsPduToMsg dst src pdulen len) (smsPduToMsg dst src' pdulen len') := by
  unfold smsPduToMsg
  apply h.short
  apply Keeps.bind (getElem?_longer h.octets)
  intro smsc hsmsc
  apply h.check
  apply Keeps.bind (getElem?_longer (longer_drop h.octets _))
  intro first hfirst
  have hrest := h.drop (1 + smsc.toNat) (1 + smsc.toNat)
  apply pduOfType_longer hrest first
  intro hreport s hs
  rw [List.getElem?_drop, Nat.add_zero] at hfirst
  have hl := hlast ((isReport_iff hsmsc hfirst).mpr hreport) (1 + smsc.toNat) s
  push_cast at hl
  exact hl hs

theorem smsPduToMsg_behind {r : ℤ × GsmdSmsList} {pdulen : ℤ}
    (hr : smsPduToMsg dst src pdulen len = some r) (more : Bytes) :
    smsPduToMsg dst (src ++ more) pdulen len = some r := by
  have hfront : src <+: src ++ more := List.prefix_append src more
  have h : Longer (fun _ => True) src (src ++ more) len len :=
    ⟨hfront, Int.le_refl _, fun _ _ => rfl⟩
  exact smsPduToMsg_longer h (fun _ n => getElem?_longer (longer_drop hfront n)) r trivial hr

theorem pduStatusReport_three : pduStatusReport dst src 3 ≠ some (0, msg) := by
  intro h
  have hthree : ¬ (3 : ℤ) < 3 := by decide
  simp only [pduStatusReport, Option.bind_eq_bind, if_neg hthree, Option.bind_eq_some_iff] at h
  obtain ⟨reference, _, status, _, toa, _, digits, _, h⟩ := h
  rw [if_pos (by omega)] at h
  cases h

theorem smsPduToMsg_behind_iff {pdulen : ℤ} (hhigh : pdulen ≤ 164) (more : Bytes) :
    smsPduToMsg dst (src ++ more) pdulen src.length = some (0, msg) ↔
      smsPduToMsg dst src pdulen src.length = some (0, msg) := by
  refine ⟨fun h => ?_, fun h => smsPduToMsg_behind h more⟩
  by_cases hin : StaysInside dst (smsPduToMsg dst src pdulen src.length)
  · obtain ⟨ret, msg', hr, -⟩ := hin
    rw [smsPduToMsg_behind hr more] at h
    rwa [h] at hr
  · rw [smsPduToMsg_inside (by omega), not_not] at hin
    obtain ⟨⟨smsc, hsmsc, hlow, hpass⟩, smsc', hsmsc', hshort⟩ := hin
    obtain rfl : smsc = smsc' := Option.some.inj (hsmsc.symm.trans hsmsc')
    have hs : smsc.toNat < 256 := smsc.toNat_lt
    rw [WrapsAround] at hpass
    have hlen : src.length = 1 + smsc.toNat + 3 := by omega
    obtain ⟨first, hfirst, htype⟩ := (hshort.resolve_left (by omega)).2
    have hfront : src <+: src ++ more := List.prefix_append src more
    have hfirst' : (src ++ more)[1 + smsc.toNat]? = some first := getElem?_longer hfront _ hfirst
    have hsmsc' : (src ++ more)[0]? = some smsc := by
      rw [List.head?_eq_getElem?] at hsmsc
      exact getElem?_longer hfront _ hsmsc
    have hone : ¬ (src.length : ℤ) < 1 := by omega
    have hcheck : ¬ ((src.length : ℤ) < Int.bmod (1 + smsc.toNat + pdulen) (2 ^ 32) ∨ pdulen < 1) :=
      not_or.mpr ⟨(bmod_sum hlow (by omega)).mpr hpass, Int.not_lt.mpr hlow⟩
    have hthree : (src.length : ℤ) - (1 + smsc.toNat) = 3 := by omega
    simp only [smsPduToMsg, if_neg hone, hsmsc', Option.bind_eq_bind, Option.bind_some, if_neg hcheck,
      List.getElem?_drop, Nat.add_zero, hfirst', hthree, htype] at h
    exact absurd h pduStatusReport_three

end SystemTestSuite.GsmDaemon
