import SystemTestSuite.Library.Memory

/-!
C strings as byte lists, with the library functions that read them. The bytes from the
first NUL on do not count.
-/

namespace SystemTestSuite.Library

def ascii (s : String) : Bytes := s.toList.map (fun c => c.toNat.toUInt8)

def cstr (bs : Bytes) : Bytes := bs.takeWhile (· ≠ 0)

def strncmp (a b : Bytes) (n : ℕ) : Prop := (cstr a).take n = (cstr b).take n

instance (a b : Bytes) (n : ℕ) : Decidable (strncmp a b n) :=
  inferInstanceAs (Decidable (_ = _))

def strchr (s : Bytes) (c : UInt8) : Option ℕ := (cstr s).findIdx? (· = c)

def strchrFinds (s : Bytes) (c : UInt8) : Prop := c = 0 ∨ c ∈ cstr s

instance (s : Bytes) (c : UInt8) : Decidable (strchrFinds s c) :=
  inferInstanceAs (Decidable (_ ∨ _))

def strncpy (src : Bytes) (n : ℕ) : Bytes :=
  (cstr src).take n ++ List.replicate (n - (cstr src).length) 0

def isSpace (b : UInt8) : Bool := b = 32 || (9 ≤ b && b ≤ 13)

def isDigit (b : UInt8) : Bool := 48 ≤ b && b ≤ 57

def digitsValue (ds : Bytes) : ℕ := ds.foldl (fun n d => 10 * n + (d - 48).toNat) 0

/-- `strtoul(s, &end, 10)` with a 32-bit `unsigned long`: the value and what is left of `s`. -/
def strtoul (s : Bytes) : ℕ × Bytes :=
  let body := (cstr s).dropWhile isSpace
  let neg := body.head? = some 45
  let rest := if body.head? = some 45 ∨ body.head? = some 43 then body.tail else body
  let ds := rest.takeWhile isDigit
  if ds = [] then (0, s)
  else
    let v := digitsValue ds
    (if 2 ^ 32 ≤ v then 2 ^ 32 - 1 else if neg then (2 ^ 32 - v) % 2 ^ 32 else v,
      rest.dropWhile isDigit)

def printInt (z : ℤ) : Bytes :=
  (if z < 0 then [45] else []) ++ (Nat.toDigits 10 z.natAbs).map (fun c => c.toNat.toUInt8)

def toInt32 (n : ℕ) : ℤ := Int.bmod n (2 ^ 32)

theorem cstr_of_no_nul {bs : Bytes} (h : ∀ b ∈ bs, b ≠ 0) : cstr bs = bs := by
  apply List.takeWhile_eq_self_iff.mpr
  simpa using h

theorem cstr_ne_zero {bs : Bytes} : ∀ b ∈ cstr bs, b ≠ 0 := by
  intro b hb
  simpa using List.mem_takeWhile_imp hb

theorem no_nul_of_cstr {bs : Bytes} (h : cstr bs = bs) : ∀ b ∈ bs, b ≠ 0 :=
  h ▸ cstr_ne_zero

theorem no_nul_of_all {bs : Bytes} (h : bs.all (· ≠ 0) = true) : ∀ b ∈ bs, b ≠ 0 := by
  simpa using h

theorem plain_of_all {bs : Bytes} {c : UInt8} (h : bs.all (fun b => b ≠ 0 ∧ b ≠ c) = true) :
    ∀ b ∈ bs, b ≠ 0 ∧ b ≠ c := by
  simpa using h

@[simp] theorem cstr_nil : cstr [] = [] := rfl

theorem cstr_cons {b : UInt8} (h : b ≠ 0) (bs : Bytes) : cstr (b :: bs) = b :: cstr bs := by
  simp [cstr, h]

theorem cstr_append {as : Bytes} (h : ∀ a ∈ as, a ≠ 0) (bs : Bytes) :
    cstr (as ++ bs) = as ++ cstr bs := by
  rw [cstr, List.takeWhile_append_of_pos (by simpa using h), cstr]

theorem cstr_ended {as : Bytes} (h : ∀ a ∈ as, a ≠ 0) (bs : Bytes) : cstr (as ++ 0 :: bs) = as := by
  have hnul : cstr (0 :: bs) = [] := rfl
  rw [cstr_append h, hnul, List.append_nil]

theorem cstr_terminated {bs : Bytes} (h : 0 ∈ bs) : ∃ rest, bs = cstr bs ++ 0 :: rest := by
  induction bs with
  | nil => cases h
  | cons b bs ih =>
    by_cases hb : b = 0
    · refine ⟨bs, ?_⟩
      rw [hb]
      rfl
    · obtain ⟨rest, hrest⟩ := ih ((List.mem_cons.mp h).resolve_left (Ne.symm hb))
      refine ⟨rest, ?_⟩
      rw [cstr_cons hb, List.cons_append, ← hrest]

theorem string?_store_zero (off room : ℕ) (text : Bytes) :
    (Memory.zero.store off text).string? off room =
      if (cstr text).length < room then some (cstr text) else none := by
  induction text generalizing off room with
  | nil => cases room <;> simp [Memory.string?, Memory.zero]
  | cons c cs ih =>
    cases room with
    | zero => simp [Memory.string?]
    | succ room =>
      have hfirst : Memory.zero.store off (c :: cs) off = c := by simp [Memory.store]
      rw [Memory.string?, hfirst]
      by_cases hc : c = 0
      · simp [hc, cstr]
      · have hrest : (Memory.zero.store off (c :: cs)).string? (off + 1) room =
            (Memory.zero.store (off + 1) cs).string? (off + 1) room := by
          have happend := Memory.store_append Memory.zero off [c] cs
          refine Memory.string?_congr (fun i hi _ => ?_)
          rw [List.singleton_append, List.length_singleton] at happend
          rw [happend]
          exact Memory.store_congr cs (Memory.store_behind _ _ (by simpa using hi))
        rw [if_neg hc, hrest, ih, cstr_cons hc, List.length_cons]
        by_cases hlen : (cstr cs).length < room
        · rw [if_pos hlen, if_pos (by omega)]
          rfl
        · rw [if_neg hlen, if_neg (by omega)]
          rfl

theorem strncpy_length (src : Bytes) (n : ℕ) : (strncpy src n).length = n := by
  rw [strncpy, List.length_append, List.length_take, List.length_replicate]
  omega

theorem string?_strncpy {m : Memory} {off n room : ℕ} {src : Bytes} (h : (cstr src).length < n)
    (hroom : (cstr src).length < room) : (m.store off (strncpy src n)).string? off room = some (cstr src) := by
  have hcopy : strncpy src n = cstr src ++ List.replicate (n - (cstr src).length) 0 := by
    rw [strncpy, List.take_of_length_le h.le]
  have hlen := strncpy_length src n
  refine (Memory.string?_eq_some_iff _).mpr ⟨hroom, ?_, cstr_ne_zero, ?_⟩
  · rw [hcopy, Memory.store_append, Memory.slice_store_before _ _ (Nat.le_refl _),
      Memory.slice_store_same]
  · rw [Memory.store_inside m off _ (by omega)]
    simp [hcopy]

theorem string?_strncpy_cut {m : Memory} {off n room : ℕ} {src : Bytes} (h : n ≤ (cstr src).length)
    (hroom : n ≤ room) : (m.store off (strncpy src n)).string? off room =
      (m.string? (off + n) (room - n)).map ((cstr src).take n ++ ·) := by
  have hcopy : strncpy src n = (cstr src).take n := by
    rw [strncpy, Nat.sub_eq_zero_of_le h, List.replicate_zero, List.append_nil]
  have hlen := strncpy_length src n
  have hslice : (m.store off (strncpy src n)).slice off n = (cstr src).take n := by
    have hsame := Memory.slice_store_same m off (strncpy src n)
    rw [hlen] at hsame
    exact hsame.trans hcopy
  have hno : ∀ b ∈ (m.store off (strncpy src n)).slice off n, b ≠ 0 := by
    rw [hslice]
    exact fun b hb => cstr_ne_zero b (List.mem_of_mem_take hb)
  rw [Memory.string?_append _ hroom hno, hslice]
  congr 1
  apply Memory.string?_congr
  intro i hi _
  exact Memory.store_behind m _ (by omega)

theorem text_eq_cstr (m : Memory) (size : ℕ) : m.text size = cstr (m.slice 0 size) := by
  have hstring (off : ℕ) : (m.string? off size).getD (m.slice off size) = cstr (m.slice off size) := by
    induction size generalizing off with
    | zero => rfl
    | succ size ih =>
      rw [Memory.string?, Memory.slice]
      by_cases hzero : m off = 0
      · simp [hzero, cstr]
      · rw [if_neg hzero, cstr_cons hzero, ← ih (off + 1)]
        cases m.string? (off + 1) size with
        | none => rfl
        | some t => rfl
  exact hstring 0

theorem cstr_length_le (bs : Bytes) : (cstr bs).length ≤ bs.length :=
  (List.takeWhile_prefix _).length_le

theorem cstr_drop {bs : Bytes} {k : ℕ} (h : k ≤ (cstr bs).length) :
    cstr (bs.drop k) = (cstr bs).drop k := by
  induction k generalizing bs with
  | zero => rfl
  | succ k ih =>
    cases bs with
    | nil => rfl
    | cons b bs =>
      have hb : b ≠ 0 := by
        rintro rfl
        simp [cstr] at h
      rw [cstr_cons hb] at h ⊢
      exact ih (Nat.le_of_succ_le_succ h)

theorem getElem?_in_cstr {bs : Bytes} {k : ℕ} (hk : k < (cstr bs).length) :
    bs[k]? = (cstr bs)[k]? := by
  have hsplit : cstr bs ++ bs.dropWhile (· ≠ 0) = bs := List.takeWhile_append_dropWhile
  conv_lhs => rw [← hsplit]
  exact List.getElem?_append_left hk

theorem cstr_getElem? {s : Bytes} {c : UInt8} {i : ℕ} (h : (cstr s)[i]? = some c) :
    s[i]? = some c := by
  obtain ⟨hi, -⟩ := List.getElem?_eq_some_iff.mp h
  rw [getElem?_in_cstr hi, h]

theorem strchr_getElem? {s : Bytes} {c : UInt8} {i : ℕ} (h : strchr s c = some i) :
    (cstr s)[i]? = some c := by
  obtain ⟨hi, hc, _⟩ := List.findIdx?_eq_some_iff_getElem.mp h
  rw [List.getElem?_eq_getElem hi]
  simpa using hc

theorem strchr_lt {s : Bytes} {c : UInt8} {i : ℕ} (h : strchr s c = some i) : i < s.length := by
  obtain ⟨hi, -⟩ := List.getElem?_eq_some_iff.mp (cstr_getElem? (strchr_getElem? h))
  exact hi

end SystemTestSuite.Library
