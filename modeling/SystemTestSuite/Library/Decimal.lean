import SystemTestSuite.Library.Scanf

namespace SystemTestSuite.Library

def decimal (n : ℕ) : Bytes := (Nat.toDigits 10 n).map (fun c => c.toNat.toUInt8)

theorem printInt_length {z : ℤ} (h : z.natAbs < 10 ^ 10) : (printInt z).length ≤ 11 := by
  have hdigits := (Nat.length_toDigits_le_iff (n := z.natAbs) (by decide) (by decide)).mpr h
  unfold printInt
  rw [List.length_append, List.length_map]
  split_ifs <;> simp <;> omega

theorem printByte_length (b : UInt8) : (printInt b.toNat).length ≤ 11 := by
  apply printInt_length
  have hb := b.toNat_lt
  rw [Int.natAbs_natCast]
  omega

theorem digitChar_byte : ∀ d < 10, (Nat.digitChar d).toNat.toUInt8 = UInt8.ofNat (48 + d) := by
  decide

theorem decimal_eq (n : ℕ) :
    decimal n = (if n < 10 then [] else decimal (n / 10)) ++ [UInt8.ofNat (48 + n % 10)] := by
  unfold decimal
  rw [Nat.toDigits_eq_if (by decide)]
  split_ifs with h
  · rw [List.map_singleton, digitChar_byte n h, Nat.mod_eq_of_lt h]
    rfl
  · rw [List.map_append, List.map_singleton, digitChar_byte _ (Nat.mod_lt n (by decide))]

theorem digit_byte : ∀ d < 10, isDigit (UInt8.ofNat (48 + d)) = true ∧
    (UInt8.ofNat (48 + d) - 48).toNat = d ∧ hexValue (UInt8.ofNat (48 + d)) = some d ∧
    (UInt8.ofNat (48 + d) = 48 → d = 0) := by
  decide

theorem decimal_ne_nil (n : ℕ) : decimal n ≠ [] := by
  rw [decimal_eq]
  exact List.append_ne_nil_of_right_ne_nil _ (List.cons_ne_nil _ _)

theorem decimal_length_le (n : ℕ) : (decimal n).length ≤ n + 1 := by
  induction n using Nat.strong_induction_on with
  | _ n ih =>
    rw [decimal_eq, List.length_append, List.length_singleton]
    split_ifs with h
    · simp
    · have hrest := ih (n / 10) (by omega)
      omega

theorem decimal_digits (n : ℕ) : ∀ b ∈ decimal n, isDigit b = true := by
  induction n using Nat.strong_induction_on with
  | _ n ih =>
    intro b hb
    rw [decimal_eq] at hb
    rcases List.mem_append.mp hb with hb | hb
    · split_ifs at hb with h
      · cases hb
      · exact ih (n / 10) (by omega) b hb
    · rw [List.mem_singleton.mp hb]
      exact (digit_byte _ (Nat.mod_lt n (by decide))).1

theorem decimal_ne {c : UInt8} (hc : isDigit c = false) (n : ℕ) : ∀ b ∈ decimal n, b ≠ c := by
  rintro b hb rfl
  rw [decimal_digits n b hb] at hc
  cases hc

theorem decimal_head {n : ℕ} (hn : n ≠ 0) : (decimal n).head? ≠ some 48 := by
  induction n using Nat.strong_induction_on with
  | _ n ih =>
    rw [decimal_eq]
    split_ifs with h
    · intro hhead
      have hzero := (digit_byte _ (Nat.mod_lt n (by decide))).2.2.2 (Option.some.inj hhead)
      rw [Nat.mod_eq_of_lt h] at hzero
      exact hn hzero
    · rw [List.head?_append_of_ne_nil _ (decimal_ne_nil _)]
      exact ih (n / 10) (by omega) (by omega)

theorem digitsValue_decimal (n : ℕ) : digitsValue (decimal n) = n := by
  induction n using Nat.strong_induction_on with
  | _ n ih =>
    rw [decimal_eq, digitsValue, List.foldl_append]
    change 10 * digitsValue _ + _ = n
    rw [(digit_byte _ (Nat.mod_lt n (by decide))).2.1]
    split_ifs with h
    · change 10 * 0 + n % 10 = n
      omega
    · rw [ih (n / 10) (by omega)]
      omega

theorem digitsIn_decimal (n : ℕ) : digitsIn 10 (decimal n) = n := by
  induction n using Nat.strong_induction_on with
  | _ n ih =>
    rw [decimal_eq, digitsIn, List.foldl_append]
    change 10 * digitsIn 10 _ + _ = n
    rw [(digit_byte _ (Nat.mod_lt n (by decide))).2.2.1]
    split_ifs with h
    · change 10 * 0 + n % 10 = n
      omega
    · rw [ih (n / 10) (by omega)]
      change 10 * (n / 10) + n % 10 = n
      omega

def EndsNumber (rest : Bytes) : Prop := ∀ b ∈ rest.head?, isDigit b = false ∧ b ≠ 120 ∧ b ≠ 88

theorem takeWhile_decimal (n : ℕ) {rest : Bytes} (h : ∀ b ∈ rest.head?, isDigit b = false) :
    (decimal n ++ rest).takeWhile isDigit = decimal n ∧
      (decimal n ++ rest).dropWhile isDigit = rest := by
  have hrest : rest.takeWhile isDigit = [] ∧ rest.dropWhile isDigit = rest := by
    cases rest with
    | nil => exact ⟨rfl, rfl⟩
    | cons b rest =>
      have hb := h b rfl
      simp [hb]
  constructor
  · rw [List.takeWhile_append_of_pos (decimal_digits n), hrest.1, List.append_nil]
  · rw [List.dropWhile_append_of_pos (decimal_digits n), hrest.2]

theorem scanDigits_decimal (n : ℕ) {rest : Bytes} (h : EndsNumber rest) :
    scanDigits (decimal n ++ rest) = some (n, rest) := by
  obtain ⟨htake, hdrop⟩ := takeWhile_decimal n (fun b hb => (h b hb).1)
  by_cases hn : n = 0
  · subst hn
    cases rest with
    | nil => rfl
    | cons b rest =>
      obtain ⟨hdigit, hx, hX⟩ := h b rfl
      have hoctal : isOctal b = false := by
        simp [isOctal, isDigit, UInt8.le_iff_toNat_le] at hdigit ⊢
        omega
      change scanDigits (48 :: b :: rest) = _
      simp [scanDigits, hx, hX, hoctal, digitsIn]
  · have hhead : (decimal n ++ rest).head? ≠ some 48 := by
      rw [List.head?_append_of_ne_nil _ (decimal_ne_nil n)]
      exact decimal_head hn
    unfold scanDigits
    split
    · rename_i heq
      rw [heq] at hhead
      exact absurd rfl hhead
    · rename_i heq
      rw [heq] at hhead
      exact absurd rfl hhead
    · dsimp only
      rw [htake, hdrop, if_neg (decimal_ne_nil n), digitsIn_decimal]

theorem decimal_append_head (n : ℕ) (rest : Bytes) :
    ∀ b ∈ (decimal n ++ rest).head?, isDigit b = true := by
  rw [List.head?_append_of_ne_nil _ (decimal_ne_nil n)]
  exact fun b hb => decimal_digits n b (List.mem_of_mem_head? hb)

theorem clampInt_natCast {n : ℕ} (h : n < 2 ^ 31) : clampInt n = n := by
  unfold clampInt
  omega

theorem scanInt_decimal {n : ℕ} (hn : n < 2 ^ 31) {rest : Bytes} (h : EndsNumber rest) :
    scanInt (decimal n ++ rest) = some ((n : ℤ), rest) := by
  have hhead := decimal_append_head n rest
  have hscan := scanDigits_decimal n h
  unfold scanInt
  split
  · rename_i heq
    rw [heq] at hhead
    exact absurd (hhead 45 rfl) (by decide)
  · rename_i heq
    rw [heq] at hhead
    exact absurd (hhead 43 rfl) (by decide)
  · rw [hscan, Option.map_some, clampInt_natCast hn]

theorem digit_not_space {b : UInt8} (h : isDigit b = true) : isSpace b = false := by
  simp [isSpace, isDigit, UInt8.le_iff_toNat_le] at h ⊢
  refine ⟨?_, by omega⟩
  rintro rfl
  simp at h

theorem dropWhile_decimal (n : ℕ) (rest : Bytes) :
    (decimal n ++ rest).dropWhile isSpace = decimal n ++ rest := by
  cases hd : decimal n with
  | nil => exact absurd hd (decimal_ne_nil n)
  | cons b bs =>
    have hb := digit_not_space (decimal_digits n b (by rw [hd]; exact List.mem_cons_self))
    rw [List.cons_append, List.dropWhile_cons, hb]
    rfl

theorem sscanfLoop_decimal {n : ℕ} (hn : n < 2 ^ 31) {rest : Bytes} (h : EndsNumber rest)
    (ds : List Directive) (pos done : ℕ) (matched : Bool) :
    sscanfLoop (.int true :: ds) (decimal n ++ rest) pos done matched =
      ((sscanfLoop ds rest (pos + (decimal n).length) (done + 1) true).1,
        .int n :: (sscanfLoop ds rest (pos + (decimal n).length) (done + 1) true).2) := by
  have hne : decimal n ++ rest ≠ [] := List.append_ne_nil_of_left_ne_nil (decimal_ne_nil n) _
  have hlen : (decimal n ++ rest).length - rest.length = (decimal n).length := by
    rw [List.length_append]
    omega
  rw [sscanfLoop]
  dsimp only
  rw [dropWhile_decimal, if_neg hne, scanInt_decimal hn h]
  dsimp only
  rw [hlen, if_pos rfl]

theorem atoi_decimal {n : ℕ} (hn : n < 2 ^ 31) {rest : Bytes}
    (h : ∀ b ∈ rest.head?, isDigit b = false) : atoi (decimal n ++ rest) = n := by
  have hnul : ∀ b ∈ decimal n, b ≠ 0 := by
    rintro b hb rfl
    exact absurd (decimal_digits n 0 hb) (by decide)
  have hrest : ∀ b ∈ (cstr rest).head?, isDigit b = false := by
    intro b hb
    apply h
    cases rest with
    | nil => cases hb
    | cons c cs =>
      by_cases hc : c = 0
      · rw [hc] at hb
        cases hb
      · rwa [cstr_cons hc] at hb
  have hhead := decimal_append_head n (cstr rest)
  have hneg : (decimal n ++ cstr rest).head? ≠ some 45 := by
    intro heq
    exact absurd (hhead 45 heq) (by decide)
  have hpos : (decimal n ++ cstr rest).head? ≠ some 43 := by
    intro heq
    exact absurd (hhead 43 heq) (by decide)
  unfold atoi
  rw [cstr_append hnul, dropWhile_decimal]
  dsimp only
  rw [if_neg (not_or.mpr ⟨hneg, hpos⟩), if_neg hneg, (takeWhile_decimal n hrest).1,
    digitsValue_decimal, clampInt_natCast hn]

theorem digitsValue_append (ds more : Bytes) :
    digitsValue (ds ++ more) = digitsValue ds * 10 ^ more.length + digitsValue more := by
  induction more using List.reverseRecOn with
  | nil => simp [digitsValue]
  | append_singleton more d ih =>
    have hlast (cs : Bytes) : digitsValue (cs ++ [d]) = 10 * digitsValue cs + (d - 48).toNat :=
      List.foldl_append
    rw [← List.append_assoc, hlast, hlast, ih, List.length_append, List.length_singleton, pow_succ,
      Nat.mul_add, ← Nat.add_assoc, Nat.mul_comm 10 (digitsValue ds * _), Nat.mul_assoc]

theorem digitsValue_lt {ds : Bytes} (h : ∀ c ∈ ds, isDigit c = true) :
    digitsValue ds < 10 ^ ds.length := by
  induction ds using List.reverseRecOn with
  | nil => exact Nat.zero_lt_one
  | append_singleton ds d ih =>
    have hd : (d - 48).toNat ≤ 9 := by
      have hdigit := h d (by simp)
      simp only [isDigit, Bool.and_eq_true, decide_eq_true_eq, UInt8.le_iff_toNat_le] at hdigit
      rw [UInt8.toNat_sub_of_le _ _ (UInt8.le_iff_toNat_le.mpr hdigit.1)]
      exact Nat.sub_le_of_le_add hdigit.2
    have hrest := ih fun c hc => h c (List.mem_append_left _ hc)
    have hlast : digitsValue (ds ++ [d]) = 10 * digitsValue ds + (d - 48).toNat :=
      List.foldl_append
    rw [hlast, List.length_append, List.length_singleton, pow_succ]
    omega

theorem atoi_digits {ds : Bytes} (h : ∀ c ∈ ds, isDigit c = true) :
    atoi ds = min (digitsValue ds : ℤ) (2 ^ 31 - 1) := by
  have hnul : ∀ c ∈ ds, c ≠ 0 := by
    rintro c hc rfl
    exact absurd (h 0 hc) (by decide)
  have hhead : ∀ c ∈ ds.head?, isDigit c = true := fun c hc => h c (List.mem_of_mem_head? hc)
  have hspace : ds.dropWhile isSpace = ds := by
    cases ds with
    | nil => rfl
    | cons c ds => rw [List.dropWhile_cons, digit_not_space (hhead c rfl)]; rfl
  have hsign (c : UInt8) (hc : isDigit c = false) : ds.head? ≠ some c := by
    intro heq
    rw [hhead c heq] at hc
    cases hc
  unfold atoi
  rw [cstr_of_no_nul hnul, hspace]
  dsimp only
  rw [if_neg (not_or.mpr ⟨hsign 45 (by decide), hsign 43 (by decide)⟩),
    if_neg (hsign 45 (by decide)), List.takeWhile_eq_self_iff.mpr h]
  unfold clampInt
  omega

end SystemTestSuite.Library
