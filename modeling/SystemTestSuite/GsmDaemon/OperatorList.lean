import SystemTestSuite.GsmDaemon.OperatorScan

namespace SystemTestSuite.GsmDaemon

open Library

variable {out : Bool} {n m n₀ len : ℕ} {str str₀ : Bytes} {l : OperLocals} {buf : Memory}

theorem operNext_lt (h : operNext out n str = some m) : (str.drop m).length < str.length := by
  obtain ⟨hhead, e, -, hten, -, rfl⟩ := operNext_some h
  have hpos : 0 < skipComma str e := by
    rw [skipComma]
    split_ifs <;> omega
  have hlen : str ≠ [] := by
    rintro rfl
    cases hhead
  have hstr := List.length_pos_of_ne_nil hlen
  rw [List.length_drop]
  omega

def operCount (out : Bool) (n : ℕ) (str : Bytes) : ℕ :=
  match h : operNext out n str with
  | none => 0
  | some m => operCount out m (str.drop m) + 1
termination_by str.length
decreasing_by exact operNext_lt h

theorem operCount_none (h : operNext out n str = none) : operCount out n str = 0 := by
  rw [operCount]
  split
  · rfl
  · rename_i h'
    rw [h] at h'
    cases h'

theorem operCount_some (h : operNext out n str = some m) :
    operCount out n str = operCount out m (str.drop m) + 1 := by
  rw [operCount]
  split
  · rename_i h'
    rw [h] at h'
    cases h'
  · rename_i h'
    rw [h] at h'
    cases h'
    rfl

inductive InStep (n₀ : ℕ) (str₀ : Bytes) : ℕ → Bytes → Prop
  | start : InStep n₀ str₀ n₀ str₀
  | next {n m : ℕ} {str : Bytes} : InStep n₀ str₀ n str → operNext true n str = some m →
      operNext false n str = some m → InStep n₀ str₀ m (str.drop m)

theorem InStep.cons (h : operNext true n₀ str₀ = some m) (h' : operNext false n₀ str₀ = some m)
    (hstep : InStep m (str₀.drop m) n str) : InStep n₀ str₀ n str := by
  induction hstep with
  | start => exact .next .start h h'
  | next _ ht hf ih => exact .next ih ht hf

theorem InStep.counts (h : InStep n₀ str₀ n str) :
    ∃ k, ∀ out, operCount out n₀ str₀ = k + operCount out n str := by
  induction h with
  | start => exact ⟨0, fun out => (Nat.zero_add _).symm⟩
  | next _ ht hf ih =>
    obtain ⟨k, hk⟩ := ih
    refine ⟨k + 1, fun out => ?_⟩
    cases out with
    | true =>
      rw [hk, operCount_some ht]
      omega
    | false =>
      rw [hk, operCount_some hf]
      omega

/-- The filling pass finds no more than the counting one, unless it strays: then what each finds
from its cursor decides. -/
theorem operCount_le_iff :
    operCount true n₀ str₀ ≤ operCount false n₀ str₀ ↔
      ∀ n str, InStep n₀ str₀ n str → Strays n str → ∀ m m', operNext true n str = some m →
        operNext false n str = some m' →
        operCount true m (str.drop m) ≤ operCount false m' (str.drop m') := by
  constructor
  · intro h n str hstep _ m m' ht hf
    obtain ⟨k, hk⟩ := hstep.counts
    rw [hk, hk, operCount_some ht, operCount_some hf] at h
    omega
  · intro h
    induction hlen : str₀.length using Nat.strong_induction_on generalizing n₀ str₀ with
    | _ size ih =>
      subst hlen
      cases ht : operNext true n₀ str₀ with
      | none =>
        rw [operCount_none ht]
        exact Nat.zero_le _
      | some m =>
        obtain ⟨m', hf, hcase⟩ := operNext_passes ht
        rw [operCount_some ht, operCount_some hf]
        apply Nat.succ_le_succ
        rcases hcase with rfl | hnone | hstray
        · apply ih _ (operNext_lt ht) _ rfl
          exact fun n str hstep => h n str (hstep.cons ht hf)
        · rw [operCount_none hnone]
          exact Nat.zero_le _
        · exact h n₀ str₀ .start hstray m m' ht hf

theorem networkOpersLoop_on (h : operNext out l.n str = some m) :
    networkOpersLoop out l str len buf =
      networkOpersLoop out { (operElement out l str len buf).2.1 with n := m } (str.drop m) (len + 1)
        (operElement out l str len buf).2.2 := by
  obtain ⟨hhead, e, he, hten, hbracket, rfl⟩ := operNext_some h
  obtain ⟨hsome, hn⟩ := operElement_end out l str len buf
  rw [he] at hsome hn
  rw [networkOpersLoop, dif_pos hhead]
  obtain ⟨⟨go, l', buf'⟩, helement⟩ : ∃ r, r = operElement out l str len buf := ⟨_, rfl⟩
  rw [← helement] at hsome hn ⊢
  obtain rfl : go = true := hsome
  obtain rfl : l'.n = e := hn
  dsimp only
  rw [dif_neg]
  simp only [not_or, not_lt, not_not]
  exact ⟨hten, hbracket⟩

theorem networkOpersLoop_stop (h : operNext out l.n str = none) :
    networkOpersLoop out l str len buf =
      (len, if str.head? = some 40 then (operElement out l str len buf).2.2 else buf) := by
  rw [networkOpersLoop]
  by_cases hhead : str.head? = some 40
  · rw [dif_pos hhead, if_pos hhead]
    obtain ⟨hsome, hn⟩ := operElement_end out l str len buf
    obtain ⟨⟨go, l', buf'⟩, helement⟩ : ∃ r, r = operElement out l str len buf := ⟨_, rfl⟩
    rw [← helement] at hsome hn ⊢
    cases he : operEnd out l.n str with
    | none =>
      rw [he] at hsome
      obtain rfl : go = false := hsome
      rfl
    | some e =>
      rw [he] at hsome hn
      obtain rfl : go = true := hsome
      obtain rfl : l'.n = e := hn
      rw [operNext, if_pos hhead, he, Option.bind_some] at h
      split_ifs at h with hstop
      exact dif_pos hstop
  · rw [dif_neg hhead, if_neg hhead]

theorem networkOpersLoop_count (out : Bool) (l : OperLocals) (str : Bytes) (len : ℕ) (buf : Memory) :
    (networkOpersLoop out l str len buf).1 = len + operCount out l.n str := by
  induction hlen : str.length using Nat.strong_induction_on generalizing l str len buf with
  | _ size ih =>
    subst hlen
    cases h : operNext out l.n str with
    | none => rw [networkOpersLoop_stop h, operCount_none h, Nat.add_zero]
    | some m =>
      rw [networkOpersLoop_on h, ih _ (operNext_lt h) _ _ _ _ rfl, operCount_some h]
      change len + 1 + operCount out m (str.drop m) = _
      omega

structure OpersWritten (first last : ℕ) (buf out : Memory) : Prop where
  outside : ∀ i, i < sizeofMsgOper * first ∨ sizeofMsgOper * (last + 1) ≤ i → out i = buf i
  notLast : ∀ k, first ≤ k → k < last → intAt out (sizeofMsgOper * k + 4) = 0

theorem operElement_buf (l : OperLocals) (str : Bytes) (len : ℕ) (buf : Memory) :
    let cleared := buf.store (sizeofMsgOper * len + 4) (intBytes 0)
    (operElement true l str len buf).2.2 = cleared ∨
      ∃ stat l', (operElement true l str len buf).2.2 =
        (cleared.store (sizeofMsgOper * len) (operBytes stat l').1).store (sizeofMsgOper * len + 8)
          (operBytes stat l').2 := by
  simp only [operElement, ↓reduceIte]
  by_cases h : (sscanf str (operFormat true)).1 < 4
  · rw [if_pos h]
    exact Or.inl rfl
  · rw [if_neg h]
    split
    · exact Or.inr ⟨_, _, rfl⟩
    · exact Or.inl rfl
    · exact Or.inl rfl

theorem operBytes_length (stat : ℤ) (l : OperLocals) :
    (operBytes stat l).1.length = 4 ∧ (operBytes stat l).2.length = 30 := by
  constructor
  · rfl
  · simp [operBytes, Memory.slice]

theorem operElement_written (l : OperLocals) (str : Bytes) (len : ℕ) (buf : Memory) :
    (∀ i, i < sizeofMsgOper * len ∨ sizeofMsgOper * (len + 1) ≤ i →
      (operElement true l str len buf).2.2 i = buf i) ∧
      intAt (operElement true l str len buf).2.2 (sizeofMsgOper * len + 4) = 0 := by
  obtain ⟨cleared, hcleared⟩ : ∃ cleared, cleared = buf.store (sizeofMsgOper * len + 4) (intBytes 0) :=
    ⟨_, rfl⟩
  have hint : intAt cleared (sizeofMsgOper * len + 4) = 0 := by
    rw [hcleared]
    exact intAt_store buf _ (n := 0) (by decide)
  have hout (i : ℕ) (hi : i < sizeofMsgOper * len ∨ sizeofMsgOper * (len + 1) ≤ i) :
      cleared i = buf i := by
    have hlen : (intBytes 0).length = 4 := rfl
    rw [sizeofMsgOper] at hi hcleared
    rw [hcleared]
    rcases hi with hi | hi
    · exact Memory.store_before _ _ (by omega)
    · exact Memory.store_behind _ _ (by omega)
  rcases operElement_buf l str len buf with heq | ⟨stat, l', heq⟩
  · rw [heq, ← hcleared]
    exact ⟨hout, hint⟩
  · obtain ⟨hfour, hthirty⟩ := operBytes_length stat l'
    rw [heq, ← hcleared]
    constructor
    · intro i hi
      rw [← hout i hi]
      rw [sizeofMsgOper] at hi ⊢
      rcases hi with hi | hi
      · rw [Memory.store_before _ _ (by omega), Memory.store_before _ _ hi]
      · rw [Memory.store_behind _ _ (by omega), Memory.store_behind _ _ (by omega)]
    · rw [← hint]
      apply intAt_congr
      intro i hi hi'
      rw [Memory.store_before _ _ (by omega), Memory.store_behind _ _ (by omega)]

theorem networkOpersLoop_written (l : OperLocals) (str : Bytes) (len : ℕ) (buf : Memory) :
    OpersWritten len (networkOpersLoop true l str len buf).1 buf
      (networkOpersLoop true l str len buf).2 := by
  induction hlen : str.length using Nat.strong_induction_on generalizing l str len buf with
  | _ size ih =>
    subst hlen
    obtain ⟨hout, hint⟩ := operElement_written l str len buf
    cases h : operNext true l.n str with
    | none =>
      rw [networkOpersLoop_stop h]
      refine ⟨fun i hi => ?_, fun k hk hk' => absurd hk' (by dsimp only; omega)⟩
      dsimp only
      split_ifs
      · exact hout i hi
      · rfl
    | some m =>
      have hcount := networkOpersLoop_count true { (operElement true l str len buf).2.1 with n := m }
        (str.drop m) (len + 1) (operElement true l str len buf).2.2
      have hrest := ih _ (operNext_lt h) { (operElement true l str len buf).2.1 with n := m }
        (str.drop m) (len + 1) (operElement true l str len buf).2.2 rfl
      rw [networkOpersLoop_on h]
      rw [sizeofMsgOper] at hout hint
      constructor
      · intro i hi
        rw [hrest.outside i, hout i]
        · rw [sizeofMsgOper] at hi
          omega
        · rw [sizeofMsgOper] at hi ⊢
          omega
      · intro k hk hk'
        rcases Nat.eq_or_lt_of_le hk with rfl | hk
        · rw [← hint]
          apply intAt_congr
          intro i hi hi'
          apply hrest.outside
          rw [sizeofMsgOper] at hi hi' ⊢
          omega
        · exact hrest.notLast k hk hk'

structure ListWritten (buf out : Memory) (last : ℕ) : Prop where
  behind : ∀ i, sizeofMsgOper * (last + 1) ≤ i → out i = buf i
  notLast : ∀ k < last, intAt out (sizeofMsgOper * k + 4) = 0
  isLast : intAt out (sizeofMsgOper * last + 4) = 1

theorem networkOpersParse_count (out : Bool) (u : Unset) (str : Bytes) (buf : Memory) :
    (networkOpersParse out u str buf).1 =
      if strncmp str (ascii "+COPS: ") 7 then operCount out u.int (str.drop 7) else 0 := by
  rw [networkOpersParse]
  by_cases h : strncmp str (ascii "+COPS: ") 7
  · rw [if_neg (not_not.mpr h), if_pos h, networkOpersLoop_count, Nat.zero_add]
  · rw [if_pos h, if_neg h]

theorem networkOpersParse_written (u : Unset) (str : Bytes) (buf : Memory) :
    ListWritten buf (networkOpersParse true u str buf).2 (networkOpersParse true u str buf).1 := by
  obtain ⟨r, hr, hwritten⟩ : ∃ r : ℕ × Memory, networkOpersParse true u str buf =
      (r.1, r.2.store (sizeofMsgOper * r.1 + 4) (intBytes 1)) ∧ OpersWritten 0 r.1 buf r.2 := by
    rw [networkOpersParse]
    by_cases h : strncmp str (ascii "+COPS: ") 7
    · rw [if_neg (not_not.mpr h)]
      exact ⟨_, rfl, networkOpersLoop_written _ _ _ _⟩
    · rw [if_pos h]
      exact ⟨(0, buf), rfl, fun _ _ => rfl, fun k _ hk => absurd hk (Nat.not_lt_zero k)⟩
  have hlen : (intBytes 1).length = 4 := rfl
  rw [hr]
  refine ⟨fun i hi => ?_, fun k hk => ?_, intAt_store _ _ (n := 1) (by decide)⟩
  · dsimp only at hi ⊢
    rw [← hwritten.outside i (Or.inr hi)]
    rw [sizeofMsgOper] at hi ⊢
    exact Memory.store_behind _ _ (by omega)
  · rw [← hwritten.notLast k (Nat.zero_le k) hk]
    apply intAt_congr
    intro i hi hi'
    rw [sizeofMsgOper] at hi hi' ⊢
    exact Memory.store_before _ _ (by dsimp only at hk; omega)

def FillsCounted (u : Unset) (str : Bytes) : Prop :=
  ∀ buf, ∃ last ≤ (networkOpersParse false u str buf).1,
    ListWritten buf (networkOpersParse true u str buf).2 last

theorem fillsCounted_iff (u : Unset) (str : Bytes) :
    FillsCounted u str ↔ (strncmp str (ascii "+COPS: ") 7 →
      operCount true u.int (str.drop 7) ≤ operCount false u.int (str.drop 7)) := by
  constructor
  · intro h hname
    obtain ⟨last, hlast, hwritten⟩ := h fun _ => 255
    have hfill := networkOpersParse_written u str fun _ => 255
    rw [networkOpersParse_count, if_pos hname] at hlast hfill
    by_contra hlt
    have hone := hfill.isLast
    have hbehind (j : ℕ) (hj : j < 4) : (networkOpersParse true u str fun _ => 255).2
        (sizeofMsgOper * operCount true u.int (str.drop 7) + 4 + j) = 255 := by
      apply hwritten.behind
      rw [sizeofMsgOper]
      omega
    unfold intAt uintAt at hone
    rw [hbehind 1 (by decide), hbehind 2 (by decide), hbehind 3 (by decide),
      show sizeofMsgOper * operCount true u.int (str.drop 7) + 4 =
        sizeofMsgOper * operCount true u.int (str.drop 7) + 4 + 0 from rfl, hbehind 0 (by decide)] at hone
    revert hone
    decide
  · intro h buf
    refine ⟨_, ?_, networkOpersParse_written u str buf⟩
    rw [networkOpersParse_count, networkOpersParse_count]
    split_ifs with hname
    · exact h hname
    · exact Nat.le_refl _

end SystemTestSuite.GsmDaemon
