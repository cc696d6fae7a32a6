import SystemTestSuite.GsmDaemon.OperatorList
import SystemTestSuite.GsmDaemon.PhonebookEntry

namespace SystemTestSuite.GsmDaemon

open Library

structure GsmOper where
  stat : ℕ
  long : Bytes
  short : Bytes
  code : Bytes
  stat_lt : stat < 2 ^ 31
  long_size : 1 ≤ long.length ∧ long.length ≤ 16
  short_size : 1 ≤ short.length ∧ short.length ≤ 8
  code_size : 1 ≤ code.length ∧ code.length ≤ 6
  names_plain : ∀ b ∈ long ++ short, b ≠ 0 ∧ b ≠ 34
  code_digits : ∀ b ∈ code, isDigit b = true

namespace GsmOper

def text (o : GsmOper) : Bytes :=
  40 :: (decimal o.stat ++ 44 :: 34 :: (o.long ++ 34 :: 44 :: 34 :: (o.short ++
    34 :: 44 :: 34 :: (o.code ++ [34, 41]))))

variable (o : GsmOper)

theorem long_plain : ∀ b ∈ o.long, b ≠ 0 ∧ b ≠ 34 :=
  fun b hb => o.names_plain b (List.mem_append_left _ hb)

theorem short_plain : ∀ b ∈ o.short, b ≠ 0 ∧ b ≠ 34 :=
  fun b hb => o.names_plain b (List.mem_append_right _ hb)

theorem code_plain : ∀ b ∈ o.code, b ≠ 0 := by
  rintro b hb rfl
  exact absurd (o.code_digits 0 hb) (by decide)

theorem text_plain : ∀ b ∈ o.text, b ≠ 0 := by
  simp only [text, List.forall_mem_cons, List.forall_mem_append]
  refine ⟨by decide, decimal_ne rfl o.stat, by decide, by decide, fun b hb => (o.long_plain b hb).1,
    by decide, by decide, by decide, fun b hb => (o.short_plain b hb).1, by decide, by decide,
    by decide, o.code_plain, by decide, by decide, by simp⟩

theorem operText (rest : Bytes) :
    OperText (cstr (o.text ++ rest)) o.stat o.long o.short o.code (34 :: 41 :: cstr rest) := by
  have hends (t : Bytes) : EndsNumber (44 :: t) := by
    rintro b ⟨⟩
    exact ⟨rfl, by decide⟩
  have htext : cstr (o.text ++ rest) = 40 :: (decimal o.stat ++ 44 :: 34 :: (o.long ++
      34 :: 44 :: 34 :: (o.short ++ 34 :: 44 :: 34 :: (o.code ++ 34 :: 41 :: cstr rest)))) := by
    rw [cstr_append o.text_plain, text]
    simp
  refine ⟨⟨_, htext, ?_⟩, ⟨?_, fun b hb => (o.long_plain b hb).2⟩,
    ⟨?_, fun b hb => (o.short_plain b hb).2⟩, ?_, o.code_digits⟩
  · rw [dropWhile_decimal]
    exact scanInt_decimal o.stat_lt (hends _)
  · exact List.ne_nil_of_length_pos o.long_size.1
  · exact List.ne_nil_of_length_pos o.short_size.1
  · exact List.ne_nil_of_length_pos o.code_size.1

theorem within (out : Bool) (rest : Bytes) : OperWithin out o.long o.short o.code (34 :: rest) := by
  have hstop : ∀ b ∈ (34 :: rest : Bytes).head?, isDigit b = false := by
    rintro b ⟨⟩
    rfl
  cases out with
  | false => exact hstop
  | true => exact ⟨o.long_size.2, o.short_size.2, o.code_size.2, Or.inr hstop⟩

theorem sscanf_text (out : Bool) (rest : Bytes) :
    sscanf (o.text ++ rest) (operFormat out) = ((operStored out : ℤ),
      operItems out o.stat o.long o.short o.code ++ [.count o.text.length]) := by
  rw [sscanf_read ((o.operText rest).read (o.within out _)), if_pos ⟨cstr rest, rfl⟩,
    cstr_append o.text_plain]
  congr 3
  simp only [text, List.length_append, List.length_cons]
  congr 1
  omega

theorem text_bracket : o.text[o.text.length - 1]? = some 41 := by
  have hsplit : ∃ t, o.text = t ++ [41] := by
    refine ⟨40 :: (decimal o.stat ++ 44 :: 34 :: (o.long ++ 34 :: 44 :: 34 :: (o.short ++
      34 :: 44 :: 34 :: (o.code ++ [34])))), ?_⟩
    simp [text]
  obtain ⟨t, ht⟩ := hsplit
  rw [ht, List.length_append, List.length_singleton, Nat.add_sub_cancel,
    List.getElem?_append_right (Nat.le_refl _), Nat.sub_self]
  rfl

theorem ten_le_text : 10 ≤ o.text.length := by
  have hlong := o.long_size.1
  have hshort := o.short_size.1
  have hcode := o.code_size.1
  simp only [text, List.length_append, List.length_cons, List.length_nil]
  omega

end GsmOper

def OperList : List GsmOper → Bytes → Prop
  | [], str => str.head? ≠ some 40
  | o :: ops, str => ∃ rest, str = o.text ++ rest ∧
    OperList ops (if rest.head? = some 44 then rest.tail else rest)

theorem operList_intercalate (ops : List GsmOper) {tail : Bytes} (hopen : tail.head? ≠ some 40)
    (hcomma : ¬ [44, 40] <+: tail) :
    OperList ops ([44].intercalate (ops.map GsmOper.text) ++ tail) := by
  induction ops with
  | nil => exact hopen
  | cons o ops ih =>
    cases ops with
    | nil =>
      refine ⟨tail, by simp [List.intercalate], ?_⟩
      split_ifs with hhead
      · cases tail with
        | nil => cases hhead
        | cons b tail =>
          obtain rfl : b = 44 := Option.some.inj hhead
          intro hnext
          cases tail with
          | nil => cases hnext
          | cons c tail =>
            obtain rfl : c = 40 := Option.some.inj hnext
            exact hcomma ⟨tail, rfl⟩
      · exact hopen
    | cons o' ops =>
      refine ⟨44 :: ([44].intercalate ((o' :: ops).map GsmOper.text) ++ tail), ?_, ih⟩
      simp [List.intercalate]

structure HoldsOper (out : Memory) (k : ℕ) (o : GsmOper) : Prop where
  stat : intAt out (sizeofMsgOper * k) = o.stat
  long : cstr (out.slice (sizeofMsgOper * k + 8) 16) = o.long
  short : cstr (out.slice (sizeofMsgOper * k + 24) 8) = o.short
  code : cstr (out.slice (sizeofMsgOper * k + 32) 6) = o.code

theorem HoldsOper.congr {out out' : Memory} {k : ℕ} {o : GsmOper} (h : HoldsOper out k o)
    (hsame : ∀ i, sizeofMsgOper * k ≤ i → i < sizeofMsgOper * k + 4 ∨ sizeofMsgOper * k + 8 ≤ i →
      i < sizeofMsgOper * (k + 1) → out' i = out i) : HoldsOper out' k o := by
  have hfield {off n : ℕ} (hoff : 8 ≤ off) (hn : off + n ≤ sizeofMsgOper) :
      out'.slice (sizeofMsgOper * k + off) n = out.slice (sizeofMsgOper * k + off) n := by
    apply Memory.slice_congr
    intro i hi hi'
    apply hsame i <;> rw [sizeofMsgOper] at * <;> omega
  constructor
  · rw [← h.stat]
    apply intAt_congr
    intro i hi hi'
    apply hsame i hi (Or.inl hi')
    rw [sizeofMsgOper] at *
    omega
  · rw [hfield (by decide) (by decide), h.long]
  · rw [hfield (by decide) (by decide), h.short]
  · rw [hfield (by decide) (by decide), h.code]

theorem cstr_copied {text : Bytes} (hplain : ∀ b ∈ text, b ≠ 0) (m : Memory) {size : ℕ}
    (hsize : text.length ≤ size) : cstr ((m.store 0 (text ++ [0])).slice 0 size) = text := by
  obtain ⟨more, rfl⟩ := Nat.exists_eq_add_of_le hsize
  have hslice : (m.store 0 (text ++ [0])).slice 0 text.length = text := by
    rw [Memory.store_append, Memory.slice_store_before _ _ (Nat.le_refl _), Memory.slice_store_same]
  have hnul := m.store_nul 0 text
  rw [Nat.zero_add] at hnul
  rw [Memory.slice_append, hslice, cstr_append hplain]
  cases more with
  | zero => simp [Memory.slice]
  | succ more =>
    rw [Memory.slice, Nat.zero_add, hnul]
    simp [cstr]

variable {out : Bool} {o : GsmOper} {ops : List GsmOper} {str rest : Bytes} {len : ℕ} {buf : Memory}

theorem operEnd_text (out : Bool) (n : ℕ) (o : GsmOper) (rest : Bytes) :
    operEnd out n (o.text ++ rest) = some o.text.length := by
  rw [operEnd, o.sscanf_text]
  cases out <;> simp [operStored, operItems]

theorem operNext_text (out : Bool) (n : ℕ) (o : GsmOper) (rest : Bytes) :
    operNext out n (o.text ++ rest) = some (skipComma (o.text ++ rest) o.text.length) := by
  apply operNext_of_end rfl (operEnd_text out n o rest) o.ten_le_text
  have hten := o.ten_le_text
  rw [List.getElem?_append_left (by omega)]
  exact o.text_bracket

theorem drop_skipComma (o : GsmOper) (rest : Bytes) :
    (o.text ++ rest).drop (skipComma (o.text ++ rest) o.text.length) =
      if rest.head? = some 44 then rest.tail else rest := by
  have hhead : (o.text ++ rest)[o.text.length]? = rest.head? := by
    rw [List.getElem?_append_right (Nat.le_refl _), Nat.sub_self, List.head?_eq_getElem?]
  rw [skipComma, hhead]
  split_ifs
  · rw [← List.drop_drop, List.drop_left, List.drop_one]
  · exact List.drop_left

theorem operElement_holds (l : OperLocals) (o : GsmOper) (rest : Bytes) (len : ℕ) (buf : Memory) :
    HoldsOper (operElement true l (o.text ++ rest) len buf).2.2 len o := by
  have hscan := o.sscanf_text true rest
  obtain ⟨cleared, hcleared⟩ : ∃ cleared, cleared = buf.store (sizeofMsgOper * len + 4) (intBytes 0) :=
    ⟨_, rfl⟩
  obtain ⟨l', hlong, hshort, hcode, hout⟩ : ∃ l' : OperLocals,
      l'.opnameLongalpha = l.opnameLongalpha.store 0 (o.long ++ [0]) ∧
      l'.opnameShortalpha = l.opnameShortalpha.store 0 (o.short ++ [0]) ∧
      l'.opnameNum = l.opnameNum.store 0 (o.code ++ [0]) ∧
      (operElement true l (o.text ++ rest) len buf).2.2 =
        (cleared.store (sizeofMsgOper * len) (intBytes o.stat)).store (sizeofMsgOper * len + 8)
          (l'.opnameLongalpha.slice 0 16 ++ (l'.opnameShortalpha.slice 0 8 ++
            l'.opnameNum.slice 0 6)) := by
    refine ⟨⟨o.text.length, _, _, _⟩, rfl, rfl, rfl, ?_⟩
    rw [operElement, hscan, hcleared]
    simp only [operStored, operItems, operBytes, ↓reduceIte, List.cons_append, List.nil_append,
      List.append_assoc]
    rfl
  have hnames (as bs cs : Bytes) (h : l'.opnameLongalpha.slice 0 16 ++
      (l'.opnameShortalpha.slice 0 8 ++ l'.opnameNum.slice 0 6) = as ++ (bs ++ cs)) :
      (operElement true l (o.text ++ rest) len buf).2.2.slice
        (sizeofMsgOper * len + 8 + as.length) bs.length = bs := by
    rw [hout, h]
    exact Memory.slice_store_middle _ _ _ _ _
  constructor
  · rw [hout]
    refine Eq.trans (intAt_congr ?_) (intAt_store cleared (sizeofMsgOper * len) o.stat_lt)
    intro i _ hi
    exact Memory.store_before _ _ (by omega)
  · have hslice := hnames [] (l'.opnameLongalpha.slice 0 16) _ rfl
    rw [Memory.slice_length] at hslice
    refine (congrArg cstr hslice).trans ?_
    rw [hlong]
    exact cstr_copied (fun b hb => (o.long_plain b hb).1) _ o.long_size.2
  · have hslice := hnames (l'.opnameLongalpha.slice 0 16) (l'.opnameShortalpha.slice 0 8) _ rfl
    rw [Memory.slice_length, Memory.slice_length] at hslice
    refine (congrArg cstr hslice).trans ?_
    rw [hshort]
    exact cstr_copied (fun b hb => (o.short_plain b hb).1) _ o.short_size.2
  · have hslice := hnames (l'.opnameLongalpha.slice 0 16 ++ l'.opnameShortalpha.slice 0 8)
      (l'.opnameNum.slice 0 6) [] (by simp)
    rw [List.length_append, Memory.slice_length, Memory.slice_length, Memory.slice_length] at hslice
    refine (congrArg cstr hslice).trans ?_
    rw [hcode]
    exact cstr_copied o.code_plain _ o.code_size.2

theorem networkOpersLoop_length (out : Bool) (l : OperLocals) (len : ℕ) (buf : Memory)
    (h : OperList ops str) : (networkOpersLoop out l str len buf).1 = len + ops.length := by
  induction ops generalizing l str len buf with
  | nil =>
    rw [networkOpersLoop_stop (if_neg h)]
    rfl
  | cons o ops ih =>
    obtain ⟨rest, rfl, hrest⟩ := h
    rw [networkOpersLoop_on (operNext_text out l.n o rest), drop_skipComma, ih _ _ _ hrest,
      List.length_cons]
    omega

theorem networkOpersLoop_holds (l : OperLocals) (len : ℕ) (buf : Memory) (h : OperList ops str) :
    ∀ k (hk : k < ops.length), HoldsOper (networkOpersLoop true l str len buf).2 (len + k) ops[k] := by
  induction ops generalizing l str len buf with
  | nil =>
    intro k hk
    cases hk
  | cons o ops ih =>
    intro k hk
    obtain ⟨rest, rfl, hrest⟩ := h
    obtain ⟨l', hloop⟩ : ∃ l', networkOpersLoop true l (o.text ++ rest) len buf =
        networkOpersLoop true l' (if rest.head? = some 44 then rest.tail else rest) (len + 1)
          (operElement true l (o.text ++ rest) len buf).2.2 := by
      rw [networkOpersLoop_on (operNext_text true l.n o rest), drop_skipComma]
      exact ⟨_, rfl⟩
    rw [hloop]
    cases k with
    | zero =>
      -- what the loop writes behind element len leaves it alone
      refine (operElement_holds l o rest len buf).congr fun i _ _ hi => ?_
      exact (networkOpersLoop_written _ _ _ _).outside i (Or.inl hi)
    | succ k =>
      have hheld := ih l' (len + 1) (operElement true l (o.text ++ rest) len buf).2.2 hrest k
        (Nat.lt_of_succ_lt_succ hk)
      rw [Nat.add_assoc, Nat.add_comm 1] at hheld
      exact hheld

theorem networkOpersParse_listed (u : Unset) (buf : Memory) (h : OperList ops str) :
    (∀ out, (networkOpersParse out u (ascii "+COPS: " ++ str) buf).1 = ops.length) ∧
      ∀ k (hk : k < ops.length),
        HoldsOper (networkOpersParse true u (ascii "+COPS: " ++ str) buf).2 k ops[k] := by
  have hname : strncmp (ascii "+COPS: " ++ str) (ascii "+COPS: ") 7 := by
    rw [strncmp, cstr_append (no_nul_of_all rfl)]
    rfl
  have hdrop : (ascii "+COPS: " ++ str).drop 7 = str := rfl
  constructor
  · intro out
    rw [networkOpersParse, if_neg (not_not.mpr hname), hdrop, networkOpersLoop_length _ _ _ _ h,
      Nat.zero_add]
  · intro k hk
    rw [networkOpersParse, if_neg (not_not.mpr hname), hdrop, networkOpersLoop_length _ _ _ _ h,
      Nat.zero_add]
    have hheld := networkOpersLoop_holds ⟨u.int, u.array, u.array, u.array⟩ 0 buf h k hk
    rw [Nat.zero_add] at hheld
    refine hheld.congr fun i _ hfield hi => ?_
    rw [sizeofMsgOper] at *
    exact Memory.store_before _ _ (by omega)

def WritesListed (u : Unset) (str : Bytes) : Prop :=
  ∀ (ops : List GsmOper) (tail : Bytes), tail.head? ≠ some 40 → ¬ [44, 40] <+: tail →
    str = ascii "+COPS: " ++ ([44].intercalate (ops.map GsmOper.text) ++ tail) → ∀ buf,
      (networkOpersParse true u str buf).1 = ops.length ∧
        ∀ k (hk : k < ops.length), HoldsOper (networkOpersParse true u str buf).2 k ops[k]

theorem writesListed (u : Unset) (str : Bytes) : WritesListed u str := by
  rintro ops tail hopen hcomma rfl buf
  obtain ⟨hcount, hheld⟩ := networkOpersParse_listed u buf (operList_intercalate ops hopen hcomma)
  exact ⟨hcount true, hheld⟩

def NeverStrays (u : Unset) (str : Bytes) : Prop :=
  strncmp str (ascii "+COPS: ") 7 → ∀ n s, InStep u.int (str.drop 7) n s → ¬ Strays n s

/-- Where an element strays, the elements behind the old `n` are no more than those behind the
element. -/
def StraysNoFurther (u : Unset) (str : Bytes) : Prop :=
  strncmp str (ascii "+COPS: ") 7 → ∀ n s, InStep u.int (str.drop 7) n s → Strays n s →
    ∀ m m', operNext true n s = some m → operNext false n s = some m' →
      operCount true m (s.drop m) ≤ operCount false m' (s.drop m')

theorem opers_agree_iff (u : Unset) (str : Bytes) :
    (NeverStrays u str → FillsCounted u str ∧ WritesListed u str) ∧
      (FillsCounted u str ∧ WritesListed u str ↔ StraysNoFurther u str) := by
  have hiff : FillsCounted u str ↔ StraysNoFurther u str := by
    rw [fillsCounted_iff, StraysNoFurther]
    exact imp_congr_right fun _ => operCount_le_iff
  rw [and_iff_left (writesListed u str)]
  refine ⟨fun h => hiff.mpr ?_, hiff⟩
  intro hname n s hstep hstray
  exact absurd hstray (h hname n s hstep)

/-- The code of the second element has a digit too many, and a `)` stands as far behind its start
as the first one is long. -/
def strayingList : Bytes :=
  ascii "+COPS: (1,\"AAAAAAAAAAAAAAAA\",\"BBBBBBBB\",\"123456\")" ++
    ascii "(1,\"A\",\"B\",\"1234567\")xxxxxxxxxxxxxxxxxxxx)" ++ ascii "(1,\"A\",\"B\",\"1\")"

theorem opers_stray : ¬ FillsCounted zeroed strayingList := by
  have hfirst (out : Bool) : operNext out 0 (strayingList.drop 7) = some 42 := by
    cases out <;> decide +kernel
  have hfill : operNext true 42 ((strayingList.drop 7).drop 42) = some 42 := by decide +kernel
  have hcount : operNext false 42 ((strayingList.drop 7).drop 42) = some 21 := by decide +kernel
  have hthird : (operNext true 42 (((strayingList.drop 7).drop 42).drop 42)).isSome = true := by
    decide +kernel
  have hend : operNext false 21 (((strayingList.drop 7).drop 42).drop 21) = none := by
    decide +kernel
  obtain ⟨m, hthird⟩ := Option.isSome_iff_exists.mp hthird
  rw [fillsCounted_iff]
  intro h
  have hle := h (by decide +kernel)
  change operCount true 0 _ ≤ operCount false 0 _ at hle
  rw [operCount_some (hfirst true), operCount_some hfill, operCount_some hthird,
    operCount_some (hfirst false), operCount_some hcount, operCount_none hend] at hle
  omega

end SystemTestSuite.GsmDaemon
