import SystemTestSuite.GsmDaemon.MlParse
import SystemTestSuite.Library.Decimal
import SystemTestSuite.Library.KeyedList
import SystemTestSuite.Library.Machine

namespace SystemTestSuite.GsmDaemon

open Library

def alnumLongSize : ℕ := 17

/-- `sizeof(op->alnum_long-1)`, the size of a pointer. -/
def alnumLongCopied : ℕ := 4

structure Opname where
  mcc : UInt16
  mnc : UInt8
  alnumLong : Memory

def opnameAdd (operators : List Opname) (op : Opname) : List Opname :=
  operators.filter (fun cur => ¬ (op.mcc = cur.mcc ∧ op.mnc = cur.mnc)) ++ [op]

/-- `heap` is what the new block holds where `alnum_long` lies. -/
def gsmdOpnameAdd (heap : Memory) (operators : List Opname) (numericBcdString alnumLong : Bytes) :
    ℤ × List Opname :=
  if (cstr numericBcdString).length ≠ 5 then (-EINVAL, operators)
  else
    let mcc := (cstr numericBcdString).take 3
    let mnc := (cstr numericBcdString).drop 3
    let op : Opname :=
      { mcc := UInt16.ofInt (atoi mcc)
        mnc := UInt8.ofInt (atoi mnc)
        alnumLong := heap.store 0 (strncpy alnumLong alnumLongCopied) }
    (0, opnameAdd operators op)

/-- One call with the memory it is given. A code of five characters has only digits. -/
structure OpnameCall where
  code : Bytes
  name : Bytes
  heap : Memory
  digits : (cstr code).length = 5 → ∀ c ∈ cstr code, isDigit c = true

namespace OpnameCall

def Five (c : OpnameCall) : Prop := (cstr c.code).length = 5

instance (c : OpnameCall) : Decidable c.Five := inferInstanceAs (Decidable (_ = _))

def pair (c : OpnameCall) : ℕ × ℕ :=
  (digitsValue ((cstr c.code).take 3), digitsValue ((cstr c.code).drop 3))

end OpnameCall

structure OpnameRun where
  operators : List Opname
  names : ℕ × ℕ → Option Bytes

def opnameMachine : Machine OpnameRun OpnameCall where
  start s := s.operators = [] ∧ s.names = fun _ => none
  enabled _ _ := True
  next s c :=
    { operators := (gsmdOpnameAdd c.heap s.operators c.code c.name).2
      names := if c.Five then Function.update s.names c.pair (some (cstr c.name)) else s.names }

def Opname.pair (op : Opname) : ℕ × ℕ := (op.mcc.toNat, op.mnc.toNat)

def Opname.Holds (op : Opname) (name : Bytes) : Prop :=
  op.alnumLong.string? 0 alnumLongSize = some (name.take (alnumLongSize - 1))

def CacheIsMap (s : OpnameRun) : Prop := Represents Opname.pair Opname.Holds s.operators s.names

/-- The name has at most three characters, or the memory happens to go on as the name does. -/
def NameFits (c : OpnameCall) : Prop :=
  (cstr c.name).length < alnumLongCopied ∨
    c.heap.string? alnumLongCopied (alnumLongSize - alnumLongCopied) =
      some (((cstr c.name).take (alnumLongSize - 1)).drop alnumLongCopied)

variable {heap : Memory} {name : Bytes} {c : OpnameCall} {s t : OpnameRun}

theorem holds_iff {op : Opname}
    (hop : op.alnumLong = c.heap.store 0 (strncpy c.name alnumLongCopied)) :
    op.Holds (cstr c.name) ↔ NameFits c := by
  rw [Opname.Holds, NameFits, hop]
  by_cases hshort : (cstr c.name).length < alnumLongCopied
  · have htake : (cstr c.name).take (alnumLongSize - 1) = cstr c.name :=
      List.take_of_length_le (hshort.le.trans (by decide))
    rw [string?_strncpy hshort (hshort.trans (by decide)), htake]
    exact iff_of_true rfl (Or.inl hshort)
  · have hsplit : (cstr c.name).take (alnumLongSize - 1) = (cstr c.name).take alnumLongCopied ++
        ((cstr c.name).take (alnumLongSize - 1)).drop alnumLongCopied := by
      conv_lhs => rw [← List.take_append_drop alnumLongCopied ((cstr c.name).take _)]
      rw [List.take_take]
      rfl
    rw [string?_strncpy_cut (Nat.le_of_not_lt hshort) (by decide), Nat.zero_add,
      or_iff_right hshort, Option.map_eq_some_iff]
    constructor
    · rintro ⟨rest, hrest, heq⟩
      rw [hsplit] at heq
      rw [hrest, List.append_cancel_left heq]
    · intro h
      exact ⟨_, h, hsplit.symm⟩

theorem opnameAdd_putLast (operators : List Opname) (op : Opname) :
    opnameAdd operators op = putLast Opname.pair operators op := by
  rw [opnameAdd, putLast]
  congr 1
  apply List.filter_congr
  intro cur _
  rw [Opname.pair, Opname.pair, decide_eq_decide, Ne, Prod.mk.injEq, UInt16.toNat_inj,
    UInt8.toNat_inj, eq_comm (a := cur.mcc), eq_comm (a := cur.mnc)]

theorem pair_stored (hfive : c.Five) (alnumLong : Memory) :
    Opname.pair ⟨UInt16.ofInt (atoi ((cstr c.code).take 3)),
      UInt8.ofInt (atoi ((cstr c.code).drop 3)), alnumLong⟩ = c.pair := by
  have hdigits := c.digits hfive
  have hmcc : ∀ b ∈ (cstr c.code).take 3, isDigit b = true :=
    fun b hb => hdigits b (List.mem_of_mem_take hb)
  have hmnc : ∀ b ∈ (cstr c.code).drop 3, isDigit b = true :=
    fun b hb => hdigits b (List.mem_of_mem_drop hb)
  have hlen : (cstr c.code).length = 5 := hfive
  have hmcc' := digitsValue_lt hmcc
  have hmnc' := digitsValue_lt hmnc
  rw [List.length_take, hlen] at hmcc'
  rw [List.length_drop, hlen] at hmnc'
  have h16 {n : ℕ} (hn : n < 1000) : (UInt16.ofInt (min n (2 ^ 31 - 1))).toNat = n := by
    rw [UInt16.ofInt, UInt16.toNat_ofNat']
    omega
  have h8 {n : ℕ} (hn : n < 100) : (UInt8.ofInt (min n (2 ^ 31 - 1))).toNat = n := by
    rw [UInt8.ofInt, UInt8.toNat_ofNat']
    omega
  rw [Opname.pair, OpnameCall.pair, atoi_digits hmcc, atoi_digits hmnc, h16 hmcc', h8 hmnc']

theorem next_five (hfive : c.Five) : ∃ op : Opname, op.pair = c.pair ∧
    op.alnumLong = c.heap.store 0 (strncpy c.name alnumLongCopied) ∧
    opnameMachine.next s c = ⟨putLast Opname.pair s.operators op,
      Function.update s.names c.pair (some (cstr c.name))⟩ := by
  have hlen : ¬ (cstr c.code).length ≠ 5 := not_not.mpr hfive
  refine ⟨⟨_, _, c.heap.store 0 (strncpy c.name alnumLongCopied)⟩, pair_stored hfive _, rfl, ?_⟩
  simp only [opnameMachine]
  rw [if_pos hfive, gsmdOpnameAdd, if_neg hlen]
  dsimp only
  rw [opnameAdd_putLast]

theorem next_other (h : ¬ c.Five) : opnameMachine.next s c = s := by
  have hlen : (cstr c.code).length ≠ 5 := h
  simp only [opnameMachine]
  rw [if_neg h, gsmdOpnameAdd, if_pos hlen]

theorem cacheIsMap_next (h : CacheIsMap s) :
    CacheIsMap (opnameMachine.next s c) ↔ (c.Five → NameFits c) := by
  by_cases hfive : c.Five
  · obtain ⟨op, hpair, hlong, hnext⟩ := next_five (s := s) hfive
    rw [hnext, forall_prop_of_true hfive, ← holds_iff hlong, CacheIsMap, ← hpair]
    exact ⟨fun hmap => hmap.holds_last, fun hholds => Represents.putLast h hholds⟩
  · rw [next_other hfive]
    exact iff_of_true h fun h => absurd h hfive

theorem cacheIsMap_start (h : opnameMachine.start s) : CacheIsMap s := by
  obtain ⟨hoperators, hnames⟩ := h
  rw [CacheIsMap, hoperators, hnames]
  exact represents_nil

/-- The cache is a map all along a run when every name that is added fits, and only then; a call with
a code of another length never changes the list. -/
theorem cacheIsMap_throughout {calls : List OpnameCall} (hs : opnameMachine.start s)
    (hr : opnameMachine.Run s calls t) :
    (opnameMachine.Throughout CacheIsMap s calls ∧
      ∀ c : OpnameCall, ¬ c.Five → (opnameMachine.next t c).operators = t.operators) ↔
      opnameMachine.RunWhile (fun _ c => c.Five → NameFits c) s calls t := by
  have hiff : opnameMachine.Throughout CacheIsMap s calls ↔
      opnameMachine.RunWhile (fun _ c => c.Five → NameFits c) s calls t := by
    apply hr.throughout_iff (fun u c hu _ hok => (cacheIsMap_next hu).mpr hok) (fun _ hu => hu)
    · exact fun u c hu _ hnot hmap => hnot ((cacheIsMap_next hu).mp hmap)
    · exact cacheIsMap_start hs
  rw [← hiff]
  exact and_iff_left fun c hc => by rw [next_other hc]

theorem code_digits : ∀ c ∈ cstr (ascii "26203"), isDigit c = true :=
  List.all_eq_true.mp (by decide)

def emptyRun : OpnameRun := ⟨[], fun _ => none⟩

def shortCall : OpnameCall := ⟨ascii "26203", ascii "E+", Memory.zero, fun _ => code_digits⟩

def longCall : OpnameCall := ⟨ascii "26203", ascii "E-Plus", Memory.zero, fun _ => code_digits⟩

theorem run_single (c : OpnameCall) :
    opnameMachine.Run emptyRun [c] (opnameMachine.next emptyRun c) :=
  Machine.RunWhile.single trivial trivial

theorem other_digits : ∀ c ∈ cstr (ascii "26207"), isDigit c = true :=
  List.all_eq_true.mp (by decide)

def otherCall : OpnameCall := ⟨ascii "26207", ascii "O2", Memory.zero, fun _ => other_digits⟩

/-- `E+` and `O2`, then `E+` again -/
theorem cacheIsMap_short :
    opnameMachine.Throughout CacheIsMap emptyRun [shortCall, otherCall, shortCall] := by
  have hshort : NameFits shortCall := Or.inl (by decide)
  have hother : NameFits otherCall := Or.inl (by decide)
  have hrun : opnameMachine.RunWhile (fun _ c => c.Five → NameFits c) emptyRun
      [shortCall, otherCall, shortCall] _ :=
    Machine.Checks.runWhile
      ⟨⟨trivial, fun _ => hshort⟩, ⟨trivial, fun _ => hother⟩, ⟨trivial, fun _ => hshort⟩, trivial⟩
  exact ((cacheIsMap_throughout ⟨rfl, rfl⟩ hrun.run).mpr hrun).1

/-- `E-Plus` -/
theorem cacheIsMap_long : ¬ ∀ (s t : OpnameRun) (calls : List OpnameCall), opnameMachine.start s →
    opnameMachine.Run s calls t → opnameMachine.Throughout CacheIsMap s calls := by
  intro h
  have hlast := h emptyRun _ [longCall] ⟨rfl, rfl⟩ (run_single longCall) _ (List.prefix_refl _)
  have hfits := (cacheIsMap_next (cacheIsMap_start ⟨rfl, rfl⟩)).mp hlast (by decide)
  rcases hfits with hshort | hheap
  · exact absurd hshort (by decide)
  · exact absurd hheap (by decide)

end SystemTestSuite.GsmDaemon
