import SystemTestSuite.GsmDaemon.Llparse
import SystemTestSuite.Library.CString
import SystemTestSuite.Library.Machine

namespace SystemTestSuite.GsmDaemon

open Library

variable {llp : Llparser} {byte : UInt8}

def FinishesLine (llp : Llparser) (byte : UInt8) : Prop :=
  llp.state = .resultCr ∧ byte = LF ∨ llp.state = .resultLf ∧ byte = CR

instance (llp : Llparser) (byte : UInt8) : Decidable (FinishesLine llp byte) :=
  inferInstanceAs (Decidable (_ ∨ _))

inductive Moves (llp : Llparser) : UInt8 → LlparseState → Prop
  | opens : llp.state = .idle ∨ llp.state = .promptSpc → Moves llp CR .idleCr
  | prompts : llp.state = .idle ∨ llp.state = .promptSpc ∨ llp.state = .idleLf →
      Moves llp GT .prompt
  | begins : llp.state = .idleCr → Moves llp LF .idleLf
  | fails {byte : UInt8} : llp.state = .idleCr → byte ≠ LF → Moves llp byte .error
  | delivers : llp.state = .idleLf ∨ llp.state = .result → Moves llp CR .resultCr
  | feeds : llp.state = .result → llp.flags &&& lgsmAtcmdFLfcr ≠ 0 → Moves llp LF .resultLf
  | repeats {byte : UInt8} : llp.state = .resultCr → byte ≠ LF → Moves llp byte .resultCr
  | waits {byte : UInt8} : llp.state = .resultLf → byte ≠ CR → Moves llp byte .resultLf
  | completes : llp.state = .prompt → Moves llp SP .promptSpc
  | stays {byte : UInt8} : llp.state = .error → Moves llp byte .error

def withResult (r : ℤ × Llparser) : ℤ × Llparser := (r.1, { r.2 with state := .result })

inductive LlparseStep (llp : Llparser) (byte : UInt8) : ℤ × Llparser → Prop
  | moves {st : LlparseState} : Moves llp byte st →
      LlparseStep llp byte (0, { llp with state := st })
  | ends : FinishesLine llp byte → LlparseStep llp byte (0, llparseEndline llp)
  | appends : llp.state = .idle ∨ llp.state = .promptSpc ∨ llp.state = .idleLf ∨
        llp.state = .result ∧ byte ≠ CR →
      LlparseStep llp byte (llparseAppend { llp with state := .result } byte)
  | unprompts : llp.state = .prompt → byte ≠ SP →
      LlparseStep llp byte (withResult (llparseAppend (llparseAppend llp GT).2 byte))

theorem llparseByte_step (llp : Llparser) (byte : UInt8) :
    LlparseStep llp byte (llparseByte llp byte) := by
  unfold llparseByte
  cases hst : llp.state with
  | idle | promptSpc =>
    dsimp only
    split_ifs with hext hcr hgt
    · rw [hcr]
      exact .moves (.opens (by simp [hst]))
    · rw [hgt]
      exact .moves (.prompts (by simp [hst]))
    · exact .appends (by simp [hst])
    · exact .appends (by simp [hst])
  | idleCr =>
    dsimp only
    split_ifs with hlf
    · rw [hlf]
      exact .moves (.begins hst)
    · exact .moves (.fails hst hlf)
  | idleLf =>
    dsimp only
    split_ifs with hcr hgt
    · rw [hcr]
      exact .moves (.delivers (Or.inl hst))
    · rw [hgt]
      exact .moves (.prompts (by simp [hst]))
    · exact .appends (by simp [hst])
  | result =>
    have hsame : { llp with state := .result } = llp := by rw [← hst]
    dsimp only
    split_ifs with hcr hlf
    · rw [hcr]
      exact .moves (.delivers (Or.inr hst))
    · rw [hlf.2]
      exact .moves (.feeds hst hlf.1)
    · have happend := @LlparseStep.appends llp byte (by simp [hst, hcr])
      rwa [hsame] at happend
  | resultCr =>
    have hsame : { llp with state := .resultCr } = llp := by rw [← hst]
    dsimp only
    split_ifs with hlf
    · exact .ends (Or.inl ⟨hst, hlf⟩)
    · have hmove := LlparseStep.moves (Moves.repeats hst hlf)
      rwa [hsame] at hmove
  | resultLf =>
    have hsame : { llp with state := .resultLf } = llp := by rw [← hst]
    dsimp only
    split_ifs with hcr
    · exact .ends (Or.inr ⟨hst, hcr⟩)
    · have hmove := LlparseStep.moves (Moves.waits hst hcr)
      rwa [hsame] at hmove
  | prompt =>
    dsimp only
    split_ifs with hsp
    · rw [hsp]
      exact .moves (.completes hst)
    · exact .unprompts hst hsp
  | error =>
    have hsame : { llp with state := .error } = llp := by rw [← hst]
    have hmove := @LlparseStep.moves llp byte _ (Moves.stays hst)
    rwa [hsame] at hmove

inductive LlparseCall where
  | endline
  | delivery (d : Delivery)

def LlparseCall.IsCb : LlparseCall → Prop
  | .delivery (.cb _ _) => True
  | .delivery .promptCb | .endline => False

def llparseCalls (llp : Llparser) (byte : UInt8) : List LlparseCall :=
  (if FinishesLine llp byte then [.endline] else []) ++
    if (llparseByte llp byte).1 < 0 then []
    else (deliveries (llparseByte llp byte).2).map .delivery

/-- What is handed to `llparse_append`: that, and nothing else, leads to `LLPARSE_STATE_RESULT`. -/
def appended (llp : Llparser) (byte : UInt8) : Bytes :=
  if (llparseByte llp byte).2.state = .result then
    if llp.state = .prompt then [GT, byte] else [byte]
  else []

structure LlparseRun where
  llp : Llparser
  calls : List LlparseCall
  line : Bytes

structure Fresh (llp : Llparser) : Prop where
  state : llp.state = .idle
  len : llp.len = llparseBufSize
  cur : llp.cur = 0
  zero : ∀ i < llparseBufSize, llp.buf i = 0

def llparseMachine : Machine LlparseRun UInt8 where
  start r := Fresh r.llp ∧ r.calls = [] ∧ r.line = []
  enabled _ _ := True
  next r byte := ⟨(llparseByte r.llp byte).2, r.calls ++ llparseCalls r.llp byte,
    if FinishesLine r.llp byte then [] else r.line ++ appended r.llp byte⟩

theorem FinishesLine.ends (h : FinishesLine llp byte) : llparseByte llp byte = (0, llparseEndline llp) := by
  rcases h with ⟨hst, hbyte⟩ | ⟨hst, hbyte⟩
  · simp [llparseByte, hst, hbyte]
  · simp [llparseByte, hst, hbyte]

theorem FinishesLine.calls (h : FinishesLine llp byte) : llparseCalls llp byte = [.endline] := by
  have hnone : deliveries (llparseEndline llp) = [] := rfl
  rw [llparseCalls, if_pos h, h.ends]
  dsimp only
  rw [if_neg (Int.lt_irrefl 0), hnone]
  rfl

theorem llparseAppend_state (llp : Llparser) (byte : UInt8) :
    (llparseAppend llp byte).2.state = llp.state := by
  unfold llparseAppend
  split_ifs
  · rfl
  · rfl

theorem llparseCalls_reached (h : ¬ FinishesLine llp byte) :
    llparseCalls llp byte = (deliveries (llparseByte llp byte).2).map .delivery ∧
      (llparseByte llp byte).2.state ≠ .idle := by
  have hdropped {t : Llparser} (ht : t.state = .result) (rc : ℤ) :
      (if rc < 0 then [] else (deliveries t).map LlparseCall.delivery) =
        (deliveries t).map .delivery := by
    have hnone : deliveries t = [] := by simp [deliveries, ht]
    rw [hnone]
    exact ite_self _
  have hstep := llparseByte_step llp byte
  rw [llparseCalls, if_neg h, List.nil_append]
  generalize llparseByte llp byte = r at hstep ⊢
  cases hstep with
  | moves hm =>
    refine ⟨if_neg (Int.lt_irrefl 0), ?_⟩
    cases hm <;> simp
  | ends he => exact absurd he h
  | appends _ =>
    have ht := llparseAppend_state { llp with state := .result } byte
    exact ⟨hdropped ht _, by simp [ht]⟩
  | unprompts _ _ => exact ⟨hdropped rfl _, by simp [withResult]⟩

def fedString (llp : Llparser) : Bytes → Bytes
  | [] => []
  | byte :: buf =>
    byte :: if (llparseByte llp byte).1 < 0 then [] else fedString (llparseByte llp byte).2 buf

def fedReads (llp : Llparser) : List Bytes → Bytes
  | [] => []
  | buf :: reads => fedString llp buf ++ fedReads (llparseString llp buf).2.1 reads

def LlparseCall.delivery? : LlparseCall → Option Delivery
  | .delivery d => some d
  | .endline => none

theorem llparseCalls_deliveries (llp : Llparser) (byte : UInt8) :
    (llparseCalls llp byte).filterMap LlparseCall.delivery? =
      if (llparseByte llp byte).1 < 0 then [] else deliveries (llparseByte llp byte).2 := by
  have hends : (if FinishesLine llp byte then [LlparseCall.endline] else []).filterMap
      LlparseCall.delivery? = [] := by
    split_ifs
    · rfl
    · rfl
  have hmap (ds : List Delivery) : (ds.map LlparseCall.delivery).filterMap
      LlparseCall.delivery? = ds := by
    rw [List.filterMap_map]
    exact List.filterMap_some
  rw [llparseCalls, List.filterMap_append, hends, List.nil_append]
  split_ifs
  · rfl
  · exact hmap _

theorem after_fedString (r : LlparseRun) (buf : Bytes) :
    (llparseMachine.after r (fedString r.llp buf)).llp = (llparseString r.llp buf).2.1 ∧
      (llparseMachine.after r (fedString r.llp buf)).calls.filterMap LlparseCall.delivery? =
        r.calls.filterMap LlparseCall.delivery? ++ (llparseString r.llp buf).2.2 := by
  induction buf generalizing r with
  | nil => exact ⟨rfl, (List.append_nil _).symm⟩
  | cons byte buf ih =>
    have hcalls : (llparseMachine.next r byte).calls.filterMap LlparseCall.delivery? =
        r.calls.filterMap LlparseCall.delivery? ++
          if (llparseByte r.llp byte).1 < 0 then [] else deliveries (llparseByte r.llp byte).2 := by
      rw [← llparseCalls_deliveries, ← List.filterMap_append]
      rfl
    rw [fedString, llparseString, Machine.after_cons]
    by_cases hrc : (llparseByte r.llp byte).1 < 0
    · rw [if_pos hrc] at hcalls ⊢
      rw [if_pos hrc]
      exact ⟨rfl, hcalls⟩
    · obtain ⟨hllp, hrest⟩ := ih (llparseMachine.next r byte)
      rw [if_neg hrc] at hcalls ⊢
      rw [if_neg hrc]
      rw [hcalls, List.append_assoc] at hrest
      exact ⟨hllp, hrest⟩

theorem after_fedReads (r : LlparseRun) (reads : List Bytes) :
    (llparseMachine.after r (fedReads r.llp reads)).llp = (llparseReads r.llp reads).2.1 ∧
      (llparseMachine.after r (fedReads r.llp reads)).calls.filterMap LlparseCall.delivery? =
        r.calls.filterMap LlparseCall.delivery? ++ (llparseReads r.llp reads).2.2 := by
  induction reads generalizing r with
  | nil => exact ⟨rfl, (List.append_nil _).symm⟩
  | cons buf reads ih =>
    obtain ⟨hllp, hcalls⟩ := after_fedString r buf
    have hrest := ih (llparseMachine.after r (fedString r.llp buf))
    rw [hllp, hcalls] at hrest
    rw [fedReads, Machine.after_append, llparseReads, ← List.append_assoc]
    exact hrest

theorem fedReads_bytes (llp : Llparser) (bytes : Bytes) :
    fedReads llp (bytes.map ([·])) = bytes := by
  induction bytes generalizing llp with
  | nil => rfl
  | cons byte bytes ih =>
    have hone : fedString llp [byte] = [byte] := by
      rw [fedString]
      split_ifs
      · rfl
      · rfl
    rw [List.map_cons, fedReads, ih, hone]
    rfl

def Separated (calls : List LlparseCall) : Prop :=
  ∀ pre c mid c' post, calls = pre ++ c :: (mid ++ c' :: post) → c.IsCb → c'.IsCb →
    .endline ∈ mid

def Delivered (calls : List LlparseCall) : Prop :=
  ∃ pre c post, calls = pre ++ c :: post ∧ c.IsCb ∧ .endline ∉ post

theorem delivered_append (calls : List LlparseCall) (c : LlparseCall) :
    Delivered (calls ++ [c]) ↔ c.IsCb ∨ c ≠ .endline ∧ Delivered calls := by
  constructor
  · rintro ⟨pre, d, post, heq, hd, hno⟩
    rcases List.eq_nil_or_concat post with rfl | ⟨init, last, rfl⟩
    · obtain ⟨rfl, hlast⟩ := List.append_inj' heq rfl
      obtain rfl : c = d := by simpa using hlast
      exact Or.inl hd
    · have heq' : calls ++ [c] = (pre ++ d :: init) ++ [last] := by simpa using heq
      obtain ⟨rfl, hlast⟩ := List.append_inj' heq' rfl
      obtain rfl : c = last := by simpa using hlast
      simp only [List.concat_eq_append, List.mem_append, List.mem_singleton, not_or] at hno
      exact Or.inr ⟨Ne.symm hno.2, pre, d, init, rfl, hd, hno.1⟩
  · rintro (hc | ⟨hne, pre, d, post, rfl, hd, hno⟩)
    · exact ⟨calls, c, [], rfl, hc, List.not_mem_nil⟩
    · refine ⟨pre, d, post ++ [c], by simp, hd, ?_⟩
      simp [hno, Ne.symm hne]

theorem separated_append (calls : List LlparseCall) (c : LlparseCall) :
    Separated (calls ++ [c]) ↔ Separated calls ∧ (c.IsCb → ¬ Delivered calls) := by
  constructor
  · intro h
    refine ⟨?_, ?_⟩
    · rintro pre d mid d' post rfl hd hd'
      exact h pre d mid d' (post ++ [c]) (by simp) hd hd'
    · rintro hc ⟨pre, d, post, rfl, hd, hno⟩
      exact hno (h pre d post c [] (by simp) hd hc)
  · rintro ⟨h, hlast⟩ pre d mid d' post heq hd hd'
    rcases List.eq_nil_or_concat post with rfl | ⟨init, last, rfl⟩
    · have heq' : calls ++ [c] = (pre ++ d :: mid) ++ [d'] := by simpa using heq
      obtain ⟨rfl, hc⟩ := List.append_inj' heq' rfl
      obtain rfl : c = d' := by simpa using hc
      by_contra hno
      exact hlast hd' ⟨pre, d, mid, rfl, hd, hno⟩
    · have heq' : calls ++ [c] = (pre ++ d :: (mid ++ d' :: init)) ++ [last] := by simpa using heq
      obtain ⟨rfl, -⟩ := List.append_inj' heq' rfl
      exact h pre d mid d' init rfl hd hd'

def LfBehindCr (r : LlparseRun) (byte : UInt8) : Prop := r.llp.state = .resultCr → byte = LF

variable {r : LlparseRun}

structure CbInv (r : LlparseRun) : Prop where
  separated : Separated r.calls
  delivered : Delivered r.calls ↔ r.llp.state = .resultCr

theorem cbInv_start (h : llparseMachine.start r) : CbInv r := by
  obtain ⟨hfresh, hcalls, -⟩ := h
  have hnone : ¬ Delivered r.calls := by
    rintro ⟨pre, c, post, heq, -⟩
    rw [hcalls] at heq
    exact absurd heq (by simp)
  refine ⟨?_, iff_of_false hnone (by simp [hfresh.state])⟩
  intro pre c mid c' post heq
  rw [hcalls] at heq
  exact absurd heq (by simp)

theorem cbInv_next (h : CbInv r) (hok : LfBehindCr r byte) :
    CbInv (llparseMachine.next r byte) := by
  by_cases hends : FinishesLine r.llp byte
  · have hstate : (llparseMachine.next r byte).llp.state = .idle := by
      change (llparseByte r.llp byte).2.state = .idle
      rw [hends.ends]
      rfl
    have hcalls : (llparseMachine.next r byte).calls = r.calls ++ [.endline] :=
      congrArg (r.calls ++ ·) hends.calls
    refine ⟨?_, ?_⟩
    · rw [hcalls]
      exact (separated_append _ _).mpr ⟨h.separated, False.elim⟩
    · rw [hcalls, hstate, delivered_append]
      simp [LlparseCall.IsCb]
  · have hstate : r.llp.state ≠ .resultCr := fun hst => hends (Or.inl ⟨hst, hok hst⟩)
    have hnone : ¬ Delivered r.calls := fun hd => hstate (h.delivered.mp hd)
    obtain ⟨hreached, -⟩ := llparseCalls_reached hends
    have hcalls : (llparseMachine.next r byte).calls =
        r.calls ++ (deliveries (llparseMachine.next r byte).llp).map .delivery :=
      congrArg (r.calls ++ ·) hreached
    by_cases hcr : (llparseMachine.next r byte).llp.state = .resultCr
    · have hcb : deliveries (llparseMachine.next r byte).llp =
          [.cb (llparseMachine.next r byte).llp.buf (llparseMachine.next r byte).llp.cur] := by
        simp [deliveries, hcr]
      rw [hcb] at hcalls
      refine ⟨?_, ?_⟩
      · rw [hcalls]
        exact (separated_append _ _).mpr ⟨h.separated, fun _ => hnone⟩
      · rw [hcalls]
        exact iff_of_true ((delivered_append _ _).mpr (Or.inl trivial)) hcr
    · by_cases hspc : (llparseMachine.next r byte).llp.state = .promptSpc
      · have hprompt : deliveries (llparseMachine.next r byte).llp = [.promptCb] := by
          simp [deliveries, hspc]
        rw [hprompt] at hcalls
        refine ⟨?_, ?_⟩
        · rw [hcalls]
          exact (separated_append _ _).mpr ⟨h.separated, False.elim⟩
        · rw [hcalls]
          refine iff_of_false (fun hd => ?_) hcr
          rcases (delivered_append _ _).mp hd with hc | ⟨-, hd⟩
          · exact hc
          · exact hnone hd
      · have hquiet : deliveries (llparseMachine.next r byte).llp = [] := by
          simp [deliveries, hcr, hspc]
        rw [hquiet, List.map_nil, List.append_nil] at hcalls
        refine ⟨?_, ?_⟩
        · rw [hcalls]
          exact h.separated
        · rw [hcalls]
          exact iff_of_false hnone hcr

theorem cb_repeated (h : CbInv r) (hno : ¬ LfBehindCr r byte) :
    ¬ Separated (llparseMachine.next r byte).calls := by
  obtain ⟨hst, hlf⟩ := Classical.not_imp.mp hno
  have hsame : llparseByte r.llp byte = (0, r.llp) := by simp [llparseByte, hst, hlf]
  have hends : ¬ FinishesLine r.llp byte := by simp [FinishesLine, hst, hlf]
  have hcalls : llparseCalls r.llp byte = [.delivery (.cb r.llp.buf r.llp.cur)] := by
    rw [(llparseCalls_reached hends).1, hsame]
    simp [deliveries, hst]
  intro hsep
  change Separated (r.calls ++ llparseCalls r.llp byte) at hsep
  rw [hcalls] at hsep
  exact ((separated_append _ _).mp hsep).2 trivial (h.delivered.mpr hst)

theorem separated_iff_lfBehindCr (hstart : llparseMachine.start r) {bytes : Bytes} {t : LlparseRun}
    (hrun : llparseMachine.Run r bytes t) :
    llparseMachine.Throughout (fun s => Separated s.calls) r bytes ↔
      llparseMachine.RunWhile LfBehindCr r bytes t := by
  apply Machine.Run.throughout_iff _ _ _ hrun (cbInv_start hstart)
  · exact fun s b hi _ hok => cbInv_next hi hok
  · exact fun s hi => hi.separated
  · exact fun s b hi _ hno => cb_repeated hi hno

def freshRun : LlparseRun := ⟨llparserAtInit, [], []⟩

theorem freshRun_start : llparseMachine.start freshRun :=
  ⟨⟨rfl, rfl, rfl, fun _ _ => rfl⟩, rfl, rfl⟩

instance (r : LlparseRun) (byte : UInt8) : Decidable (llparseMachine.enabled r byte) :=
  .isTrue trivial

instance (r : LlparseRun) (byte : UInt8) : Decidable (LfBehindCr r byte) :=
  inferInstanceAs (Decidable (_ → _))

theorem run_any (r : LlparseRun) (bytes : Bytes) :
    llparseMachine.Run r bytes (llparseMachine.after r bytes) :=
  llparseMachine.run_after (fun _ _ => trivial) r bytes

theorem separated_iff_lfBehindCr_ok :
    llparseMachine.Throughout (fun s => Separated s.calls) freshRun
      ([CR, LF] ++ ascii "RING" ++ [CR, LF] ++ [CR, LF] ++ ascii "OK" ++ [CR, LF]) := by
  apply (separated_iff_lfBehindCr freshRun_start (run_any _ _)).mpr
  apply Machine.Checks.runWhile
  decide

theorem separated_repeated : llparseMachine.start freshRun ∧
    ¬ llparseMachine.Throughout (fun s => Separated s.calls) freshRun
      ([CR, LF] ++ ascii "OK" ++ [CR, CR]) := by
  refine ⟨freshRun_start, fun h => ?_⟩
  have hrun := (separated_iff_lfBehindCr freshRun_start (run_any _ _)).mp h
  have hlast := @Machine.RunWhile.last _ _ _ _ _ _ ([CR, LF] ++ ascii "OK" ++ [CR]) CR hrun
  exact absurd hlast (by decide)

end SystemTestSuite.GsmDaemon
