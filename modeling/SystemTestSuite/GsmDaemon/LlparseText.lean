import SystemTestSuite.GsmDaemon.LlparseCalls

namespace SystemTestSuite.GsmDaemon

open Library

variable {llp : Llparser} {byte : UInt8} {line : Bytes} {r : LlparseRun}

structure Holds (line : Bytes) (llp : Llparser) : Prop where
  len : llp.len = llparseBufSize
  cur : llp.cur = (line.take llparseBufSize).length
  held : llp.buf.slice 0 llp.cur = line.take llparseBufSize
  zero : ∀ i, llp.cur ≤ i → i < llparseBufSize → llp.buf i = 0

structure Contents (r : LlparseRun) : Prop where
  holds : Holds r.line r.llp
  opening : r.llp.state ≠ .result → r.llp.state ≠ .resultCr → r.llp.state ≠ .resultLf → r.line = []

theorem Holds.withState (h : Holds line llp) (st : LlparseState) :
    Holds line { llp with state := st } := ⟨h.len, h.cur, h.held, h.zero⟩

theorem Holds.append (h : Holds line llp) (byte : UInt8) :
    Holds (line ++ [byte]) (llparseAppend llp byte).2 := by
  have hcur := h.cur
  rw [List.length_take] at hcur
  unfold llparseAppend
  by_cases hfits : llp.cur < llp.len
  · have hlen := h.len
    have hline : llp.cur = line.length := by omega
    have htake : line.take llparseBufSize = line := List.take_of_length_le (by omega)
    have hall : (line ++ [byte]).take llparseBufSize = line ++ [byte] := by
      apply List.take_of_length_le
      rw [List.length_append, List.length_singleton]
      omega
    have hheld := h.held
    rw [if_pos hfits]
    refine ⟨h.len, ?_, ?_, ?_⟩
    · rw [hall, List.length_append, ← hline]
      rfl
    · have hs := Memory.slice_store_append llp.buf 0 llp.cur [byte]
      rw [Nat.zero_add, hheld, htake] at hs
      rw [hall]
      exact hs
    · intro i hi hb
      have hbehind : llp.buf.store llp.cur [byte] i = llp.buf i := Memory.store_behind _ _ hi
      exact hbehind.trans (h.zero i (Nat.le_of_succ_le hi) hb)
  · have hfull : llparseBufSize ≤ line.length := by
      have hlen := h.len
      omega
    rw [if_neg hfits]
    have htake : (line ++ [byte]).take llparseBufSize = line.take llparseBufSize :=
      List.take_append_of_le_length hfull
    exact ⟨h.len, by rw [htake]; exact h.cur, by rw [htake]; exact h.held, h.zero⟩

theorem holds_endline (llp : Llparser) (h : llp.len = llparseBufSize) :
    Holds [] (llparseEndline llp) := by
  refine ⟨h, rfl, rfl, fun i _ hi => ?_⟩
  simp [llparseEndline, Memory.fill, hi]

theorem Moves.ne_result {st : LlparseState} (h : Moves llp byte st) : st ≠ .result := by
  cases h <;> simp

theorem appended_quiet (h : (llparseByte llp byte).2.state ≠ .result) : appended llp byte = [] :=
  if_neg h

theorem next_line (hends : ¬ FinishesLine r.llp byte) :
    (llparseMachine.next r byte).line = r.line ++ appended r.llp byte := if_neg hends

def LlparseRun.fresh (llp : Llparser) : LlparseRun := ⟨llp, [], []⟩

theorem contents_start (h : llparseMachine.start r) : Contents r := by
  obtain ⟨hfresh, -, hline⟩ := h
  refine ⟨⟨hfresh.len, ?_, ?_, fun i _ hi => hfresh.zero i hi⟩, fun _ _ _ => hline⟩
  · rw [hfresh.cur, hline]
    rfl
  · rw [hfresh.cur, hline]
    rfl

theorem contents_next (h : Contents r) (byte : UInt8) : Contents (llparseMachine.next r byte) := by
  by_cases hends : FinishesLine r.llp byte
  · have hnil : (llparseMachine.next r byte).line = [] := if_pos hends
    refine ⟨?_, fun _ _ _ => hnil⟩
    rw [hnil]
    change Holds [] (llparseByte r.llp byte).2
    rw [hends.ends]
    exact holds_endline r.llp h.holds.len
  · have hline := next_line hends
    have hllp : (llparseMachine.next r byte).llp = (llparseByte r.llp byte).2 := rfl
    have hstep := llparseByte_step r.llp byte
    have happended : appended r.llp byte = if (llparseByte r.llp byte).2.state = .result then
        if r.llp.state = .prompt then [GT, byte] else [byte] else [] := rfl
    generalize llparseByte r.llp byte = s at hstep happended hllp
    cases hstep with
    | @moves st hm =>
      rw [happended, if_neg hm.ne_result, List.append_nil] at hline
      refine ⟨?_, ?_⟩
      · rw [hline, hllp]
        exact h.holds.withState st
      · rw [hline, hllp]
        intro hr hcr hlf
        apply h.opening
        · intro hst
          cases hm <;> simp_all
        · intro hst
          cases hm <;> simp_all
        · intro hst
          cases hm <;> simp_all
    | ends he => exact absurd he hends
    | appends hst =>
      have hstate : (llparseAppend { r.llp with state := .result } byte).2.state = .result :=
        llparseAppend_state _ _
      have hprompt : r.llp.state ≠ .prompt := by
        rcases hst with hst | hst | hst | ⟨hst, -⟩ <;> simp [hst]
      rw [happended, if_pos hstate, if_neg hprompt] at hline
      refine ⟨?_, fun hr => absurd (hllp ▸ hstate) hr⟩
      rw [hline, hllp]
      exact (h.holds.withState .result).append byte
    | unprompts hst _ =>
      have hnil : r.line = [] := h.opening (by simp [hst]) (by simp [hst]) (by simp [hst])
      rw [happended, withResult, if_pos rfl, if_pos hst] at hline
      refine ⟨?_, fun hr => absurd (by rw [hllp]; rfl) hr⟩
      rw [hline, hllp]
      have htwo := (h.holds.append GT).append byte
      rw [List.append_assoc] at htwo
      exact htwo.withState .result

theorem contents_after (h : Contents r) (bytes : Bytes) :
    Contents (llparseMachine.after r bytes) := by
  induction bytes generalizing r with
  | nil => exact h
  | cons b bytes ih => exact ih (contents_next h b)

theorem llparseAppend_flags (llp : Llparser) (byte : UInt8) :
    (llparseAppend llp byte).2.flags = llp.flags := by
  unfold llparseAppend
  split_ifs
  · rfl
  · rfl

theorem llparseByte_flags (llp : Llparser) (byte : UInt8) :
    (llparseByte llp byte).2.flags = llp.flags := by
  have hstep := llparseByte_step llp byte
  generalize llparseByte llp byte = s at hstep
  cases hstep with
  | moves _ => rfl
  | ends _ => rfl
  | appends _ => exact llparseAppend_flags _ _
  | unprompts _ _ =>
    change (llparseAppend (llparseAppend llp GT).2 byte).2.flags = llp.flags
    rw [llparseAppend_flags, llparseAppend_flags]

theorem after_flags (r : LlparseRun) (bytes : Bytes) :
    (llparseMachine.after r bytes).llp.flags = r.llp.flags := by
  induction bytes generalizing r with
  | nil => rfl
  | cons b bytes ih => exact (ih _).trans (llparseByte_flags r.llp b)

theorem next_append (hends : ¬ FinishesLine r.llp byte) (hprompt : r.llp.state ≠ .prompt)
    (hstate : (llparseMachine.next r byte).llp.state = .result) :
    (llparseMachine.next r byte).line = r.line ++ [byte] := by
  have hresult : (llparseByte r.llp byte).2.state = .result := hstate
  rw [next_line hends, appended, if_pos hresult, if_neg hprompt]

theorem next_plain (hst : r.llp.state = .result) (hcr : byte ≠ CR) (hlf : byte ≠ LF) :
    (llparseMachine.next r byte).llp.state = .result ∧
      (llparseMachine.next r byte).line = r.line ++ [byte] := by
  have hbyte : llparseByte r.llp byte = llparseAppend r.llp byte := by
    simp [llparseByte, hst, hcr, hlf]
  have hstate : (llparseMachine.next r byte).llp.state = .result := by
    change (llparseByte r.llp byte).2.state = .result
    rw [hbyte, llparseAppend_state, hst]
  refine ⟨hstate, next_append ?_ (by simp [hst]) hstate⟩
  simp [FinishesLine, hst]

theorem next_first (hst : r.llp.state = .idle ∨ r.llp.state = .idleLf) (hcr : byte ≠ CR)
    (hgt : byte ≠ GT) :
    (llparseMachine.next r byte).llp.state = .result ∧
      (llparseMachine.next r byte).line = r.line ++ [byte] := by
  have hbyte : llparseByte r.llp byte = llparseAppend { r.llp with state := .result } byte := by
    rcases hst with hst | hst <;> simp [llparseByte, hst, hcr, hgt]
  have hstate : (llparseMachine.next r byte).llp.state = .result := by
    change (llparseByte r.llp byte).2.state = .result
    rw [hbyte, llparseAppend_state]
  refine ⟨hstate, next_append ?_ ?_ hstate⟩
  · rcases hst with hst | hst <;> simp [FinishesLine, hst]
  · rcases hst with hst | hst <;> simp [hst]

def Plain (text : Bytes) : Prop := CR ∉ text ∧ LF ∉ text

instance (text : Bytes) : Decidable (Plain text) := inferInstanceAs (Decidable (_ ∧ _))

theorem after_plain {text : Bytes} (hst : r.llp.state = .result) (htext : Plain text) :
    (llparseMachine.after r text).llp.state = .result ∧
      (llparseMachine.after r text).line = r.line ++ text := by
  induction text generalizing r with
  | nil => exact ⟨hst, (List.append_nil _).symm⟩
  | cons b text ih =>
    obtain ⟨hcr, hlf⟩ := htext
    simp only [List.mem_cons, not_or] at hcr hlf
    obtain ⟨hstate, hline⟩ := next_plain hst (Ne.symm hcr.1) (Ne.symm hlf.1)
    have hrest := ih hstate ⟨hcr.2, hlf.2⟩
    rw [hline, List.append_assoc] at hrest
    exact hrest

theorem after_text {text : Bytes} (hst : r.llp.state = .idle ∨ r.llp.state = .idleLf)
    (htext : Plain text) (hne : text ≠ []) (hgt : text.head? ≠ some GT) :
    (llparseMachine.after r text).llp.state = .result ∧
      (llparseMachine.after r text).line = r.line ++ text := by
  cases text with
  | nil => exact absurd rfl hne
  | cons b text =>
    obtain ⟨hcr, hlf⟩ := htext
    simp only [List.mem_cons, not_or] at hcr hlf
    have hb : b ≠ GT := fun heq => hgt (congrArg some heq)
    obtain ⟨hstate, hline⟩ := next_first hst (Ne.symm hcr.1) hb
    have hrest := after_plain hstate ⟨hcr.2, hlf.2⟩
    rw [hline, List.append_assoc] at hrest
    exact hrest

theorem closes_crLf (hst : r.llp.state = .result) :
    (llparseMachine.after r [CR, LF]).llp.state = .idle ∧
      (llparseMachine.after r [CR, LF]).calls =
        r.calls ++ [.delivery (.cb r.llp.buf r.llp.cur), .endline] := by
  have hcr : llparseByte r.llp CR = (0, { r.llp with state := .resultCr }) := by
    simp [llparseByte, hst]
  have hends : FinishesLine { r.llp with state := .resultCr } LF := Or.inl ⟨rfl, rfl⟩
  have hcall : llparseCalls r.llp CR = [.delivery (.cb r.llp.buf r.llp.cur)] := by
    have hno : ¬ FinishesLine r.llp CR := by simp [FinishesLine, hst]
    rw [(llparseCalls_reached hno).1, hcr]
    rfl
  have hnext : (llparseMachine.next r CR).llp = { r.llp with state := .resultCr } := by
    change (llparseByte r.llp CR).2 = _
    rw [hcr]
  refine ⟨?_, ?_⟩
  · change (llparseByte (llparseMachine.next r CR).llp LF).2.state = .idle
    rw [hnext, hends.ends]
    rfl
  · change r.calls ++ llparseCalls r.llp CR ++ llparseCalls (llparseMachine.next r CR).llp LF = _
    rw [hcall, hnext, hends.calls, List.append_assoc]
    rfl

theorem cb_mem_iff {buf : Memory} {n : ℕ} :
    .delivery (.cb buf n) ∈ llparseCalls llp byte ↔
      (llparseByte llp byte).2.state = .resultCr ∧ buf = (llparseByte llp byte).2.buf ∧
        n = (llparseByte llp byte).2.cur := by
  by_cases hends : FinishesLine llp byte
  · rw [hends.calls, hends.ends]
    simp [llparseEndline]
  · rw [(llparseCalls_reached hends).1]
    by_cases hcr : (llparseByte llp byte).2.state = .resultCr
    · simp [deliveries, hcr]
    · by_cases hspc : (llparseByte llp byte).2.state = .promptSpc
      · simp [deliveries, hspc]
      · simp [deliveries, hcr, hspc]

/-- The line that is delivered is all of the text since the last one, and a NUL inside the buffer
ends it. -/
def DeliversText (r : LlparseRun) (byte : UInt8) : Prop :=
  ∀ buf n, .delivery (.cb buf n) ∈ llparseCalls r.llp byte →
    n < llparseBufSize ∧ buf n = 0 ∧ buf.slice 0 n = (llparseMachine.next r byte).line

def FitsBuf (r : LlparseRun) (byte : UInt8) : Prop :=
  r.llp.state = .result → byte = CR → r.line.length < llparseBufSize

structure TextInv (r : LlparseRun) : Prop where
  contents : Contents r
  delivered : r.llp.state = .resultCr → r.line.length < llparseBufSize

theorem Holds.text_iff (h : Holds line llp) :
    (llp.cur < llparseBufSize ∧ llp.buf llp.cur = 0 ∧ llp.buf.slice 0 llp.cur = line) ↔
      line.length < llparseBufSize := by
  have hcur := h.cur
  rw [List.length_take] at hcur
  constructor
  · rintro ⟨hlt, -, -⟩
    omega
  · intro hlt
    have hroom : llp.cur < llparseBufSize := by omega
    refine ⟨hroom, h.zero _ (le_refl _) hroom, ?_⟩
    rw [h.held, List.take_of_length_le hlt.le]

theorem deliversText_iff (h : Contents r) :
    DeliversText r byte ↔ ((llparseMachine.next r byte).llp.state = .resultCr →
      (llparseMachine.next r byte).line.length < llparseBufSize) := by
  have hholds := (contents_next h byte).holds
  constructor
  · intro hd hst
    exact hholds.text_iff.mp (hd _ _ (cb_mem_iff.mpr ⟨hst, rfl, rfl⟩))
  · intro hlen buf n hmem
    obtain ⟨hst, rfl, rfl⟩ := cb_mem_iff.mp hmem
    exact hholds.text_iff.mpr (hlen hst)

theorem reached_line (h : (llparseMachine.next r byte).llp.state = .resultCr) :
    (llparseMachine.next r byte).line = r.line ∧
      ((r.llp.state = .idleLf ∨ r.llp.state = .result) ∧ byte = CR ∨ r.llp.state = .resultCr) := by
  have hends : ¬ FinishesLine r.llp byte := by
    intro hends
    change (llparseByte r.llp byte).2.state = .resultCr at h
    rw [hends.ends] at h
    cases h
  have hquiet : (llparseByte r.llp byte).2.state ≠ .result := by
    change (llparseMachine.next r byte).llp.state ≠ .result
    simp [h]
  refine ⟨by rw [next_line hends, appended_quiet hquiet, List.append_nil], ?_⟩
  have hstep := llparseByte_step r.llp byte
  have hllp : (llparseMachine.next r byte).llp = (llparseByte r.llp byte).2 := rfl
  rw [hllp] at h
  generalize llparseByte r.llp byte = s at hstep h
  cases hstep with
  | moves hm =>
    cases hm with
    | delivers hst => exact Or.inl ⟨hst, rfl⟩
    | repeats hst _ => exact Or.inr hst
    | _ => cases h
  | ends he => exact absurd he hends
  | appends _ =>
    rw [llparseAppend_state] at h
    cases h
  | unprompts _ _ => cases h

theorem textInv_next (h : TextInv r) (hok : FitsBuf r byte) :
    TextInv (llparseMachine.next r byte) := by
  refine ⟨contents_next h.contents byte, fun hst => ?_⟩
  obtain ⟨hline, hfrom⟩ := reached_line hst
  rw [hline]
  rcases hfrom with ⟨hopen | hresult, hcr⟩ | hcr
  · rw [h.contents.opening (by simp [hopen]) (by simp [hopen]) (by simp [hopen])]
    decide
  · exact hok hresult hcr
  · exact h.delivered hcr

theorem deliversText_iff_fits (h : TextInv r) : DeliversText r byte ↔ FitsBuf r byte := by
  rw [deliversText_iff h.contents]
  constructor
  · intro hd hresult hcr
    have hst : (llparseMachine.next r byte).llp.state = .resultCr := by
      change (llparseByte r.llp byte).2.state = .resultCr
      simp [llparseByte, hresult, hcr]
    rw [← (reached_line hst).1]
    exact hd hst
  · intro hok
    exact (textInv_next h hok).delivered

theorem deliversText_iff_fitsBuf (hstart : llparseMachine.start r) {bytes : Bytes} {t : LlparseRun} :
    llparseMachine.RunWhile DeliversText r bytes t ↔ llparseMachine.RunWhile FitsBuf r bytes t := by
  have hinv : TextInv r :=
    ⟨contents_start hstart, fun hst => absurd (hstart.1.state.symm.trans hst) (by simp)⟩
  refine Iff.symm (Machine.runWhile_congr ?_ ?_ hinv)
  · exact fun s b hi _ hok => textInv_next hi hok
  · exact fun s b hi _ => (deliversText_iff_fits hi).symm

instance (r : LlparseRun) (byte : UInt8) : Decidable (FitsBuf r byte) :=
  inferInstanceAs (Decidable (_ → _ → _))

theorem deliversText_iff_fitsBuf_ok :
    ∃ t, llparseMachine.RunWhile DeliversText freshRun ([CR, LF] ++ ascii "OK" ++ [CR, LF]) t := by
  refine ⟨_, (deliversText_iff_fitsBuf freshRun_start).mpr (Machine.Checks.runWhile ?_)⟩
  decide

def fullLine : Bytes := List.replicate llparseBufSize 65

theorem fullLine_plain : Plain fullLine := by
  constructor
  · exact fun h => absurd (List.eq_of_mem_replicate h) (by decide)
  · exact fun h => absurd (List.eq_of_mem_replicate h) (by decide)

theorem fullLine_cons : ∃ rest, fullLine = 65 :: rest := ⟨_, List.replicate_succ⟩

/-- A line that fills the buffer is delivered without a NUL. -/
theorem deliversText_full : llparseMachine.start freshRun ∧
    ∀ t, ¬ llparseMachine.RunWhile DeliversText freshRun (fullLine ++ [CR]) t := by
  refine ⟨freshRun_start, fun t hrun => ?_⟩
  have hlast := ((deliversText_iff_fitsBuf freshRun_start).mp hrun).last
  obtain ⟨rest, hrest⟩ := fullLine_cons
  obtain ⟨hst, hline⟩ := @after_text freshRun fullLine (Or.inl rfl) fullLine_plain
    (by rw [hrest]; simp) (by rw [hrest, List.head?_cons]; decide)
  have hfits := hlast hst rfl
  have hlen : fullLine.length = llparseBufSize := List.length_replicate
  rw [hline, List.length_append, hlen] at hfits
  exact absurd hfits (by omega)

end SystemTestSuite.GsmDaemon
