import SystemTestSuite.GsmDaemon.LlparseText

namespace SystemTestSuite.GsmDaemon

open Library

variable {llp llp' : Llparser} {byte : UInt8} {r r' : LlparseRun}

theorem llparseByte_state_congr (hst : llp.state = llp'.state) (hflags : llp.flags = llp'.flags)
    (byte : UInt8) : (llparseByte llp byte).2.state = (llparseByte llp' byte).2.state := by
  unfold llparseByte
  rw [← hst, ← hflags]
  cases hs : llp.state with
  | idle | promptSpc =>
    dsimp only
    split_ifs
    · rfl
    · rfl
    · rw [llparseAppend_state, llparseAppend_state]
    · rw [llparseAppend_state, llparseAppend_state]
  | idleCr =>
    dsimp only
    split_ifs
    · rfl
    · rfl
  | idleLf =>
    dsimp only
    split_ifs
    · rfl
    · rfl
    · rw [llparseAppend_state, llparseAppend_state]
  | result =>
    dsimp only
    split_ifs
    · rfl
    · rfl
    · rw [llparseAppend_state, llparseAppend_state, hst]
  | resultCr =>
    dsimp only
    split_ifs
    · rfl
    · exact hst
  | resultLf =>
    dsimp only
    split_ifs
    · rfl
    · exact hst
  | prompt =>
    dsimp only
    split_ifs
    · rfl
    · rfl
  | error => exact hst

theorem after_state_congr (hst : r.llp.state = r'.llp.state) (hflags : r.llp.flags = r'.llp.flags)
    (bytes : Bytes) : (llparseMachine.after r bytes).llp.state =
      (llparseMachine.after r' bytes).llp.state := by
  induction bytes generalizing r r' with
  | nil => exact hst
  | cons b bytes ih =>
    apply ih (llparseByte_state_congr hst hflags b)
    exact (llparseByte_flags r.llp b).trans (hflags.trans (llparseByte_flags r'.llp b).symm)

def atState (st : LlparseState) : LlparseRun := ⟨{ llparserAtInit with state := st }, [], []⟩

theorem after_state (hflags : r.llp.flags = lgsmAtcmdFExtended) (bytes : Bytes) :
    (llparseMachine.after r bytes).llp.state =
      (llparseMachine.after (atState r.llp.state) bytes).llp.state :=
  @after_state_congr r (atState r.llp.state) rfl hflags bytes

def LfBehindOpening (r : LlparseRun) (byte : UInt8) : Prop := r.llp.state = .idleCr → byte = LF

structure SyncInv (r : LlparseRun) : Prop where
  flags : r.llp.flags = lgsmAtcmdFExtended
  contents : Contents r
  state : r.llp.state ≠ .error ∧ r.llp.state ≠ .resultLf

theorem syncInv_next (h : SyncInv r) (hok : LfBehindOpening r byte) :
    SyncInv (llparseMachine.next r byte) := by
  refine ⟨(llparseByte_flags _ _).trans h.flags, contents_next h.contents byte, ?_⟩
  have hflags := h.flags
  have hstep := llparseByte_step r.llp byte
  change (llparseByte r.llp byte).2.state ≠ .error ∧ (llparseByte r.llp byte).2.state ≠ .resultLf
  generalize llparseByte r.llp byte = s at hstep
  cases hstep with
  | moves hm =>
    cases hm with
    | fails hst hlf => exact absurd (hok hst) hlf
    | feeds hst hlfcr =>
      rw [hflags] at hlfcr
      exact absurd (by decide) hlfcr
    | waits hst _ => exact absurd hst h.state.2
    | stays hst => exact absurd hst h.state.1
    | _ => simp
  | ends _ => simp [llparseEndline]
  | appends _ => simp [llparseAppend_state]
  | unprompts _ _ => simp [withResult]

theorem error_next (h : r.llp.state = .error) (byte : UInt8) :
    (llparseMachine.next r byte).llp.state = .error := by
  change (llparseByte r.llp byte).2.state = .error
  simp [llparseByte, h]

theorem error_after (h : r.llp.state = .error) (bytes : Bytes) :
    (llparseMachine.after r bytes).llp.state = .error := by
  induction bytes generalizing r with
  | nil => exact h
  | cons b bytes ih => exact ih (error_next h b)

theorem error_entered (hno : ¬ LfBehindOpening r byte) :
    (llparseMachine.next r byte).llp.state = .error := by
  obtain ⟨hst, hlf⟩ := Classical.not_imp.mp hno
  change (llparseByte r.llp byte).2.state = .error
  simp [llparseByte, hst, hlf]

theorem run_or_error (r : LlparseRun) (bytes : Bytes) :
    llparseMachine.RunWhile LfBehindOpening r bytes (llparseMachine.after r bytes) ∨
      (llparseMachine.after r bytes).llp.state = .error := by
  induction bytes generalizing r with
  | nil => exact Or.inl .nil
  | cons b bytes ih =>
    by_cases hok : LfBehindOpening r b
    · exact (ih (llparseMachine.next r b)).imp_left (Machine.RunWhile.cons trivial hok)
    · exact Or.inr (error_after (error_entered hok) bytes)

def okTail : Bytes := [CR, LF, CR, LF] ++ ascii "OK" ++ [CR, LF]

def readBytes (llp : Llparser) (bytes : Bytes) : List ℤ × Llparser × List Delivery :=
  llparseReads llp (bytes.map ([·]))

/-- The OK behind the noise gets through, and no part of the noise leads into a state that is never
left. -/
structure Resynchronises (llp : Llparser) (p : Bytes) : Prop where
  delivers : ∃ ds buf, (readBytes llp (p ++ okTail)).2.2 = ds ++ [.cb buf 2] ∧
    buf.slice 0 2 = ascii "OK" ∧ buf 2 = 0
  idle : (readBytes llp (p ++ okTail)).2.1.state = .idle
  leaves : ∀ q, q <+: p → ∃ more,
    (readBytes llp (q ++ more)).2.1.state ≠ (readBytes llp q).2.1.state

theorem readBytes_run (llp : Llparser) (bytes : Bytes) :
    (readBytes llp bytes).2.1 = (llparseMachine.after (.fresh llp) bytes).llp ∧
      (readBytes llp bytes).2.2 =
        (llparseMachine.after (.fresh llp) bytes).calls.filterMap LlparseCall.delivery? := by
  have hrun := after_fedReads (.fresh llp) (bytes.map ([·]))
  have hfed : fedReads (LlparseRun.fresh llp).llp (bytes.map ([·])) = bytes := fedReads_bytes llp bytes
  rw [hfed] at hrun
  exact ⟨hrun.1.symm, hrun.2.symm⟩

theorem settles (h : SyncInv r) (hst : r.llp.state ≠ .idleCr) :
    ((llparseMachine.after r [CR, LF, CR, LF]).llp.state = .idle ∨
      (llparseMachine.after r [CR, LF, CR, LF]).llp.state = .idleLf) ∧
    (llparseMachine.after r [CR, LF, CR, LF]).line = [] := by
  have hopen : (llparseMachine.after r [CR, LF, CR, LF]).llp.state = .idle ∨
      (llparseMachine.after r [CR, LF, CR, LF]).llp.state = .idleLf := by
    rw [after_state h.flags]
    have hstate := h.state
    revert hst hstate
    cases r.llp.state <;> decide
  refine ⟨hopen, ?_⟩
  have hcontents := contents_after h.contents [CR, LF, CR, LF]
  rcases hopen with hopen | hopen
  · exact hcontents.opening (hopen ▸ by decide) (hopen ▸ by decide) (hopen ▸ by decide)
  · exact hcontents.opening (hopen ▸ by decide) (hopen ▸ by decide) (hopen ▸ by decide)

theorem closes_text (h : Contents r) (hst : r.llp.state = .result)
    (hlen : r.line.length < llparseBufSize) :
    (llparseMachine.after r [CR, LF]).llp.state = .idle ∧
      ∃ buf, (llparseMachine.after r [CR, LF]).calls =
        r.calls ++ [.delivery (.cb buf r.line.length), .endline] ∧
        buf.slice 0 r.line.length = r.line ∧ buf r.line.length = 0 := by
  obtain ⟨hidle, hcalls⟩ := closes_crLf hst
  have hcur := h.holds.cur
  rw [List.length_take, min_eq_right hlen.le] at hcur
  obtain ⟨-, hzero, hslice⟩ := h.holds.text_iff.mpr hlen
  rw [hcur] at hcalls hzero hslice
  exact ⟨hidle, r.llp.buf, hcalls, hslice, hzero⟩

theorem leaves_state (h : SyncInv r) :
    ∃ b, (llparseMachine.after r [b]).llp.state ≠ r.llp.state := by
  have hstate := h.state
  have hany : ∀ st : LlparseState, st ≠ .error ∧ st ≠ .resultLf → ∃ b ∈ [CR, LF, SP],
      (llparseMachine.after (atState st) [b]).llp.state ≠ st := by
    intro st
    cases st <;> decide
  obtain ⟨b, -, hb⟩ := hany _ hstate
  refine ⟨b, ?_⟩
  rwa [after_state h.flags]

theorem syncInv_start (hstart : Fresh llp) (hflags : llp.flags = lgsmAtcmdFExtended) :
    SyncInv (.fresh llp) := by
  refine ⟨hflags, contents_start ⟨hstart, rfl, rfl⟩, ?_⟩
  change llp.state ≠ .error ∧ llp.state ≠ .resultLf
  simp [hstart.state]

theorem syncInv_prefixes {bytes : Bytes} {t : LlparseRun} (h : SyncInv r)
    (hrun : llparseMachine.RunWhile LfBehindOpening r bytes t) :
    llparseMachine.Throughout SyncInv r bytes :=
  hrun.throughout (fun _ _ hi _ hok => syncInv_next hi hok) (fun _ hi => hi) h

theorem reads_okTail (h : SyncInv r) (hst : r.llp.state ≠ .idleCr) :
    (llparseMachine.after r okTail).llp.state = .idle ∧
      ∃ calls buf, (llparseMachine.after r okTail).calls =
        calls ++ [.delivery (.cb buf 2), .endline] ∧
        buf.slice 0 2 = ascii "OK" ∧ buf 2 = 0 := by
  obtain ⟨hopen, hblank⟩ := settles h hst
  have hcontents := contents_after (contents_after h.contents [CR, LF, CR, LF]) (ascii "OK")
  obtain ⟨hresult, hline⟩ := @after_text _ (ascii "OK") hopen
    (by decide) (by decide) (by decide)
  rw [hblank, List.nil_append] at hline
  have hclosed := closes_text hcontents hresult (by rw [hline]; decide)
  rw [hline] at hclosed
  obtain ⟨hidle, buf, hcalls, hslice, hzero⟩ := hclosed
  rw [okTail, Machine.after_append, Machine.after_append]
  exact ⟨hidle, _, buf, hcalls, hslice, hzero⟩

/-- The parser gets over the noise if and only if, whenever a byte of the noise, or the CR behind
it, comes directly behind a CR where a line could begin, that byte is a LF. -/
theorem resynchronises_iff (hstart : Fresh llp) (hflags : llp.flags = lgsmAtcmdFExtended)
    (p : Bytes) : Resynchronises llp p ↔
      ∃ t, llparseMachine.RunWhile LfBehindOpening (.fresh llp) (p ++ [CR]) t := by
  have hinv : SyncInv (.fresh llp) := syncInv_start hstart hflags
  constructor
  · intro h
    rcases run_or_error (.fresh llp) (p ++ [CR]) with hrun | herror
    · exact ⟨_, hrun⟩
    · have hstuck := error_after herror ([LF, CR, LF] ++ ascii "OK" ++ [CR, LF])
      rw [← Machine.after_append] at hstuck
      have hidle := h.idle
      rw [(readBytes_run llp _).1] at hidle
      have htail : p ++ okTail = p ++ [CR] ++ ([LF, CR, LF] ++ ascii "OK" ++ [CR, LF]) := by
        rw [List.append_assoc]
        rfl
      rw [htail, hstuck] at hidle
      cases hidle
  · rintro ⟨t, hrun⟩
    have hall := syncInv_prefixes hinv hrun
    have hcr : (llparseMachine.after (.fresh llp) p).llp.state ≠ .idleCr :=
      fun hst => absurd (hrun.last hst) (by decide)
    obtain ⟨hidle, calls, buf, hcalls, hslice, hzero⟩ := reads_okTail (hall p ⟨_, rfl⟩) hcr
    rw [← Machine.after_append] at hidle hcalls
    refine ⟨⟨calls.filterMap LlparseCall.delivery?, buf, ?_, hslice, hzero⟩, ?_, ?_⟩
    · rw [(readBytes_run llp _).2, hcalls, List.filterMap_append]
      rfl
    · rw [(readBytes_run llp _).1, hidle]
    · intro q hq
      obtain ⟨b, hb⟩ := leaves_state (hall q (hq.trans ⟨_, rfl⟩))
      refine ⟨[b], ?_⟩
      rwa [(readBytes_run llp _).1, (readBytes_run llp _).1, Machine.after_append]

instance (r : LlparseRun) (byte : UInt8) : Decidable (LfBehindOpening r byte) :=
  inferInstanceAs (Decidable (_ → _))

theorem resynchronises_iff_ok : Resynchronises llparserAtInit (ascii "RIN") := by
  refine (resynchronises_iff ?_ rfl _).mpr ⟨_, Machine.Checks.runWhile ?_⟩
  · exact freshRun_start.1
  · decide

theorem resynchronises_cr : Fresh llparserAtInit ∧ llparserAtInit.flags = lgsmAtcmdFExtended ∧
    ¬ Resynchronises llparserAtInit [CR] := by
  refine ⟨freshRun_start.1, rfl, fun h => ?_⟩
  obtain ⟨t, hrun⟩ := (resynchronises_iff freshRun_start.1 rfl _).mp h
  exact absurd (hrun.last rfl) (by decide)

end SystemTestSuite.GsmDaemon
