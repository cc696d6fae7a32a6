import SystemTestSuite.GsmDaemon.LlparseText

namespace SystemTestSuite.GsmDaemon

open Library

variable {llp : Llparser} {byte : UInt8} {r t : LlparseRun} {stream text : Bytes}

def Fed (r : LlparseRun) (byte : UInt8) : Prop := ¬ (llparseByte r.llp byte).1 < 0

theorem feed_of_run (h : llparseMachine.RunWhile Fed r stream t) :
    ∃ ds, Transducer.feed llparseStep r.llp stream = some (t.llp, ds) ∧
      t.calls.filterMap LlparseCall.delivery? = r.calls.filterMap LlparseCall.delivery? ++ ds := by
  induction h with
  | nil => exact ⟨[], rfl, (List.append_nil _).symm⟩
  | @snoc stream s b _ _ hfed ih =>
    obtain ⟨ds, hfeed, hcalls⟩ := ih
    have hstep : llparseStep s.llp b =
        some ((llparseByte s.llp b).2, deliveries (llparseByte s.llp b).2) := if_neg hfed
    have hone := llparseCalls_deliveries s.llp b
    rw [if_neg hfed] at hone
    refine ⟨ds ++ (deliveries (llparseByte s.llp b).2 ++ []), ?_, ?_⟩
    · exact Transducer.feed_append_some hfeed (Transducer.feed_cons_some hstep rfl)
    · change (s.calls ++ llparseCalls s.llp b).filterMap LlparseCall.delivery? = _
      rw [List.filterMap_append, hcalls, hone, List.append_nil, List.append_assoc]

theorem fed_append (h : Contents r) (hlen : r.line.length < llparseBufSize) (st : LlparseState) :
    ¬ (llparseAppend { r.llp with state := st } byte).1 < 0 := by
  have hcur := h.holds.cur
  have hbuf := h.holds.len
  rw [List.length_take] at hcur
  have hroom : r.llp.cur < r.llp.len := by omega
  rw [llparseAppend, if_pos hroom]
  exact Int.lt_irrefl 0

theorem next_quiet (hst : (llparseMachine.next r byte).llp.state = .result) :
    (llparseMachine.next r byte).calls = r.calls := by
  change (llparseByte r.llp byte).2.state = .result at hst
  have hends : ¬ FinishesLine r.llp byte := by
    intro hends
    rw [hends.ends] at hst
    cases hst
  have hnone : deliveries (llparseByte r.llp byte).2 = [] := by simp [deliveries, hst]
  have hcalls : llparseCalls r.llp byte = [] := by
    rw [(llparseCalls_reached hends).1, hnone]
    rfl
  change r.calls ++ llparseCalls r.llp byte = r.calls
  rw [hcalls, List.append_nil]

theorem run_plain (h : Contents r) (hst : r.llp.state = .result) (htext : Plain text)
    (hlen : r.line.length + text.length ≤ llparseBufSize) :
    llparseMachine.RunWhile Fed r text (llparseMachine.after r text) ∧
      (llparseMachine.after r text).calls = r.calls := by
  induction text generalizing r with
  | nil => exact ⟨.nil, rfl⟩
  | cons b text ih =>
    obtain ⟨hcr, hlf⟩ := htext
    simp only [List.mem_cons, not_or] at hcr hlf
    rw [List.length_cons] at hlen
    have hsame : { r.llp with state := .result } = r.llp := by rw [← hst]
    have hbyte : llparseByte r.llp b = llparseAppend { r.llp with state := .result } b := by
      rw [hsame]
      simp [llparseByte, hst, Ne.symm hcr.1, Ne.symm hlf.1]
    have hfed : Fed r b := by
      rw [Fed, hbyte]
      exact fed_append h (by omega) .result
    obtain ⟨hstate, hline⟩ := next_plain hst (Ne.symm hcr.1) (Ne.symm hlf.1)
    have hroom : (llparseMachine.next r b).line.length + text.length ≤ llparseBufSize := by
      rw [hline, List.length_append, List.length_singleton]
      omega
    obtain ⟨hrest, hcalls⟩ := ih (contents_next h b) hstate ⟨hcr.2, hlf.2⟩ hroom
    exact ⟨.cons trivial hfed hrest, hcalls.trans (next_quiet hstate)⟩

theorem run_text (h : Contents r) (hst : r.llp.state = .idle) (htext : Plain text) (hne : text ≠ [])
    (hgt : text.head? ≠ some GT) (hlen : text.length ≤ llparseBufSize) :
    llparseMachine.RunWhile Fed r text (llparseMachine.after r text) ∧
      (llparseMachine.after r text).calls = r.calls := by
  have hblank : r.line = [] := h.opening (by simp [hst]) (by simp [hst]) (by simp [hst])
  cases text with
  | nil => exact absurd rfl hne
  | cons b text =>
    obtain ⟨hcr, hlf⟩ := htext
    simp only [List.mem_cons, not_or] at hcr hlf
    rw [List.length_cons] at hlen
    have hb : b ≠ GT := fun heq => hgt (congrArg some heq)
    have hbyte : llparseByte r.llp b = llparseAppend { r.llp with state := .result } b := by
      simp [llparseByte, hst, Ne.symm hcr.1, hb]
    have hfed : Fed r b := by
      rw [Fed, hbyte]
      exact fed_append h (by rw [hblank]; decide) .result
    obtain ⟨hstate, hline⟩ := next_first (Or.inl hst) (Ne.symm hcr.1) hb
    have hroom : (llparseMachine.next r b).line.length + text.length ≤ llparseBufSize := by
      rw [hline, hblank, List.length_append, List.length_singleton, List.length_nil]
      omega
    obtain ⟨hrest, hcalls⟩ := run_plain (contents_next h b) hstate ⟨hcr.2, hlf.2⟩ hroom
    exact ⟨.cons trivial hfed hrest, hcalls.trans (next_quiet hstate)⟩

inductive Terminator where
  | lfCr | crLf
  deriving DecidableEq, Repr

def Terminator.bytes : Terminator → Bytes
  | .lfCr => [LF, CR]
  | .crLf => [CR, LF]

structure ModemLine where
  text : Bytes
  terminator : Terminator
  deriving DecidableEq, Repr

def ModemLine.bytes (l : ModemLine) : Bytes := l.text ++ l.terminator.bytes

/-- What is asked of a line: it is not empty, and it is not taken for a terminator or a prompt. -/
def ModemLine.Framed (l : ModemLine) : Prop :=
  l.text ≠ [] ∧ Plain l.text ∧ l.text.head? ≠ some GT

instance ModemLine.decidableFramed (l : ModemLine) : Decidable l.Framed :=
  inferInstanceAs (Decidable (_ ∧ _))

def ModemLine.DeliveredAs (l : ModemLine) (d : Delivery) : Prop :=
  ∃ buf, d = .cb buf l.text.length ∧ buf.slice 0 l.text.length = l.text

theorem llparseByte_lf (hst : llp.state = .result) (hflags : llp.flags &&& lgsmAtcmdFLfcr ≠ 0) :
    llparseByte llp LF = (0, { llp with state := .resultLf }) := by
  rw [llparseByte, hst]
  exact (if_neg (by decide)).trans (if_pos ⟨hflags, rfl⟩)

theorem closes_lfCr (hst : r.llp.state = .result) (hflags : r.llp.flags &&& lgsmAtcmdFLfcr ≠ 0) :
    (llparseMachine.after r [LF, CR]).llp.state = .idle ∧
      (llparseMachine.after r [LF, CR]).calls = r.calls ++ [.endline] := by
  have hlf := llparseByte_lf hst hflags
  have hends : FinishesLine { r.llp with state := .resultLf } CR := Or.inr ⟨rfl, rfl⟩
  have hcall : llparseCalls r.llp LF = [] := by
    have hno : ¬ FinishesLine r.llp LF := by simp [FinishesLine, hst]
    rw [(llparseCalls_reached hno).1, hlf]
    rfl
  have hnext : (llparseMachine.next r LF).llp = { r.llp with state := .resultLf } := by
    change (llparseByte r.llp LF).2 = _
    rw [hlf]
  refine ⟨?_, ?_⟩
  · change (llparseByte (llparseMachine.next r LF).llp CR).2.state = .idle
    rw [hnext, hends.ends]
    rfl
  · change r.calls ++ llparseCalls r.llp LF ++ llparseCalls (llparseMachine.next r LF).llp CR = _
    rw [hcall, hnext, hends.calls, List.append_nil]

theorem fed_terminated (hst : r.llp.state = .resultCr ∨ r.llp.state = .resultLf) : Fed r byte := by
  rcases hst with hst | hst
  · simp [Fed, llparseByte, hst]
  · simp [Fed, llparseByte, hst]

theorem run_terminator (hst : r.llp.state = .result) (hflags : r.llp.flags &&& lgsmAtcmdFLfcr ≠ 0)
    (e : Terminator) : llparseMachine.RunWhile Fed r e.bytes (llparseMachine.after r e.bytes) := by
  cases e with
  | lfCr =>
    have hlf := llparseByte_lf hst hflags
    have hnext : (llparseMachine.next r LF).llp.state = .resultLf := by
      change (llparseByte r.llp LF).2.state = .resultLf
      rw [hlf]
    have hfed : Fed r LF := by
      rw [Fed, hlf]
      exact Int.lt_irrefl 0
    exact .cons trivial hfed (.single trivial (fed_terminated (Or.inr hnext)))
  | crLf =>
    have hcr : llparseByte r.llp CR = (0, { r.llp with state := .resultCr }) := by
      simp [llparseByte, hst]
    have hnext : (llparseMachine.next r CR).llp.state = .resultCr := by
      change (llparseByte r.llp CR).2.state = .resultCr
      rw [hcr]
    have hfed : Fed r CR := by
      rw [Fed, hcr]
      exact Int.lt_irrefl 0
    exact .cons trivial hfed (.single trivial (fed_terminated (Or.inl hnext)))

structure Between (llp : Llparser) : Prop where
  contents : Contents (.fresh llp)
  state : llp.state = .idle
  flags : llp.flags &&& lgsmAtcmdFLfcr ≠ 0

theorem Contents.between (h : Contents t) (hst : t.llp.state = .idle) : Contents (.fresh t.llp) := by
  have hblank : t.line = [] := h.opening (by simp [hst]) (by simp [hst]) (by simp [hst])
  have hholds := h.holds
  rw [hblank] at hholds
  exact ⟨hholds, fun _ _ _ => rfl⟩

def ModemLine.Gives (l : ModemLine) (ds : List Delivery) : Prop :=
  match l.terminator with
  | .lfCr => ds = []
  | .crLf => ∃ d, ds = [d] ∧ l.DeliveredAs d

theorem closes_terminator {l : ModemLine} (h : Contents r) (hst : r.llp.state = .result)
    (hflags : r.llp.flags &&& lgsmAtcmdFLfcr ≠ 0) (hline : r.line = l.text)
    (hlen : l.text.length ≤ llparseBufSize) (hcalls : r.calls = []) :
    (llparseMachine.after r l.terminator.bytes).llp.state = .idle ∧
      l.Gives ((llparseMachine.after r l.terminator.bytes).calls.filterMap
        LlparseCall.delivery?) := by
  rw [ModemLine.Gives]
  cases l.terminator with
  | lfCr =>
    obtain ⟨hidle, hall⟩ := closes_lfCr hst hflags
    rw [Terminator.bytes, hall, hcalls]
    exact ⟨hidle, rfl⟩
  | crLf =>
    obtain ⟨hidle, hall⟩ := closes_crLf hst
    have hcur := h.holds.cur
    have hheld := h.holds.held
    rw [hline, List.take_of_length_le hlen] at hcur hheld
    rw [Terminator.bytes, hall, hcalls]
    rw [hcur] at hheld ⊢
    exact ⟨hidle, _, rfl, _, rfl, hheld⟩

theorem feed_modemLine {l : ModemLine} (h : Between llp) (hl : l.Framed)
    (hlen : l.text.length ≤ llparseBufSize) :
    ∃ llp' ds, Transducer.feed llparseStep llp l.bytes = some (llp', ds) ∧ Between llp' ∧
      l.Gives ds := by
  obtain ⟨hne, hplain, hgt⟩ := hl
  obtain ⟨hresult, hline⟩ := @after_text (.fresh llp) _ (Or.inl h.state) hplain hne hgt
  obtain ⟨hrun, hquiet⟩ := run_text h.contents h.state hplain hne hgt hlen
  have hcontents := contents_after h.contents l.text
  have hflags (bytes : Bytes) :
      (llparseMachine.after (.fresh llp) bytes).llp.flags &&& lgsmAtcmdFLfcr ≠ 0 := by
    rw [after_flags]
    exact h.flags
  obtain ⟨hidle, hgives⟩ := closes_terminator hcontents hresult (hflags _) hline hlen hquiet
  have hall := hrun.append (run_terminator hresult (hflags _) l.terminator)
  obtain ⟨ds, hfeed, hcalls⟩ := feed_of_run hall
  rw [hcalls] at hgives
  refine ⟨_, ds, hfeed, ⟨?_, hidle, ?_⟩, hgives⟩
  · exact (contents_after hcontents _).between hidle
  · rw [← Machine.after_append]
    exact hflags _

theorem gives_length {lines : List ModemLine} {dss : List (List Delivery)}
    (h : List.Forall₂ ModemLine.Gives lines dss) :
    dss.flatten.length = lines.countP (fun l => l.terminator = .crLf) := by
  induction h with
  | nil => rfl
  | @cons l ds lines dss hl _ ih =>
    rw [List.flatten_cons, List.length_append, ih, List.countP_cons]
    rw [ModemLine.Gives] at hl
    cases hterm : l.terminator with
    | lfCr =>
      rw [hterm] at hl
      obtain rfl : ds = [] := hl
      simp
    | crLf =>
      rw [hterm] at hl
      obtain ⟨d, rfl, -⟩ := hl
      rw [List.length_singleton, Nat.add_comm]
      rfl

theorem gives_delivered {lines : List ModemLine} {dss : List (List Delivery)}
    (h : List.Forall₂ ModemLine.Gives lines dss) (hterm : ∀ l ∈ lines, l.terminator = .crLf) :
    List.Forall₂ ModemLine.DeliveredAs lines dss.flatten := by
  induction h with
  | nil => exact .nil
  | @cons l ds lines dss hl _ ih =>
    rw [ModemLine.Gives, hterm l List.mem_cons_self] at hl
    obtain ⟨d, rfl, hd⟩ := hl
    exact .cons hd (ih (fun m hm => hterm m (List.mem_cons_of_mem _ hm)))

theorem delivered_le (h : Contents r) (hcalls : ∀ buf n, .delivery (.cb buf n) ∈ r.calls →
      n ≤ llparseBufSize) (bytes : Bytes) {buf : Memory} {n : ℕ}
    (hmem : .delivery (.cb buf n) ∈ (llparseMachine.after r bytes).calls) : n ≤ llparseBufSize := by
  induction bytes generalizing r with
  | nil => exact hcalls buf n hmem
  | cons b bytes ih =>
    refine ih (contents_next h b) (fun buf' n' hmem' => ?_) hmem
    rcases List.mem_append.mp hmem' with hold | hnew
    · exact hcalls buf' n' hold
    · obtain ⟨-, -, rfl⟩ := cb_mem_iff.mp hnew
      have hcur := (contents_next h b).holds.cur
      rw [List.length_take] at hcur
      exact hcur.trans_le (min_le_left _ _)

theorem llparseReads_le (h : Contents (.fresh llp)) {reads : List Bytes} {buf : Memory} {n : ℕ}
    (hmem : .cb buf n ∈ (llparseReads llp reads).2.2) : n ≤ llparseBufSize := by
  obtain ⟨-, hcalls⟩ := after_fedReads (.fresh llp) reads
  have hnone : (LlparseRun.fresh llp).calls.filterMap LlparseCall.delivery? = [] := rfl
  rw [hnone, List.nil_append] at hcalls
  have hall : .cb buf n ∈ (llparseReads (LlparseRun.fresh llp).llp reads).2.2 := hmem
  rw [← hcalls] at hall
  obtain ⟨c, hc, heq⟩ := List.mem_filterMap.mp hall
  cases c with
  | endline => cases heq
  | delivery d =>
    obtain rfl := Option.some.inj heq
    exact delivered_le h (fun _ _ hm => absurd hm List.not_mem_nil) _ hc

theorem lines_fit (h : Contents (.fresh llp)) {lines : List ModemLine} {reads : List Bytes}
    (hall : List.Forall₂ ModemLine.DeliveredAs lines (llparseReads llp reads).2.2) :
    ∀ l ∈ lines, l.text.length ≤ llparseBufSize := by
  intro l hl
  obtain ⟨i, hi, rfl⟩ := List.mem_iff_getElem.mp hl
  obtain ⟨buf, hd, -⟩ := hall.get hi (hall.length_eq ▸ hi)
  apply @llparseReads_le _ h reads buf
  have hmem := List.get_mem (llparseReads llp reads).2.2 ⟨i, hall.length_eq ▸ hi⟩
  rwa [hd] at hmem

theorem delivers_iff_crLf (hstart : Fresh llp) (hflags : llp.flags &&& lgsmAtcmdFLfcr ≠ 0)
    {lines : List ModemLine} (hlines : ∀ l ∈ lines, l.Framed) {reads : List Bytes}
    (hreads : reads.flatten = lines.flatMap ModemLine.bytes) :
    List.Forall₂ ModemLine.DeliveredAs lines (llparseReads llp reads).2.2 ↔
      ∀ l ∈ lines, l.terminator = .crLf ∧ l.text.length ≤ llparseBufSize := by
  have hcontents : Contents (.fresh llp) := contents_start ⟨hstart, rfl, rfl⟩
  have hbetween : Between llp := ⟨hcontents, hstart.state, hflags⟩
  have hfeed (hlen : ∀ l ∈ lines, l.text.length ≤ llparseBufSize) :
      ∃ dss : List (List Delivery), (llparseReads llp reads).2.2 = dss.flatten ∧
        List.Forall₂ ModemLine.Gives lines dss := by
    obtain ⟨llp', dss, hf, -, hgives⟩ := Transducer.feed_items ModemLine.bytes ModemLine.Gives
      (fun l hl s hs => feed_modemLine hs (hlines l hl) (hlen l hl)) hbetween
    rw [← hreads] at hf
    exact ⟨dss, by rw [llparseReads_of_feed hf], hgives⟩
  constructor
  · intro hall
    have hlen := lines_fit hcontents hall
    obtain ⟨dss, hds, hgives⟩ := hfeed hlen
    have hcount : lines.countP (fun l => l.terminator = .crLf) = lines.length := by
      rw [← gives_length hgives, ← hds, hall.length_eq]
    intro l hl
    exact ⟨of_decide_eq_true (List.countP_eq_length.mp hcount l hl), hlen l hl⟩
  · intro hall
    obtain ⟨dss, hds, hgives⟩ := hfeed (fun l hl => (hall l hl).2)
    rw [hds]
    exact gives_delivered hgives (fun l hl => (hall l hl).1)

def bcmLlparser : Llparser :=
  { llparserAtInit with flags := lgsmAtcmdFExtended ||| lgsmAtcmdFLfcr }

theorem bcmLlparser_fresh : Fresh bcmLlparser := ⟨rfl, rfl, rfl, fun _ _ => rfl⟩

theorem delivers_iff_crLf_ok : List.Forall₂ ModemLine.DeliveredAs
    [⟨ascii "RING", .crLf⟩, ⟨ascii "OK", .crLf⟩]
    (llparseReads bcmLlparser [ascii "RING" ++ [CR, LF] ++ ascii "O", ascii "K" ++ [CR, LF]]).2.2 := by
  apply (delivers_iff_crLf bcmLlparser_fresh (by decide) _ (by decide)).mpr
  · decide
  · simp only [List.forall_mem_cons]
    exact ⟨by decide, by decide, by simp⟩

theorem delivers_lfCr : Fresh bcmLlparser ∧ bcmLlparser.flags &&& lgsmAtcmdFLfcr ≠ 0 ∧
    (⟨ascii "OK", .lfCr⟩ : ModemLine).Framed ∧
    ¬ List.Forall₂ ModemLine.DeliveredAs [⟨ascii "OK", .lfCr⟩]
      (llparseReads bcmLlparser [ascii "OK" ++ [LF, CR]]).2.2 := by
  refine ⟨bcmLlparser_fresh, by decide, ?_, fun h => ?_⟩
  · decide
  · have hlen := h.length_eq
    exact absurd hlen (by decide)

end SystemTestSuite.GsmDaemon
