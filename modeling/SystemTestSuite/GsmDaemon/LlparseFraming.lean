import SystemTestSuite.GsmDaemon.Llparse

namespace SystemTestSuite.GsmDaemon

open Library

inductive LlItem where
  | line (text : Bytes)
  | prompt
  deriving DecidableEq, Repr

def LlItem.Framed : LlItem → Prop
  | .line text => text ≠ [] ∧ text.length ≤ 1023 ∧ CR ∉ text ∧ text ≠ [GT] ∧ ¬ [GT, SP] <+: text
  | .prompt => True

instance (item : LlItem) : Decidable item.Framed :=
  match item with
  | .line _ => inferInstanceAs (Decidable (_ ∧ _))
  | .prompt => .isTrue trivial

def LlItem.encode : LlItem → Bytes
  | .line text => [CR, LF] ++ text ++ [CR, LF]
  | .prompt => [CR, LF, GT, SP]

def LlItem.DeliveredAs : LlItem → List Delivery → Prop
  | .line text, ds => ∃ buf, ds = [.cb buf text.length] ∧
      buf.slice 0 text.length = text ∧ buf text.length = 0
  | .prompt, ds => ds = [.promptCb]

structure Holding (p : Bytes) (llp : Llparser) : Prop where
  len : llp.len = llparseBufSize
  flags : llp.flags = lgsmAtcmdFExtended
  cur : llp.cur = p.length
  held : llp.buf.slice 0 p.length = p
  zero : ∀ i, p.length ≤ i → i < llparseBufSize → llp.buf i = 0

structure Resting (llp : Llparser) : Prop extends Holding [] llp where
  state : llp.state = .idle ∨ llp.state = .promptSpc

theorem Holding.withState {p : Bytes} {llp : Llparser} (h : Holding p llp) (st : LlparseState) :
    Holding p { llp with state := st } := ⟨h.len, h.flags, h.cur, h.held, h.zero⟩

theorem llparseAppend_holding {p : Bytes} {llp : Llparser} (h : Holding p llp) (byte : UInt8)
    (hp : p.length < llparseBufSize) :
    (llparseAppend llp byte).1 = 0 ∧ (llparseAppend llp byte).2.state = llp.state ∧
      Holding (p ++ [byte]) (llparseAppend llp byte).2 := by
  have hcur : llp.cur < llp.len := by rw [h.cur, h.len]; exact hp
  simp only [llparseAppend, if_pos hcur, true_and]
  refine ⟨h.len, h.flags, by simp [h.cur], ?_, ?_⟩
  · have hs := Memory.slice_store_append llp.buf 0 p.length [byte]
    rw [Nat.zero_add] at hs
    rw [h.cur, List.length_append, hs, h.held]
  · intro i hi hb
    rw [List.length_append, List.length_singleton] at hi
    have hstore : llp.buf.store llp.cur [byte] i = llp.buf i :=
      Memory.store_behind _ _ (by rw [h.cur]; simpa using hi)
    exact hstore.trans (h.zero i (by omega) hb)

theorem llparseStep_state {llp : Llparser} {byte : UInt8} {st : LlparseState}
    (h : llparseByte llp byte = (0, { llp with state := st }))
    (hcr : st ≠ .resultCr) (hspc : st ≠ .promptSpc) :
    llparseStep llp byte = some ({ llp with state := st }, []) := by
  simp [llparseStep, h, deliveries, hcr, hspc]

theorem llparseStep_append {p : Bytes} {llp : Llparser} {byte : UInt8} (h : Holding p llp)
    (hst : llp.state = .result) (hp : p.length < llparseBufSize) (hcr : byte ≠ CR) :
    ∃ llp', llparseStep llp byte = some (llp', []) ∧ llp'.state = .result ∧
      Holding (p ++ [byte]) llp' := by
  obtain ⟨hrc, hstate, hold⟩ := llparseAppend_holding h byte hp
  have hbyte : llparseByte llp byte = llparseAppend llp byte := by
    have hlf : ¬ (llp.flags &&& lgsmAtcmdFLfcr ≠ 0 ∧ byte = LF) := by
      rw [h.flags]
      rintro ⟨hf, -⟩
      exact hf (by decide)
    rw [llparseByte, hst]
    simp only [if_neg hcr, if_neg hlf]
  refine ⟨(llparseAppend llp byte).2, ?_, hstate.trans hst, hold⟩
  simp [llparseStep, hbyte, hrc, deliveries, hstate, hst]

theorem feed_body {p w : Bytes} {llp : Llparser} (h : Holding p llp) (hst : llp.state = .result)
    (hlen : p.length + w.length ≤ llparseBufSize) (hcr : CR ∉ w) :
    ∃ llp', Transducer.feed llparseStep llp w = some (llp', []) ∧ llp'.state = .result ∧
      Holding (p ++ w) llp' := by
  induction w generalizing p llp with
  | nil => exact ⟨llp, rfl, hst, by simpa using h⟩
  | cons byte w ih =>
    simp only [List.length_cons] at hlen
    simp only [List.mem_cons, not_or] at hcr
    obtain ⟨mid, hm, hmst, hmh⟩ := llparseStep_append h hst (by omega) (Ne.symm hcr.1)
    obtain ⟨llp', hf, hst', hh⟩ := ih hmh hmst (by simp; omega) hcr.2
    refine ⟨llp', ?_, hst', by simpa using hh⟩
    simpa using Transducer.feed_cons_some hm hf

theorem feed_opening {llp : Llparser} (h : Resting llp) :
    ∃ llp', Transducer.feed llparseStep llp [CR, LF] = some (llp', []) ∧ llp'.state = .idleLf ∧
      Holding [] llp' := by
  have hflags : llp.flags &&& lgsmAtcmdFExtended ≠ 0 := by rw [h.flags]; decide
  have hcr : llparseByte llp CR = (0, { llp with state := .idleCr }) := by
    rcases h.state with hst | hst <;> simp [llparseByte, hst, hflags]
  have hlf : llparseByte { llp with state := .idleCr } LF =
      (0, { llp with state := .idleLf }) := by simp [llparseByte]
  refine ⟨{ llp with state := .idleLf }, ?_, rfl, h.toHolding.withState _⟩
  have hstep : llparseStep { llp with state := .idleCr } LF =
      some ({ llp with state := .idleLf }, []) := by simp [llparseStep, hlf, deliveries]
  simp [Transducer.feed, llparseStep_state hcr (by decide) (by decide), hstep]

theorem feed_text {llp : Llparser} {text : Bytes} (h : Holding [] llp) (hst : llp.state = .idleLf)
    (hf : (LlItem.line text).Framed) :
    ∃ llp', Transducer.feed llparseStep llp text = some (llp', []) ∧ llp'.state = .result ∧
      Holding text llp' := by
  obtain ⟨hne, hlen, hcr, hgt, hprompt⟩ := hf
  have hbuf : llparseBufSize = 1024 := rfl
  cases text with
  | nil => exact absurd rfl hne
  | cons b rest =>
    simp only [List.length_cons] at hlen
    simp only [List.mem_cons, not_or] at hcr
    by_cases hb : b = GT
    · subst b
      cases rest with
      | nil => exact absurd rfl hgt
      | cons c rest =>
        have hsp : c ≠ SP := by
          rintro rfl
          exact hprompt ⟨rest, rfl⟩
        simp only [List.length_cons] at hlen
        simp only [List.mem_cons, not_or] at hcr
        have hopen : llparseByte llp GT = (0, { llp with state := .prompt }) := by
          simp [llparseByte, hst, show GT ≠ CR by decide]
        have hp := h.withState .prompt
        obtain ⟨-, -, h1⟩ := llparseAppend_holding hp GT (by decide)
        obtain ⟨hrc, -, h2⟩ := llparseAppend_holding h1 c (by decide)
        have hback : llparseStep { llp with state := .prompt } c =
            some ({ (llparseAppend (llparseAppend { llp with state := .prompt } GT).2 c).2 with
              state := .result }, []) := by
          simp [llparseStep, llparseByte, if_neg hsp, hrc, deliveries]
        obtain ⟨llp', hfeed, hst', hh⟩ :=
          feed_body (w := rest) (h2.withState .result) rfl (by simp; omega) hcr.2.2
        refine ⟨llp', ?_, hst', by simpa using hh⟩
        have hgo := Transducer.feed_cons_some hback hfeed
        exact Transducer.feed_cons_some (llparseStep_state hopen (by decide) (by decide)) hgo
    · have hbyte : llparseByte llp b = llparseAppend { llp with state := .result } b := by
        simp [llparseByte, hst, Ne.symm hcr.1, hb]
      obtain ⟨hrc, hstate, hold⟩ := llparseAppend_holding (h.withState .result) b (by decide)
      have hstep : llparseStep llp b =
          some ((llparseAppend { llp with state := .result } b).2, []) := by
        simp [llparseStep, hbyte, hrc, deliveries, hstate]
      obtain ⟨llp', hfeed, hst', hh⟩ := feed_body hold hstate (by simp; omega) hcr.2
      exact ⟨llp', Transducer.feed_cons_some hstep hfeed, hst', by simpa using hh⟩

theorem feed_closing {llp : Llparser} {text : Bytes} (h : Holding text llp)
    (hst : llp.state = .result) (hlen : text.length ≤ 1023) :
    ∃ llp' ds, Transducer.feed llparseStep llp [CR, LF] = some (llp', ds) ∧ Resting llp' ∧
      (LlItem.line text).DeliveredAs ds := by
  have hcr : llparseStep llp CR = some ({ llp with state := .resultCr }, [.cb llp.buf llp.cur]) := by
    simp [llparseStep, llparseByte, hst, deliveries]
  have hlf : llparseStep { llp with state := .resultCr } LF =
      some (llparseEndline { llp with state := .resultCr }, []) := by
    simp [llparseStep, llparseByte, deliveries, llparseEndline]
  refine ⟨_, _, Transducer.feed_cons_some hcr (Transducer.feed_cons_some hlf rfl), ?_, ?_⟩
  · refine ⟨⟨h.len, h.flags, rfl, rfl, ?_⟩, Or.inl rfl⟩
    intro i _ hi
    simp [llparseEndline, Memory.fill, hi]
  · refine ⟨llp.buf, by simp [h.cur], h.held, h.zero _ (le_refl _) ?_⟩
    have : llparseBufSize = 1024 := rfl
    omega

theorem feed_item {llp : Llparser} {item : LlItem} (h : Resting llp) (hf : item.Framed) :
    ∃ llp' ds, Transducer.feed llparseStep llp item.encode = some (llp', ds) ∧ Resting llp' ∧
      item.DeliveredAs ds := by
  obtain ⟨opened, hopen, hst, hold⟩ := feed_opening h
  cases item with
  | line text =>
    obtain ⟨full, htext, hfull, hheld⟩ := feed_text hold hst hf
    obtain ⟨llp', ds, hclose, hrest, hd⟩ := feed_closing hheld hfull hf.2.1
    refine ⟨llp', ds, ?_, hrest, hd⟩
    simpa [LlItem.encode] using Transducer.feed_append_some
      (Transducer.feed_append_some hopen htext) hclose
  | prompt =>
    have hgt : llparseByte opened GT = (0, { opened with state := .prompt }) := by
      simp [llparseByte, hst, show GT ≠ CR by decide]
    have hsp : llparseStep { opened with state := .prompt } SP =
        some ({ opened with state := .promptSpc }, [.promptCb]) := by
      simp [llparseStep, llparseByte, deliveries]
    refine ⟨{ opened with state := .promptSpc }, [.promptCb], ?_, ?_, rfl⟩
    · exact Transducer.feed_append_some hopen (Transducer.feed_cons_some
        (llparseStep_state hgt (by decide) (by decide)) (Transducer.feed_cons_some hsp rfl))
    · exact ⟨hold.withState .promptSpc, Or.inr rfl⟩

/-- However the stream of framed lines and prompts is cut into reads, each item is delivered
exactly once and in order, no read returns an error, and the parser ends at rest. -/
theorem llparse_frames {items : List LlItem} (hitems : ∀ item ∈ items, item.Framed)
    {reads : List Bytes} (hreads : reads.flatten = items.flatMap LlItem.encode)
    {llp : Llparser} (hstate : llp.state = .idle) (hcur : llp.cur = 0)
    (hlen : llp.len = llparseBufSize) (hflags : llp.flags = lgsmAtcmdFExtended)
    (hzero : ∀ i < llparseBufSize, llp.buf i = 0) :
    ∃ llp' dss, llparseReads llp reads = (List.replicate reads.length 0, llp', dss.flatten) ∧
      List.Forall₂ LlItem.DeliveredAs items dss ∧
      (llp'.state = .idle ∨ llp'.state = .promptSpc) ∧ llp'.cur = 0 := by
  have hrest : Resting llp :=
    ⟨⟨hlen, hflags, hcur, rfl, fun i _ hi => hzero i hi⟩, Or.inl hstate⟩
  obtain ⟨llp', dss, hfeed, hrest', hall⟩ := Transducer.feed_items LlItem.encode
    LlItem.DeliveredAs (fun item hi s hs => feed_item hs (hitems item hi)) hrest
  rw [← hreads] at hfeed
  exact ⟨llp', dss, llparseReads_of_feed hfeed, hall, hrest'.state, hrest'.cur⟩

theorem llparse_frames_ok_then_prompt :
    ∃ llp' dss, llparseReads llparserAtInit
        [[CR], [LF, 79], [75, CR, LF, CR, LF, GT], [SP]] = ([0, 0, 0, 0], llp', dss.flatten) ∧
      List.Forall₂ LlItem.DeliveredAs [.line [79, 75], .prompt] dss ∧
      (llp'.state = .idle ∨ llp'.state = .promptSpc) ∧ llp'.cur = 0 :=
  @llparse_frames [.line [79, 75], .prompt] (by decide)
    [[CR], [LF, 79], [75, CR, LF, CR, LF, GT], [SP]] rfl llparserAtInit rfl rfl rfl rfl
    (fun _ _ => rfl)

end SystemTestSuite.GsmDaemon
