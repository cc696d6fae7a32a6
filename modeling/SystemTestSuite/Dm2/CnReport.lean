import SystemTestSuite.Dm2.GsvDecode

/-!
The C/N verdict of `nmea_process2` in `gps.c`, and the report that it writes.
-/

namespace SystemTestSuite.Dm2

open Library GsmDaemon

def strstr (s t : Bytes) : Option ℕ :=
  (List.range ((cstr s).length + 1)).find? fun k => (cstr t).isPrefixOf ((cstr s).drop k)

def gsvSentenceId : Bytes := ascii "$GPGSV"

def cnThreshold : ℤ := 38

def sizeofCnrBuff : ℕ := 128

def prnLine (i : ℕ) (sn : ℤ) : Bytes :=
  ascii "prn: " ++ printInt i ++ ascii ", S/N: " ++ printInt sn ++ [10]

structure PrintBuffer where
  text : Memory
  pos : ℕ

def PrintBuffer.sprintf (b : PrintBuffer) (line : Bytes) : PrintBuffer where
  text := b.text.store b.pos (line ++ [0])
  pos := b.pos + line.length

structure CnState where
  p : PrintBuffer
  q : PrintBuffer
  hitCount : ℕ
  alreadyBeep : Bool

def cnStep (table : ℕ → ℤ) (s : CnState) (i : ℕ) : CnState :=
  if table i ≥ cnThreshold then
    { p := s.p.sprintf (prnLine i (table i))
      q := s.q.sprintf (prnLine i (table i))
      hitCount := s.hitCount + 1
      alreadyBeep := true }
  else s

/-- `buffer` is what is returned, `none` for `NULL`. -/
structure CnResult where
  buffer : Option Memory
  fixed : ℤ
  cnrBuff : Memory
  alreadyBeep : Bool
  table : ℕ → ℤ

/-- The caller's buffers, `already_beep` and what `runtime` returns. -/
structure CnInput where
  buffer512 : Memory
  cnrBuff : Memory
  alreadyBeep : Bool
  runtime : ℤ

def clearedGsv (gsv : Memory) : Memory := gsv.store 0 (List.replicate sizeofGsv 0)

def verdictText (hitCount : ℕ) : Bytes :=
  if hitCount = 0 then ascii "Fail\n" else if hitCount = 1 then ascii "- Pass -\n" else ascii "N/A\n"

/-- `gsv` is the memory of `n_gsv`, `table` that from `table_prn_sn` on. -/
def nmeaProcess2 (input : CnInput) (gsv : Memory) (table : ℕ → ℤ) (buf : Bytes) : Option CnResult :=
  match strstr buf gsvSentenceId with
  | none => some ⟨none, 0, input.cnrBuff, input.alreadyBeep, table⟩
  | some off =>
    (gpgsv (buf.drop off) (clearedGsv gsv) table).map fun r =>
      let table := r.2.table
      let s := (List.range 32).foldl (cnStep table)
        ⟨⟨input.buffer512, 0⟩, ⟨input.cnrBuff, 0⟩, 0, input.alreadyBeep⟩
      let p := s.p.sprintf (verdictText s.hitCount)
      let p := p.sprintf (ascii "(time: " ++ printInt input.runtime ++ [41])
      ⟨some p.text, if s.hitCount = 1 then 1 else 0, s.q.text, s.alreadyBeep, table⟩

def strongAmong (table : ℕ → ℤ) (prns : List ℕ) : ℕ := prns.countP fun prn => cnThreshold ≤ table prn

/-- One satellite of 1 to 32 with a strong signal gives `fixed`, and only one does; what is written
to `cnr_buff` ends inside. -/
def CnReported (gsv : Memory) (table : ℕ → ℤ) (buf : Bytes) : Prop :=
  ∀ input, ∃ r, nmeaProcess2 input gsv table buf = some r ∧
    (r.fixed = 1 ↔ strongAmong r.table (List.range' 1 32) = 1) ∧
      ∀ i, sizeofCnrBuff ≤ i → r.cnrBuff i = input.cnrBuff i

def reportLength (table : ℕ → ℤ) : ℕ :=
  ((List.range 32).map fun i =>
    if cnThreshold ≤ table i then 13 + (printInt i).length + (printInt (table i)).length else 0).sum

/-- The entry 0, which is no satellite, is counted as the one of satellite 32 would be, unless two
others are strong; and the report is not too long. -/
structure CnShown (table : ℕ → ℤ) : Prop where
  ends : 2 ≤ strongAmong table (List.range' 1 31) ∨ (cnThreshold ≤ table 0 ↔ cnThreshold ≤ table 32)
  length : reportLength table < sizeofCnrBuff

variable {table : ℕ → ℤ} {m : Memory} {text line : Bytes} {b : PrintBuffer}

def printed (m : Memory) (text : Bytes) : PrintBuffer :=
  ⟨if text = [] then m else m.store 0 (text ++ [0]), text.length⟩

theorem printed_sprintf (m : Memory) (text : Bytes) (hline : line ≠ []) :
    (printed m text).sprintf line = printed m (text ++ line) := by
  have hmore : text ++ line ≠ [] := List.append_ne_nil_of_right_ne_nil _ hline
  rw [printed, printed, PrintBuffer.sprintf, if_neg hmore, List.length_append]
  congr 1
  by_cases htext : text = []
  · subst htext
    rfl
  · rw [if_neg htext]
    funext i
    rw [List.append_assoc, Memory.store_append m 0 text (line ++ [0]), Nat.zero_add]
    by_cases hi : text.length ≤ i ∧ i < text.length + (line ++ [0]).length
    · exact Memory.store_over _ hi.1 hi.2
    · apply Memory.store_congr
      rw [Memory.store_append, Nat.zero_add]
      -- the NUL of the text before has been overwritten
      rw [List.length_append, List.length_singleton] at hi
      rcases Nat.lt_or_ge i text.length with hlt | hge
      · exact Memory.store_before _ _ hlt
      · exact Memory.store_behind _ _ (by simp; omega)

theorem prnLine_length (i : ℕ) (sn : ℤ) :
    (prnLine i sn).length = 13 + (printInt i).length + (printInt sn).length := by
  have hprn : (ascii "prn: ").length = 5 := rfl
  have hsn : (ascii ", S/N: ").length = 7 := rfl
  rw [prnLine]
  simp only [List.length_append, List.length_singleton, hprn, hsn]
  omega

def cnLines (table : ℕ → ℤ) (n : ℕ) : Bytes :=
  (List.range n).flatMap fun i => if cnThreshold ≤ table i then prnLine i (table i) else []

theorem cnLines_length (table : ℕ → ℤ) : (cnLines table 32).length = reportLength table := by
  rw [cnLines, List.length_flatMap, reportLength]
  congr 2
  funext i
  split_ifs
  · exact prnLine_length i _
  · rfl

theorem cnStep_foldl (table : ℕ → ℤ) (p q : Memory) (beep : Bool) (n : ℕ) :
    ∃ beep', (List.range n).foldl (cnStep table) ⟨⟨p, 0⟩, ⟨q, 0⟩, 0, beep⟩ =
      ⟨printed p (cnLines table n), printed q (cnLines table n),
        strongAmong table (List.range n), beep'⟩ := by
  induction n with
  | zero => exact ⟨beep, rfl⟩
  | succ n ih =>
    obtain ⟨beep', ih⟩ := ih
    have hlines : cnLines table (n + 1) =
        cnLines table n ++ if cnThreshold ≤ table n then prnLine n (table n) else [] := by
      rw [cnLines, List.range_succ, List.flatMap_append, List.flatMap_singleton]
      rfl
    have hcount : strongAmong table (List.range (n + 1)) =
        strongAmong table (List.range n) + if cnThreshold ≤ table n then 1 else 0 := by
      simp [strongAmong, List.range_succ, List.countP_cons]
    rw [hlines, hcount, List.range_succ, List.foldl_append, List.foldl_cons, List.foldl_nil, ih, cnStep]
    by_cases hstrong : cnThreshold ≤ table n
    · have hline : prnLine n (table n) ≠ [] := List.append_ne_nil_of_right_ne_nil _ (by simp)
      rw [if_pos hstrong, if_pos hstrong, if_pos hstrong]
      dsimp only
      rw [printed_sprintf _ _ hline, printed_sprintf _ _ hline]
      exact ⟨true, rfl⟩
    · rw [if_neg hstrong, if_neg hstrong, if_neg hstrong, List.append_nil]
      exact ⟨beep', rfl⟩

theorem printed_inside_iff (text : Bytes) {size : ℕ} (hsize : 0 < size) :
    (∀ m : Memory, ∀ i, size ≤ i → (printed m text).text i = m i) ↔ text.length < size := by
  constructor
  · intro h
    by_contra hlong
    have htext : text ≠ [] := by
      rintro rfl
      exact hlong hsize
    have hkept := h (fun _ => 255) text.length (Nat.le_of_not_lt hlong)
    rw [printed, if_neg htext] at hkept
    have hnul := Memory.store_nul (fun _ => 255) 0 text
    rw [Nat.zero_add] at hnul
    cases hnul.symm.trans hkept
  · intro hshort m i hi
    rw [printed]
    dsimp only
    split_ifs
    · rfl
    · exact Memory.store_behind _ _ (by simp; omega)

theorem nmeaProcess2_some {gsv : Memory} {buf : Bytes} {off : ℕ} {r : Bytes × GsvState} (input : CnInput)
    (hoff : strstr buf gsvSentenceId = some off)
    (hr : gpgsv (buf.drop off) (clearedGsv gsv) table = some r) :
    ∃ result, nmeaProcess2 input gsv table buf = some result ∧ result.table = r.2.table ∧
      result.cnrBuff = (printed input.cnrBuff (cnLines r.2.table 32)).text ∧
        result.fixed = if strongAmong r.2.table (List.range 32) = 1 then 1 else 0 := by
  obtain ⟨beep, hloop⟩ := cnStep_foldl r.2.table input.buffer512 input.cnrBuff input.alreadyBeep 32
  rw [nmeaProcess2, hoff]
  dsimp only
  rw [hr, Option.map_some, hloop]
  exact ⟨_, rfl, rfl, rfl, rfl⟩

theorem strong_one_iff (table : ℕ → ℤ) :
    (strongAmong table (List.range 32) = 1 ↔ strongAmong table (List.range' 1 32) = 1) ↔
      2 ≤ strongAmong table (List.range' 1 31) ∨
        (cnThreshold ≤ table 0 ↔ cnThreshold ≤ table 32) := by
  have hfirst : strongAmong table (List.range 32) =
      strongAmong table (List.range' 1 31) + if cnThreshold ≤ table 0 then 1 else 0 := by
    rw [List.range_eq_range', List.range'_succ, strongAmong, List.countP_cons, strongAmong]
    simp
  have hlast : strongAmong table (List.range' 1 32) =
      strongAmong table (List.range' 1 31) + if cnThreshold ≤ table 32 then 1 else 0 := by
    rw [List.range'_1_concat, strongAmong, List.countP_append, strongAmong]
    simp [List.countP_cons]
  rw [hfirst, hlast]
  by_cases h0 : cnThreshold ≤ table 0 <;> by_cases h32 : cnThreshold ≤ table 32 <;>
    simp only [h0, h32, if_true, if_false, iff_self, or_true, iff_true, or_false,
      iff_false, not_true_eq_false] <;> omega

theorem atoiRest_ne_nil {s : Bytes} (h : 0 ∈ s) : atoiRest s ≠ [] := by
  have hkept {p : UInt8 → Bool} (hp : p 0 = false) {t : Bytes} (ht : 0 ∈ t) : 0 ∈ t.dropWhile p := by
    have hsplit : t.takeWhile p ++ t.dropWhile p = t := List.takeWhile_append_dropWhile
    rw [← hsplit, List.mem_append] at ht
    refine ht.resolve_left fun htaken => ?_
    rw [List.mem_takeWhile_imp htaken] at hp
    cases hp
  have hbody : 0 ∈ s.dropWhile isSpace := hkept rfl h
  apply List.ne_nil_of_mem (a := 0)
  apply hkept rfl
  split_ifs with hsign
  · cases hs : s.dropWhile isSpace with
    | nil => rw [hs] at hbody; cases hbody
    | cons b body =>
      rw [hs] at hbody hsign
      rcases List.mem_cons.mp hbody with rfl | hmem
      · rcases hsign with hsign | hsign <;> cases hsign
      · exact hmem
  · exact hbody

theorem clearedGsv_at (gsv : Memory) {i : ℕ} (hi : i < sizeofGsv) : clearedGsv gsv i = 0 := by
  have hin := Memory.store_inside gsv 0 (List.replicate sizeofGsv 0) (j := i) (by simpa using hi)
  rw [Nat.zero_add] at hin
  rw [clearedGsv, hin, List.getElem_replicate]

theorem atoiIn_isSome {m : Memory} {off : ℕ} (hoff : off < sizeofGsv) (hnul : m (sizeofGsv - 1) = 0) :
    (atoiIn m off sizeofGsv).isSome = true := by
  have hmem : 0 ∈ m.slice off (sizeofGsv - off) := by
    rw [show sizeofGsv - off = (sizeofGsv - 1 - off) + 1 by omega, Memory.slice_succ]
    apply List.mem_append_right
    rw [show off + (sizeofGsv - 1 - off) = sizeofGsv - 1 by omega, hnul]
    exact List.mem_cons_self
  rw [atoiIn, if_neg (atoiRest_ne_nil hmem)]
  rfl

variable {s : GsvState} {texts : List Bytes} {n : ℕ} {gsv : Memory}

theorem Behind.field_some (h : Behind gsv n s) (hnul : gsv (sizeofGsv - 1) = 0) (hn : n < 17)
    (text : Bytes) : ∃ t, gsvField s text 0 = some t := by
  have hpos := h.position
  have hlast : (s.copied text).gsv (sizeofGsv - 1) = 0 := by
    rw [← hnul, ← h.same _ (by unfold sizeofGsv; omega)]
    apply copyTo_outside
    right
    simp only [NmeaGsv.sate, sizeofGsv]
    omega
  rw [gsvField_sate h.i, GsvState.sate_eq h.going]
  by_cases hk : s.k + 1 < 4
  · exact ⟨_, if_pos hk⟩
  · have hnumber (k : ℕ) (hk : k < 4) :
        ∃ z, atoiIn (s.copied text).gsv (NmeaGsv.sate s.j k).off sizeofGsv = some z := by
      apply Option.isSome_iff_exists.mp
      apply atoiIn_isSome _ hlast
      simp only [NmeaGsv.sate, sizeofGsv]
      omega
    obtain ⟨prn, hprn⟩ := hnumber 0 (by decide)
    obtain ⟨el, hel⟩ := hnumber 1 (by decide)
    obtain ⟨az, haz⟩ := hnumber 2 (by decide)
    obtain ⟨sn, hsn⟩ := hnumber 3 (by decide)
    have hsat : satelliteAt (s.copied text).gsv s.j = some (prn, sn) := by
      rw [satelliteAt, hprn, hel, haz, hsn]
      rfl
    rw [if_neg hk, hsat]
    exact ⟨_, rfl⟩

theorem Behind.fields_some (h : Behind gsv n s) (hnul : gsv (sizeofGsv - 1) = 0)
    (hn : n + texts.length ≤ 17) :
    ∃ t, texts.foldlM (fun s text => gsvField s text 0) s = some t := by
  induction texts generalizing n s with
  | nil => exact ⟨s, rfl⟩
  | cons text texts ih =>
    rw [List.length_cons] at hn
    obtain ⟨t, ht⟩ := h.field_some hnul (by omega) text
    rw [List.foldlM_cons, Option.bind_eq_bind, ht, Option.bind_some]
    exact ih (h.field ht) (by omega)

theorem gpgsv_sentence (s : GsvSentence) (hnul : gsv (sizeofGsv - 1) = 0) (table : ℕ → ℤ) :
    ∃ r, gpgsv s.text gsv table = some r := by
  obtain ⟨split, hgpgsv⟩ := gpgsv_eq s.text gsv table
  have hne : [s.sentence, s.nose, s.sn, s.nosa] ++ s.satellites.flatMap Satellite.fields ≠ [] :=
    List.cons_ne_nil _ _
  have hlen : 0 + ((s.satellites.flatMap Satellite.fields) ++ [s.checksum]).length ≤ 17 := by
    have hfour := s.satellites_length
    rw [List.length_append, fields_length, List.length_singleton]
    omega
  obtain ⟨t, ht⟩ := (behind_headed gsv table s.sentence s.nose s.sn s.nosa).fields_some hnul hlen
  rw [hgpgsv, GsvSentence.text, sentenceText_fields hne s.plain]
  exact ⟨(split, t), congrArg (Option.map _) ht⟩

theorem cnReported_iff (gsv : Memory) (table : ℕ → ℤ) (buf : Bytes) {off : ℕ}
    (h : strstr buf gsvSentenceId = some off) :
    (CnReported gsv table buf ↔
        ∃ r, gpgsv (buf.drop off) (clearedGsv gsv) table = some r ∧ CnShown r.2.table) ∧
      ∀ s : GsvSentence, buf.drop off = s.text →
        ∃ r, gpgsv (buf.drop off) (clearedGsv gsv) table = some r := by
  refine ⟨?_, fun s hs => hs ▸ gpgsv_sentence s (clearedGsv_at gsv (by decide)) table⟩
  have hpos : 0 < sizeofCnrBuff := by decide
  constructor
  · intro hreported
    have hsome : ∃ r, gpgsv (buf.drop off) (clearedGsv gsv) table = some r := by
      obtain ⟨result, hresult, -⟩ := hreported ⟨Memory.zero, Memory.zero, false, 0⟩
      rw [nmeaProcess2, h] at hresult
      obtain ⟨r, hr, -⟩ := Option.map_eq_some_iff.mp hresult
      exact ⟨r, hr⟩
    obtain ⟨r, hr⟩ := hsome
    have hshown (input : CnInput) : ((if strongAmong r.2.table (List.range 32) = 1 then (1 : ℤ) else 0) =
        1 ↔ strongAmong r.2.table (List.range' 1 32) = 1) ∧ ∀ i, sizeofCnrBuff ≤ i →
          (printed input.cnrBuff (cnLines r.2.table 32)).text i = input.cnrBuff i := by
      obtain ⟨result, hresult, htable, hbuff, hfixed⟩ := nmeaProcess2_some input h hr
      obtain ⟨result', hresult', hverdict, hinside⟩ := hreported input
      cases hresult.symm.trans hresult'
      rw [hfixed, htable] at hverdict
      rw [hbuff] at hinside
      exact ⟨hverdict, hinside⟩
    refine ⟨r, hr, (strong_one_iff _).mp ?_, ?_⟩
    · rw [← (hshown ⟨Memory.zero, Memory.zero, false, 0⟩).1]
      split_ifs with hone
      · exact iff_of_true hone rfl
      · exact iff_of_false hone (by decide)
    · rw [← cnLines_length]
      exact (printed_inside_iff _ hpos).mp fun m => (hshown ⟨Memory.zero, m, false, 0⟩).2
  · rintro ⟨r, hr, hends, hlength⟩ input
    obtain ⟨result, hresult, htable, hbuff, hfixed⟩ := nmeaProcess2_some input h hr
    refine ⟨result, hresult, ?_, ?_⟩
    · rw [hfixed, htable, ← (strong_one_iff _).mpr hends]
      split_ifs with hone
      · exact iff_of_true rfl hone
      · exact iff_of_false (by decide) hone
    · rw [hbuff]
      rw [← cnLines_length] at hlength
      exact (printed_inside_iff _ hpos).mpr hlength _

theorem cnReported_iff_sample :
    CnReported Memory.zero (fun _ => -1) gsvSample.text ↔
      ∃ r, gpgsv gsvSample.text (clearedGsv Memory.zero) (fun _ => -1) = some r ∧ CnShown r.2.table :=
  (cnReported_iff Memory.zero (fun _ => -1) gsvSample.text
    (by decide +kernel : strstr gsvSample.text gsvSentenceId = some 0)).1

def eightStrong (prn : ℕ) : ℤ := if 10 ≤ prn ∧ prn < 18 then 42 else -1

theorem cn_unreported :
    ¬ CnReported Memory.zero (fun _ => -1) (ascii "$GPGSV,1,1,01,32,40,111,42*4C") ∧
      ¬ CnReported Memory.zero eightStrong (ascii "$GPGSV,1,1,00*79") := by
  constructor
  · intro h
    obtain ⟨r, hr, hverdict, -⟩ := h ⟨Memory.zero, Memory.zero, false, 0⟩
    have hone := congrArg (Option.map fun r : CnResult =>
      (r.fixed, strongAmong r.table (List.range' 1 32))) hr
    have hzero : (nmeaProcess2 ⟨Memory.zero, Memory.zero, false, 0⟩ Memory.zero (fun _ => -1)
        (ascii "$GPGSV,1,1,01,32,40,111,42*4C")).map
          (fun r => (r.fixed, strongAmong r.table (List.range' 1 32))) = some (0, 1) := by
      decide +kernel
    obtain ⟨hfixed, hcount⟩ := Prod.mk.inj (Option.some.inj (hzero.symm.trans hone))
    rw [← hfixed, ← hcount] at hverdict
    exact absurd (hverdict.mpr rfl) (by decide)
  · intro h
    obtain ⟨r, hr, -, hinside⟩ := h ⟨Memory.zero, fun _ => 255, false, 0⟩
    have hkept := congrArg (Option.map fun r : CnResult => r.cnrBuff 128) hr
    have hwritten : (nmeaProcess2 ⟨Memory.zero, fun _ => 255, false, 0⟩ Memory.zero eightStrong
        (ascii "$GPGSV,1,1,00*79")).map (fun r => r.cnrBuff 128) = some 83 := by
      decide +kernel
    have hbyte : 83 = r.cnrBuff 128 := Option.some.inj (hwritten.symm.trans hkept)
    rw [hinside 128 (by decide)] at hbyte
    cases hbyte

end SystemTestSuite.Dm2
