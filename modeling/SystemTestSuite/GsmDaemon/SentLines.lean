import SystemTestSuite.GsmDaemon.SentText

namespace SystemTestSuite.GsmDaemon

open Library

variable {κ ω : Type} {g g' : Gsmd κ ω} {pos : GsmdAtcmd κ} {n : ℕ}

structure Sized (c : GsmdAtcmd κ) : Prop where
  len : c.cur + c.buflen = c.buf.length
  left : 0 < c.buflen
  terminated : 0 ∈ c.buf

theorem Unsent.sized {c : GsmdAtcmd κ} (h : Unsent c) : Sized c := by
  obtain ⟨hcur, hlen, hterm⟩ := h
  refine ⟨by omega, ?_, hterm⟩
  rw [hlen]
  exact List.length_pos_of_mem hterm

namespace Sized

theorem buf_eq (h : Sized pos) : ∃ rest, pos.buf = pos.text ++ 0 :: rest :=
  cstr_terminated h.terminated

theorem text_lt (h : Sized pos) : pos.text.length < pos.buf.length := by
  obtain ⟨rest, hbuf⟩ := h.buf_eq
  rw [hbuf, List.length_append, List.length_cons]
  omega

theorem unsent_eq (h : Sized pos) (hcur : pos.cur ≤ pos.text.length) :
    pos.unsent = pos.text.drop pos.cur := by
  obtain ⟨rest, hbuf⟩ := h.buf_eq
  have hnul : ∀ b ∈ pos.text.drop pos.cur, b ≠ 0 := fun b hb => cstr_ne_zero b (List.mem_of_mem_drop hb)
  rw [GsmdAtcmd.unsent, hbuf, List.drop_append_of_le_length hcur, cstr_append hnul]
  exact List.append_nil _

theorem bytes_eq (h : Sized pos) {m : ℕ} (hfit : pos.cur + m ≤ pos.text.length) :
    (pos.buf.drop pos.cur).take m = (pos.text.drop pos.cur).take m := by
  obtain ⟨rest, hbuf⟩ := h.buf_eq
  rw [hbuf, List.drop_append_of_le_length (by omega), List.take_append_of_le_length]
  rw [List.length_drop]
  omega

theorem bytes_nul (h : Sized pos) {m : ℕ} (hcur : pos.cur ≤ pos.text.length)
    (hover : pos.text.length < pos.cur + m) : 0 ∈ (pos.buf.drop pos.cur).take m := by
  obtain ⟨rest, hbuf⟩ := h.buf_eq
  obtain ⟨k, hk⟩ : ∃ k, m = (pos.text.drop pos.cur).length + (k + 1) := by
    refine ⟨pos.cur + m - pos.text.length - 1, ?_⟩
    rw [List.length_drop]
    omega
  rw [hbuf, List.drop_append_of_le_length hcur, hk, List.take_length_add_append, List.take_succ_cons]
  exact List.mem_append_right _ List.mem_cons_self

theorem lineLen_lt (h : Sized pos) : pos.lineLen < pos.buflen := by
  have hlen := h.len
  have hleft := h.left
  unfold GsmdAtcmd.lineLen
  cases hs : strchr pos.unsent LF with
  | none => exact Nat.sub_lt hleft Nat.one_pos
  | some i =>
    obtain ⟨hi, _⟩ := List.findIdx?_eq_some_iff_getElem.mp hs
    calc i < (cstr pos.unsent).length := hi
      _ ≤ pos.unsent.length := cstr_length_le _
      _ ≤ (pos.buf.drop pos.cur).length := cstr_length_le _
      _ = pos.buflen := by
        rw [List.length_drop]
        omega

theorem line_no_lf (h : Sized pos) (hcur : pos.cur ≤ pos.text.length) {m : ℕ}
    (hm : m ≤ pos.lineLen) : ∀ b ∈ (pos.text.drop pos.cur).take m, b ≠ LF := by
  have hun : cstr pos.unsent = pos.text.drop pos.cur := by
    rw [← h.unsent_eq hcur]
    exact cstr_of_no_nul cstr_ne_zero
  unfold GsmdAtcmd.lineLen at hm
  intro b hb
  cases hs : strchr pos.unsent LF with
  | none =>
    rw [strchr, hun, List.findIdx?_eq_none_iff] at hs
    simpa using hs b (List.mem_of_mem_take hb)
  | some i =>
    have hmi : m ≤ i := by simpa only [hs] using hm
    rw [strchr, hun] at hs
    obtain ⟨hi, _, hbefore⟩ := List.findIdx?_eq_some_iff_getElem.mp hs
    obtain ⟨j, hj, rfl⟩ := List.getElem_of_mem hb
    rw [List.length_take] at hj
    rw [List.getElem_take]
    simpa using hbefore j (by omega)

end Sized

theorem lines_length (c : GsmdAtcmd κ) : c.lines.length = c.text.length + 1 := endedLines_length

theorem lines_ne_zero (c : GsmdAtcmd κ) : ∀ b ∈ c.lines, b ≠ 0 :=
  endedLines_ne_zero (by decide) cstr_ne_zero

theorem wrote_iff (h : Sized pos) (hn : n + 1 ≤ pos.lineLen) (crDone : Bool) :
    pos.lines.take pos.cur ++ (pos.buf.drop pos.cur).take (n + 1) ++
        (if crDone then [CR] else []) = pos.lines.take (written pos n).cur ↔
      KeepsLines pos n crDone := by
  have hlen := h.len
  have hlt := h.lineLen_lt
  have hlines := lines_length pos
  change _ = pos.lines.take (pos.cur + skipped pos n) ↔ _
  by_cases hfit : pos.cur + (n + 1) ≤ pos.text.length
  · have hcur : pos.cur ≤ pos.text.length := by omega
    have hline : pos.lines.take pos.cur ++ (pos.buf.drop pos.cur).take (n + 1) =
        pos.lines.take (pos.cur + (n + 1)) := by
      rw [h.bytes_eq hfit]
      exact (endedLines_take_line hfit (h.line_no_lf hcur hn)).symm
    have hlength (k : ℕ) (hk : k ≤ pos.text.length + 1) : (pos.lines.take k).length = k := by
      rw [List.length_take]
      omega
    rw [hline, KeepsLines, and_iff_right hfit, skipped]
    by_cases hend : strchr pos.unsent LF = none ∨ n + 1 = pos.lineLen
    · rw [if_pos hend, if_pos hend]
      cases crDone with
      | true =>
        rw [if_pos rfl, eq_self, true_and, eq_comm]
        exact endedLines_take_succ hfit
      | false =>
        refine iff_of_false ?_ (fun hk => Bool.noConfusion hk.1)
        intro heq
        have hcount := congrArg List.length heq
        rw [if_neg Bool.false_ne_true, List.append_nil, hlength _ (by omega),
          hlength _ (by omega)] at hcount
        omega
    · rw [if_neg hend, if_neg hend]
      cases crDone with
      | true => simp
      | false => simp
  · refine iff_of_false ?_ (fun hk => hfit hk.1)
    intro heq
    by_cases hcur : pos.cur ≤ pos.text.length
    · have hnul := h.bytes_nul hcur (m := n + 1) (by omega)
      have hmem : (0 : UInt8) ∈ pos.lines.take (pos.cur + skipped pos n) := by
        rw [← heq]
        exact List.mem_append_left _ (List.mem_append_right _ hnul)
      exact lines_ne_zero pos 0 (List.mem_of_mem_take hmem) rfl
    · have hcount := congrArg List.length heq
      simp only [List.length_append, List.length_take, List.length_drop, hlines] at hcount
      omega

theorem skipped_le (h : Sized pos) (hn : n + 1 ≤ pos.lineLen) : skipped pos n ≤ pos.buflen := by
  have hlt := h.lineLen_lt
  unfold skipped
  split_ifs <;> omega

theorem Sized.skipped_of_lf (h : Sized pos) {crDone : Bool}
    (hk : KeepsLines pos n crDone) (hlf : pos.buf[(written pos n).cur - 1]? = some LF) :
    pos.lineLen ≤ skipped pos n := by
  have hfit := hk.1
  obtain ⟨rest, hbuf⟩ := h.buf_eq
  have hpos : 0 < skipped pos n ∧ skipped pos n ≤ n + 2 := by
    unfold skipped
    split_ifs <;> omega
  have hbyte : (pos.text ++ 0 :: rest)[pos.cur + (skipped pos n - 1)]? = some LF := by
    rw [← hbuf, ← Nat.add_sub_assoc hpos.1]
    exact hlf
  by_contra hlt
  rcases lt_or_ge (pos.cur + (skipped pos n - 1)) pos.text.length with hin | hout
  · have hline := h.line_no_lf (by omega) (m := skipped pos n) (by omega)
    rw [List.getElem?_append_left hin] at hbyte
    apply hline LF _ rfl
    apply List.mem_of_getElem? (i := skipped pos n - 1)
    rw [List.getElem?_take_of_lt (by omega), List.getElem?_drop]
    exact hbyte
  · have hend : pos.cur + (skipped pos n - 1) = pos.text.length := by omega
    rw [hend, List.getElem?_append_right le_rfl, Nat.sub_self] at hbyte
    cases hbyte

structure Sent (g : Gsmd κ ω) : Prop where
  distinct : Distinct g
  fresh : ∀ s ≥ g.serial, output s g.log = []
  sized : ∀ c ∈ g.pendingAtcmds, Sized c
  text : WritesText g

namespace Sent

theorem shifts (h : Sent g) (hs : Shifts g g') : Sent g' := by
  obtain ⟨acts, hlog, hacts⟩ := hs.log
  have hout (s : ℕ) : output s g'.log = output s g.log := by
    rw [hlog]
    exact output_append s g.log hacts
  refine ⟨hs.distinct h.distinct, ?_, ?_, ?_, ?_⟩
  · intro s hge
    rw [hout]
    exact h.fresh s (hs.serial.trans hge)
  · intro c hc
    rcases hs.pending c hc with hold | ⟨_, _, hunsent⟩
    · exact h.sized c hold
    · exact hunsent.sized
  · intro c hc
    rw [hout]
    rcases hs.pending c hc with hold | ⟨hge, _, hunsent⟩
    · exact h.text.pending c hold
    · rw [h.fresh c.serial hge, hunsent.1]
      rfl
  · intro c hc
    rw [hout]
    exact h.text.busy c (hs.busy c hc)

section Write

variable {rest : List (GsmdAtcmd κ)}

theorem other (h : Sent g) (hp : g.pendingAtcmds = pos :: rest) {c : GsmdAtcmd κ}
    (hc : c ∈ rest ++ g.busyAtcmds) (crDone : Bool) :
    output c.serial (g.log ++ writeActs pos n crDone) = output c.serial g.log := by
  have hnodup := h.distinct.nodup
  rw [hp, List.cons_append, List.map_cons, List.nodup_cons] at hnodup
  apply output_other
  intro heq
  exact hnodup.1 (heq ▸ List.mem_map_of_mem hc)

theorem head (h : Sent g) (hp : g.pendingAtcmds = pos :: rest) (hn : n + 1 ≤ pos.lineLen)
    (crDone : Bool) :
    output pos.serial (g.log ++ writeActs pos n crDone) = pos.lines.take (written pos n).cur ↔
      KeepsLines pos n crDone := by
  have hmem : pos ∈ g.pendingAtcmds := hp ▸ List.mem_cons_self
  rw [output_write, h.text.pending pos hmem]
  exact wrote_iff (h.sized pos hmem) hn crDone

theorem lines_full (h : Sized pos) (hn : n + 1 ≤ pos.lineLen) (hend : (written pos n).buflen = 0) :
    pos.lines.take (written pos n).cur = pos.lines := by
  have hskip := skipped_le h hn
  have hlen := h.len
  have htext := h.text_lt
  have hleft : pos.buflen - skipped pos n = 0 := hend
  apply List.take_of_length_le
  rw [lines_length]
  change _ ≤ pos.cur + skipped pos n
  omega

theorem wrote (h : Sent g) (hr : g.interpreterReady = true) (hp : g.pendingAtcmds = pos :: rest)
    (hn : n + 1 ≤ pos.lineLen) {crDone : Bool} (hk : KeepsLines pos n crDone) :
    Sent (atcmdSelectWrite g (.wrote (n + 1)) crDone) := by
  have hmem : pos ∈ g.pendingAtcmds := hp ▸ List.mem_cons_self
  have hsized := h.sized pos hmem
  have hhead := (h.head hp hn crDone).mpr hk
  have hfresh (s : ℕ) (hs : g.serial ≤ s) : output s (g.log ++ writeActs pos n crDone) = [] := by
    rw [output_other g.log (ne_of_lt ((h.distinct.lt pos (List.mem_append_left _ hmem)).trans_le hs))]
    exact h.fresh s hs
  have hrest (c : GsmdAtcmd κ) (hc : c ∈ rest) : c ∈ g.pendingAtcmds :=
    hp ▸ List.mem_cons_of_mem _ hc
  have hpending (c : GsmdAtcmd κ) (hc : c ∈ rest) :
      output c.serial (g.log ++ writeActs pos n crDone) = c.lines.take c.cur := by
    rw [h.other hp (List.mem_append_left _ hc)]
    exact h.text.pending c (hrest c hc)
  have hbusy (c : GsmdAtcmd κ) (hc : c ∈ g.busyAtcmds) :
      output c.serial (g.log ++ writeActs pos n crDone) = c.lines := by
    rw [h.other hp (List.mem_append_right _ hc)]
    exact h.text.busy c hc
  have hdistinct {q : List (GsmdAtcmd κ)}
      (hq : q.Perm (written pos n :: (rest ++ g.busyAtcmds))) :
      (q.map GsmdAtcmd.serial).Nodup ∧ ∀ c ∈ q, c.serial < g.serial := by
    have hnodup := h.distinct.nodup
    have hlt := h.distinct.lt
    rw [hp] at hnodup hlt
    refine ⟨(hq.map GsmdAtcmd.serial).nodup_iff.mpr hnodup, ?_⟩
    intro c hc
    rcases List.mem_cons.mp (hq.mem_iff.mp hc) with rfl | hold
    · exact hlt pos List.mem_cons_self
    · exact hlt c (List.mem_cons_of_mem _ hold)
  rw [atcmdSelectWrite_wrote g hr hp]
  split_ifs with hend
  · have hq : (rest ++ (g.busyAtcmds ++ [written pos n])).Perm
        (written pos n :: (rest ++ g.busyAtcmds)) := by
      rw [← List.append_assoc]
      exact List.perm_append_singleton _ _
    obtain ⟨hnodup, hlt⟩ := hdistinct hq
    refine ⟨⟨hnodup, hlt⟩, hfresh, fun c hc => h.sized c (hrest c hc), hpending, ?_⟩
    intro c hc
    rcases List.mem_append.mp hc with hold | hnew
    · exact hbusy c hold
    · rw [List.mem_singleton.mp hnew]
      exact hhead.trans (lines_full hsized hn hend)
  · obtain ⟨hnodup, hlt⟩ := hdistinct (List.Perm.refl _)
    refine ⟨⟨hnodup, hlt⟩, hfresh, ?_, ?_, hbusy⟩
    · intro c hc
      rcases List.mem_cons.mp hc with rfl | hold
      · have hskip := skipped_le hsized hn
        have hlen := hsized.len
        refine ⟨?_, Nat.pos_of_ne_zero hend, hsized.terminated⟩
        change pos.cur + skipped pos n + (pos.buflen - skipped pos n) = pos.buf.length
        omega
      · exact h.sized c (hrest c hold)
    · intro c hc
      rcases List.mem_cons.mp hc with rfl | hold
      · exact hhead
      · exact hpending c hold

theorem keeps (h : Sent g) (hr : g.interpreterReady = true) (hp : g.pendingAtcmds = pos :: rest)
    (hn : n + 1 ≤ pos.lineLen) {crDone : Bool}
    (hw : WritesText (atcmdSelectWrite g (.wrote (n + 1)) crDone)) : KeepsLines pos n crDone := by
  have hsized := h.sized pos (hp ▸ List.mem_cons_self)
  rw [← h.head hp hn]
  rw [atcmdSelectWrite_wrote g hr hp] at hw
  split_ifs at hw with hend
  · rw [lines_full hsized hn hend]
    exact hw.busy (written pos n) (List.mem_append_right _ List.mem_cons_self)
  · exact hw.pending (written pos n) List.mem_cons_self

end Write

end Sent

end SystemTestSuite.GsmDaemon
