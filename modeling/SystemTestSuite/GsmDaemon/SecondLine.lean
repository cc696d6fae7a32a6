import SystemTestSuite.GsmDaemon.Unsolicited

namespace SystemTestSuite.GsmDaemon

open Library

variable {κ ω : Type} {env : Env κ ω} {g g' : Gsmd κ ω}

theorem mlbufText_no_nul (g : Gsmd κ ω) : ∀ c ∈ mlbufText g, c ≠ 0 := by
  rw [mlbufText, Memory.text]
  cases hstring : g.mlbuf.string? 0 mlparseBufSize with
  | some text => exact ((Memory.string?_eq_some_iff _).mp hstring).2.2.1
  | none => exact Memory.string?_eq_none _ hstring

structure Stands (m : Memory) (text : Bytes) : Prop where
  noNul : ∀ c ∈ text, c ≠ 0
  length : text.length ≤ mlparseBufSize
  ends : text.length < mlparseBufSize → m text.length = 0

theorem mlbufText_iff {cb : AtcmdCb κ} {m : Memory} {held : List Bytes}
    (h : LineBuffer.Holds (mlShape env cb) m (mlBuffer g) held) :
    mlbufText g = joinLines LF held ↔ Stands m (joinLines LF held) := by
  have hread : g.mlbuf.string? 0 mlparseBufSize =
      LineBuffer.handed (mlShape env cb) m (joinLines LF held) := h.read
  obtain ⟨text, htext⟩ : ∃ text, text = joinLines LF held := ⟨_, rfl⟩
  have hslice : g.mlbuf.slice 0 mlparseBufSize = (m.store 0 text).slice 0 mlparseBufSize :=
    Memory.slice_congr (fun i _ hi => htext ▸ h.mem i (by rwa [Nat.zero_add] at hi))
  have hfits := LineBuffer.handed_iff (S := mlShape env cb) m text
  rw [← htext] at hread ⊢
  constructor
  · intro heq
    have hno := mlbufText_no_nul g
    rw [heq] at hno
    rw [mlbufText, Memory.text] at heq
    cases hstring : g.mlbuf.string? 0 mlparseBufSize with
    | some u =>
      rw [hstring] at heq hread
      obtain rfl : u = text := heq
      obtain ⟨⟨hlt, _⟩, hz⟩ := hfits.mp hread.symm
      exact ⟨hno, hlt.le, fun _ => hz⟩
    | none =>
      rw [hstring] at heq
      have hlen := congrArg List.length heq
      rw [Option.getD_none, Memory.slice_length] at hlen
      exact ⟨hno, hlen.ge, fun hlt => absurd hlen (by omega)⟩
  · rintro ⟨hno, hle, hend⟩
    rw [mlbufText, Memory.text, hread]
    by_cases hlt : text.length < mlparseBufSize
    · rw [hfits.mpr ⟨⟨hlt, hno⟩, hend hlt⟩]
      rfl
    · have hlen : mlparseBufSize = text.length := by omega
      have hnone : LineBuffer.handed (mlShape env cb) m text = none := by
        cases hu : LineBuffer.handed (mlShape env cb) m text with
        | none => rfl
        | some u =>
          obtain ⟨hult, _, _, hz⟩ := (Memory.string?_eq_some_iff _).mp hu
          have hin : u.length < text.length := hlen ▸ hult
          rw [Memory.store_inside m 0 text hin] at hz
          exact absurd hz (hno _ (List.getElem_mem hin))
      rw [hnone, Option.getD_none, hslice, hlen]
      exact Memory.slice_store_same m 0 text

theorem second_holds (env : Env κ ω) (cb : AtcmdCb κ) {m : Memory} {buf pdu : Bytes}
    (hbuf : mlBuffer g = ⟨m.store 0 buf, buf.length⟩) (hne : buf ≠ []) (hpdu : pdu ≠ []) :
    LineBuffer.Holds (mlShape env cb) m (mlBuffer (mlAppended env cb g pdu)) [buf, pdu] ∧
      ((buf ++ LF :: pdu).length ≤ mlparseBufSize →
        (mlAppended env cb g pdu).mlbufLen = (buf ++ LF :: pdu).length) := by
  have hlen : buf.length ≠ 0 := List.length_pos_of_ne_nil hne |>.ne'
  have hone : LineBuffer.Holds (mlShape env cb) m (mlBuffer g) [buf] := by
    rw [hbuf]
    exact ⟨by simp [hne], by rw [LineBuffer.joinLines_singleton],
      fun i _ => by rw [LineBuffer.joinLines_singleton]⟩
  refine ⟨hone.add hpdu, fun hle => ?_⟩
  rw [List.length_append, List.length_cons] at hle ⊢
  have htake : pdu.take (mlRoom (buf.length + 1)) = pdu := by
    apply List.take_of_length_le
    rw [mlRoom_eq _ (by omega)]
    omega
  simp only [mlAppended, hbuf, LineBuffer.add, ne_eq, hlen, not_false_iff, if_true, mlShape, htake]
  omega

theorem unsolicitedParse_rc {buf : Bytes} {len : ℕ} (h : g'.world = g.world) :
    (unsolicitedParse env g' buf len).1 = (unsolicitedParse env g buf len).1 := by
  unfold unsolicitedParse
  cases env.unsolicit.find? (fun i => strncmp (cstr buf) i.pfx i.pfx.length) with
  | none => rfl
  | some i =>
    dsimp only
    rw [h]

structure Waits (m : Memory) (buf : Bytes) (g : Gsmd κ ω) : Prop where
  ne_nil : buf ≠ []
  mlunsolicited : g.mlunsolicited = true
  buffer : mlBuffer g = ⟨m.store 0 buf, buf.length⟩

structure MessageDone (m : Memory) (text : Bytes) (g g' : Gsmd κ ω) : Prop where
  turn : SameTurn g g'
  mlunsolicited : g'.mlunsolicited = false
  mlbufLen : g'.mlbufLen = 0
  mlbuf : ∀ i < mlparseBufSize, g'.mlbuf i = m.store 0 text i

theorem joinLines_pair (buf pdu : Bytes) : joinLines LF [buf, pdu] = buf ++ LF :: pdu := by
  simp [joinLines, List.intercalate]

theorem second_dispatches (cb : AtcmdCb κ) {m : Memory} {buf pdu : Bytes} (h : Waits m buf g)
    (hplain : PlainLine env g pdu)
    (hdone : Dispatched env g (buf ++ LF :: pdu) (buf ++ LF :: pdu).length) :
    dispatches (mlParse env g pdu).2 = dispatches g ++ [buf ++ LF :: pdu] ↔
      Stands m (buf ++ LF :: pdu) := by
  have hpdu : pdu ≠ [] := fun hnil => hplain.ready (Or.inl (by rw [hnil]; rfl))
  obtain ⟨hholds, hlen⟩ := second_holds env cb h.buffer h.ne_nil hpdu
  have htext := mlbufText_iff hholds
  rw [joinLines_pair] at htext
  obtain ⟨t, ht⟩ : ∃ t, t = mlAppended env cb g pdu := ⟨_, rfl⟩
  have hafter : dispatches (mlParse env g pdu).2 =
      dispatches (unsolicitedParse env t (mlbufText t) t.mlbufLen).2 := by
    rw [mlParse_plain hplain, mlAppend_eq env cb, h.mlunsolicited, ← ht]
    dsimp only
    rw [if_pos rfl]
    split_ifs <;> rfl
  have hsame : dispatches t = dispatches g := by rw [ht]; rfl
  rw [← ht] at htext hlen
  rw [hafter, unsolicitedParse_dispatches, hsame, List.append_cancel_left_eq, ← htext,
    cstr_of_no_nul (mlbufText_no_nul t)]
  constructor
  · intro heq
    split_ifs at heq
    · exact (List.cons.inj heq).1
  · intro heq
    have hworld : t.world = g.world := by rw [ht]; rfl
    have hdispatched : Dispatched env t (mlbufText t) t.mlbufLen := by
      rw [heq, hlen (htext.mp heq).length]
      exact ⟨hdone.1, by rw [unsolicitedParse_rc hworld]; exact hdone.2⟩
    rw [if_pos hdispatched, heq]

theorem second_done (cb : AtcmdCb κ) {m : Memory} {buf pdu : Bytes} (h : Waits m buf g)
    (hplain : PlainLine env g pdu)
    (hdone : Dispatched env g (buf ++ LF :: pdu) (buf ++ LF :: pdu).length)
    (hstands : Stands m (buf ++ LF :: pdu)) :
    MessageDone m (buf ++ LF :: pdu) g (mlParse env g pdu).2 := by
  have hpdu : pdu ≠ [] := fun hnil => hplain.ready (Or.inl (by rw [hnil]; rfl))
  obtain ⟨hholds, hlen⟩ := second_holds env cb h.buffer h.ne_nil hpdu
  have htext := mlbufText_iff hholds
  rw [joinLines_pair] at htext
  obtain ⟨t, ht⟩ : ∃ t, t = mlAppended env cb g pdu := ⟨_, rfl⟩
  rw [← ht] at htext hlen
  have hworld : t.world = g.world := by rw [ht]; rfl
  have hrc : (unsolicitedParse env t (mlbufText t) t.mlbufLen).1 ≠ -EAGAIN := by
    rw [htext.mpr hstands, hlen hstands.length, unsolicitedParse_rc hworld]
    exact hdone.2
  have hparse := unsolicitedParse_text env t (mlbufText t) t.mlbufLen
  have hturn : SameTurn g t := by
    rw [ht]
    exact ⟨rfl, rfl, rfl⟩
  have hmem : ∀ i < mlparseBufSize, t.mlbuf i = m.store 0 (buf ++ LF :: pdu) i := by
    intro i hi
    rw [ht, ← joinLines_pair]
    exact hholds.mem i hi
  rw [mlParse_plain hplain, mlAppend_eq env cb, h.mlunsolicited, ← ht]
  dsimp only
  rw [if_pos rfl, if_neg hrc]
  exact ⟨⟨hparse.v0.trans hturn.v0, hparse.busy.trans hturn.busy, hparse.calls.trans hturn.calls⟩,
    rfl, rfl, fun i hi => by rw [hparse.mlbuf]; exact hmem i hi⟩

theorem second_missed {buf pdu : Bytes} (hready : ¬ readyLine pdu)
    (hext : ¬ extendedLine env pdu) (hplain : ¬ PlainLine env g pdu) :
    dispatches (mlParse env g pdu).2 ≠ dispatches g ++ [buf ++ LF :: pdu] := by
  have hnone {t : Gsmd κ ω} (ht : dispatches t = dispatches g) :
      dispatches t ≠ dispatches g ++ [buf ++ LF :: pdu] := by
    rw [ht]
    exact fun heq => List.cons_ne_nil _ _ (List.append_right_eq_self.mp heq.symm)
  by_cases hecho : echoLine g pdu
  · unfold mlParse
    rw [if_neg hready, if_pos hecho]
    exact hnone rfl
  · by_cases hring : ringLine g.v0 pdu
    · have heq : mlParse env g pdu = unsolicitedParse env g pdu pdu.length := by
        unfold mlParse mlBasic
        rw [if_neg hready, if_neg hecho, if_neg hext, if_pos hring]
      rw [heq, unsolicitedParse_dispatches]
      intro heq
      have htexts := List.append_cancel_left heq
      split_ifs at htexts
      · have hlen := congrArg List.length (List.cons.inj htexts).1
        have hcstr := cstr_length_le pdu
        rw [List.length_append, List.length_cons] at hlen
        omega
    · cases hr : basicResult g.v0 pdu with
      | none => exact absurd ⟨hready, hecho, hext, hring, hr⟩ hplain
      | some r =>
        have hfinal : finalResult env g pdu = some r := by
          rw [finalResult, if_neg hready, if_neg hecho, if_neg hext, hr]
        rw [mlParse_final env g hfinal]
        exact hnone (finalCb_dispatches env g pdu r.1 r.2)

end SystemTestSuite.GsmDaemon
