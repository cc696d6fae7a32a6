import SystemTestSuite.GsmDaemon.Assembly
import SystemTestSuite.GsmDaemon.MlbufText
import SystemTestSuite.GsmDaemon.QueueEffects

namespace SystemTestSuite.GsmDaemon

open Library

variable {κ ω : Type} {env : Env κ ω} {g g' g'' : Gsmd κ ω}

/-- `room` is the difference `MLPARSE_BUF_SIZE - mlbuf_len`, `length` a new `mlbuf_len` other
than 0. -/
inductive MlbufUse where
  | store (off len : ℕ)
  | room (mlbufLen : ℕ)
  | length (mlbufLen : ℕ)
  deriving DecidableEq, Repr

def MlbufUse.Safe : MlbufUse → Prop
  | .store off len => off + len ≤ mlparseBufSize
  | .room mlbufLen => mlbufLen ≤ mlparseBufSize
  | .length mlbufLen => mlbufLen ≤ mlparseBufSize - 1

def MlbufUse.Spares (i : ℕ) : MlbufUse → Prop
  | .store off len => ¬ (off ≤ i ∧ i < off + len)
  | .room _ | .length _ => True

def mlAppendUses (mlbufLen len : ℕ) : List MlbufUse :=
  let n := if mlbufLen ≠ 0 then mlbufLen + 1 else mlbufLen
  let taken := min (mlRoom n) len
  (if mlbufLen ≠ 0 then [.store mlbufLen 1, .length n] else []) ++
    [.room n, .store n taken, .length (n + taken)]

def lentUses (mlbuf : Memory) : List MlbufUse :=
  ((mlbuf.string? 0 mlparseBufSize).map (fun text => .store 0 text.length)).toList

def atcmdDoneUses (g : Gsmd κ ω) (cmd : GsmdAtcmd κ) : List MlbufUse :=
  if cmd.cb = none ∨ g.mlbufLen = 0 then []
  else .store g.mlbufLen 1 :: lentUses (terminated g).mlbuf

def finalCbUses (g : Gsmd κ ω) : List MlbufUse :=
  match g.busyAtcmds with
  | [] => []
  | cmd :: _ => atcmdDoneUses g cmd

def mlResponseUses (env : Env κ ω) (g : Gsmd κ ω) (buf : Bytes) : List MlbufUse :=
  match g.busyAtcmds with
  | [] => mlAppendUses g.mlbufLen buf.length
  | cmd :: _ =>
    if ¬ takesExtended env cmd then []
    else (if g.mlbufLen ≠ 0 ∧ cmd.cb ≠ none then lentUses g.mlbuf else []) ++
      mlAppendUses 0 buf.length

def mlExtendedUses (env : Env κ ω) (g : Gsmd κ ω) (buf : Bytes) : List MlbufUse :=
  match strchr buf 58 with
  | none => []
  | some colon =>
    if extendedResult buf ≠ none then finalCbUses g
    else if (g.busyAtcmds.head?.any fun cmd => prefixMatches buf colon cmd) then
      mlResponseUses env g buf
    else
      let rc := (unsolicitedParse env g buf buf.length).1
      if rc = -EAGAIN then [.length buf.length, .store 0 buf.length]
      else if rc ≠ -ENOENT then []
      else mlResponseUses env g buf

def mlBasicUses (g : Gsmd κ ω) (buf : Bytes) : List MlbufUse :=
  if ringLine g.v0 buf then []
  else if basicResult g.v0 buf ≠ none then finalCbUses g
  else mlAppendUses g.mlbufLen buf.length

def mlParseUses (env : Env κ ω) (g : Gsmd κ ω) (buf : Bytes) : List MlbufUse :=
  if readyLine buf then []
  else if echoLine g buf then []
  else if extendedLine env buf then mlExtendedUses env g buf
  else mlBasicUses g buf

/-- `cancel_atcmd` empties `mlbuf` before it completes the executing command. -/
def eventUses (env : Env κ ω) (g : Gsmd κ ω) : Event κ → List MlbufUse
  | .line buf => mlParseUses env g buf
  | .cancel _ => finalCbUses { g with mlbufLen := 0 }
  | .submit _ | .writable _ _ | .prompt | .expire _ => []

structure FollowsUses (us : List MlbufUse) (g g' : Gsmd κ ω) : Prop where
  mlbuf : ∀ i, (∀ u ∈ us, u.Spares i) → g'.mlbuf i = g.mlbuf i
  mlbufLen : g'.mlbufLen = g.mlbufLen ∨ g'.mlbufLen = 0 ∨ .length g'.mlbufLen ∈ us

theorem FollowsUses.same (hmem : g'.mlbuf = g.mlbuf)
    (hlen : g'.mlbufLen = g.mlbufLen ∨ g'.mlbufLen = 0) : FollowsUses [] g g' :=
  ⟨fun i _ => congrFun hmem i, hlen.imp_right Or.inl⟩

theorem SameText.follows (h : SameText g g') : FollowsUses [] g g' :=
  FollowsUses.same h.mlbuf (Or.inl h.mlbufLen)

theorem FollowsUses.append {us vs : List MlbufUse} (h : FollowsUses us g g') (k : FollowsUses vs g' g'') :
    FollowsUses (us ++ vs) g g'' where
  mlbuf i hi := by
    rw [k.mlbuf i (fun u hu => hi u (List.mem_append_right us hu)),
      h.mlbuf i (fun u hu => hi u (List.mem_append_left vs hu))]
  mlbufLen := by
    rcases k.mlbufLen with hlen | hzero | hnew
    · rw [hlen]
      exact h.mlbufLen.imp_right (Or.imp_right (List.mem_append_left vs))
    · exact Or.inr (Or.inl hzero)
    · exact Or.inr (Or.inr (List.mem_append_right us hnew))

theorem FollowsUses.then_same {us : List MlbufUse} (h : FollowsUses us g g') (hmem : g''.mlbuf = g'.mlbuf)
    (hlen : g''.mlbufLen = g'.mlbufLen ∨ g''.mlbufLen = 0) : FollowsUses us g g'' := by
  rw [← List.append_nil us]
  exact h.append (FollowsUses.same hmem hlen)

theorem follows_store (g : Gsmd κ ω) (off : ℕ) (bs : Bytes) (n : ℕ) :
    FollowsUses [.store off bs.length, .length n] g
      { g with mlbuf := g.mlbuf.store off bs, mlbufLen := n } where
  mlbuf i hi := by
    have hspared := hi _ List.mem_cons_self
    simp only [MlbufUse.Spares, not_and, not_lt] at hspared
    rcases lt_or_ge i off with hbefore | hfrom
    · exact Memory.store_before _ _ hbefore
    · exact Memory.store_behind _ _ (hspared hfrom)
  mlbufLen := Or.inr (Or.inr (List.mem_cons_of_mem _ List.mem_cons_self))

theorem mlAppend_follows (env : Env κ ω) (g : Gsmd κ ω) (rc : ℤ) (buf : Bytes) :
    FollowsUses (mlAppendUses g.mlbufLen buf.length) g (mlAppend env g rc buf).2 := by
  obtain ⟨t, ht⟩ : ∃ t, t = if g.mlbufLen ≠ 0 then
      { g with mlbuf := g.mlbuf.store g.mlbufLen [LF], mlbufLen := g.mlbufLen + 1 } else g :=
    ⟨_, rfl⟩
  obtain ⟨text, htext⟩ : ∃ text, text = buf.take (mlRoom t.mlbufLen) := ⟨_, rfl⟩
  obtain ⟨s, hs⟩ : ∃ s, s = { t with
      mlbuf := t.mlbuf.store t.mlbufLen text
      mlbufLen := t.mlbufLen + text.length } := ⟨_, rfl⟩
  have hlen : t.mlbufLen = if g.mlbufLen ≠ 0 then g.mlbufLen + 1 else g.mlbufLen := by
    rw [ht]
    split_ifs <;> rfl
  have hsep : FollowsUses (if g.mlbufLen ≠ 0 then [.store g.mlbufLen 1, .length t.mlbufLen] else [])
      g t := by
    rw [ht]
    split_ifs
    · exact follows_store g g.mlbufLen [LF] (g.mlbufLen + 1)
    · exact FollowsUses.same rfl (Or.inl rfl)
  have hroom : FollowsUses [.room t.mlbufLen] t t := ⟨fun _ _ => rfl, Or.inl rfl⟩
  have hline : FollowsUses [.store t.mlbufLen text.length, .length (t.mlbufLen + text.length)] t s := by
    rw [hs]
    exact follows_store t t.mlbufLen text _
  have huses : mlAppendUses g.mlbufLen buf.length =
      (if g.mlbufLen ≠ 0 then [.store g.mlbufLen 1, .length t.mlbufLen] else []) ++
        ([.room t.mlbufLen] ++
          [.store t.mlbufLen text.length, .length (t.mlbufLen + text.length)]) := by
    rw [htext, List.length_take, hlen]
    rfl
  have hall : FollowsUses (mlAppendUses g.mlbufLen buf.length) g s := by
    rw [huses]
    exact hsep.append (hroom.append hline)
  have happend : mlAppend env g rc buf = if s.mlunsolicited then
      let r := unsolicitedParse env s (mlbufText s) s.mlbufLen
      if r.1 = -EAGAIN then (0, r.2) else (r.1, { r.2 with mlunsolicited := false, mlbufLen := 0 })
      else (rc, s) := by
    rw [hs, htext, ht]
    rfl
  have hparse := unsolicitedParse_text env s (mlbufText s) s.mlbufLen
  rw [happend]
  dsimp only
  split_ifs
  · exact hall.then_same hparse.mlbuf (Or.inl hparse.mlbufLen)
  · exact hall.then_same hparse.mlbuf (Or.inr rfl)
  · exact hall

theorem callCb_follows (env : Env κ ω) (g : Gsmd κ ω) (cmd : GsmdAtcmd κ) (cb : AtcmdCb κ) :
    FollowsUses (lentUses g.mlbuf) g
      { (callCb env g cmd cb (g.mlbuf.string? 0 mlparseBufSize) true).2 with mlbufLen := 0 } where
  mlbuf i hi := by
    change (callCb env g cmd cb (g.mlbuf.string? 0 mlparseBufSize) true).2.mlbuf i = g.mlbuf i
    rw [callCb_mlbuf]
    cases hstr : g.mlbuf.string? 0 mlparseBufSize with
    | none => cases cb <;> rfl
    | some text =>
      have hspared : (MlbufUse.store 0 text.length).Spares i := hi _ (by simp [lentUses, hstr])
      simp only [MlbufUse.Spares] at hspared
      cases cb with
      | nullWakeupCb => rfl
      | client k =>
        apply Memory.store_behind
        rw [List.length_take]
        omega
  mlbufLen := Or.inr (Or.inl rfl)

theorem callCb_noText (env : Env κ ω) (g : Gsmd κ ω) (cmd : GsmdAtcmd κ) (cb : AtcmdCb κ)
    (text : Bytes) : (callCb env g cmd cb (some text) false).2.mlbuf = g.mlbuf := by
  cases cb with
  | nullWakeupCb => exact (nullWakeupCb_text _).mlbuf
  | client k => exact (react_text _ _).mlbuf

theorem atcmdDone_follows (env : Env κ ω) (g : Gsmd κ ω) (cmd : GsmdAtcmd κ) (buf : Bytes) :
    FollowsUses (atcmdDoneUses g cmd) g (atcmdDone env g cmd buf).2 := by
  have hunlink (us : List MlbufUse) (t : Gsmd κ ω) (h : FollowsUses us g t) :
      FollowsUses us g (unlinkBusy t cmd) := by
    obtain ⟨hmem, hlen, -⟩ := unlinkBusy_text t cmd
    exact h.then_same hmem (Or.inl hlen)
  unfold atcmdDoneUses
  cases hcb : cmd.cb with
  | none =>
    rw [if_pos (Or.inl rfl), atcmdDone_none env g hcb]
    exact hunlink _ _ (FollowsUses.same rfl (Or.inl rfl))
  | some cb =>
    by_cases hlen : g.mlbufLen = 0
    · rw [if_pos (Or.inr hlen), atcmdDone_empty env hcb hlen]
      apply hunlink
      exact FollowsUses.same (callCb_noText env g cmd cb _) (Or.inr rfl)
    · rw [if_neg (by simp [hlen]), atcmdDone_text env hcb hlen]
      apply hunlink
      have hnul : FollowsUses [.store g.mlbufLen 1] g (terminated g) :=
        ⟨fun i hi => (follows_store g g.mlbufLen [0] 0).mlbuf i (by simpa [MlbufUse.Spares] using hi),
          Or.inl rfl⟩
      exact hnul.append (callCb_follows env (terminated g) cmd cb)

theorem finalCb_follows (env : Env κ ω) (g : Gsmd κ ω) (buf : Bytes) (ret : Option ℤ)
    (err : Option FinalError) : FollowsUses (finalCbUses g) g (finalCb env g buf ret err).2 := by
  unfold finalCb finalCbUses
  cases g.busyAtcmds with
  | nil => exact FollowsUses.same rfl (Or.inl rfl)
  | cons cmd busy =>
    have ht := generateErrorEvent_text env g (ret.getD cmd.ret) err
    have hdone := atcmdDone_follows env (generateErrorEvent env g (ret.getD cmd.ret) err)
      { cmd with ret := ret.getD cmd.ret } buf
    have huses : atcmdDoneUses (generateErrorEvent env g (ret.getD cmd.ret) err)
        { cmd with ret := ret.getD cmd.ret } = atcmdDoneUses g cmd := by
      unfold atcmdDoneUses terminated
      rw [ht.mlbufLen, ht.mlbuf]
    rw [huses] at hdone
    exact ht.follows.append hdone

theorem mlResponse_follows (env : Env κ ω) (g : Gsmd κ ω) (rc : ℤ) (buf : Bytes) :
    FollowsUses (mlResponseUses env g buf) g (mlResponse env g rc buf).2 := by
  unfold mlResponse
  split
  · rename_i hb
    have huses : mlResponseUses env g buf = mlAppendUses g.mlbufLen buf.length := by
      simp only [mlResponseUses, hb]
    rw [huses]
    exact mlAppend_follows env g rc buf
  · rename_i cmd busy hb
    have huses : mlResponseUses env g buf =
        if ¬ takesExtended env cmd then []
        else (if g.mlbufLen ≠ 0 ∧ cmd.cb ≠ none then lentUses g.mlbuf else []) ++
          mlAppendUses 0 buf.length := by
      simp only [mlResponseUses, hb]
    rw [huses]
    by_cases htakes : takesExtended env cmd
    · rw [if_neg (not_not.mpr htakes), if_neg (not_not.mpr htakes)]
      by_cases hlen : g.mlbufLen = 0
      · rw [if_neg (by simp [hlen]), if_neg (by simp [hlen]), ← hlen]
        exact mlAppend_follows env g rc buf
      · rw [if_pos hlen]
        cases hcb : cmd.cb with
        | none =>
          have hclear : FollowsUses [] g { g with mlbufLen := 0 } := FollowsUses.same rfl (Or.inr rfl)
          rw [if_neg (by simp)]
          exact hclear.append (mlAppend_follows env { g with mlbufLen := 0 } rc buf)
        | some cb =>
          have happend := mlAppend_follows env
            { (callCb env g cmd cb (g.mlbuf.string? 0 mlparseBufSize) true).2 with mlbufLen := 0 }
            (callCb env g cmd cb (g.mlbuf.string? 0 mlparseBufSize) true).1 buf
          rw [if_pos ⟨hlen, by simp⟩]
          exact (callCb_follows env g cmd cb).append happend
    · rw [if_pos htakes, if_pos htakes]
      exact FollowsUses.same rfl (Or.inl rfl)

theorem mlResponseUses_congr (h : SameText g g') (buf : Bytes) :
    mlResponseUses env g' buf = mlResponseUses env g buf := by
  unfold mlResponseUses
  rw [h.busy, h.mlbufLen, h.mlbuf]

theorem mlExtended_follows (env : Env κ ω) (g : Gsmd κ ω) (buf : Bytes) :
    FollowsUses (mlExtendedUses env g buf) g (mlExtended env g buf).2 := by
  unfold mlExtendedUses
  cases hcolon : strchr buf 58 with
  | none =>
    unfold mlExtended
    rw [hcolon]
    exact FollowsUses.same rfl (Or.inl rfl)
  | some colon =>
    dsimp only
    cases hresult : extendedResult buf with
    | some r =>
      rw [if_pos (by simp), mlExtended_final env g hresult]
      exact finalCb_follows env g buf _ _
    | none =>
      have ht := unsolicitedParse_text env g buf buf.length
      rw [if_neg (by simp), mlExtended_none env g hcolon hresult]
      dsimp only
      split_ifs
      · exact mlResponse_follows env g 0 buf
      · apply ht.follows.append
        exact ⟨fun i hi => (follows_store _ 0 buf buf.length).mlbuf i (by simpa [and_comm] using hi),
          Or.inr (Or.inr List.mem_cons_self)⟩
      · exact ht.follows
      · rw [← mlResponseUses_congr ht]
        exact ht.follows.append (mlResponse_follows env _ _ buf)

theorem mlParse_follows (env : Env κ ω) (g : Gsmd κ ω) (buf : Bytes) :
    FollowsUses (mlParseUses env g buf) g (mlParse env g buf).2 := by
  unfold mlParseUses
  by_cases hready : readyLine buf
  · rw [if_pos hready, mlParse, if_pos hready]
    have ht := atcmdSubmit_text { g with interpreterReady := true } env.initsettings
    exact FollowsUses.same ht.mlbuf (Or.inl ht.mlbufLen)
  by_cases hecho : echoLine g buf
  · rw [if_neg hready, if_pos hecho, mlParse, if_neg hready, if_pos hecho]
    exact FollowsUses.same rfl (Or.inl rfl)
  rw [if_neg hready, if_neg hecho]
  by_cases hext : extendedLine env buf
  · rw [if_pos hext, mlParse, if_neg hready, if_neg hecho, if_pos hext]
    exact mlExtended_follows env g buf
  · have hbasic : mlParse env g buf = mlBasic env g buf := by
      rw [mlParse, if_neg hready, if_neg hecho, if_neg hext]
    rw [if_neg hext, mlBasicUses]
    by_cases hring : ringLine g.v0 buf
    · rw [if_pos hring, hbasic, mlBasic, if_pos hring]
      exact (unsolicitedParse_text env g buf buf.length).follows
    · rw [if_neg hring]
      cases hresult : basicResult g.v0 buf with
      | some r =>
        rw [if_pos (by simp), hbasic, mlBasic_final env g hresult]
        exact finalCb_follows env g buf _ _
      | none =>
        rw [if_neg (by simp), mlParse_plain ⟨hready, hecho, hext, hring, hresult⟩]
        exact mlAppend_follows env g 0 buf

theorem cancelAtcmd_follows (env : Env κ ω) (g : Gsmd κ ω) (cmd : FilledAtcmd κ) :
    FollowsUses [] g (cancelAtcmd env g cmd).2 := by
  unfold cancelAtcmd
  split
  · exact (atcmdSubmit_text g cmd).follows
  · rename_i cur busy hb
    have hg : (if g.mlbufLen ≠ 0 then { g with mlbufLen := 0 } else g) = { g with mlbufLen := 0 } := by
      split_ifs with hlen
      · rfl
      · rw [← not_not.mp hlen]
    have hqueue : FollowsUses [] g (cancelQueue g cmd) := FollowsUses.same rfl (Or.inr rfl)
    have hdone := atcmdDone_follows env (cancelQueue g cmd) cur (ascii "OK")
    have huses : atcmdDoneUses (cancelQueue g cmd) cur = [] := if_pos (Or.inr rfl)
    rw [huses] at hdone
    dsimp only
    rw [hg]
    exact hqueue.append hdone

theorem eventUses_cancel (env : Env κ ω) (g : Gsmd κ ω) (cmd : FilledAtcmd κ) :
    eventUses env g (.cancel cmd) = [] := by
  unfold eventUses finalCbUses
  cases g.busyAtcmds with
  | nil => rfl
  | cons cur busy => exact if_pos (Or.inr rfl)

theorem next_follows (env : Env κ ω) (g : Gsmd κ ω) (e : Event κ) :
    FollowsUses (eventUses env g e) g (next env g e) := by
  have hquiet (e : Event κ) (he : ¬ e.Feeds) : FollowsUses [] g (next env g e) := by
    obtain ⟨hmem, hlen, _⟩ := next_mlbuf env g he
    exact FollowsUses.same hmem (Or.inl hlen)
  cases e with
  | line buf => exact mlParse_follows env g buf
  | cancel cmd =>
    rw [eventUses_cancel]
    exact cancelAtcmd_follows env g cmd
  | submit cmd => exact hquiet (.submit cmd) id
  | writable rc crDone => exact hquiet (.writable rc crDone) id
  | prompt => exact hquiet .prompt id
  | expire tmr => exact hquiet (.expire tmr) id

def AppendsBehind (env : Env κ ω) (g : Gsmd κ ω) (buf : Bytes) : Prop :=
  g.mlbufLen ≠ 0 ∧ InfoLine env g buf ∧ (extendedLine env buf → g.busyAtcmds = [])

instance (env : Env κ ω) (g : Gsmd κ ω) (buf : Bytes) : Decidable (AppendsBehind env g buf) :=
  inferInstanceAs (Decidable (_ ∧ _ ∧ _))

def FitsMlbuf (env : Env κ ω) (g : Gsmd κ ω) : Event κ → Prop
  | .line buf => AppendsBehind env g buf → g.mlbufLen + 1 + buf.length < mlparseBufSize
  | _ => True

instance (env : Env κ ω) (g : Gsmd κ ω) : (e : Event κ) → Decidable (FitsMlbuf env g e)
  | .line _ => inferInstanceAs (Decidable (_ → _))
  | .submit _ | .cancel _ | .writable _ _ | .prompt | .expire _ => .isTrue trivial

def Event.Short : Event κ → Prop
  | .line buf => buf.length ≤ llparseBufSize
  | _ => True

instance : (e : Event κ) → Decidable e.Short
  | .line _ => inferInstanceAs (Decidable (_ ≤ _))
  | .submit _ | .cancel _ | .writable _ _ | .prompt | .expire _ => .isTrue trivial

def SafeUses (env : Env κ ω) (g : Gsmd κ ω) (e : Event κ) : Prop :=
  ∀ u ∈ eventUses env g e, u.Safe

theorem mlAppendUses_safe_iff {n len : ℕ} (hn : n ≤ mlparseBufSize - 1)
    (hlen : len ≤ llparseBufSize) :
    (∀ u ∈ mlAppendUses n len, u.Safe) ↔ (n ≠ 0 → n + 1 + len < mlparseBufSize) := by
  by_cases hzero : n = 0
  · subst hzero
    simp only [mlAppendUses]
    simp [MlbufUse.Safe, mlparseBufSize, llparseBufSize] at hlen ⊢
    omega
  · have hroom := mlRoom_eq (n + 1) (by simp only [mlparseBufSize] at hn ⊢; omega)
    simp only [mlAppendUses, ne_eq, hzero, not_false_eq_true, if_true, hroom]
    simp [MlbufUse.Safe, mlparseBufSize, llparseBufSize] at hn hlen ⊢
    omega

theorem lentUses_safe (m : Memory) : ∀ u ∈ lentUses m, u.Safe := by
  intro u hu
  cases hstr : m.string? 0 mlparseBufSize with
  | none => simp [lentUses, hstr] at hu
  | some text =>
    obtain ⟨hlt, -⟩ := (Memory.string?_eq_some_iff m).mp hstr
    simp only [lentUses, hstr, Option.map_some, Option.toList_some, List.mem_singleton] at hu
    subst hu
    simp only [MlbufUse.Safe]
    omega

theorem finalCbUses_safe (hn : g.mlbufLen ≤ mlparseBufSize - 1) : ∀ u ∈ finalCbUses g, u.Safe := by
  unfold finalCbUses atcmdDoneUses
  cases g.busyAtcmds with
  | nil => simp
  | cons cmd busy =>
    dsimp only
    split_ifs
    · simp
    · intro u hu
      rcases List.mem_cons.mp hu with rfl | hlent
      · simp only [MlbufUse.Safe, mlparseBufSize] at hn ⊢
        omega
      · exact lentUses_safe _ u hlent

theorem mlResponseUses_safe_iff {buf : Bytes} (hn : g.mlbufLen ≤ mlparseBufSize - 1)
    (hlen : buf.length ≤ llparseBufSize) :
    (∀ u ∈ mlResponseUses env g buf, u.Safe) ↔
      (g.busyAtcmds = [] → g.mlbufLen ≠ 0 → g.mlbufLen + 1 + buf.length < mlparseBufSize) := by
  unfold mlResponseUses
  cases g.busyAtcmds with
  | nil =>
    dsimp only
    rw [mlAppendUses_safe_iff hn hlen]
    exact ⟨fun h _ => h, fun h => h rfl⟩
  | cons cmd busy =>
    apply iff_of_true
    · intro u hu
      dsimp only at hu
      split_ifs at hu with htakes hflush
      · rcases List.mem_append.mp hu with hlent | happend
        · exact lentUses_safe _ u hlent
        · exact (mlAppendUses_safe_iff (Nat.zero_le _) hlen).mpr (fun h => absurd rfl h) u happend
      · exact (mlAppendUses_safe_iff (Nat.zero_le _) hlen).mpr (fun h => absurd rfl h) u hu
      · cases hu
    · exact fun h => by cases h

theorem mlExtendedUses_safe_iff {buf : Bytes} (hn : g.mlbufLen ≤ mlparseBufSize - 1)
    (hlen : buf.length ≤ llparseBufSize) :
    (∀ u ∈ mlExtendedUses env g buf, u.Safe) ↔ (ResponseLine env g buf → g.busyAtcmds = [] →
      g.mlbufLen ≠ 0 → g.mlbufLen + 1 + buf.length < mlparseBufSize) := by
  unfold mlExtendedUses ResponseLine
  cases strchr buf 58 with
  | none => simp
  | some colon =>
    by_cases hresult : extendedResult buf = none
    · dsimp only
      rw [if_neg (not_not.mpr hresult)]
      by_cases hline : (g.busyAtcmds.head?.any fun cmd => prefixMatches buf colon cmd) = true ∨
          (unsolicitedParse env g buf buf.length).1 = -ENOENT
      · have huses : (if (g.busyAtcmds.head?.any fun cmd => prefixMatches buf colon cmd) = true then
            mlResponseUses env g buf
          else if (unsolicitedParse env g buf buf.length).1 = -EAGAIN then
            [.length buf.length, .store 0 buf.length]
          else if (unsolicitedParse env g buf buf.length).1 ≠ -ENOENT then []
          else mlResponseUses env g buf) = mlResponseUses env g buf := by
          split_ifs with hpfx hagain hent
          · rfl
          · rw [hline.resolve_left hpfx] at hagain
            exact absurd hagain (by decide)
          · exact absurd (hline.resolve_left hpfx) hent
          · rfl
        rw [huses, mlResponseUses_safe_iff hn hlen]
        exact ⟨fun h _ => h, fun h => h ⟨⟨colon, rfl, hline⟩, hresult⟩⟩
      · rw [not_or] at hline
        apply iff_of_true
        · rw [if_neg hline.1]
          split_ifs
          · simp [MlbufUse.Safe, mlparseBufSize, llparseBufSize] at hlen ⊢
            omega
          · simp
          · exact absurd hline.2 ‹_›
        · rintro ⟨⟨colon', hcolon, htaken⟩, -⟩
          obtain rfl : colon = colon' := Option.some.inj hcolon
          exact absurd htaken (not_or.mpr hline)
    · dsimp only
      rw [if_pos hresult]
      exact iff_of_true (finalCbUses_safe hn) (fun h => absurd h.2 hresult)

theorem safeUses_iff_fits {e : Event κ} (hn : g.mlbufLen ≤ mlparseBufSize - 1) (he : e.Short) :
    SafeUses env g e ↔ FitsMlbuf env g e := by
  unfold SafeUses
  cases e with
  | line buf =>
    have hlen : buf.length ≤ llparseBufSize := he
    unfold eventUses mlParseUses FitsMlbuf AppendsBehind InfoLine
    dsimp only
    by_cases hready : readyLine buf
    · simp [hready]
    by_cases hecho : echoLine g buf
    · simp [hready, hecho]
    rw [if_neg hready, if_neg hecho]
    by_cases hext : extendedLine env buf
    · rw [if_pos hext, if_pos hext, mlExtendedUses_safe_iff hn hlen]
      constructor
      · rintro h ⟨hne, ⟨-, -, hline, -⟩, hidle⟩
        exact h hline (hidle hext) hne
      · intro h hline hidle hne
        exact h ⟨hne, ⟨hready, hecho, hline, by simp [hidle]⟩, fun _ => hidle⟩
    · rw [if_neg hext, if_neg hext]
      unfold mlBasicUses
      split_ifs with hring hresult
      · simp [hring]
      · exact iff_of_true (finalCbUses_safe hn) (fun h => absurd h.2.1.2.2.2 hresult)
      · rw [mlAppendUses_safe_iff hn hlen]
        constructor
        · exact fun h hbehind => h hbehind.1
        · intro h hne
          exact h ⟨hne, ⟨hready, hecho, hring, not_not.mp hresult⟩, fun h => absurd h hext⟩
  | cancel cmd =>
    rw [eventUses_cancel]
    exact iff_of_true (by simp) trivial
  | submit _ | writable _ _ | prompt | expire _ => exact iff_of_true (by simp [eventUses]) trivial

def shortLines (env : Env κ ω) : Machine (Gsmd κ ω) (Event κ) := (atMachine env).restrict Event.Short

instance (env : Env κ ω) (g : Gsmd κ ω) (e : Event κ) : Decidable ((shortLines env).enabled g e) :=
  inferInstanceAs (Decidable (Enabled g e ∧ e.Short))

theorem next_mlbufLen {e : Event κ} (hn : g.mlbufLen ≤ mlparseBufSize - 1)
    (he : SafeUses env g e) : (next env g e).mlbufLen ≤ mlparseBufSize - 1 := by
  rcases (next_follows env g e).mlbufLen with hsame | hzero | hnew
  · rwa [hsame]
  · rw [hzero]
    exact Nat.zero_le _
  · exact he _ hnew

theorem staysInMlbuf_iff_fits {es : List (Event κ)} (hinit : AtcmdInit g) :
    (shortLines env).RunWhile (SafeUses env) g es g' ↔
      (shortLines env).RunWhile (FitsMlbuf env) g es g' := by
  apply Machine.runWhile_congr (I := fun t => t.mlbufLen ≤ mlparseBufSize - 1)
  · exact fun t e hn _ hsafe => next_mlbufLen hn hsafe
  · exact fun t e hn hen => safeUses_iff_fits hn hen.2
  · rw [hinit.mlbufLen]
    exact Nat.zero_le _

theorem staysInMlbuf_iff_fits_two :
    (shortLines idleEnv).RunWhile (SafeUses idleEnv) gsmdInit
      [.line (ascii "one"), .line (ascii "two")]
      ((shortLines idleEnv).after gsmdInit [.line (ascii "one"), .line (ascii "two")]) := by
  apply (staysInMlbuf_iff_fits gsmdInit_init).mpr
  apply Machine.Checks.runWhile
  decide

def longLine : Bytes := 97 :: List.replicate 1022 97

theorem longLine_short : (.line longLine : Event κ).Short := by
  simp only [Event.Short, longLine, List.length_cons, List.length_replicate]
  decide

def longLines (n : ℕ) : List (Event Unit) := List.replicate n (.line longLine)

structure Filled (n : ℕ) (g : Gsmd Unit Unit) : Prop where
  v0 : g.v0 = false
  busy : g.busyAtcmds = []
  mlunsolicited : g.mlunsolicited = false
  mlbufLen : g.mlbufLen = 1024 * n - 1

theorem plainLine_longLine {g : Gsmd Unit Unit} {n : ℕ} (h : Filled n g) :
    PlainLine idleEnv g longLine where
  ready := by decide
  echo := by simp [echoLine, h.busy]
  extended := by decide
  ring := by
    rw [h.v0]
    decide
  final := by
    rw [h.v0]
    decide

theorem filled_next {g : Gsmd Unit Unit} {n : ℕ} (hn : n < 64) (h : Filled n g) :
    Filled (n + 1) (next idleEnv g (.line longLine)) := by
  have hnext : next idleEnv g (.line longLine) = mlAppended idleEnv .nullWakeupCb g longLine := by
    rw [next, mlParse_plain (plainLine_longLine h), mlAppend_buffer idleEnv .nullWakeupCb h.mlunsolicited]
  have hlong : longLine.length = 1023 := by rw [longLine, List.length_cons, List.length_replicate]
  rw [hnext]
  refine ⟨h.v0, h.busy, h.mlunsolicited, ?_⟩
  unfold mlAppended LineBuffer.add
  by_cases hzero : g.mlbufLen = 0
  · have hfirst : n = 0 := by
      have hlen := h.mlbufLen
      omega
    have hroom : mlRoom 0 = 65535 := rfl
    subst hfirst
    simp [mlBuffer, hzero, mlShape, hroom, hlong]
  · have hlen := h.mlbufLen
    have hroom := mlRoom_eq (g.mlbufLen + 1) (by simp only [mlparseBufSize]; omega)
    simp only [mlBuffer, ne_eq, hzero, not_false_eq_true, if_true, mlShape, hroom,
      List.length_take, hlong, mlparseBufSize]
    omega

theorem filled_after {n : ℕ} (hn : n ≤ 64) :
    (shortLines idleEnv).Run gsmdInit (longLines n)
        ((shortLines idleEnv).after gsmdInit (longLines n)) ∧
      Filled n ((shortLines idleEnv).after gsmdInit (longLines n)) := by
  induction n with
  | zero => exact ⟨.nil, ⟨rfl, rfl, rfl, rfl⟩⟩
  | succ n ih =>
    obtain ⟨hrun, hfilled⟩ := ih (by omega)
    rw [longLines, List.replicate_succ', Machine.after_append]
    exact ⟨hrun.snoc ⟨trivial, longLine_short⟩ trivial, filled_next (by omega) hfilled⟩

theorem staysInMlbuf_overfull :
    (shortLines idleEnv).Run gsmdInit (longLines 64)
        ((shortLines idleEnv).after gsmdInit (longLines 64)) ∧
      ¬ (shortLines idleEnv).RunWhile (SafeUses idleEnv) gsmdInit (longLines 64)
        ((shortLines idleEnv).after gsmdInit (longLines 64)) := by
  refine ⟨(filled_after (le_refl 64)).1, ?_⟩
  intro hsafe
  rw [show longLines 64 = longLines 63 ++ [.line longLine] from List.replicate_succ'] at hsafe
  have hfilled := (filled_after (n := 63) (by decide)).2
  have hplain := plainLine_longLine hfilled
  have hinfo : InfoLine idleEnv ((shortLines idleEnv).after gsmdInit (longLines 63)) longLine := by
    refine ⟨hplain.ready, hplain.echo, ?_⟩
    rw [if_neg hplain.extended]
    exact ⟨hplain.ring, hplain.final⟩
  have hlen := hfilled.mlbufLen
  have hfits := (safeUses_iff_fits (by simp only [mlparseBufSize]; omega) longLine_short).mp hsafe.last
    ⟨by omega, hinfo, fun hext => absurd hext hplain.extended⟩
  simp only [longLine, List.length_cons, List.length_replicate, mlparseBufSize] at hfits
  omega

end SystemTestSuite.GsmDaemon
