import SystemTestSuite.GsmDaemon.AtMachine

namespace SystemTestSuite.GsmDaemon

open Library

variable {κ ω : Type} {env : Env κ ω} {g : Gsmd κ ω}

def NoNul (g : Gsmd κ ω) : Prop := ∀ c ∈ g.mlbuf.slice 0 g.mlbufLen, c ≠ 0

def Event.NoNul : Event κ → Prop
  | .line buf => ∀ c ∈ buf, c ≠ 0
  | _ => True

theorem NoNul.of_empty (h : g.mlbufLen = 0) : NoNul g := by
  simp [NoNul, h, Memory.slice]

theorem NoNul.congr {g' : Gsmd κ ω} (h : NoNul g) (hmem : g'.mlbuf = g.mlbuf)
    (hlen : g'.mlbufLen = g.mlbufLen) : NoNul g' := by
  rwa [NoNul, hmem, hlen]

theorem SameText.noNul {g' : Gsmd κ ω} (ht : SameText g g') (h : NoNul g) : NoNul g' :=
  h.congr ht.mlbuf ht.mlbufLen

theorem NoNul.store (h : NoNul g) (text : Bytes) (htext : ∀ c ∈ text, c ≠ 0) :
    NoNul { g with
      mlbuf := g.mlbuf.store g.mlbufLen text
      mlbufLen := g.mlbufLen + text.length } := by
  intro c hc
  have hslice := Memory.slice_store_append g.mlbuf 0 g.mlbufLen text
  rw [Nat.zero_add] at hslice
  dsimp only at hc
  rw [hslice] at hc
  rcases List.mem_append.mp hc with hm | hm
  · exact h c hm
  · exact htext c hm

theorem mlAppend_noNul (h : NoNul g) (rc : ℤ) {buf : Bytes} (hbuf : ∀ c ∈ buf, c ≠ 0) :
    NoNul (mlAppend env g rc buf).2 := by
  obtain ⟨t, ht⟩ : ∃ t, t = if g.mlbufLen ≠ 0 then
      { g with mlbuf := g.mlbuf.store g.mlbufLen [LF], mlbufLen := g.mlbufLen + 1 } else g :=
    ⟨_, rfl⟩
  have hno : NoNul t := by
    rw [ht]
    split_ifs
    · exact h.store [LF] (by simp [LF])
    · exact h
  have htaken := hno.store (buf.take ((mlparseBufSize + 2 ^ 32 - t.mlbufLen) % 2 ^ 32))
    (fun c hc => hbuf c (List.mem_of_mem_take hc))
  unfold mlAppend
  rw [← ht]
  dsimp only
  split_ifs
  · exact (unsolicitedParse_text env _ _ _).noNul htaken
  · exact NoNul.of_empty rfl
  · exact htaken

theorem unlinkBusy_text (g : Gsmd κ ω) (cmd : GsmdAtcmd κ) :
    (unlinkBusy g cmd).mlbuf = g.mlbuf ∧ (unlinkBusy g cmd).mlbufLen = g.mlbufLen ∧
      (unlinkBusy g cmd).mlunsolicited = g.mlunsolicited := by
  unfold unlinkBusy
  dsimp only
  split_ifs <;> exact ⟨rfl, rfl, rfl⟩

theorem atcmdDone_noNul (h : NoNul g) (cmd : GsmdAtcmd κ) (buf : Bytes) :
    NoNul (atcmdDone env g cmd buf).2 := by
  obtain ⟨t, ht, htext⟩ : ∃ t, (atcmdDone env g cmd buf).2 = unlinkBusy t cmd ∧ NoNul t := by
    unfold atcmdDone
    cases cmd.cb with
    | none => exact ⟨g, rfl, h⟩
    | some cb => exact ⟨_, rfl, NoNul.of_empty rfl⟩
  obtain ⟨hmem, hlen, _⟩ := unlinkBusy_text t cmd
  rw [ht]
  exact htext.congr hmem hlen

theorem finalCb_noNul (h : NoNul g) (buf : Bytes) (ret : Option ℤ) (err : Option FinalError) :
    NoNul (finalCb env g buf ret err).2 := by
  unfold finalCb
  split
  · exact h
  · rename_i cmd _ _
    refine atcmdDone_noNul ?_ _ buf
    rcases err with _ | _ | _ <;> exact h

theorem mlResponse_noNul (h : NoNul g) (rc : ℤ) {buf : Bytes} (hbuf : ∀ c ∈ buf, c ≠ 0) :
    NoNul (mlResponse env g rc buf).2 := by
  unfold mlResponse
  split
  · exact mlAppend_noNul h rc hbuf
  · rename_i cmd _ _
    dsimp only
    split_ifs
    · cases cmd.cb with
      | none => exact mlAppend_noNul (.of_empty rfl) rc hbuf
      | some cb => exact mlAppend_noNul (.of_empty rfl) _ hbuf
    · exact mlAppend_noNul h rc hbuf
    · exact h

theorem mlExtended_noNul (h : NoNul g) {buf : Bytes} (hbuf : ∀ c ∈ buf, c ≠ 0) :
    NoNul (mlExtended env g buf).2 := by
  unfold mlExtended
  split
  · exact h
  · have ht := unsolicitedParse_text env g buf buf.length
    dsimp only
    split_ifs
    · exact finalCb_noNul h buf _ _
    · exact finalCb_noNul h buf _ _
    · exact mlResponse_noNul h 0 hbuf
    · intro c hc
      dsimp only at hc
      rw [Memory.slice_store_same] at hc
      exact hbuf c hc
    · exact ht.noNul h
    · exact mlResponse_noNul (ht.noNul h) _ hbuf

theorem mlParse_noNul (h : NoNul g) {buf : Bytes} (hbuf : ∀ c ∈ buf, c ≠ 0) :
    NoNul (mlParse env g buf).2 := by
  unfold mlParse
  split_ifs
  · exact (atcmdSubmit_text _ _).noNul h
  · exact h
  · exact mlExtended_noNul h hbuf
  · unfold mlBasic
    dsimp only
    split_ifs
    · exact (unsolicitedParse_text env g buf buf.length).noNul h
    · exact finalCb_noNul h buf _ _
    · exact finalCb_noNul h buf _ _
    · exact finalCb_noNul h buf _ _
    · exact finalCb_noNul h buf _ _
    · exact mlAppend_noNul h 0 hbuf

def Event.Feeds : Event κ → Prop
  | .line _ | .cancel _ => True
  | _ => False

theorem next_mlbuf (env : Env κ ω) (g : Gsmd κ ω) {e : Event κ} (he : ¬ e.Feeds) :
    (next env g e).mlbuf = g.mlbuf ∧ (next env g e).mlbufLen = g.mlbufLen ∧
      (next env g e).mlunsolicited = g.mlunsolicited := by
  cases e with
  | submit cmd =>
    have ht := atcmdSubmit_text g cmd
    exact ⟨ht.mlbuf, ht.mlbufLen, ht.mlunsolicited⟩
  | cancel cmd => exact absurd trivial he
  | writable rc crDone =>
    rcases atcmdSelectWrite_cases g rc crDone with heq | ⟨_, _, heq⟩ | ⟨pos, rest, n, hr, hp, rfl⟩
    · rw [next, heq]
      exact ⟨rfl, rfl, rfl⟩
    · rw [next, heq]
      exact ⟨rfl, rfl, rfl⟩
    · rw [next, atcmdSelectWrite_wrote g hr hp]
      split_ifs <;> exact ⟨rfl, rfl, rfl⟩
  | line buf => exact absurd trivial he
  | prompt => exact ⟨rfl, rfl, rfl⟩
  | expire tmr =>
    rcases timerExpire_cases g tmr with ⟨_, heq⟩ | ⟨_, _, heq⟩ | ⟨_, _, _, _, heq⟩
    · rw [next, heq]
      exact ⟨rfl, rfl, rfl⟩
    · rw [next, heq]
      exact ⟨rfl, rfl, rfl⟩
    · rw [next, heq]
      exact ⟨rfl, rfl, rfl⟩

theorem next_noNul (h : NoNul g) {e : Event κ} (he : e.NoNul) : NoNul (next env g e) := by
  by_cases hfeeds : e.Feeds
  · cases e with
    | line buf => exact mlParse_noNul h he
    | cancel cmd =>
      rw [next, cancelAtcmd]
      split
      · exact (atcmdSubmit_text g cmd).noNul h
      · refine atcmdDone_noNul (.of_empty ?_) _ _
        dsimp only
        split_ifs with hlen
        · rfl
        · exact not_not.mp hlen
    | submit _ | writable _ _ | prompt | expire _ => exact hfeeds.elim
  · obtain ⟨hmem, hlen, _⟩ := next_mlbuf env g hfeeds
    exact h.congr hmem hlen

theorem reachable_noNul (h : (atMachine env).ReachableWhile (fun _ e => e.NoNul) g) : NoNul g := by
  have hstart : ∀ t : Gsmd κ ω, (atMachine env).start t → NoNul t :=
    fun t hinit => .of_empty (AtcmdInit.mlbufLen hinit)
  exact h.invariant hstart (fun _ _ hno _ he => next_noNul hno he)

end SystemTestSuite.GsmDaemon
