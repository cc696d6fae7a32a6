import SystemTestSuite.GsmDaemon.LineEffects

namespace SystemTestSuite.GsmDaemon

open Library

variable {κ ω : Type}

def extendedResult (buf : Bytes) : Option (Option ℤ × Option FinalError) :=
  match strchr buf 58 with
  | none => none
  | some colon =>
    let errNr := toInt32 (strtoul ((cstr buf).drop (colon + 1))).1
    if strncmp ((cstr buf).drop 1) (ascii "CME ERROR") 9 then some (some errNr, some .cme)
    else if strncmp ((cstr buf).drop 1) (ascii "CMS ERROR") 9 then some (some errNr, some .cms)
    else none

def basicResult (v0 : Bool) (buf : Bytes) : Option (Option ℤ × Option FinalError) :=
  let digit (c : UInt8) : Prop := v0 = true ∧ (cstr buf).head? = some c
  if ringLine v0 buf then none
  else if cstr buf = ascii "ERROR" ∨ digit 52 then some (some 4, none)
  else if strncmp buf (ascii "OK") 2 ∨ digit 48 then some (some 0, none)
  else if strncmp buf (ascii "NO CARRIER") 11 ∨ digit 51 then some (none, none)
  else if strncmp buf (ascii "BUSY") 4 ∨ digit 55 then some (none, none)
  else none

def finalResult (env : Env κ ω) (g : Gsmd κ ω) (buf : Bytes) :
    Option (Option ℤ × Option FinalError) :=
  if readyLine buf then none
  else if echoLine g buf then none
  else if extendedLine env buf then extendedResult buf
  else basicResult g.v0 buf

/-- An extended line for the executing command: it repeats the command's prefix, or nobody else
wants it. -/
def ResponseLine (env : Env κ ω) (g : Gsmd κ ω) (buf : Bytes) : Prop :=
  (∃ colon ∈ strchr buf 58,
    (g.busyAtcmds.head?.any fun cmd => prefixMatches buf colon cmd) = true ∨
      (unsolicitedParse env g buf buf.length).1 = -ENOENT) ∧
    extendedResult buf = none

instance (env : Env κ ω) (g : Gsmd κ ω) (buf : Bytes) : Decidable (ResponseLine env g buf) :=
  inferInstanceAs (Decidable (_ ∧ _))

def FlushesWakeup (env : Env κ ω) (g : Gsmd κ ω) (buf : Bytes) : Prop :=
  WakeupText g ∧ (¬ readyLine buf ∧ ¬ echoLine g buf ∧ extendedLine env buf) ∧
    ResponseLine env g buf

theorem mlExtended_final (env : Env κ ω) (g : Gsmd κ ω) {buf : Bytes}
    {r : Option ℤ × Option FinalError} (h : extendedResult buf = some r) :
    mlExtended env g buf = finalCb env g buf r.1 r.2 := by
  unfold extendedResult at h
  unfold mlExtended
  cases hcolon : strchr buf 58 with
  | none => simp [hcolon] at h
  | some colon =>
    simp only [hcolon] at h
    dsimp only
    split_ifs at h with hcme hcms
    · rw [← Option.some.inj h]
      exact if_pos hcme
    · rw [← Option.some.inj h, if_neg hcme, if_pos hcms]

theorem mlBasic_final (env : Env κ ω) (g : Gsmd κ ω) {buf : Bytes}
    {r : Option ℤ × Option FinalError} (h : basicResult g.v0 buf = some r) :
    mlBasic env g buf = finalCb env g buf r.1 r.2 := by
  unfold basicResult at h
  unfold mlBasic
  dsimp only at h ⊢
  split_ifs at h ⊢ <;> rw [← Option.some.inj h]

theorem mlParse_final (env : Env κ ω) (g : Gsmd κ ω) {buf : Bytes}
    {r : Option ℤ × Option FinalError} (h : finalResult env g buf = some r) :
    mlParse env g buf = finalCb env g buf r.1 r.2 := by
  unfold finalResult at h
  unfold mlParse
  split_ifs at h with hready hecho hext
  · rw [if_neg hready, if_neg hecho, if_pos hext]
    exact mlExtended_final env g h
  · rw [if_neg hready, if_neg hecho, if_neg hext]
    exact mlBasic_final env g h

theorem mlExtended_none (env : Env κ ω) (g : Gsmd κ ω) {buf : Bytes} {colon : ℕ}
    (hcolon : strchr buf 58 = some colon) (h : extendedResult buf = none) :
    mlExtended env g buf =
      if (g.busyAtcmds.head?.any fun cmd => prefixMatches buf colon cmd) then
        mlResponse env g 0 buf
      else
        let r := unsolicitedParse env g buf buf.length
        if r.1 = -EAGAIN then
          (0, { r.2 with
            mlbufLen := buf.length
            mlbuf := r.2.mlbuf.store 0 buf
            mlunsolicited := true })
        else if r.1 ≠ -ENOENT then r
        else mlResponse env r.2 r.1 buf := by
  unfold extendedResult at h
  unfold mlExtended
  simp only [hcolon] at h ⊢
  split_ifs at h with hcme hcms
  rw [if_neg hcme, if_neg hcms]

theorem ResponseLine.handed {env : Env κ ω} {g : Gsmd κ ω} {buf : Bytes}
    (h : ResponseLine env g buf) :
    ∃ rc t, SameText g t ∧ Submits False g t ∧ mlExtended env g buf = mlResponse env t rc buf := by
  obtain ⟨⟨colon, hcolon, hline⟩, hnone⟩ := h
  rw [mlExtended_none env g hcolon hnone]
  split_ifs with hpfx
  · exact ⟨0, g, .refl g, .refl, rfl⟩
  · have hent := hline.resolve_left hpfx
    have hagain : (unsolicitedParse env g buf buf.length).1 ≠ -EAGAIN := by
      rw [hent]
      decide
    refine ⟨(unsolicitedParse env g buf buf.length).1, _, unsolicitedParse_text env g buf buf.length,
      unsolicitedParse_submits _ env g buf buf.length, ?_⟩
    dsimp only
    rw [if_neg hagain, if_neg (not_not.mpr hent)]

theorem mlExtended_info (env : Env κ ω) (g : Gsmd κ ω) {buf : Bytes}
    (h : extendedResult buf = none) :
    Submits (WakeupText g ∧ ResponseLine env g buf) g (mlExtended env g buf).2 := by
  cases hcolon : strchr buf 58 with
  | none =>
    unfold mlExtended
    rw [hcolon]
    exact .refl
  | some colon =>
    rw [mlExtended_none env g hcolon h]
    dsimp only
    split_ifs with hpfx hagain hent
    · exact (mlResponse_submits env g 0 buf).mono
        (fun hw => ⟨hw, ⟨colon, hcolon, Or.inl hpfx⟩, h⟩)
    · exact (unsolicitedParse_submits _ env g buf buf.length).quiet (Quiet.mlbuf _ _ _ _)
    · exact unsolicitedParse_submits _ env g buf buf.length
    · have htext := unsolicitedParse_text env g buf buf.length
      exact (unsolicitedParse_submits _ env g buf buf.length).trans
        ((mlResponse_submits env _ _ buf).mono (fun hw => ⟨WakeupText.congr htext hw,
          ⟨colon, hcolon, Or.inr (not_not.mp hent)⟩, h⟩))

theorem mlBasic_info (env : Env κ ω) (g : Gsmd κ ω) {buf : Bytes}
    (h : basicResult g.v0 buf = none) : Submits False g (mlBasic env g buf).2 := by
  unfold basicResult at h
  unfold mlBasic
  dsimp only at h ⊢
  split_ifs at h ⊢
  · exact unsolicitedParse_submits _ env g buf buf.length
  · exact mlAppend_submits _ env g 0 buf

theorem mlParse_info (env : Env κ ω) (g : Gsmd κ ω) {buf : Bytes}
    (h : finalResult env g buf = none) :
    Submits (FlushesWakeup env g buf) g (mlParse env g buf).2 := by
  unfold finalResult at h
  unfold mlParse
  split_ifs at h ⊢ with hready hecho hext
  · have hquiet : Quiet g { g with interpreterReady := true } :=
      ⟨rfl, rfl, rfl, rfl, rfl, rfl, fun _ => rfl, [], by simp⟩
    exact hquiet.submits.submit _
  · exact .refl
  · exact (mlExtended_info env g h).mono (fun hw => ⟨hw.1, ⟨hready, hecho, hext⟩, hw.2⟩)
  · exact (mlBasic_info env g h).mono False.elim

theorem mlParse_cases (env : Env κ ω) (g : Gsmd κ ω) (buf : Bytes) :
    Submits (FlushesWakeup env g buf) g (mlParse env g buf).2 ∨
      finalResult env g buf ≠ none ∧ Finishes g (mlParse env g buf).2 := by
  cases hr : finalResult env g buf with
  | none => exact Or.inl (mlParse_info env g hr)
  | some r =>
    rw [mlParse_final env g hr]
    rcases finalCb_cases env g buf r.1 r.2 with heq | hf
    · rw [heq]
      exact Or.inl .refl
    · exact Or.inr ⟨by simp, hf⟩

theorem mlResponse_wakeup (env : Env κ ω) {g : Gsmd κ ω} {cmd : GsmdAtcmd κ}
    {busy : List (GsmdAtcmd κ)} (hb : g.busyAtcmds = cmd :: busy)
    (hcb : cmd.cb = some .nullWakeupCb) (hbuf : cmd.buf = [SP, 0]) (hlen : g.mlbufLen ≠ 0) (rc : ℤ)
    (buf : Bytes) :
    mlResponse env g rc buf =
      mlAppend env
        { nullWakeupCb (g.emit (.call cmd.serial (g.mlbuf.string? 0 mlparseBufSize) cmd.ret)) with
          mlbufLen := 0 } 0 buf := by
  have hext : takesExtended env cmd := by simp [takesExtended, hbuf, strchrFinds]
  simp only [mlResponse, hb, hcb]
  rw [if_neg (not_not.mpr hext), if_pos hlen]
  rfl

theorem mlParse_flushesWakeup (env : Env κ ω) (g : Gsmd κ ω) {buf : Bytes}
    (h : FlushesWakeup env g buf)
    (hwake : ∀ c ∈ g.busyAtcmds, c.cb = some .nullWakeupCb → c.buf = [SP, 0]) :
    ∃ g₁ g₂, Submits False g g₁ ∧ Quiet (nullWakeupCb g₁) g₂ ∧
      Submits False g₂ (mlParse env g buf).2 := by
  obtain ⟨⟨hlen, cmd, busy, hb, hcb⟩, ⟨hready, hecho, hext⟩, hline⟩ := h
  obtain ⟨rc, t, htext, hs, heq⟩ := hline.handed
  unfold mlParse
  rw [if_neg hready, if_neg hecho, if_pos hext, heq]
  have hlen' : t.mlbufLen ≠ 0 := by rwa [htext.mlbufLen]
  rw [mlResponse_wakeup env (htext.busy.trans hb) hcb (hwake cmd (by simp [hb]) hcb) hlen' rc buf]
  exact ⟨_, _, hs.quiet (Quiet.call t cmd.serial _ cmd.ret), Quiet.mlbuf _ _ _ _,
    mlAppend_submits _ env _ _ buf⟩

end SystemTestSuite.GsmDaemon
