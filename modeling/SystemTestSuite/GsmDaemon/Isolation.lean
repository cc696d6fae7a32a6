import SystemTestSuite.GsmDaemon.Response

namespace SystemTestSuite.GsmDaemon

open Library

variable {κ ω : Type} {env : Env κ ω} {cb : AtcmdCb κ} {g g' t t' : Gsmd κ ω}

def finished (env : Env κ ω) (g : Gsmd κ ω) : Event κ → Option (GsmdAtcmd κ)
  | .line buf => if finalResult env g buf = none then none else g.busyAtcmds.head?
  | .cancel _ => g.busyAtcmds.head?
  | _ => none

def TextGone (g : Gsmd κ ω) : Prop := g.mlbufLen = 0 ∨ g.mlunsolicited = true

def LeavesNothing (env : Env κ ω) (g : Gsmd κ ω) (e : Event κ) : Prop :=
  finished env g e ≠ none → TextGone (next env g e)

def Clears (env : Env κ ω) (g : Gsmd κ ω) : Event κ → Prop
  | .line buf => ∀ cmd ∈ finished env g (.line buf), cmd.cb = none → TextGone g
  | _ => True

instance (g : Gsmd κ ω) : Decidable (TextGone g) := inferInstanceAs (Decidable (_ ∨ _))

theorem atcmdDone_textGone (env : Env κ ω) (g : Gsmd κ ω) (cmd : GsmdAtcmd κ) (buf : Bytes) :
    TextGone (atcmdDone env g cmd buf).2 ↔ (cmd.cb = none → TextGone g) := by
  cases hcb : cmd.cb with
  | none =>
    obtain ⟨_, hlen, huns⟩ := unlinkBusy_text g cmd
    rw [atcmdDone_none env g hcb, TextGone, hlen, huns]
    exact ⟨fun h _ => h, fun h => h rfl⟩
  | some cb =>
    obtain ⟨s, heq, hzero⟩ : ∃ s : Gsmd κ ω, (atcmdDone env g cmd buf).2 = unlinkBusy s cmd ∧
        s.mlbufLen = 0 := by
      unfold atcmdDone
      rw [hcb]
      exact ⟨_, rfl, rfl⟩
    obtain ⟨_, hlen, _⟩ := unlinkBusy_text s cmd
    rw [heq]
    exact iff_of_true (Or.inl (hlen.trans hzero)) (by simp)

theorem leavesNothing_iff (env : Env κ ω) (g : Gsmd κ ω) (e : Event κ) :
    LeavesNothing env g e ↔ Clears env g e := by
  cases e with
  | line buf =>
    cases hr : finalResult env g buf with
    | none => simp [LeavesNothing, Clears, finished, hr]
    | some r =>
      cases hb : g.busyAtcmds with
      | nil => simp [LeavesNothing, Clears, finished, hb]
      | cons cmd busy =>
        have ht := generateErrorEvent_text env g (r.1.getD cmd.ret) r.2
        have hdone := atcmdDone_textGone env (generateErrorEvent env g (r.1.getD cmd.ret) r.2)
          { cmd with ret := r.1.getD cmd.ret } buf
        have heq : (mlParse env g buf).2 =
            (atcmdDone env (generateErrorEvent env g (r.1.getD cmd.ret) r.2)
              { cmd with ret := r.1.getD cmd.ret } buf).2 := by
          rw [mlParse_final env g hr, finalCb, hb]
        rw [← heq, TextGone, TextGone, ht.mlbufLen, ht.mlunsolicited] at hdone
        simpa [LeavesNothing, Clears, finished, hr, hb, next, TextGone] using hdone
  | cancel c =>
    refine iff_of_true (fun hfin => ?_) trivial
    cases hb : g.busyAtcmds with
    | nil => simp [finished, hb] at hfin
    | cons cur busy =>
      rw [next, cancelAtcmd, hb]
      refine (atcmdDone_textGone env _ _ _).mpr (fun _ => Or.inl ?_)
      dsimp only
      split_ifs with hlen
      · rfl
      · exact not_not.mp hlen
  | submit _ | writable _ _ | prompt | expire _ =>
    exact iff_of_true (fun hfin => absurd rfl hfin) trivial

structure Follows (env : Env κ ω) (g : Gsmd κ ω) (e : Event κ) (t : Gsmd κ ω) : Prop where
  finished : finished env g e ≠ none
  run : ∃ es, (atMachine env).RunWhile (fun _ e => ¬ e.Feeds) (next env g e) es t

theorem Follows.textGone {e : Event κ} (h : Follows env g e t) :
    TextGone t ↔ Clears env g e := by
  have hsame : t.mlbufLen = (next env g e).mlbufLen ∧
      t.mlunsolicited = (next env g e).mlunsolicited := by
    obtain ⟨es, hrun⟩ := h.run
    clear h
    induction hrun with
    | nil => exact ⟨rfl, rfl⟩
    | snoc _ _ hfeeds ih =>
      obtain ⟨_, hlen, huns⟩ := next_mlbuf env _ hfeeds
      exact ⟨hlen.trans ih.1, huns.trans ih.2⟩
  rw [← leavesNothing_iff, LeavesNothing, TextGone, hsame.1, hsame.2]
  exact ⟨fun hgone _ => hgone, fun hleaves => hleaves h.finished⟩

def HearSame (env : Env κ ω) (cmd cmd' : GsmdAtcmd κ) (t t' : Gsmd κ ω) (lines : List Bytes)
    (final : Bytes) : Prop :=
  ∃ texts : List (Option Bytes),
    responses (receive env t (lines ++ [final])) =
      responses t ++ texts.map (fun text => (cmd.serial, text)) ∧
    responses (receive env t' (lines ++ [final])) =
      responses t' ++ texts.map (fun text => (cmd'.serial, text))

theorem hearSame_iff {cmd cmd' : GsmdAtcmd κ} (h : Executes cb cmd t) (h' : Executes cb cmd' t')
    (hlen : t.mlbufLen = 0) (hlen' : t'.mlbufLen = 0) {lines : List Bytes}
    (hinfo : InfoLines env t lines) (hinfo' : InfoLines env t' lines) {final : Bytes}
    (hfinal : finalResult env (receive env t lines) final ≠ none)
    (hfinal' : finalResult env (receive env t' lines) final ≠ none) :
    HearSame env cmd cmd' t t' lines final ↔
      LineBuffer.SameTails (mlShape env cb) t.mlbuf t'.mlbuf (infoTexts env lines) := by
  have hinj (serial : ℕ) : Function.Injective (fun text : Option Bytes => (serial, text)) :=
    fun _ _ heq => (Prod.mk.inj heq).2
  rw [← LineBuffer.spoken_same_iff _ _ (cstr final), ← mlBuffer_spoken env cb t hlen hinfo.ne_nil,
    ← mlBuffer_spoken env cb t' hlen' hinfo.ne_nil, HearSame,
    receive_responses h hinfo hfinal, receive_responses h' hinfo' hfinal']
  simp only [List.append_cancel_left_eq, (hinj _).list_map.eq_iff]
  constructor
  · rintro ⟨texts, heq, heq'⟩
    rw [heq, heq']
  · intro heq
    exact ⟨_, rfl, heq.symm⟩

/-- Commands leave nothing behind exactly when those without callback have got no text. The next
command then hears the same in two runs exactly when the same strings stand in `mlbuf` behind
the texts that are handed out early. -/
theorem isolated_iff (env : Env κ ω) :
    (∀ g es t, (atMachine env).Run g es t →
      ((atMachine env).RunWhile (LeavesNothing env) g es t ↔
        (atMachine env).RunWhile (Clears env) g es t)) ∧
    ∀ g e t g' e' t' cb cmd cmd' lines final, Follows env g e t → Follows env g' e' t' →
      Executes cb cmd t → Executes cb cmd' t' → InfoLines env t lines → InfoLines env t' lines →
      finalResult env (receive env t lines) final ≠ none →
      finalResult env (receive env t' lines) final ≠ none →
      ((LeavesNothing env g e ∧ LeavesNothing env g' e' ∧ HearSame env cmd cmd' t t' lines final) ↔
        (Clears env g e ∧ Clears env g' e' ∧
          LineBuffer.SameTails (mlShape env cb) t.mlbuf t'.mlbuf (infoTexts env lines))) := by
  constructor
  · intro g es t _
    exact ⟨fun h => h.mono (fun s e _ => (leavesNothing_iff env s e).mp),
      fun h => h.mono (fun s e _ => (leavesNothing_iff env s e).mpr)⟩
  · intro g e t g' e' t' cb cmd cmd' lines final hf hf' hx hx' hinfo hinfo' hfinal hfinal'
    rw [leavesNothing_iff, leavesNothing_iff]
    refine and_congr_right (fun hclear => and_congr_right (fun hclear' => ?_))
    have hempty {s : Gsmd κ ω} (hs : s.mlunsolicited = false) (hgone : TextGone s) :
        s.mlbufLen = 0 := hgone.resolve_right (by simp [hs])
    exact hearSame_iff hx hx' (hempty hx.mlunsolicited (hf.textGone.mpr hclear))
      (hempty hx'.mlunsolicited (hf'.textGone.mpr hclear')) hinfo hinfo' hfinal hfinal'

def storageRun (lines : List Bytes) : List (Event Unit) :=
  [.submit (filledText (ascii "AT+CPMS=\"SM\",\"SM\",\"SM\"") none),
    .submit (filledText (ascii "AT") (some ())), .writable (.wrote 1) true, .line (ascii "OK"),
    .writable (.wrote 22) true] ++ lines.map .line

def storageState (lines : List Bytes) : Gsmd Unit Unit :=
  (atMachine idleEnv).after gsmdInit (storageRun lines)

def afterStorage (lines : List Bytes) : Gsmd Unit Unit :=
  (atMachine idleEnv).after (next idleEnv (storageState lines) (.line (ascii "OK")))
    [.writable (.wrote 2) true]

def storageLines : List Bytes := [ascii "+CPMS: 1,10,1,10,1,10"]

def atHead : GsmdAtcmd Unit where
  serial := 3
  ctx := 0
  cb := some (.client ())
  ret := -255
  buflen := 0
  id := 0
  cur := 3
  buf := ascii "AT" ++ [0]

instance (e : Event κ) : Decidable e.Feeds := by
  cases e <;> unfold Event.Feeds <;> infer_instance

theorem storageState_follows (lines : List Bytes)
    (h : finished idleEnv (storageState lines) (.line (ascii "OK")) ≠ none)
    (hcheck : (atMachine idleEnv).Checks (fun _ e => ¬ e.Feeds)
      (next idleEnv (storageState lines) (.line (ascii "OK"))) [.writable (.wrote 2) true]) :
    Follows idleEnv (storageState lines) (.line (ascii "OK")) (afterStorage lines) :=
  ⟨h, _, hcheck.runWhile⟩

theorem isolated_iff_cpms :
    (LeavesNothing idleEnv (storageState storageLines) (.line (ascii "OK")) ∧
      LeavesNothing idleEnv (storageState []) (.line (ascii "OK")) ∧
      HearSame idleEnv atHead atHead (afterStorage storageLines) (afterStorage []) []
        (ascii "OK")) ↔
    (Clears idleEnv (storageState storageLines) (.line (ascii "OK")) ∧
      Clears idleEnv (storageState []) (.line (ascii "OK")) ∧
      LineBuffer.SameTails (mlShape idleEnv (.client ())) (afterStorage storageLines).mlbuf
        (afterStorage []).mlbuf (infoTexts idleEnv [])) :=
  (isolated_iff idleEnv).2 _ _ _ _ _ _ (.client ()) atHead atHead [] (ascii "OK")
    (storageState_follows storageLines (by decide) (by decide))
    (storageState_follows [] (by decide) (by decide))
    ⟨by decide, rfl, by decide⟩ ⟨by decide, rfl, by decide⟩ trivial trivial (by decide) (by decide)

theorem isolated_leaks :
    (atMachine idleEnv).Run gsmdInit (storageRun storageLines) (storageState storageLines) ∧
      (atMachine idleEnv).Run gsmdInit (storageRun []) (storageState []) ∧
      ¬ LeavesNothing idleEnv (storageState storageLines) (.line (ascii "OK")) ∧
      ¬ HearSame idleEnv atHead atHead (afterStorage storageLines) (afterStorage []) []
        (ascii "OK") := by
  refine ⟨Machine.Checks.runWhile (by decide), Machine.Checks.runWhile (by decide), ?_, ?_⟩
  · unfold LeavesNothing
    decide
  · rintro ⟨texts, h, h'⟩
    have htexts := congrArg (fun l => (l.drop (responses (afterStorage storageLines)).length).map Prod.snd) h
    have htexts' := congrArg (fun l => (l.drop (responses (afterStorage [])).length).map Prod.snd) h'
    simp only [List.drop_left, List.map_map, Function.comp_def, List.map_id'] at htexts htexts'
    exact absurd (htexts.trans htexts'.symm) (by decide)

end SystemTestSuite.GsmDaemon
