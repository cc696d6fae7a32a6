import SystemTestSuite.Library.Machine

/-!
The flow of the tests of `dm2.c`: the popup with the suites, the buttons of the tests, Pass and
Fail, and the records that `save_item_result` appends to the log.
-/

namespace SystemTestSuite.Dm2

open Library

structure TestSuite where
  name : String
  tests : Option (List String)

def suites : List TestSuite :=
  [⟨"Menu", some ["Version", "NOR Flash"]⟩, ⟨"LCM", some ["RGB", "PWM"]⟩,
    ⟨"BlueTooth", some ["On", "Scan"]⟩, ⟨"Motion", some ["Test"]⟩, ⟨"Mac", some ["Wifi", "GSM"]⟩,
    ⟨"Audio", some ["Receiver", "Speaker", "Mic->Earphone", "EarMic->Speaker"]⟩,
    ⟨"PMU", some ["Battery", "HDQ"]⟩, ⟨"DM1.5", some ["Suspend", "ON"]⟩,
    ⟨"Key", some ["911 Key", "Power Key"]⟩, ⟨"Vibrator", some ["ON"]⟩, ⟨"RTC", some ["Read RTC"]⟩,
    ⟨"GPS", some ["External", "Internal"]⟩, ⟨"GSM ", some ["Dial Out"]⟩,
    ⟨"WiFi", some ["Transmit"]⟩, ⟨"CN", some ["CN"]⟩, ⟨"DM2", some ["ON", "DL Final Image"]⟩]

abbrev Logs := ℕ → ℕ → Option String

structure Record where
  suite : ℕ
  test : ℕ
  result : Bool
  log : Option String

inductive FlowAct where
  | selected (suite : ℕ)
  | ran (suite test : ℕ)
  | pressed (result : Bool)
  deriving DecidableEq, Repr

/-- `none` is the -1 of `active_suite` and `active_test`. `shown` says whether the buttons of a
suite are on the screen and `file` is what has been written to the log; `records` and `trace` record
what `save_item_result` was called for and what has been done. -/
structure Flow where
  activeSuite : Option ℕ
  activeTest : Option ℕ
  result : ℕ → ℕ → Bool
  log : Logs
  shown : ℕ → Bool
  file : String
  records : List Record
  trace : List FlowAct

/-- The suites of a build, and what the function of a test, started while `active_test` still
stands at another one, leaves in the `log` fields. -/
structure Build where
  suites : List TestSuite
  func : ℕ → ℕ → Option ℕ → Logs → Logs

variable {B : Build}

def Build.tests (B : Build) (i : ℕ) : Option (List String) := B.suites[i]?.bind TestSuite.tests

def itemName (B : Build) (i j : ℕ) : String := ((B.tests i).bind (·[j]?)).getD ""

def Record.text (B : Build) (r : Record) : String :=
  "\n----------Start Test----------\n" ++
    "\nModule :" ++ (B.suites[r.suite]?.map TestSuite.name).getD "" ++ "\n" ++
    "\nItem Name: " ++ itemName B r.suite r.test ++
    "\nResult : " ++ (if r.result then "Pass" else "Fail") ++ "\n" ++
    (match r.log with
    | some log => "\nLog : " ++ log ++ "\n"
    | none => "") ++
    "\nEOF\n"

def saveItemResult (B : Build) (s : Flow) (i j : ℕ) : Flow :=
  let r : Record := ⟨i, j, s.result i j, s.log i j⟩
  { s with file := s.file ++ r.text B, records := s.records ++ [r] }

def onPopupSelect (s : Flow) (selected : ℕ) : Flow :=
  if some selected = s.activeSuite then s
  else
    { s with
      shown := fun i => i = selected || (some i ≠ s.activeSuite && s.shown i)
      activeSuite := some selected
      activeTest := none
      trace := s.trace ++ [.selected selected] }

/-- The second component is what it returns. -/
def oltkPopupSetSelected (B : Build) (s : Flow) (selected : ℕ) : Flow × Bool :=
  if selected ≥ B.suites.length then (s, false) else (onPopupSelect s selected, true)

def setActiveTest (B : Build) (s : Flow) (i j : ℕ) : Flow :=
  match s.activeSuite.bind B.tests with
  | none => { s with activeTest := none }
  | some _ => if s.activeSuite = some i then { s with activeTest := some j } else s

def onTestByFunction (B : Build) (s : Flow) (i j : ℕ) : Flow :=
  setActiveTest B { s with
    log := B.func i j s.activeTest s.log
    trace := s.trace ++ [.ran i j] } i j

/-- The second half of `next_test`. `on_log` starts the web server and shows a text: nothing of
the flow changes. -/
def moveOn (B : Build) (s : Flow) (i : ℕ) : Flow :=
  let next := (s.activeTest.map (· + 1)).getD 0
  if ((B.tests i).bind (·[next]?)) = none then (oltkPopupSetSelected B s (i + 1)).1
  else onTestByFunction B { s with activeTest := some next } i next

def nextTest (B : Build) (s : Flow) : Flow :=
  match s.activeSuite with
  | none => s
  | some i =>
    match s.activeTest with
    | some j => moveOn B (if B.tests i = none then s else saveItemResult B s i j) i
    | none => moveOn B s i

def onVerdict (B : Build) (s : Flow) (result : Bool) : Flow :=
  let s := { s with trace := s.trace ++ [FlowAct.pressed result] }
  match s.activeSuite, s.activeTest with
  | some i, some j =>
    if B.tests i = none then nextTest B s
    else nextTest B { s with
      result := fun i' j' => if i' = i ∧ j' = j then result else s.result i' j' }
  | _, _ => nextTest B s

def onPass (B : Build) (s : Flow) : Flow := onVerdict B s true

def onFail (B : Build) (s : Flow) : Flow := onVerdict B s false

def setupPopup (B : Build) (log : Logs) : Flow :=
  (oltkPopupSetSelected B ⟨none, none, fun _ _ => false, log, fun _ => false, "", [], []⟩ 0).1

inductive FlowEvent where
  | pass
  | fail
  | tap (suite test : ℕ)
  | select (suite : ℕ)
  deriving DecidableEq, Repr

def flowEnabled (B : Build) (s : Flow) : FlowEvent → Prop
  | .pass | .fail => True
  | .tap i j => s.shown i = true ∧ j < ((B.tests i).getD []).length
  | .select i => i < B.suites.length

def flowNext (B : Build) (s : Flow) : FlowEvent → Flow
  | .pass => onPass B s
  | .fail => onFail B s
  | .tap i j => onTestByFunction B s i j
  | .select i => (oltkPopupSetSelected B s i).1

def flowMachine (B : Build) : Machine Flow FlowEvent where
  start s := B.suites ≠ [] ∧ ∃ log, s = setupPopup B log
  enabled := flowEnabled B
  next := flowNext B

/-- The test that has run since its suite was selected and still waits for a verdict. -/
def owed : List FlowAct → Option (ℕ × ℕ) → Option (ℕ × ℕ)
  | [], test => test
  | .selected _ :: acts, _ => owed acts none
  | .ran i j :: acts, _ => owed acts (some (i, j))
  | .pressed _ :: acts, _ => owed acts none

def verdicts : List FlowAct → Option (ℕ × ℕ) → List (ℕ × ℕ × Bool)
  | [], _ => []
  | .selected _ :: acts, _ => verdicts acts none
  | .ran i j :: acts, _ => verdicts acts (some (i, j))
  | .pressed result :: acts, test =>
    (test.map (fun t => (t.1, t.2, result))).toList ++ verdicts acts none

def recordsText (B : Build) (records : List Record) : String :=
  (records.map (Record.text B)).foldl (· ++ ·) ""

structure LogIntact (B : Build) (s : Flow) : Prop where
  file : s.file = recordsText B s.records
  verdicts : s.records.map (fun r => (r.suite, r.test, r.result)) = verdicts s.trace none

def AtEnd (B : Build) (s : Flow) : Prop :=
  ∃ i j, s.activeSuite = some i ∧ s.activeTest = some j ∧ i + 1 = B.suites.length ∧
    j + 1 = ((B.tests i).getD []).length

/-- At the end of the list no verdict is pressed without a test having run since the last one. -/
def JudgesOnce (B : Build) (s : Flow) : FlowEvent → Prop
  | .pass | .fail => AtEnd B s → owed s.trace none ≠ none
  | .tap _ _ | .select _ => True

theorem owed_append (acts acts' : List FlowAct) (test : Option (ℕ × ℕ)) :
    owed (acts ++ acts') test = owed acts' (owed acts test) := by
  induction acts generalizing test with
  | nil => rfl
  | cons act acts ih => cases act <;> exact ih _

theorem verdicts_append (acts acts' : List FlowAct) (test : Option (ℕ × ℕ)) :
    verdicts (acts ++ acts') test = verdicts acts test ++ verdicts acts' (owed acts test) := by
  induction acts generalizing test with
  | nil => rfl
  | cons act acts ih =>
    cases act with
    | selected i => exact ih _
    | ran i j => exact ih _
    | pressed result =>
      rw [List.cons_append, verdicts, ih, verdicts, List.append_assoc, owed]

theorem intact_quiet {s s' : Flow} (h : LogIntact B s) (hfile : s'.file = s.file)
    (hrecords : s'.records = s.records) (htrace : verdicts s'.trace none = verdicts s.trace none) :
    LogIntact B s' :=
  ⟨by rw [hfile, hrecords, h.file], by rw [hrecords, htrace, h.verdicts]⟩

structure Standing (B : Build) (s : Flow) (i : ℕ) : Prop where
  active : s.activeSuite = some i
  inside : i < B.suites.length
  shown : ∀ k, s.shown k = true ↔ k = i
  test : ∀ j, s.activeTest = some j → j < ((B.tests i).getD []).length
  intact : LogIntact B s

structure FlowInv (B : Build) (s : Flow) (i : ℕ) : Prop extends Standing B s i where
  untested : s.activeTest = none → owed s.trace none = none
  tested : ∀ j, s.activeTest = some j →
    owed s.trace none = some (i, j) ∨ owed s.trace none = none ∧ AtEnd B s

theorem flowInv_select {s : Flow} {i k : ℕ} (h : FlowInv B s i) (hk : k < B.suites.length) :
    ∃ i', FlowInv B (onPopupSelect s k) i' := by
  unfold onPopupSelect
  split_ifs with hsame
  · exact ⟨i, h⟩
  · refine ⟨k, ⟨rfl, hk, ?_, by simp, ?_⟩, ?_, by simp⟩
    · intro l
      simp [h.active, h.shown l]
    · exact intact_quiet h.intact rfl rfl (by simp [verdicts_append, verdicts])
    · intro _
      rw [owed_append]
      rfl

theorem tests_of_lt {i j : ℕ} (hj : j < ((B.tests i).getD []).length) :
    ∃ tests, B.tests i = some tests ∧ j < tests.length := by
  cases htests : B.tests i with
  | none => simp [htests] at hj
  | some tests => exact ⟨tests, rfl, by simpa [htests] using hj⟩

theorem onTestByFunction_active {s : Flow} {i : ℕ} (hs : s.activeSuite = some i) {j : ℕ}
    (hj : j < ((B.tests i).getD []).length) :
    onTestByFunction B s i j = { s with
      log := B.func i j s.activeTest s.log
      trace := s.trace ++ [.ran i j]
      activeTest := some j } := by
  obtain ⟨tests, htests, -⟩ := tests_of_lt hj
  simp [onTestByFunction, setActiveTest, hs, htests]

theorem flowInv_run {s : Flow} {i : ℕ} (h : Standing B s i) {j : ℕ}
    (hj : j < ((B.tests i).getD []).length) : FlowInv B (onTestByFunction B s i j) i := by
  rw [onTestByFunction_active h.active hj]
  refine ⟨⟨h.active, h.inside, h.shown, ?_, ?_⟩, by simp, ?_⟩
  · intro j' hj'
    rwa [← Option.some.inj hj']
  · exact intact_quiet h.intact rfl rfl (by simp [verdicts_append, verdicts])
  · intro j' hj'
    rw [owed_append, ← Option.some.inj hj']
    exact Or.inl rfl

theorem nextTest_untested {s : Flow} {i : ℕ} (hs : s.activeSuite = some i)
    (ht : s.activeTest = none) : nextTest B s = moveOn B s i := by
  simp only [nextTest, hs, ht]

theorem nextTest_tested {s : Flow} {i j : ℕ} (hs : s.activeSuite = some i)
    (ht : s.activeTest = some j) (hj : j < ((B.tests i).getD []).length) :
    nextTest B s = moveOn B (saveItemResult B s i j) i := by
  obtain ⟨tests, htests, -⟩ := tests_of_lt hj
  simp only [nextTest, hs, ht]
  rw [if_neg (by simp [htests])]

theorem flowInv_moveOn {s : Flow} {i : ℕ} (h : Standing B s i) (howed : owed s.trace none = none) :
    ∃ i', FlowInv B (moveOn B s i) i' := by
  unfold moveOn
  dsimp only
  split_ifs with hlast
  · unfold oltkPopupSetSelected
    split_ifs with hend
    · refine ⟨i, h, fun _ => howed, fun j hj => Or.inr ⟨howed, i, j, h.active, hj, ?_, ?_⟩⟩
      · have := h.inside
        omega
      · obtain ⟨tests, htests, hlt⟩ := tests_of_lt (h.test j hj)
        rw [show s.activeTest = some j from hj, htests] at hlast
        rw [htests]
        simp only [Option.bind_some, Option.map_some, Option.getD_some,
          List.getElem?_eq_none_iff] at hlast ⊢
        omega
    · have hinv : FlowInv B { s with activeTest := none } i :=
        ⟨⟨h.active, h.inside, h.shown, by simp, intact_quiet h.intact rfl rfl rfl⟩, fun _ => howed,
          by simp⟩
      have hsel := flowInv_select hinv (Nat.not_le.mp hend)
      have hne : some (i + 1) ≠ s.activeSuite := by
        rw [h.active]
        simp
      unfold onPopupSelect at hsel ⊢
      rwa [if_neg hne] at hsel ⊢
  · obtain ⟨name, hname⟩ := Option.ne_none_iff_exists'.mp hlast
    obtain ⟨tests, htests, hname⟩ := Option.bind_eq_some_iff.mp hname
    have hnext : (s.activeTest.map (· + 1)).getD 0 < ((B.tests i).getD []).length := by
      rw [htests]
      exact (List.getElem?_eq_some_iff.mp hname).1
    have hstanding : Standing B
        { s with activeTest := some ((s.activeTest.map (· + 1)).getD 0) } i := by
      refine ⟨h.active, h.inside, h.shown, ?_, intact_quiet h.intact rfl rfl rfl⟩
      intro j hj
      rwa [← Option.some.inj hj]
    exact ⟨i, flowInv_run hstanding hnext⟩

def judged (B : Build) (s : Flow) (i j : ℕ) (result : Bool) : Flow :=
  saveItemResult B { s with
    trace := s.trace ++ [.pressed result]
    result := fun i' j' => if i' = i ∧ j' = j then result else s.result i' j' } i j

theorem onVerdict_untested {s : Flow} {i : ℕ} (hs : s.activeSuite = some i)
    (ht : s.activeTest = none) (result : Bool) :
    onVerdict B s result = moveOn B { s with trace := s.trace ++ [.pressed result] } i := by
  unfold onVerdict
  dsimp only
  split
  · rename_i _ htested
    cases ht.symm.trans htested
  · exact nextTest_untested hs ht

theorem onVerdict_tested {s : Flow} {i j : ℕ} (hs : s.activeSuite = some i)
    (ht : s.activeTest = some j) (hj : j < ((B.tests i).getD []).length) (result : Bool) :
    onVerdict B s result = moveOn B (judged B s i j result) i := by
  obtain ⟨tests, htests, -⟩ := tests_of_lt hj
  unfold onVerdict
  dsimp only
  split
  · rename_i i' j' hs' ht'
    obtain rfl : i' = i := Option.some.inj (hs'.symm.trans hs)
    obtain rfl : j' = j := Option.some.inj (ht'.symm.trans ht)
    rw [if_neg (by simp [htests])]
    exact nextTest_tested hs ht hj
  · rename_i hnone
    exact absurd ht (hnone i j hs)

theorem judged_file {s : Flow} (i j : ℕ) (result : Bool)
    (h : s.file = recordsText B s.records) :
    (judged B s i j result).file = recordsText B (judged B s i j result).records := by
  simp [judged, saveItemResult, recordsText, h]

theorem judged_records (s : Flow) (i j : ℕ) (result : Bool) :
    (judged B s i j result).records.map (fun r => (r.suite, r.test, r.result)) =
      s.records.map (fun r => (r.suite, r.test, r.result)) ++ [(i, j, result)] := by
  simp [judged, saveItemResult]

theorem flowInv_verdict {s : Flow} {i : ℕ} (h : FlowInv B s i) {result : Bool}
    (hok : AtEnd B s → owed s.trace none ≠ none) : ∃ i', FlowInv B (onVerdict B s result) i' := by
  cases ht : s.activeTest with
  | none =>
    rw [onVerdict_untested h.active ht]
    have hpress : owed (s.trace ++ [.pressed result]) none = none := by
      rw [owed_append]
      rfl
    refine flowInv_moveOn ⟨h.active, h.inside, h.shown, h.test, ?_⟩ hpress
    exact intact_quiet h.intact rfl rfl (by simp [verdicts_append, verdicts, h.untested ht])
  | some j =>
    rw [onVerdict_tested h.active ht (h.test j ht)]
    have howed : owed s.trace none = some (i, j) := by
      rcases h.tested j ht with howed | ⟨hnone, hend⟩
      · exact howed
      · exact absurd hnone (hok hend)
    have hpress : owed (s.trace ++ [.pressed result]) none = none := by
      rw [owed_append]
      rfl
    refine flowInv_moveOn ⟨h.active, h.inside, h.shown, h.test, ?_⟩ hpress
    refine ⟨judged_file i j result h.intact.file, ?_⟩
    rw [judged_records, h.intact.verdicts]
    change _ = verdicts (s.trace ++ [.pressed result]) none
    rw [verdicts_append, howed]
    rfl

theorem verdict_repeated {s : Flow} {i : ℕ} (h : FlowInv B s i) {result : Bool}
    (hend : AtEnd B s) (howed : owed s.trace none = none) :
    ¬ LogIntact B (onVerdict B s result) := by
  obtain ⟨i', j, hi, hj, hlast, hlen⟩ := hend
  obtain rfl : i = i' := Option.some.inj (h.active.symm.trans hi)
  obtain ⟨tests, htests, -⟩ := tests_of_lt (h.test j hj)
  have hstop : onVerdict B s result = judged B s i j result := by
    have hnone : tests[j + 1]? = none := by
      rw [htests] at hlen
      exact List.getElem?_eq_none (Nat.le_of_eq hlen.symm)
    have htest : (judged B s i j result).activeTest = some j := hj
    rw [onVerdict_tested hi hj (h.test j hj), moveOn]
    simp [htest, htests, hnone, oltkPopupSetSelected, hlast]
  intro hintact
  have hverdicts := hintact.verdicts
  rw [hstop, judged_records, h.intact.verdicts] at hverdicts
  change _ = verdicts (s.trace ++ [.pressed result]) none at hverdicts
  rw [verdicts_append, howed] at hverdicts
  simp [verdicts] at hverdicts

theorem flowInv_next {s : Flow} {e : FlowEvent} (h : ∃ i, FlowInv B s i) (he : flowEnabled B s e)
    (hok : JudgesOnce B s e) : ∃ i, FlowInv B (flowNext B s e) i := by
  obtain ⟨i, h⟩ := h
  cases e with
  | pass => exact flowInv_verdict h hok
  | fail => exact flowInv_verdict h hok
  | tap i' j =>
    obtain rfl : i' = i := (h.shown i').mp he.1
    exact ⟨_, flowInv_run h.toStanding he.2⟩
  | select i' =>
    simp only [flowNext, oltkPopupSetSelected]
    rw [if_neg (Nat.not_le.mpr he)]
    exact flowInv_select h he

theorem flowInv_start {s : Flow} (h : (flowMachine B).start s) : ∃ i, FlowInv B s i := by
  obtain ⟨hne, log, rfl⟩ := h
  have hpos : 0 < B.suites.length := List.length_pos_of_ne_nil hne
  rw [setupPopup, oltkPopupSetSelected, if_neg (by omega)]
  refine ⟨0, ⟨rfl, hpos, ?_, by simp [onPopupSelect], ⟨rfl, rfl⟩⟩, fun _ => rfl, by simp [onPopupSelect]⟩
  intro k
  simp [onPopupSelect]

theorem repeated_breaks {s : Flow} {e : FlowEvent} (h : ∃ i, FlowInv B s i)
    (hbad : ¬ JudgesOnce B s e) : ¬ LogIntact B (flowNext B s e) := by
  obtain ⟨i, h⟩ := h
  cases e with
  | pass =>
    obtain ⟨hend, howed⟩ := Classical.not_imp.mp hbad
    exact verdict_repeated h hend (not_not.mp howed)
  | fail =>
    obtain ⟨hend, howed⟩ := Classical.not_imp.mp hbad
    exact verdict_repeated h hend (not_not.mp howed)
  | tap i' j => exact absurd trivial hbad
  | select i' => exact absurd trivial hbad

instance (s : Flow) : (e : FlowEvent) → Decidable ((flowMachine B).enabled s e)
  | .pass | .fail => .isTrue trivial
  | .tap _ _ => inferInstanceAs (Decidable (_ ∧ _))
  | .select _ => inferInstanceAs (Decidable (_ < _))

theorem logIntact_iff_judgesOnce {s t : Flow} {es : List FlowEvent} (hs : (flowMachine B).start s)
    (hrun : (flowMachine B).Run s es t) :
    (flowMachine B).Throughout (LogIntact B) s es ↔ (flowMachine B).RunWhile (JudgesOnce B) s es t :=
  Machine.Run.throughout_iff (I := fun s => ∃ i, FlowInv B s i)
    (fun _ _ h he hok => flowInv_next h he hok) (fun _ h => h.choose_spec.intact)
    (fun _ _ h _ hbad => repeated_breaks h hbad) hrun (flowInv_start hs)

def dm2 : Build := ⟨suites, fun _ _ _ log => log⟩

def dm2Start : Flow := setupPopup dm2 (fun _ _ => none)

theorem dm2Start_start : (flowMachine dm2).start dm2Start :=
  ⟨List.cons_ne_nil _ _, fun _ _ => none, rfl⟩

theorem logIntact_iff_judgesOnce_menu : (flowMachine dm2).Throughout (LogIntact dm2) dm2Start
    [.select 15, .tap 15 1, .fail, .select 1, .tap 1 0, .pass] := by
  have hinside : ∀ s : Flow, s.activeSuite ≠ some 15 → ¬ AtEnd dm2 s := by
    rintro s hs ⟨i, -, hi, -, hlast, -⟩
    have : i = 15 := Nat.succ.inj hlast
    exact hs (this ▸ hi)
  have hrun : (flowMachine dm2).RunWhile (JudgesOnce dm2) dm2Start
      [.select 15, .tap 15 1, .fail, .select 1, .tap 1 0, .pass] _ :=
    Machine.Checks.runWhile ⟨⟨by decide, trivial⟩, ⟨by decide, trivial⟩,
      ⟨trivial, fun _ => by decide⟩, ⟨by decide, trivial⟩, ⟨by decide, trivial⟩,
      ⟨trivial, fun h => absurd h (hinside _ (by decide))⟩, trivial⟩
  exact (logIntact_iff_judgesOnce dm2Start_start hrun.run).mpr hrun

theorem logIntact_repeated : (flowMachine dm2).start dm2Start ∧
    (∃ t, (flowMachine dm2).Run dm2Start [.select 15, .tap 15 1, .fail, .pass] t) ∧
    ¬ (flowMachine dm2).Throughout (LogIntact dm2) dm2Start [.select 15, .tap 15 1, .fail, .pass] := by
  refine ⟨dm2Start_start, ⟨_, Machine.Checks.runWhile (by decide)⟩, ?_⟩
  intro hthroughout
  have hlast := (hthroughout _ (List.prefix_refl _)).verdicts
  exact absurd hlast (by decide)

end SystemTestSuite.Dm2
