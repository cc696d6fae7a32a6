import SystemTestSuite.Library.CString
import Mathlib.Data.Nat.Find

/-!
The motion sensor test of `tests-motion.c`: its sampling loop and its verdict.
-/

namespace SystemTestSuite.Dm2

open Library

def samplesNeeded : ℕ := 100

def badSamplesAllowed : ℕ := 2

def tolerance : ℤ := 200

inductive SensorSide
  | top | bot
  deriving DecidableEq

structure InputEvent where
  type : ℕ
  code : ℕ
  value : ℤ

/-- What `select` says of one device. When it is ready, `ev` is what the read leaves in `ev`. -/
inductive SelectOutcome
  | timeout
  | error
  | ready (ev : InputEvent)

/-- One turn of the loop: the second `select` is not asked when the first one is not ready. -/
structure SensorInput where
  top : SelectOutcome
  bot : SelectOutcome

structure SensorState where
  coords : SensorSide → ℕ → ℤ
  failValue : SensorSide → ℕ → ℤ
  seen : SensorSide → ℕ
  fail : SensorSide → ℕ
  updatesBeforeExit : ℤ

def coordsSize : ℕ := 3

def outOfTolerance (coords : ℕ → ℤ) : Bool :=
  coords 0 > tolerance || coords 0 < -tolerance || coords 1 > tolerance || coords 1 < -tolerance ||
    coords 2 > 1000 + tolerance || coords 2 < 1000 - tolerance

/-- The body of the loop for one sensor, up to its label; `none` is a store behind `coords`. -/
def takeSample (side : SensorSide) (s : SensorState) (ev : InputEvent) : Option SensorState :=
  if ev.type ≠ 2 then some s
  else if coordsSize ≤ ev.code then none
  else
    let s : SensorState := { s with
      coords := fun x i => if x = side ∧ i = ev.code then ev.value else s.coords x i }
    if ev.code ≠ 2 then some s
    else
      let s : SensorState := { s with
        seen := fun x => if x = side then s.seen x + 1 else s.seen x }
      if outOfTolerance (s.coords side) then
        some { s with
          fail := fun x => if x = side then s.fail x + 1 else s.fail x
          failValue := fun x i => if x = side then s.coords side i else s.failValue x i }
      else some s

/-- One turn; `continue` goes to the condition at the end, behind the decrement. -/
def sensorTurn (s : SensorState) (input : SensorInput) : Option SensorState :=
  match input.top with
  | .ready ev => do
    let s ← takeSample .top s ev
    match input.bot with
    | .ready ev =>
      let s ← takeSample .bot s ev
      some { s with updatesBeforeExit := s.updatesBeforeExit - 1 }
    | _ => some s
  | _ => some s

def sensorStart : SensorState where
  coords _ _ := 0
  failValue _ _ := 0
  seen _ := 0
  fail _ := 0
  updatesBeforeExit := samplesNeeded * 10

def sensorLoop (inputs : ℕ → SensorInput) (n : ℕ) : Option SensorState :=
  (List.range n).foldlM (fun s k => sensorTurn s (inputs k)) sensorStart

def EndsAfter (inputs : ℕ → SensorInput) (n : ℕ) (s : SensorState) : Prop :=
  1 ≤ n ∧ sensorLoop inputs n = some s ∧ s.updatesBeforeExit = 0 ∧
    ∀ m, 1 ≤ m → m < n → ∀ s' ∈ sensorLoop inputs m, s'.updatesBeforeExit ≠ 0

def axes (x y z : ℤ) : Bytes :=
  ascii "(X: " ++ printInt x ++ ascii ", Y: " ++ printInt y ++ ascii ", Z: " ++ printInt z ++ ascii ")\n"

def sensorName : SensorSide → Bytes
  | .top => ascii "Top"
  | .bot => ascii "Bot"

def sensorVerdict (s : SensorState) (side : SensorSide) : Bytes :=
  if s.seen side < samplesNeeded ∨ s.fail side ≥ badSamplesAllowed then
    sensorName side ++ ascii " sensor FAIL\n    (" ++ printInt (s.seen side) ++ [47] ++
      printInt samplesNeeded ++ ascii ", " ++ printInt (s.fail side) ++ [47] ++
        printInt badSamplesAllowed ++ ascii ")\n    " ++
          axes (s.failValue side 0) (s.failValue side 1) (s.failValue side 2)
  else
    sensorName side ++ ascii " sensor PASS\n" ++
      axes (s.coords side 0) (s.coords side 1) (s.coords side 2)

def sensorReport (s : SensorState) : Bytes :=
  sensorVerdict s .top ++ [10] ++ sensorVerdict s .bot

/-- The loop ends within its turns, and a sensor with too few samples is reported. -/
def SensorTestEnds (inputs : ℕ → SensorInput) : Prop :=
  ∃ n ≤ samplesNeeded * 10, ∃ s, EndsAfter inputs n s ∧
    ∀ side, s.seen side < samplesNeeded → sensorName side ++ ascii " sensor FAIL\n" <:+: sensorReport s

def SensorInput.completes : SensorInput → Bool
  | ⟨.ready _, .ready _⟩ => true
  | _ => false

def InputEvent.fits (ev : InputEvent) : Bool := ev.type ≠ 2 ∨ ev.code < coordsSize

def SensorInput.fits : SensorInput → Bool
  | ⟨.ready ev, .ready ev'⟩ => ev.fits && ev'.fits
  | ⟨.ready ev, _⟩ => ev.fits
  | _ => true

variable {inputs : ℕ → SensorInput} {n : ℕ}

theorem takeSample_updates (side : SensorSide) (s : SensorState) (ev : InputEvent) :
    (takeSample side s ev).map SensorState.updatesBeforeExit =
      if ev.fits then some s.updatesBeforeExit else none := by
  unfold takeSample InputEvent.fits
  by_cases htype : ev.type ≠ 2
  · simp [htype]
  · by_cases hcode : coordsSize ≤ ev.code
    · simp [htype, hcode]
    · dsimp only
      simp only [htype, hcode, not_le.mp hcode, if_false, or_true, decide_true, if_true]
      split_ifs <;> rfl

theorem takeSample_some {side : SensorSide} {ev : InputEvent} (h : ev.fits = true) (s : SensorState) :
    ∃ s', takeSample side s ev = some s' ∧ s'.updatesBeforeExit = s.updatesBeforeExit := by
  have hupdates := takeSample_updates side s ev
  rw [if_pos h] at hupdates
  exact Option.map_eq_some_iff.mp hupdates

theorem takeSample_none {side : SensorSide} {ev : InputEvent} (h : ¬ ev.fits = true)
    (s : SensorState) : takeSample side s ev = none := by
  have hupdates := takeSample_updates side s ev
  rw [if_neg h] at hupdates
  exact Option.map_eq_none_iff.mp hupdates

theorem sensorTurn_some {input : SensorInput} (h : input.fits = true) (s : SensorState) :
    ∃ s', sensorTurn s input = some s' ∧
      s'.updatesBeforeExit = s.updatesBeforeExit - if input.completes then 1 else 0 := by
  obtain ⟨top, bot⟩ := input
  cases top with
  | timeout => exact ⟨s, rfl, (Int.sub_zero _).symm⟩
  | error => exact ⟨s, rfl, (Int.sub_zero _).symm⟩
  | ready ev =>
    have htop : ev.fits = true := by
      cases bot with
      | ready ev' => exact (Bool.and_eq_true_iff.mp h).1
      | _ => exact h
    obtain ⟨s', hs', hupdates⟩ := @takeSample_some .top ev htop s
    cases bot with
    | ready ev' =>
      obtain ⟨s'', hs'', hupdates'⟩ := @takeSample_some .bot ev' (Bool.and_eq_true_iff.mp h).2 s'
      refine ⟨{ s'' with updatesBeforeExit := s''.updatesBeforeExit - 1 }, ?_, ?_⟩
      · simp [sensorTurn, hs', hs'']
      · dsimp only
        rw [hupdates', hupdates]
        rfl
    | _ => exact ⟨s', by simp [sensorTurn, hs'], hupdates.trans (Int.sub_zero _).symm⟩

theorem sensorTurn_none {input : SensorInput} (h : ¬ input.fits = true) (s : SensorState) :
    sensorTurn s input = none := by
  obtain ⟨top, bot⟩ := input
  cases top with
  | timeout => exact absurd rfl h
  | error => exact absurd rfl h
  | ready ev =>
    by_cases htop : ev.fits = true
    · obtain ⟨s', hs', -⟩ := @takeSample_some .top ev htop s
      cases bot with
      | ready ev' =>
        have hbot : ¬ ev'.fits = true := fun hbot => h (Bool.and_eq_true_iff.mpr ⟨htop, hbot⟩)
        simp [sensorTurn, hs', takeSample_none hbot]
      | _ => exact absurd htop h
    · simp [sensorTurn, takeSample_none htop]

def completed (inputs : ℕ → SensorInput) (n : ℕ) : ℕ :=
  (List.range n).countP fun k => (inputs k).completes

theorem completed_succ (inputs : ℕ → SensorInput) (n : ℕ) :
    completed inputs (n + 1) = completed inputs n + if (inputs n).completes then 1 else 0 := by
  rw [completed, List.range_succ, List.countP_append, List.countP_singleton, completed]

theorem completed_le (inputs : ℕ → SensorInput) (n : ℕ) : completed inputs n ≤ n := by
  have hle := List.countP_le_length (p := fun k => (inputs k).completes) (l := List.range n)
  rwa [List.length_range] at hle

theorem sensorLoop_succ (inputs : ℕ → SensorInput) (n : ℕ) :
    sensorLoop inputs (n + 1) = (sensorLoop inputs n).bind fun s => sensorTurn s (inputs n) := by
  rw [sensorLoop, List.range_succ, List.foldlM_append, ← sensorLoop]
  simp

theorem sensorLoop_some (inputs : ℕ → SensorInput) (n : ℕ) :
    (∃ s, sensorLoop inputs n = some s) ↔ ∀ k < n, (inputs k).fits = true := by
  induction n with
  | zero => exact iff_of_true ⟨_, rfl⟩ fun _ hk => absurd hk (Nat.not_lt_zero _)
  | succ n ih =>
    rw [sensorLoop_succ, Nat.forall_lt_succ_right, ← ih]
    constructor
    · rintro ⟨s', hs'⟩
      obtain ⟨s, hs, hturn⟩ := Option.bind_eq_some_iff.mp hs'
      refine ⟨⟨s, hs⟩, ?_⟩
      by_contra hfits
      rw [sensorTurn_none hfits] at hturn
      cases hturn
    · rintro ⟨⟨s, hs⟩, hfits⟩
      obtain ⟨s', hs', -⟩ := sensorTurn_some hfits s
      exact ⟨s', by rw [hs, Option.bind_some, hs']⟩

theorem sensorLoop_updates {s : SensorState} (h : sensorLoop inputs n = some s) :
    s.updatesBeforeExit = samplesNeeded * 10 - completed inputs n := by
  induction n generalizing s with
  | zero =>
    obtain rfl := Option.some.inj h
    rfl
  | succ n ih =>
    have hfits := (sensorLoop_some inputs (n + 1)).mp ⟨s, h⟩ n (Nat.lt_succ_self n)
    rw [sensorLoop_succ] at h
    obtain ⟨s₀, hs₀, hturn⟩ := Option.bind_eq_some_iff.mp h
    obtain ⟨s', hs', hupdates⟩ := sensorTurn_some hfits s₀
    obtain rfl : s' = s := Option.some.inj (hs'.symm.trans hturn)
    rw [hupdates, ih hs₀, completed_succ]
    split_ifs <;> omega

theorem endsAfter_iff {s : SensorState} : EndsAfter inputs n s ↔
    1 ≤ n ∧ sensorLoop inputs n = some s ∧ completed inputs n = samplesNeeded * 10 ∧
      ∀ m, 1 ≤ m → m < n → completed inputs m ≠ samplesNeeded * 10 := by
  have hzero {m : ℕ} {s : SensorState} (h : sensorLoop inputs m = some s) :
      s.updatesBeforeExit = 0 ↔ completed inputs m = samplesNeeded * 10 := by
    rw [sensorLoop_updates h]
    omega
  unfold EndsAfter
  refine and_congr_right fun _ => and_congr_right fun hs => ?_
  rw [hzero hs]
  refine and_congr_right fun _ => ?_
  have hfits := (sensorLoop_some inputs n).mp ⟨s, hs⟩
  constructor
  · intro h m hone hm
    obtain ⟨s', hs'⟩ := (sensorLoop_some inputs m).mpr fun k hk => hfits k (hk.trans hm)
    exact fun hcount => h m hone hm s' hs' ((hzero hs').mpr hcount)
  · exact fun h m hone hm s' hs' hend => h m hone hm ((hzero hs').mp hend)

theorem completed_eq_iff (n : ℕ) :
    completed inputs n = n ↔ ∀ k < n, (inputs k).completes = true := by
  have hlen := List.countP_eq_length (p := fun k => (inputs k).completes) (l := List.range n)
  rw [List.length_range] at hlen
  rw [completed, hlen]
  simp only [List.mem_range]

theorem sensorTest_returns_iff : (∃ n s, EndsAfter inputs n s) ↔
    ∃ n, completed inputs n = samplesNeeded * 10 ∧ ∀ k < n, (inputs k).fits = true := by
  constructor
  · rintro ⟨n, s, hn⟩
    obtain ⟨-, hs, hcount, -⟩ := endsAfter_iff.mp hn
    exact ⟨n, hcount, (sensorLoop_some inputs n).mp ⟨s, hs⟩⟩
  · rintro ⟨n, hcount, hfits⟩
    have hfirst : ∃ m, completed inputs m = samplesNeeded * 10 := ⟨n, hcount⟩
    have hbefore : Nat.find hfirst ≤ n := Nat.find_min' hfirst hcount
    obtain ⟨s, hs⟩ := (sensorLoop_some inputs (Nat.find hfirst)).mpr fun k hk =>
      hfits k (hk.trans_le hbefore)
    refine ⟨Nat.find hfirst, s, endsAfter_iff.mpr ⟨?_, hs, Nat.find_spec hfirst,
      fun m _ hm => Nat.find_min hfirst hm⟩⟩
    have hle := completed_le inputs (Nat.find hfirst)
    rw [Nat.find_spec hfirst] at hle
    exact Nat.le_trans (by decide) hle

theorem sensorReport_fails (s : SensorState) {side : SensorSide} (h : s.seen side < samplesNeeded) :
    sensorName side ++ ascii " sensor FAIL\n" <:+: sensorReport s := by
  have hverdict : sensorName side ++ ascii " sensor FAIL\n" <+: sensorVerdict s side := by
    have hsplit : ascii " sensor FAIL\n    (" = ascii " sensor FAIL\n" ++ ascii "    (" := rfl
    rw [sensorVerdict, if_pos (Or.inl h), hsplit]
    simp only [List.append_assoc]
    rw [← List.append_assoc (sensorName side)]
    exact List.prefix_append _ _
  cases side with
  | top =>
    have htop : sensorVerdict s .top <:+: sensorVerdict s .top ++ [10] := (List.prefix_append _ _).isInfix
    exact (hverdict.isInfix.trans htop).trans (List.prefix_append _ _).isInfix
  | bot => exact hverdict.isInfix.trans (List.suffix_append _ _).isInfix

theorem sensorTestEnds_iff (inputs : ℕ → SensorInput) : SensorTestEnds inputs ↔
    ∀ k < samplesNeeded * 10, (inputs k).completes = true ∧ (inputs k).fits = true := by
  have hsplit : (∀ k < samplesNeeded * 10, (inputs k).completes = true ∧ (inputs k).fits = true) ↔
      completed inputs (samplesNeeded * 10) = samplesNeeded * 10 ∧
        ∀ k < samplesNeeded * 10, (inputs k).fits = true := by
    rw [completed_eq_iff]
    exact forall₂_and
  rw [hsplit]
  constructor
  · rintro ⟨n, hn, s, hends, -⟩
    obtain ⟨-, hs, hcount, -⟩ := endsAfter_iff.mp hends
    have hle := completed_le inputs n
    obtain rfl : n = samplesNeeded * 10 := by omega
    exact ⟨hcount, (sensorLoop_some inputs _).mp ⟨s, hs⟩⟩
  · rintro ⟨hcount, hfits⟩
    obtain ⟨s, hs⟩ := (sensorLoop_some inputs _).mpr hfits
    refine ⟨samplesNeeded * 10, Nat.le_refl _, s, endsAfter_iff.mpr ⟨by decide, hs, hcount, ?_⟩,
      fun side hseen => sensorReport_fails _ hseen⟩
    intro m _ hm
    have hle := completed_le inputs m
    omega

def deadTop (_ : ℕ) : SensorInput := ⟨.timeout, .ready ⟨2, 2, 1000⟩⟩

theorem sensorTest_hangs : ¬ SensorTestEnds deadTop ∧ ¬ ∃ n s, EndsAfter deadTop n s := by
  have hnone : ¬ ∃ n s, EndsAfter deadTop n s := by
    rw [sensorTest_returns_iff]
    rintro ⟨n, hn, -⟩
    have hzero : completed deadTop n = 0 := by
      rw [completed, List.countP_eq_zero]
      intro k _
      exact Bool.false_ne_true
    rw [hzero] at hn
    exact absurd hn (by decide)
  exact ⟨fun ⟨n, _, s, hends, _⟩ => hnone ⟨n, s, hends⟩, hnone⟩

end SystemTestSuite.Dm2
