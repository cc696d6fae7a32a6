import Mathlib.Data.List.Basic
import Mathlib.Algebra.Group.Int.Defs
import Mathlib.Algebra.Group.Nat.Defs
import Mathlib.Tactic.SplitIfs

/-!
The timers of `gsmd/timer.c`. `time_t` and `long` have 32 bits.
-/

namespace SystemTestSuite.GsmDaemon

structure Timeval where
  sec : ℤ
  usec : ℤ
  deriving DecidableEq, Repr

structure Clock extends Timeval where
  sec_nonneg : 0 ≤ sec
  sec_lt : sec < 2 ^ 31
  usec_nonneg : 0 ≤ usec
  usec_lt : usec < 1000000

structure Delay extends Timeval where
  sec_ge : -2 ^ 31 ≤ sec
  sec_lt : sec < 2 ^ 31
  usec_nonneg : 0 ≤ usec
  usec_lt : usec < 1000000

def Timeval.micros (t : Timeval) : ℤ := t.sec * 1000000 + t.usec

def wrap32 (z : ℤ) : ℤ := Int.bmod z (2 ^ 32)

def borrow (res : Timeval) : Timeval :=
  if res.usec < 0 then borrow ⟨wrap32 (res.sec - 1), res.usec + 1000000⟩ else res
termination_by (-res.usec).toNat

def tvSub (src sub : Timeval) : Timeval :=
  borrow ⟨wrap32 (src.sec - sub.sec), wrap32 (src.usec - sub.usec)⟩

def tvLater (expires now : Timeval) : Bool :=
  if expires.sec < now.sec then false
  else if expires.sec > now.sec then true
  else expires.usec ≥ now.usec

def tvSmaller (t1 t2 : Timeval) : Bool := tvLater t2 t1

/-- A timer as it was registered: `serial` tells the registrations apart, `since` is the clock and
`delay` what `expires` held before. -/
structure GsmdTimer where
  serial : ℕ
  since : Clock
  delay : Delay

def expiresAt (since : Clock) (delay : Delay) : Timeval :=
  ⟨wrap32 (delay.sec + since.sec), wrap32 (delay.usec + since.usec)⟩

def GsmdTimer.expires (t : GsmdTimer) : Timeval := expiresAt t.since t.delay

structure Alarm where
  value : Timeval
  since : Clock

/-- `gsmd_timer_check_n_run` at work: `next` is the timer `cur2`, `none` when that is the head. -/
structure CheckLoop where
  now : Clock
  next : Option ℕ
  inCallback : Bool

/-- `ran` are the timers whose callbacks were called, `asked` the values `setitimer` was called with.
`lost` is set when the loop goes on from a timer that is not on the list any more. -/
structure GsmdTimers where
  timers : List GsmdTimer
  loop : Option CheckLoop
  lost : Bool
  serial : ℕ
  ran : List GsmdTimer
  asked : List Timeval
  alarm : Option Alarm

namespace GsmdTimers

/-- The kernel refuses a value that is negative or not normalised. -/
def setitimer (s : GsmdTimers) (value : Timeval) (now : Clock) : GsmdTimers :=
  let s := { s with asked := s.asked ++ [value] }
  if 0 ≤ value.sec ∧ 0 ≤ value.usec ∧ value.usec < 1000000 then
    { s with alarm := some ⟨value, now⟩ }
  else s

def minExpires (min : Timeval) (timers : List GsmdTimer) : Timeval :=
  timers.foldl (fun min cur => if tvSmaller cur.expires min then cur.expires else min) min

/-- `tv_sub` never returns a negative value, so the branch with `retry` is not taken. -/
def calcNextExpiration (s : GsmdTimers) (now : Clock) : GsmdTimers :=
  match s.timers with
  | [] => s
  | first :: _ => s.setitimer (tvSub (minExpires first.expires s.timers) now.toTimeval) now

/-- The clock is read once for `expires` and once more in `calc_next_expiration`. -/
def gsmdTimerRegister (s : GsmdTimers) (delay : Delay) (since now : Clock) : GsmdTimers :=
  calcNextExpiration
    { s with
      timers := s.timers ++ [⟨s.serial, since, delay⟩]
      serial := s.serial + 1 }
    now

def gsmdTimerUnregister (s : GsmdTimers) (serial : ℕ) (now : Clock) : GsmdTimers :=
  calcNextExpiration { s with timers := s.timers.filter (·.serial ≠ serial) } now

def checkBegin (s : GsmdTimers) (now : Clock) : GsmdTimers :=
  { s with loop := some ⟨now, s.timers.head?.map (·.serial), false⟩ }

def checkVisit (s : GsmdTimers) (l : CheckLoop) (n : ℕ) : GsmdTimers :=
  match s.timers.dropWhile (·.serial ≠ n) with
  | [] => { s with loop := none, lost := true }
  | cur :: more =>
    let next := more.head?.map (·.serial)
    if tvLater l.now.toTimeval cur.expires then
      { s with
        timers := s.timers.filter (·.serial ≠ n)
        ran := s.ran ++ [cur]
        loop := some ⟨l.now, next, true⟩ }
    else { s with loop := some ⟨l.now, next, false⟩ }

def checkEnd (s : GsmdTimers) (now : Clock) : GsmdTimers :=
  calcNextExpiration { s with loop := none } now

end GsmdTimers

def GsmdTimer.expiry (t : GsmdTimer) : ℤ := t.since.micros + t.delay.micros

variable {t : GsmdTimer} {a b c : Timeval}

theorem wrap32_of_range {z : ℤ} (hlow : -2 ^ 31 ≤ z) (hhigh : z < 2 ^ 31) : wrap32 z = z := by
  unfold wrap32
  rw [Int.bmod_def]
  split_ifs <;> omega

theorem expires_usec (since : Clock) (delay : Delay) :
    (expiresAt since delay).usec = delay.usec + since.usec := by
  have := since.usec_nonneg
  have := since.usec_lt
  have := delay.usec_nonneg
  have := delay.usec_lt
  exact wrap32_of_range (by omega) (by omega)

theorem expires_sec (since : Clock) (delay : Delay) : (expiresAt since delay).sec =
    if delay.sec + since.sec < 2 ^ 31 then delay.sec + since.sec
    else delay.sec + since.sec - 2 ^ 32 := by
  have := since.sec_nonneg
  have := since.sec_lt
  have := delay.sec_ge
  have := delay.sec_lt
  change wrap32 _ = _
  unfold wrap32
  rw [Int.bmod_def]
  split_ifs <;> omega

theorem tvLater_iff : tvLater a b = true ↔ b.sec < a.sec ∨ b.sec = a.sec ∧ b.usec ≤ a.usec := by
  unfold tvLater
  split_ifs with hlt hgt
  · simp; omega
  · simp; omega
  · simp; omega

theorem tvLater_refl (a : Timeval) : tvLater a a = true := tvLater_iff.mpr (Or.inr ⟨rfl, Int.le_refl _⟩)

theorem tvLater_trans (hab : tvLater a b = true) (hbc : tvLater b c = true) :
    tvLater a c = true := by
  rw [tvLater_iff] at *
  omega

theorem tvLater_total (a b : Timeval) : tvLater a b = true ∨ tvLater b a = true := by
  rw [tvLater_iff, tvLater_iff]
  omega

theorem tvLater_antisymm (hab : tvLater a b = true) (hba : tvLater b a = true) : a = b := by
  rw [tvLater_iff] at *
  obtain ⟨asec, ausec⟩ := a
  obtain ⟨bsec, busec⟩ := b
  simp only [Timeval.mk.injEq]
  simp only at hab hba
  omega

namespace GsmdTimers

variable {s : GsmdTimers} {now : Clock}

theorem setitimer_asked (s : GsmdTimers) (value : Timeval) (now : Clock) :
    ∃ alarm, s.setitimer value now = { s with asked := s.asked ++ [value], alarm := alarm } := by
  unfold setitimer
  split_ifs
  · exact ⟨_, rfl⟩
  · exact ⟨s.alarm, rfl⟩

theorem calcNextExpiration_nil (h : s.timers = []) : s.calcNextExpiration now = s := by
  rw [calcNextExpiration, h]

theorem calcNextExpiration_cons {timers : List GsmdTimer} (h : s.timers = t :: timers) :
    s.calcNextExpiration now =
      s.setitimer (tvSub (minExpires t.expires s.timers) now.toTimeval) now := by
  rw [calcNextExpiration, h]

theorem calcNextExpiration_frame (s : GsmdTimers) (now : Clock) : ∃ asked alarm,
    s.calcNextExpiration now = { s with asked := asked, alarm := alarm } := by
  by_cases hnil : s.timers = []
  · exact ⟨s.asked, s.alarm, calcNextExpiration_nil hnil⟩
  · obtain ⟨t, timers, htimers⟩ := List.exists_cons_of_ne_nil hnil
    obtain ⟨alarm, halarm⟩ := s.setitimer_asked
      (tvSub (minExpires t.expires s.timers) now.toTimeval) now
    exact ⟨_, alarm, (calcNextExpiration_cons htimers).trans halarm⟩

end GsmdTimers

end SystemTestSuite.GsmDaemon
