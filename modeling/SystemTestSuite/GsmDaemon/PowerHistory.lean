import SystemTestSuite.GsmDaemon.MlParse
import Mathlib.Data.List.DropRight

/-!
What decides the radio state: the power-down requests, and the answers to `AT+CFUN`, in the order in
which the daemon takes them.
-/

namespace SystemTestSuite.GsmDaemon

/-- `ret` is the error number of the answer and `err` its kind, as `ml_parse` takes them. The daemon
sends an `AT+CFUN` of its own when it starts, for which there is no `client`. -/
inductive PowerAct
  | powerdown
  | answered (on client : Bool) (ret : Option ℤ) (err : Option FinalError)
  deriving DecidableEq

/-- What the modem was told by an `AT+CFUN` that it has answered OK. -/
def PowerAct.told : PowerAct → Option Bool
  | .powerdown => none
  | .answered on _ ret err => if ret = some 0 ∧ err = none then some on else none

/-- `phone_powerup_cb` takes any answer with the number 0 for a success. -/
def PowerAct.Raises (act : PowerAct) : Prop := ∃ err, act = .answered true true (some 0) err

def radioNext (on : Bool) : PowerAct → Bool
  | .powerdown => false
  | .answered true true ret _ => on || ret = some 0
  | .answered _ _ _ _ => on

def radioState (acts : List PowerAct) : Bool := acts.foldl radioNext false

def lastOkNext (last : Option Bool) (act : PowerAct) : Option Bool := act.told.or last

def lastOk (acts : List PowerAct) : Option Bool := acts.foldl lastOkNext none

def sincePowerup (acts : List PowerAct) : List PowerAct :=
  acts.rtakeWhile (·.told ≠ some true)

def sincePowerdown (acts : List PowerAct) : List PowerAct :=
  acts.rtakeWhile (· ≠ .powerdown)

/-- A client's `AT+CFUN=1` has ended with the number 0, and no power-down was asked for since. -/
def RaisedSince (acts : List PowerAct) : Prop := ∃ act ∈ sincePowerdown acts, act.Raises

/-- Behind the last `AT+CFUN=1` that the modem has answered OK, it answers an `AT+CFUN=0` OK just when
no client's `AT+CFUN=1` has ended with the number 0 since a power-down was last asked for. -/
def PowerOrdered (acts : List PowerAct) : Prop :=
  if ∃ act ∈ acts, act.told = some true then
    (∃ act ∈ sincePowerup acts, act.told = some false) ↔ ¬ RaisedSince acts
  else ¬ RaisedSince acts

variable {acts : List PowerAct} {act : PowerAct}

theorem sincePowerup_told (acts : List PowerAct) (h : act.told = some true) :
    sincePowerup (acts ++ [act]) = [] := by
  rw [sincePowerup, List.rtakeWhile_concat, if_neg (by simpa using h)]

theorem sincePowerup_append (acts : List PowerAct) (h : act.told ≠ some true) :
    sincePowerup (acts ++ [act]) = sincePowerup acts ++ [act] := by
  rw [sincePowerup, List.rtakeWhile_concat, if_pos (by simpa using h)]
  rfl

theorem lastOk_iff : lastOk acts = some true ↔ (∃ act ∈ acts, act.told = some true) ∧
    ¬ ∃ act ∈ sincePowerup acts, act.told = some false := by
  induction acts using List.reverseRecOn with
  | nil => simp [lastOk]
  | append_singleton acts act ih =>
    have hlast : lastOk (acts ++ [act]) = act.told.or (lastOk acts) := by
      rw [lastOk, List.foldl_append]
      rfl
    rw [hlast]
    cases htold : act.told with
    | none =>
      rw [Option.none_or, ih, sincePowerup_append acts (by rw [htold]; exact nofun)]
      simp [htold]
    | some on =>
      cases on with
      | false =>
        rw [sincePowerup_append acts (by rw [htold]; decide)]
        simp [htold]
      | true =>
        rw [sincePowerup_told acts htold]
        simp [htold]

theorem radioState_append (acts : List PowerAct) (act : PowerAct) :
    radioState (acts ++ [act]) = radioNext (radioState acts) act := by
  rw [radioState, List.foldl_append]
  rfl

theorem raisedSince_append (acts : List PowerAct) (act : PowerAct) :
    RaisedSince (acts ++ [act]) ↔ act ≠ .powerdown ∧ (RaisedSince acts ∨ act.Raises) := by
  unfold RaisedSince sincePowerdown
  rw [List.rtakeWhile_concat]
  by_cases hdown : act = .powerdown
  · simp [hdown]
  · simp only [hdown, ne_eq, not_false_eq_true, decide_true, if_true, List.mem_append,
      List.mem_singleton, or_and_right, exists_or, exists_eq_left, true_and]

theorem radioNext_iff (radio : Bool) (act : PowerAct) :
    radioNext radio act = true ↔ act ≠ .powerdown ∧ (radio = true ∨ act.Raises) := by
  cases act with
  | powerdown => simp [radioNext]
  | answered on client ret err => cases on <;> cases client <;> simp [radioNext, PowerAct.Raises]

theorem radioState_iff : radioState acts = true ↔ RaisedSince acts := by
  induction acts using List.reverseRecOn with
  | nil => simp [radioState, RaisedSince, sincePowerdown]
  | append_singleton acts act ih => rw [radioState_append, radioNext_iff, raisedSince_append, ih]

theorem radioState_iff_powerOrdered :
    (radioState acts = true ↔ lastOk acts = some true) ↔ PowerOrdered acts := by
  rw [radioState_iff, lastOk_iff, PowerOrdered]
  split_ifs with h
  · rw [and_iff_right h, iff_not_comm]
  · exact ⟨fun hiff hraised => h (hiff.mp hraised).1, fun hno => iff_of_false hno fun hok => h hok.1⟩

end SystemTestSuite.GsmDaemon
