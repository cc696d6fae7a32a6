import SystemTestSuite.Dm2.Oltk
import SystemTestSuite.Library.Machine
import Mathlib.Data.List.FinRange
import Mathlib.Logic.Function.Basic

/-!
The buttons that the touch screen presses and clicks in `oltk/oltk.c`, through any samples and
calls.
-/

namespace SystemTestSuite.Dm2

open Library

/-- The buttons from the lowest one up; `callbacks` tells which have a callback for a click. -/
structure PressedOltk (n : ℕ) where
  zbuttons : Fin n → OltkButton
  callbacks : Fin n → Bool
  depressed : Option (Fin n)
  invalidRect : OltkRectangle

inductive ButtonCall where
  | show' (shows : ℤ)
  | sensitive (sensitive : ℤ)
  deriving DecidableEq, Repr

def oltkButtonSensitive (b : OltkButton) (sensitive : ℤ) : OltkButton :=
  { b with sensitive := sensitive }

def buttonHandled (b : OltkButton) (e : Sample) : Bool :=
  b.shows ≠ 0 && b.sensitive ≠ 0 && hasPoint b.rect e.x e.y

def buttonClicks (b : OltkButton) (e : Sample) : Bool :=
  buttonHandled b e && e.pressure = 0 && b.state = .active

/-- A call that is made between two samples, or by the callback of a click while `oltk_feed` runs. -/
inductive TouchEvent (n : ℕ) where
  | feed (e : Sample) (calls : List (Fin n × ButtonCall))
  | call (c : Fin n × ButtonCall)

namespace PressedOltk

variable {n : ℕ}

def setButton (s : PressedOltk n) (i : Fin n) (b : OltkButton) : PressedOltk n :=
  { s with zbuttons := Function.update s.zbuttons i b }

def call (s : PressedOltk n) (c : Fin n × ButtonCall) : PressedOltk n :=
  match c.2 with
  | .show' shows =>
    { s.setButton c.1 (oltkButtonShow s.invalidRect (s.zbuttons c.1) shows).2 with
      invalidRect := (oltkButtonShow s.invalidRect (s.zbuttons c.1) shows).1 }
  | .sensitive sensitive => s.setButton c.1 (oltkButtonSensitive (s.zbuttons c.1) sensitive)

def calls (s : PressedOltk n) (cs : List (Fin n × ButtonCall)) : PressedOltk n := cs.foldl call s

def handle (s : PressedOltk n) (i : Fin n) (e : Option Sample) : PressedOltk n :=
  s.setButton i (buttonHandle (s.zbuttons i) e)

def letGo (s : PressedOltk n) (i : Fin n) : PressedOltk n :=
  match s.depressed with
  | some d => if i ≠ d then s.handle d none else s
  | none => s

def feedLoop (e : Sample) (calls : List (Fin n × ButtonCall)) :
    List (Fin n) → PressedOltk n → PressedOltk n × Option (Fin n)
  | [], s => ({ s with depressed := none }, none)
  | i :: is, s =>
    let clicked := buttonClicks (s.zbuttons i) e && s.callbacks i
    let handled := s.handle i (some e)
    if buttonHandled (s.zbuttons i) e then
      let s := if clicked then handled.calls calls else handled
      let s := s.letGo i
      ({ s with depressed := if (s.zbuttons i).state = .active then some i else none },
        if clicked then some i else none)
    else feedLoop e calls is handled

def oltkFeed (s : PressedOltk n) (e : Sample) (calls : List (Fin n × ButtonCall)) :
    PressedOltk n × Option (Fin n) :=
  feedLoop e calls (List.finRange n).reverse s

def touchStep (s : PressedOltk n) : TouchEvent n → PressedOltk n × Option (Fin n)
  | .feed e calls => s.oltkFeed e calls
  | .call c => (s.call c, none)

def topButton (s : PressedOltk n) (e : Sample) : Option (Fin n) :=
  (List.finRange n).reverse.find? (fun i => buttonHandled (s.zbuttons i) e)

def Active (s : PressedOltk n) (i : Fin n) : Prop := (s.zbuttons i).state = .active

instance (s : PressedOltk n) (i : Fin n) : Decidable (s.Active i) :=
  inferInstanceAs (Decidable (_ = _))

end PressedOltk

/-- A run with the events so far, the last one first, and the click of the last one. -/
structure TouchRun (n : ℕ) where
  oltk : PressedOltk n
  past : List (TouchEvent n)
  clicked : Option (Fin n)

def touchMachine (n : ℕ) : Machine (TouchRun n) (TouchEvent n) where
  start r := (∀ i, (r.oltk.zbuttons i).state = .normal) ∧ r.oltk.depressed = none ∧ r.past = [] ∧
    r.clicked = none
  enabled _ _ := True
  next r ev := ⟨(r.oltk.touchStep ev).1, ev :: r.past, (r.oltk.touchStep ev).2⟩

def hides {n : ℕ} (i : Fin n) (c : Fin n × ButtonCall) : Bool := c = (i, .show' 0)

section

variable {n : ℕ}

inductive StillPressed (rect : OltkRectangle) (i : Fin n) : List (TouchEvent n) → Prop
  | press {e : Sample} {calls : List (Fin n × ButtonCall)} {past : List (TouchEvent n)} :
      e.pressure ≠ 0 → hasPoint rect e.x e.y = true → StillPressed rect i (.feed e calls :: past)
  | feed {e : Sample} {calls : List (Fin n × ButtonCall)} {past : List (TouchEvent n)} :
      StillPressed rect i past → hasPoint rect e.x e.y = true →
      (∀ c ∈ calls, hides i c = false) → StillPressed rect i (.feed e calls :: past)
  | call {c : Fin n × ButtonCall} {past : List (TouchEvent n)} :
      StillPressed rect i past → hides i c = false → StillPressed rect i (.call c :: past)

def ClickEarned (rect : OltkRectangle) (i : Fin n) : List (TouchEvent n) → Prop
  | .feed e _ :: past => e.pressure = 0 ∧ hasPoint rect e.x e.y = true ∧ StillPressed rect i past
  | _ => False

structure PressTracked (r : TouchRun n) : Prop where
  atMostOne : ∀ i j, r.oltk.Active i → r.oltk.Active j → i = j
  depressed : ∀ i, r.oltk.Active i → r.oltk.depressed = some i
  earned : ∀ i ∈ r.clicked, ClickEarned (r.oltk.zbuttons i).rect i r.past

def hiddenSince (i : Fin n) : List (TouchEvent n) → Bool
  | .call c :: past => hides i c || hiddenSince i past
  | _ => false

/-- A pressed button is shown and sensitive at each sample, and a release does not find it hidden
and shown again since the last sample. -/
def FeedAllowed (r : TouchRun n) : TouchEvent n → Prop
  | .call _ => True
  | .feed e _ =>
    (∀ i, r.oltk.Active i → (r.oltk.zbuttons i).shows ≠ 0 ∧ (r.oltk.zbuttons i).sensitive ≠ 0) ∧
      (e.pressure = 0 → ∀ i ∈ r.oltk.topButton e, r.oltk.Active i → r.oltk.callbacks i = true →
        hiddenSince i r.past = false)

end

namespace PressedOltk

variable {n : ℕ}

structure SamePress (s s' : PressedOltk n) : Prop where
  state : ∀ i, (s'.zbuttons i).state = (s.zbuttons i).state
  rect : ∀ i, (s'.zbuttons i).rect = (s.zbuttons i).rect
  depressed : s'.depressed = s.depressed
  callbacks : s'.callbacks = s.callbacks

theorem SamePress.refl (s : PressedOltk n) : s.SamePress s := ⟨fun _ => rfl, fun _ => rfl, rfl, rfl⟩

theorem SamePress.trans {s t u : PressedOltk n} (h : s.SamePress t) (k : t.SamePress u) :
    s.SamePress u :=
  ⟨fun i => (k.state i).trans (h.state i), fun i => (k.rect i).trans (h.rect i),
    k.depressed.trans h.depressed, k.callbacks.trans h.callbacks⟩

theorem samePress_setButton (s : PressedOltk n) {i : Fin n} {b : OltkButton}
    (hstate : b.state = (s.zbuttons i).state) (hrect : b.rect = (s.zbuttons i).rect) :
    s.SamePress (s.setButton i b) := by
  refine ⟨fun j => ?_, fun j => ?_, rfl, rfl⟩
  all_goals
    by_cases h : j = i
    · subst h
      simpa [setButton]
    · simp [setButton, h]

theorem samePress_call (s : PressedOltk n) (c : Fin n × ButtonCall) : s.SamePress (s.call c) := by
  obtain ⟨i, c⟩ := c
  cases c with
  | show' shows =>
    have hshow : (oltkButtonShow s.invalidRect (s.zbuttons i) shows).2.state = (s.zbuttons i).state ∧
        (oltkButtonShow s.invalidRect (s.zbuttons i) shows).2.rect = (s.zbuttons i).rect := by
      unfold oltkButtonShow
      split_ifs <;> exact ⟨rfl, rfl⟩
    have hset := s.samePress_setButton hshow.1 hshow.2
    exact ⟨hset.state, hset.rect, rfl, rfl⟩
  | sensitive v => exact s.samePress_setButton rfl rfl

theorem samePress_calls (s : PressedOltk n) (cs : List (Fin n × ButtonCall)) :
    s.SamePress (s.calls cs) := by
  induction cs generalizing s with
  | nil => exact SamePress.refl s
  | cons c cs ih => exact (s.samePress_call c).trans (ih _)

theorem buttonHandle_keeps (b : OltkButton) (e : Option Sample) :
    (buttonHandle b e).rect = b.rect ∧ (buttonHandle b e).shows = b.shows ∧
      (buttonHandle b e).sensitive = b.sensitive := by
  unfold buttonHandle
  split_ifs <;> exact ⟨rfl, rfl, rfl⟩

theorem buttonHandle_handled (b : OltkButton) (e : Option Sample) (e' : Sample) :
    buttonHandled (buttonHandle b e) e' = buttonHandled b e' := by
  obtain ⟨hrect, hshows, hsensitive⟩ := buttonHandle_keeps b e
  rw [buttonHandled, hrect, hshows, hsensitive, buttonHandled]

theorem buttonHandle_blocked {b : OltkButton} (h : b.shows = 0 ∨ b.sensitive = 0)
    (e : Option Sample) : buttonHandle b e = b := if_pos h

theorem buttonHandle_missed {b : OltkButton} (h : b.shows ≠ 0 ∧ b.sensitive ≠ 0)
    {e : Option Sample} (hmiss : ∀ e' ∈ e, buttonHandled b e' = false) :
    (buttonHandle b e).state = .normal := by
  cases e with
  | none => rw [buttonHandle, if_neg (not_or.mpr h)]
  | some e =>
    have hpoint : hasPoint b.rect e.x e.y = false := by simpa [buttonHandled, h] using hmiss e rfl
    rw [buttonHandle, if_neg (not_or.mpr h)]
    simp [hpoint]

theorem buttonHandle_inside {b : OltkButton} {e : Sample} (hin : buttonHandled b e = true) :
    (buttonHandle b (some e)).state = if e.pressure ≠ 0 then .active else .normal := by
  simp only [buttonHandled, ne_eq, Bool.and_eq_true, decide_not, Bool.not_eq_true',
    decide_eq_false_iff_not] at hin
  rw [buttonHandle, if_neg (not_or.mpr hin.1)]
  simp [hin.2]

theorem hasPoint_of_handled {b : OltkButton} {e : Sample} (hin : buttonHandled b e = true) :
    hasPoint b.rect e.x e.y = true := (Bool.and_eq_true_iff.mp hin).2

theorem not_blocked_of_handled {b : OltkButton} {e : Sample} (hin : buttonHandled b e = true) :
    ¬ (b.shows = 0 ∨ b.sensitive = 0) := by
  rintro (hzero | hzero)
  all_goals
    rw [buttonHandled, hzero] at hin
    simp at hin

theorem missed_none (b : OltkButton) : ∀ e ∈ (none : Option Sample), buttonHandled b e = false := by
  rintro e ⟨⟩

theorem missed_some {b : OltkButton} {e : Sample} (h : buttonHandled b e = false) :
    ∀ e' ∈ some e, buttonHandled b e' = false := by
  rintro e' ⟨⟩
  exact h

theorem handle_self (s : PressedOltk n) (i : Fin n) (e : Option Sample) :
    (s.handle i e).zbuttons i = buttonHandle (s.zbuttons i) e := by
  simp [handle, setButton]

theorem handle_ne (s : PressedOltk n) {i j : Fin n} (h : j ≠ i) (e : Option Sample) :
    (s.handle i e).zbuttons j = s.zbuttons j := by
  simp [handle, setButton, h]

theorem handle_blocked {s : PressedOltk n} {b : Fin n}
    (hblocked : (s.zbuttons b).shows = 0 ∨ (s.zbuttons b).sensitive = 0) (i : Fin n)
    (e : Option Sample) : (s.handle i e).zbuttons b = s.zbuttons b := by
  by_cases hib : b = i
  · subst hib
    rw [handle_self, buttonHandle_blocked hblocked]
  · exact handle_ne s hib e

theorem handle_rect (s : PressedOltk n) (i j : Fin n) (e : Option Sample) :
    ((s.handle i e).zbuttons j).rect = (s.zbuttons j).rect := by
  by_cases h : j = i
  · subst h
    rw [handle_self]
    exact (buttonHandle_keeps _ _).1
  · rw [handle_ne s h]

theorem handle_handled (s : PressedOltk n) (i j : Fin n) (e : Option Sample) (e' : Sample) :
    buttonHandled ((s.handle i e).zbuttons j) e' = buttonHandled (s.zbuttons j) e' := by
  by_cases h : j = i
  · subst h
    rw [handle_self, buttonHandle_handled]
  · rw [handle_ne s h]

theorem active_of_handle {s : PressedOltk n} {i j : Fin n} {e : Option Sample}
    (hmiss : ∀ e' ∈ e, buttonHandled (s.zbuttons i) e' = false) (h : (s.handle i e).Active j) :
    s.Active j ∧ (s.handle i e).zbuttons j = s.zbuttons j := by
  by_cases hj : j = i
  · subst hj
    have hsame : (s.handle j e).zbuttons j = s.zbuttons j := by
      rw [handle_self]
      by_cases hblocked : (s.zbuttons j).shows = 0 ∨ (s.zbuttons j).sensitive = 0
      · exact buttonHandle_blocked hblocked e
      · rw [Active, handle_self, buttonHandle_missed (not_or.mp hblocked) hmiss] at h
        cases h
    rw [Active, hsame] at h
    exact ⟨h, hsame⟩
  · have hsame := s.handle_ne hj e
    rw [Active, hsame] at h
    exact ⟨h, hsame⟩

theorem not_active_handle {s : PressedOltk n} {i : Fin n} {e : Option Sample}
    (hmiss : ∀ e' ∈ e, buttonHandled (s.zbuttons i) e' = false)
    (h : s.Active i → (s.zbuttons i).shows ≠ 0 ∧ (s.zbuttons i).sensitive ≠ 0) :
    ¬ (s.handle i e).Active i := by
  intro hactive
  obtain ⟨hbefore, -⟩ := active_of_handle hmiss hactive
  rw [Active, handle_self, buttonHandle_missed (h hbefore) hmiss] at hactive
  cases hactive

theorem letGo_depressed {t : PressedOltk n} {i j : Fin n} (hne : i ≠ j)
    (hdepressed : t.depressed = some j) : t.letGo i = t.handle j none := by
  simp only [letGo, hdepressed, if_pos hne]

theorem letGo_rect (t : PressedOltk n) (i j : Fin n) :
    ((t.letGo i).zbuttons j).rect = (t.zbuttons j).rect := by
  unfold letGo
  cases t.depressed with
  | none => rfl
  | some d =>
    dsimp only
    split_ifs
    · exact handle_rect t d j none
    · rfl

theorem active_of_letGo {t : PressedOltk n} {i j : Fin n} (h : (t.letGo i).Active j) :
    t.Active j := by
  unfold letGo at h
  cases hd : t.depressed with
  | none =>
    rw [hd] at h
    exact h
  | some d =>
    rw [hd] at h
    dsimp only at h
    split_ifs at h
    · exact (active_of_handle (missed_none _) h).1
    · exact h

variable {s : PressedOltk n} {e : Sample} {calls : List (Fin n × ButtonCall)}

theorem feedLoop_handled {i : Fin n} (calls : List (Fin n × ButtonCall)) (is : List (Fin n))
    (h : buttonHandled (s.zbuttons i) e = true) :
    ∃ t, (s.handle i (some e)).SamePress t ∧ (¬ s.Active i → t = s.handle i (some e)) ∧
      (feedLoop e calls (i :: is) s).1 =
        { t.letGo i with
          depressed := if ((t.letGo i).zbuttons i).state = .active then some i else none } := by
  rw [feedLoop, if_pos h]
  refine ⟨_, ?_, ?_, rfl⟩
  · split_ifs
    · exact samePress_calls _ _
    · exact SamePress.refl _
  · intro hidle
    have hclick : buttonClicks (s.zbuttons i) e = false := by
      simp only [Active] at hidle
      simp [buttonClicks, hidle]
    rw [hclick]
    rfl

theorem feedLoop_missed {i : Fin n} (is : List (Fin n))
    (h : buttonHandled (s.zbuttons i) e = false) :
    feedLoop e calls (i :: is) s = feedLoop e calls is (s.handle i (some e)) := by
  rw [feedLoop, h]
  rfl

theorem feedLoop_rect (is : List (Fin n)) (s : PressedOltk n) (j : Fin n) :
    ((feedLoop e calls is s).1.zbuttons j).rect = (s.zbuttons j).rect := by
  induction is generalizing s with
  | nil => rfl
  | cons i is ih =>
    cases h : buttonHandled (s.zbuttons i) e with
    | true =>
      obtain ⟨t, hsame, -, hloop⟩ := feedLoop_handled calls is h
      rw [hloop]
      exact (letGo_rect t i j).trans ((hsame.rect j).trans (handle_rect s i j _))
    | false =>
      rw [feedLoop_missed is h, ih]
      exact handle_rect s i j _

theorem feedLoop_click (is : List (Fin n)) (s : PressedOltk n) :
    (feedLoop e calls is s).2 = (is.find? (fun i => buttonHandled (s.zbuttons i) e)).filter
      (fun i => buttonClicks (s.zbuttons i) e && s.callbacks i) := by
  induction is generalizing s with
  | nil => rfl
  | cons i is ih =>
    cases h : buttonHandled (s.zbuttons i) e with
    | true =>
      simp only [feedLoop, h, if_true, List.find?_cons]
      rfl
    | false =>
      have hclicks (j : Fin n) : buttonClicks ((s.handle i (some e)).zbuttons j) e =
          buttonClicks (s.zbuttons j) e := by
        by_cases hj : j = i
        · subst hj
          simp only [buttonClicks, handle_handled, h, Bool.false_and]
        · rw [handle_ne s hj]
      rw [feedLoop_missed is h, ih]
      simp only [handle_handled, hclicks, List.find?_cons, h]
      rfl

theorem feedLoop_pressed (calls : List (Fin n × ButtonCall)) (is : List (Fin n)) {i : Fin n}
    (h : buttonHandled (s.zbuttons i) e = true) (htracked : ∀ j, s.Active j → s.depressed = some j)
    (hseen : ∀ j, s.Active j → (s.zbuttons j).shows ≠ 0 ∧ (s.zbuttons j).sensitive ≠ 0) (j : Fin n)
    (hj : (feedLoop e calls (i :: is) s).1.Active j) :
    (feedLoop e calls (i :: is) s).1.depressed = some j ∧ e.pressure ≠ 0 ∧
      hasPoint (s.zbuttons j).rect e.x e.y = true := by
  obtain ⟨t, hsame, hidle, hloop⟩ := feedLoop_handled calls is h
  rw [hloop] at hj ⊢
  have hstate := (hsame.state j).symm.trans (active_of_letGo hj)
  by_cases hji : j = i
  · subst hji
    rw [handle_self, buttonHandle_inside h] at hstate
    refine ⟨if_pos hj, ?_, hasPoint_of_handled h⟩
    intro hzero
    rw [if_neg (not_not.mpr hzero)] at hstate
    cases hstate
  · -- another one was pressed before, and is let go
    rw [handle_ne s hji] at hstate
    have hi : ¬ s.Active i := by
      intro hi
      exact hji (Option.some.inj ((htracked j hstate).symm.trans (htracked i hi)))
    rw [hidle hi] at hj
    have hgone := letGo_depressed (t := s.handle i (some e)) (Ne.symm hji) (htracked j hstate)
    rw [hgone] at hj
    refine absurd hj (not_active_handle (missed_none _) fun _ => ?_)
    rw [handle_ne s hji]
    exact hseen j hstate

theorem feedLoop_tracked (e : Sample) (calls : List (Fin n × ButtonCall)) {is : List (Fin n)}
    {s : PressedOltk n} (htracked : ∀ j, s.Active j → s.depressed = some j)
    (hseen : ∀ j, s.Active j → (s.zbuttons j).shows ≠ 0 ∧ (s.zbuttons j).sensitive ≠ 0)
    (hleft : ∀ j, s.Active j → j ∈ is) (j : Fin n) (hj : (feedLoop e calls is s).1.Active j) :
    (feedLoop e calls is s).1.depressed = some j ∧ e.pressure ≠ 0 ∧
      hasPoint (s.zbuttons j).rect e.x e.y = true := by
  induction is generalizing s with
  | nil => exact absurd (hleft j hj) List.not_mem_nil
  | cons i is ih =>
    cases h : buttonHandled (s.zbuttons i) e with
    | true => exact feedLoop_pressed calls is h htracked hseen j hj
    | false =>
      rw [feedLoop_missed is h] at hj ⊢
      have hback {k : Fin n} (hk : (s.handle i (some e)).Active k) :=
        active_of_handle (missed_some h) hk
      have hleft' (k : Fin n) (hk : (s.handle i (some e)).Active k) : k ∈ is := by
        apply (List.mem_cons.mp (hleft k (hback hk).1)).resolve_left
        rintro rfl
        exact not_active_handle (missed_some h) (hseen k) hk
      have hseen' (k : Fin n) (hk : (s.handle i (some e)).Active k) :
          ((s.handle i (some e)).zbuttons k).shows ≠ 0 ∧
            ((s.handle i (some e)).zbuttons k).sensitive ≠ 0 := by
        rw [(hback hk).2]
        exact hseen k (hback hk).1
      rw [← handle_rect s i j (some e)]
      exact ih (fun k hk => htracked k (hback hk).1) hseen' hleft' hj

theorem feedLoop_stuck (e : Sample) (calls : List (Fin n × ButtonCall)) (is : List (Fin n))
    {s : PressedOltk n} {b : Fin n}
    (htracked : ∀ j, s.Active j → s.depressed = some j) (hb : s.Active b)
    (hblocked : (s.zbuttons b).shows = 0 ∨ (s.zbuttons b).sensitive = 0) :
    (feedLoop e calls is s).1.Active b ∧ (feedLoop e calls is s).1.depressed ≠ some b := by
  induction is generalizing s with
  | nil => exact ⟨hb, nofun⟩
  | cons i is ih =>
    cases h : buttonHandled (s.zbuttons i) e with
    | true =>
      have hib : i ≠ b := by
        rintro rfl
        exact not_blocked_of_handled h hblocked
      have hi : ¬ s.Active i := by
        intro hi
        exact hib (Option.some.inj ((htracked i hi).symm.trans (htracked b hb)))
      obtain ⟨t, -, hidle, hloop⟩ := feedLoop_handled calls is h
      have hgone := letGo_depressed (t := s.handle i (some e)) hib (htracked b hb)
      rw [hloop, hidle hi, hgone]
      constructor
      · have hkept : ((s.handle i (some e)).handle b none).zbuttons b = s.zbuttons b := by
          rw [handle_self, handle_blocked hblocked, buttonHandle_blocked hblocked]
        exact (congrArg OltkButton.state hkept).trans hb
      · dsimp only
        split_ifs
        · exact fun hsome => hib (Option.some.inj hsome)
        · exact nofun
    | false =>
      rw [feedLoop_missed is h]
      have hsame := handle_blocked hblocked i (some e)
      apply ih
      · intro k hk
        exact htracked k (active_of_handle (missed_some h) hk).1
      · rwa [Active, hsame]
      · rwa [hsame]

end PressedOltk

section

variable {n : ℕ} {rect : OltkRectangle} {i : Fin n} {past : List (TouchEvent n)}

def JustPressed (rect : OltkRectangle) : List (TouchEvent n) → Prop
  | .feed e _ :: _ => e.pressure ≠ 0 ∧ hasPoint rect e.x e.y = true
  | .call _ :: past => JustPressed rect past
  | [] => False

theorem JustPressed.still (h : JustPressed rect past) (hshown : hiddenSince i past = false) :
    StillPressed rect i past := by
  induction past with
  | nil => exact h.elim
  | cons ev past ih =>
    cases ev with
    | feed e calls => exact .press h.1 h.2
    | call c =>
      obtain ⟨hc, hpast⟩ := Bool.or_eq_false_iff.mp hshown
      exact .call (ih h hpast) hc

theorem StillPressed.shown (h : StillPressed rect i past) : hiddenSince i past = false := by
  induction h with
  | press => rfl
  | feed => rfl
  | call _ hc ih => exact Bool.or_eq_false_iff.mpr ⟨hc, ih⟩

structure PressKept (r : TouchRun n) : Prop extends PressTracked r where
  pressed : ∀ i, r.oltk.Active i → JustPressed (r.oltk.zbuttons i).rect r.past

theorem atMostOne_of_depressed {s : PressedOltk n} (h : ∀ i, s.Active i → s.depressed = some i)
    (i j : Fin n) (hi : s.Active i) (hj : s.Active j) : i = j :=
  Option.some.inj ((h i hi).symm.trans (h j hj))

theorem PressKept.call {r : TouchRun n} (h : PressKept r) (c : Fin n × ButtonCall) :
    PressKept ((touchMachine n).next r (.call c)) := by
  have hsame := r.oltk.samePress_call c
  have hback (j : Fin n) (hj : (r.oltk.call c).Active j) : r.oltk.Active j :=
    (hsame.state j).symm.trans hj
  have hdepressed (j : Fin n) (hj : (r.oltk.call c).Active j) :
      (r.oltk.call c).depressed = some j := hsame.depressed.trans (h.depressed j (hback j hj))
  refine ⟨⟨atMostOne_of_depressed hdepressed, hdepressed, fun j hj => nomatch hj⟩, ?_⟩
  intro j hj
  have hpressed := h.pressed j (hback j hj)
  rw [← hsame.rect j] at hpressed
  exact hpressed

theorem topButton_handled {s : PressedOltk n} {e : Sample} (h : i ∈ s.topButton e) :
    buttonHandled (s.zbuttons i) e = true :=
  List.find?_some (p := fun i => buttonHandled (s.zbuttons i) e) h

theorem click_iff (s : PressedOltk n) (e : Sample) (calls : List (Fin n × ButtonCall)) (i : Fin n) :
    i ∈ (s.oltkFeed e calls).2 ↔
      i ∈ s.topButton e ∧ s.Active i ∧ e.pressure = 0 ∧ s.callbacks i = true := by
  rw [PressedOltk.oltkFeed, PressedOltk.feedLoop_click]
  change i ∈ (s.topButton e).filter _ ↔ _
  rw [Option.mem_filter_iff]
  apply and_congr_right
  intro htop
  simp only [buttonClicks, topButton_handled htop, Bool.true_and, Bool.and_eq_true,
    decide_eq_true_eq, PressedOltk.Active]
  rw [and_comm (a := e.pressure = 0), and_assoc]

theorem PressKept.feed {r : TouchRun n} (h : PressKept r) {e : Sample}
    {calls : List (Fin n × ButtonCall)} (hok : FeedAllowed r (.feed e calls)) :
    PressKept ((touchMachine n).next r (.feed e calls)) := by
  have htracked := PressedOltk.feedLoop_tracked e calls h.depressed hok.1
    (fun j _ => List.mem_reverse.mpr (List.mem_finRange j))
  have hrect (j : Fin n) : ((r.oltk.oltkFeed e calls).1.zbuttons j).rect =
      (r.oltk.zbuttons j).rect := PressedOltk.feedLoop_rect _ _ j
  refine ⟨⟨atMostOne_of_depressed fun j hj => (htracked j hj).1, fun j hj => (htracked j hj).1, ?_⟩,
    ?_⟩
  · intro j hj
    obtain ⟨htop, hactive, hzero, hcallback⟩ := (click_iff r.oltk e calls j).mp hj
    have hpressed := h.pressed j hactive
    change ClickEarned ((r.oltk.oltkFeed e calls).1.zbuttons j).rect j _
    rw [hrect]
    exact ⟨hzero, PressedOltk.hasPoint_of_handled (topButton_handled htop),
      hpressed.still (hok.2 hzero j htop hactive hcallback)⟩
  · intro j hj
    change JustPressed ((r.oltk.oltkFeed e calls).1.zbuttons j).rect _
    rw [hrect]
    exact (htracked j hj).2

theorem feedAllowed_of_tracked {r : TouchRun n} (h : PressKept r) {ev : TouchEvent n}
    (hnext : PressTracked ((touchMachine n).next r ev)) : FeedAllowed r ev := by
  cases ev with
  | call c => trivial
  | feed e calls =>
    constructor
    · intro i hi
      rw [← not_or]
      intro hblocked
      obtain ⟨hstays, hforgot⟩ := PressedOltk.feedLoop_stuck e calls
        (List.finRange n).reverse h.depressed hi hblocked
      exact hforgot (hnext.depressed i hstays)
    · intro hzero i htop hactive hcallback
      have hearned := hnext.earned i
        ((click_iff r.oltk e calls i).mpr ⟨htop, hactive, hzero, hcallback⟩)
      exact hearned.2.2.shown

end

/-- In a run from idle buttons the pressed button is tracked throughout, and every click comes from
a press, if and only if all its samples are allowed. -/
theorem pressTracked_iff {n : ℕ} (r : TouchRun n) (evs : List (TouchEvent n))
    (h : (touchMachine n).start r) :
    (touchMachine n).Throughout PressTracked r evs ↔
      (touchMachine n).RunWhile FeedAllowed r evs ((touchMachine n).after r evs) := by
  have hkept : PressKept r := by
    obtain ⟨hnormal, -, -, hclicked⟩ := h
    have hnone (i : Fin n) : ¬ r.oltk.Active i := by
      intro hi
      exact absurd (hi.symm.trans (hnormal i)) (by decide)
    refine ⟨⟨fun i _ hi => (hnone i hi).elim, fun i hi => (hnone i hi).elim, ?_⟩,
      fun i hi => (hnone i hi).elim⟩
    intro i hi
    rw [hclicked] at hi
    cases hi
  apply Machine.throughout_iff_of_enabled (I := PressKept) (fun _ _ => trivial)
    (fun _ hr => hr.toPressTracked) _ _ evs hkept
  · intro t ev ht hok
    cases ev with
    | call c => exact ht.call c
    | feed e calls => exact ht.feed hok
  · exact fun t ev ht hnext => feedAllowed_of_tracked ht hnext

def touchButton (x : ℤ) : OltkButton :=
  ⟨⟨x, 0, 10, 10⟩, 1, 1, none, .normal, false, fun _ _ _ _ => 0⟩

instance {n : ℕ} (r : TouchRun n) (ev : TouchEvent n) : Decidable (FeedAllowed r ev) :=
  match ev with
  | .call _ => .isTrue trivial
  | .feed _ _ => inferInstanceAs (Decidable (_ ∧ _))

instance {n : ℕ} (r : TouchRun n) (ev : TouchEvent n) : Decidable ((touchMachine n).enabled r ev) :=
  .isTrue trivial

def twoButtons : TouchRun 2 where
  oltk := ⟨fun i => touchButton (20 * i.val), fun _ => true, none, ⟨0, 0, 0, 0⟩⟩
  past := []
  clicked := none

theorem pressTracked_iff_click :
    (touchMachine 2).Throughout PressTracked twoButtons
      [.feed ⟨5, 5, 100⟩ [], .feed ⟨5, 5, 0⟩ [(0, .show' 0)]] :=
  (pressTracked_iff twoButtons _ ⟨by decide, rfl, rfl, rfl⟩).mpr
    (Machine.Checks.runWhile (by decide))

/-- The first button is hidden while it is pressed, and the second one is pressed then; or it is
shown again, and a release clicks it. -/
theorem press_untracked :
    ¬ (touchMachine 2).Throughout PressTracked twoButtons
        [.feed ⟨5, 5, 100⟩ [], .call (0, .show' 0), .feed ⟨25, 5, 100⟩ []] ∧
      ¬ (touchMachine 2).Throughout PressTracked twoButtons
        [.feed ⟨5, 5, 100⟩ [], .call (0, .show' 0), .call (0, .show' 1), .feed ⟨5, 5, 0⟩ []] := by
  constructor
  · intro h
    have hlast := h _ (List.prefix_refl _)
    exact absurd (hlast.atMostOne 0 1 (by decide) (by decide)) (by decide)
  · intro h
    have hlast := h _ (List.prefix_refl _)
    have hearned := hlast.earned 0 (by decide)
    exact absurd hearned.2.2.shown (by decide)

end SystemTestSuite.Dm2
