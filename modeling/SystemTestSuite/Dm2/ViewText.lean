import SystemTestSuite.Library.Machine
import SystemTestSuite.Library.Scanf

/-!
The text of a view in `oltk/oltk.c` and the lines it is split into, through any calls.
-/

namespace SystemTestSuite.Dm2

open Library

structure Block where
  allocated : ℕ
  bytes : Bytes

namespace Block

def malloc (n : ℕ) (junk : Memory) : Block := ⟨n, junk.slice 0 n⟩

def strdup (s : Bytes) : Block := ⟨(cstr s).length + 1, cstr s ++ [0]⟩

def strcpy (b : Block) (off : ℕ) (s : Bytes) : Block :=
  { b with bytes := b.bytes.take off ++ (cstr s ++ [0]) ++ b.bytes.drop (off + (cstr s).length + 1) }

end Block

/-- `lines` are places in `text`, `none` for NULL. -/
structure OltkView where
  text : Option Block
  lines : List (Option ℕ)
  nLines : ℕ

def countLoop (s : Bytes) : ℕ :=
  match h : strchr s 10 with
  | some k => countLoop (s.drop (k + 1)) + 1
  | none => if cstr s = [] then 0 else 1
termination_by s.length
decreasing_by
  have hk := strchr_lt h
  rw [List.length_drop]
  omega

/-- The second loop for the lines that are left. A NULL that `strchr` would read is a line
before. -/
def viewLoop : ℕ → Bytes → Option ℕ → Bytes × List (Option ℕ)
  | 0, bytes, _ => (bytes, [])
  | n + 1, bytes, p =>
    match p.bind fun p => (strchr (bytes.drop p) 10).map (p + ·) with
    | some nl =>
      let r := viewLoop n (bytes.set nl 0) (some (nl + 1))
      (r.1, p :: r.2)
    | none =>
      let r := viewLoop n bytes none
      (r.1, p :: r.2)

def viewSplitLines (text : Option Block) : OltkView :=
  match text with
  | none => ⟨none, [], 0⟩
  | some b =>
    let n := countLoop b.bytes
    let r := viewLoop n b.bytes (some 0)
    ⟨some { b with bytes := r.1 }, r.2, n⟩

def oltkViewSetText (text : Option Bytes) : OltkView := viewSplitLines (text.map Block.strdup)

def oltkViewAppendText (view : OltkView) (text : Bytes) (junk : Memory) : OltkView :=
  match view.text with
  | none => oltkViewSetText (some text)
  | some b =>
    let oldLen := (cstr b.bytes).length
    let p := Block.malloc (oldLen + (cstr text).length) junk
    viewSplitLines (some ((p.strcpy 0 b.bytes).strcpy oldLen text))

def lineAt (bytes : Bytes) (p : Option ℕ) : Option Bytes := p.map fun p => cstr (bytes.drop p)

def OltkView.shown (view : OltkView) : List (Option Bytes) :=
  view.lines.map fun p => view.text.bind fun b => lineAt b.bytes p

def textLines (t : Bytes) : List Bytes :=
  if (t.splitOn 10).getLast? = some [] then (t.splitOn 10).dropLast else t.splitOn 10

inductive ViewCall where
  | setText (text : Option Bytes)
  | appendText (text : Bytes) (junk : Memory)

structure ViewRun where
  view : OltkView
  said : Option Bytes

def viewCall (r : ViewRun) : ViewCall → ViewRun
  | .setText text => ⟨oltkViewSetText text, some (cstr (text.getD []))⟩
  | .appendText text junk =>
    ⟨oltkViewAppendText r.view text junk, some (r.said.getD [] ++ cstr text)⟩

/-- `oltk_view_add` leaves `n_lines` unset. -/
def viewMachine : Machine ViewRun ViewCall where
  start r := r.view.text = none ∧ r.said = none
  enabled _ _ := True
  next := viewCall

structure ViewRight (r : ViewRun) : Prop where
  lines : ∀ t ∈ r.said, r.view.shown = (textLines t).map some
  nLines : ∀ t ∈ r.said, r.view.nLines = (textLines t).length
  inside : ∀ b ∈ r.view.text, b.bytes.length ≤ b.allocated

def AppendAllowed (r : ViewRun) : ViewCall → Prop
  | .setText _ => True
  | .appendText _ _ => r.view.text = none

theorem textLines_single {t : Bytes} (hne : t ≠ []) (h : 10 ∉ t) : textLines t = [t] := by
  rw [textLines, List.splitOn_eq_singleton h, if_neg]
  intro hlast
  exact hne (Option.some.inj hlast)

theorem textLines_cons {line : Bytes} (h : 10 ∉ line) (rest : Bytes) :
    textLines (line ++ 10 :: rest) = line :: textLines rest := by
  have hne := List.splitOn_ne_nil 10 rest
  rw [textLines, textLines, List.splitOn_append_cons_self_of_not_mem h,
    List.getLast?_cons_of_ne_nil hne, List.dropLast_cons_of_ne_nil hne]
  split_ifs <;> rfl

theorem cstr_text {t : Bytes} (ht : ∀ b ∈ t, b ≠ 0) : cstr (t ++ [0]) = t := cstr_ended ht []

theorem strchr_none {t : Bytes} (ht : ∀ b ∈ t, b ≠ 0) (h : 10 ∉ t) : strchr (t ++ [0]) 10 = none := by
  rw [strchr, cstr_text ht, List.findIdx?_eq_none_iff]
  intro b hb
  apply decide_eq_false
  rintro rfl
  exact h hb

theorem countLoop_none {s : Bytes} (h : strchr s 10 = none) :
    countLoop s = if cstr s = [] then 0 else 1 := by
  rw [countLoop]
  split
  · rename_i hsome
    rw [h] at hsome
    cases hsome
  · rfl

theorem countLoop_some {s : Bytes} {k : ℕ} (h : strchr s 10 = some k) :
    countLoop s = countLoop (s.drop (k + 1)) + 1 := by
  rw [countLoop]
  split
  · rename_i hsome
    rw [h] at hsome
    cases hsome
    rfl
  · rename_i hnone
    rw [h] at hnone
    cases hnone

theorem first_line {t : Bytes} : 10 ∉ t ∨ ∃ line rest, 10 ∉ line ∧ t = line ++ 10 :: rest := by
  by_cases h : 10 ∈ t
  · obtain ⟨line, rest, ht, hline⟩ := List.eq_append_cons_of_mem h
    exact Or.inr ⟨line, rest, hline, ht⟩
  · exact Or.inl h

theorem viewLoop_some {n p k : ℕ} {bytes : Bytes} (h : strchr (bytes.drop p) 10 = some k) :
    viewLoop (n + 1) bytes (some p) =
      ((viewLoop n (bytes.set (p + k) 0) (some (p + k + 1))).1,
        some p :: (viewLoop n (bytes.set (p + k) 0) (some (p + k + 1))).2) := by
  rw [viewLoop, Option.bind_some, h]
  rfl

theorem viewLoop_last {p : ℕ} {bytes : Bytes} (h : strchr (bytes.drop p) 10 = none) :
    viewLoop 1 bytes (some p) = (bytes, [some p]) := by
  rw [viewLoop, Option.bind_some, h]
  rfl

theorem viewLoop_lines (t : Bytes) (ht : ∀ b ∈ t, b ≠ 0) (done : Bytes) :
    ∃ split ls, viewLoop (countLoop (t ++ [0])) (done ++ (t ++ [0])) (some done.length) =
        (done ++ split, ls) ∧ split.length = t.length + 1 ∧
      ls.map (lineAt (done ++ split)) = (textLines t).map some ∧
      countLoop (t ++ [0]) = (textLines t).length := by
  induction hn : t.length using Nat.strong_induction_on generalizing t done with
  | _ n ih =>
    have hdrop (s : Bytes) : (done ++ s).drop done.length = s := List.drop_left
    rcases first_line (t := t) with hlast | ⟨line, rest, hline, rfl⟩
    · have hchr := strchr_none ht hlast
      refine ⟨t ++ [0], ?_⟩
      rw [countLoop_none hchr, cstr_text ht]
      by_cases hempty : t = []
      · subst hempty
        exact ⟨[], rfl, by rw [← hn]; rfl, rfl, rfl⟩
      · rw [if_neg hempty, textLines_single hempty hlast, viewLoop_last (by rwa [hdrop])]
        refine ⟨_, rfl, by simp [hn], ?_, rfl⟩
        rw [List.map_singleton, lineAt, Option.map_some, hdrop, cstr_text ht]
        rfl
    · have hplain : ∀ b ∈ line, b ≠ 0 ∧ b ≠ 10 := by
        intro b hb
        refine ⟨ht b (by simp [hb]), ?_⟩
        rintro rfl
        exact hline hb
      have hrest : ∀ b ∈ rest, b ≠ 0 := fun b hb => ht b (by simp [hb])
      have hchr : strchr (line ++ 10 :: rest ++ [0]) 10 = some line.length := by
        rw [List.append_assoc]
        exact strchr_at hplain (by decide)
      have hbehind : (line ++ 10 :: rest ++ [0]).drop (line.length + 1) = rest ++ [0] := by
        rw [List.append_assoc, List.drop_append]
        simp
      have hset : (done ++ (line ++ 10 :: rest ++ [0])).set (done.length + line.length) 0 =
          done ++ line ++ [0] ++ (rest ++ [0]) := by
        simp
      have hpos : done.length + line.length + 1 = (done ++ line ++ [0]).length := by simp; omega
      obtain ⟨split, ls, hloop, hlen, hlines, hcount⟩ := ih rest.length
        (by rw [← hn]; simp; omega) rest hrest (done ++ line ++ [0]) rfl
      rw [countLoop_some hchr, hbehind, viewLoop_some (by rw [hdrop, hchr]), hset, hpos, hloop]
      refine ⟨line ++ 0 :: split, some done.length :: ls, by simp, ?_, ?_, ?_⟩
      · rw [← hn]
        simp [hlen]
        omega
      · have hfirst : lineAt (done ++ (line ++ 0 :: split)) (some done.length) = some line := by
          rw [lineAt, Option.map_some, hdrop, cstr_ended fun b hb => (hplain b hb).1]
        have hsame : done ++ (line ++ 0 :: split) = done ++ line ++ [0] ++ split := by simp
        rw [textLines_cons hline, List.map_cons, List.map_cons, hfirst, hsame, hlines]
      · rw [textLines_cons hline, hcount, List.length_cons]

theorem viewSplitLines_right (allocated : ℕ) {t : Bytes} (ht : ∀ b ∈ t, b ≠ 0) :
    (viewSplitLines (some ⟨allocated, t ++ [0]⟩)).shown = (textLines t).map some ∧
      (viewSplitLines (some ⟨allocated, t ++ [0]⟩)).nLines = (textLines t).length ∧
      ∀ b ∈ (viewSplitLines (some ⟨allocated, t ++ [0]⟩)).text,
        b.allocated = allocated ∧ b.bytes.length = t.length + 1 := by
  obtain ⟨split, ls, hloop, hlen, hlines, hcount⟩ := viewLoop_lines t ht []
  rw [List.nil_append, List.nil_append] at hloop
  rw [List.nil_append] at hlines
  simp only [viewSplitLines, OltkView.shown, Option.bind_some, List.length_nil] at hloop ⊢
  rw [hloop]
  refine ⟨hlines, hcount, ?_⟩
  rintro b ⟨⟩
  exact ⟨rfl, hlen⟩

theorem append_bytes (old text : Bytes) (junk : Memory) :
    ((Block.malloc ((cstr old).length + (cstr text).length) junk).strcpy 0 old).strcpy
        (cstr old).length text =
      ⟨(cstr old).length + (cstr text).length, cstr old ++ cstr text ++ [0]⟩ := by
  have hfirst : ((Block.malloc ((cstr old).length + (cstr text).length) junk).strcpy 0 old).bytes =
      cstr old ++ ([0] ++ (junk.slice 0 ((cstr old).length + (cstr text).length)).drop
        ((cstr old).length + 1)) := by
    simp [Block.strcpy, Block.malloc]
  have hbehind : ([0] ++ (junk.slice 0 ((cstr old).length + (cstr text).length)).drop
      ((cstr old).length + 1)).length ≤ (cstr text).length + 1 := by
    rw [List.length_append, List.length_drop, Memory.slice_length, List.length_singleton]
    omega
  rw [Block.strcpy, hfirst, List.take_left, Nat.add_assoc, List.drop_length_add_append,
    List.drop_eq_nil_of_le hbehind, List.append_nil, List.append_assoc]
  rfl

theorem cstr_append_no_nul (s t : Bytes) : ∀ b ∈ cstr s ++ cstr t, b ≠ 0 := by
  intro b hb
  rcases List.mem_append.mp hb with hs | ht
  · exact cstr_ne_zero b hs
  · exact cstr_ne_zero b ht

theorem appendText_behind {view : OltkView} {b : Block} (h : view.text = some b) (text : Bytes)
    (junk : Memory) :
    (oltkViewAppendText view text junk).shown =
        (textLines (cstr b.bytes ++ cstr text)).map some ∧
      ∃ b' ∈ (oltkViewAppendText view text junk).text, b'.allocated < b'.bytes.length := by
  rw [oltkViewAppendText, h]
  dsimp only
  rw [append_bytes]
  obtain ⟨hlines, -, hblock⟩ := viewSplitLines_right
    ((cstr b.bytes).length + (cstr text).length) (cstr_append_no_nul b.bytes text)
  refine ⟨hlines, _, rfl, ?_⟩
  obtain ⟨hallocated, hlen⟩ := hblock _ rfl
  rw [hallocated, hlen, List.length_append]
  exact Nat.lt_succ_self _

structure ViewKept (r : ViewRun) : Prop extends ViewRight r where
  empty : r.view.text = none → r.said.getD [] = []

theorem setText_kept (text : Option Bytes) :
    ViewKept ⟨oltkViewSetText text, some (cstr (text.getD []))⟩ := by
  cases text with
  | none =>
    refine ⟨⟨?_, ?_, ?_⟩, fun _ => rfl⟩
    · rintro t ⟨⟩
      rfl
    · rintro t ⟨⟩
      rfl
    · rintro b ⟨⟩
  | some text =>
    obtain ⟨hlines, hcount, hblock⟩ := viewSplitLines_right ((cstr text).length + 1)
      (@cstr_ne_zero text)
    refine ⟨⟨?_, ?_, ?_⟩, fun hnone => ?_⟩
    · rintro t ⟨⟩
      exact hlines
    · rintro t ⟨⟩
      exact hcount
    · intro b hb
      obtain ⟨hallocated, hlen⟩ := hblock b hb
      exact Nat.le_of_eq (hlen.trans hallocated.symm)
    · cases hnone

theorem ViewKept.call {r : ViewRun} (h : ViewKept r) {c : ViewCall} (hok : AppendAllowed r c) :
    ViewKept (viewCall r c) := by
  cases c with
  | setText text => exact setText_kept text
  | appendText text junk =>
    have hset := setText_kept (some text)
    rw [viewCall, oltkViewAppendText, hok, h.empty hok]
    exact hset

theorem appendAllowed_of_right {r : ViewRun} {c : ViewCall} (h : ViewRight (viewCall r c)) :
    AppendAllowed r c := by
  cases c with
  | setText text => trivial
  | appendText text junk =>
    apply Option.eq_none_iff_forall_ne_some.mpr
    intro b hb
    obtain ⟨-, b', hb', hlong⟩ := appendText_behind hb text junk
    exact Nat.not_lt.mpr (h.inside b' hb') hlong

/-- Through any calls the lines are those of the texts and nothing is written behind a block if and
only if text is never appended to a text. -/
theorem viewRight_iff (r : ViewRun) (calls : List ViewCall) (h : viewMachine.start r) :
    viewMachine.Throughout ViewRight r calls ↔
      viewMachine.RunWhile AppendAllowed r calls (viewMachine.after r calls) := by
  obtain ⟨htext, hsaid⟩ := h
  have hkept : ViewKept r := by
    refine ⟨⟨?_, ?_, ?_⟩, fun _ => ?_⟩
    all_goals simp [htext, hsaid]
  apply Machine.throughout_iff_of_enabled (I := ViewKept) (fun _ _ => trivial)
    (fun _ hr => hr.toViewRight) _ _ calls hkept
  · exact fun _ _ ht hok => ht.call hok
  · exact fun _ _ _ hnext => appendAllowed_of_right hnext

def newView : ViewRun := ⟨⟨none, [], 0⟩, none⟩

theorem viewRight_iff_set : viewMachine.Throughout ViewRight newView
    [.appendText (ascii "a") Memory.zero, .setText (some (ascii "b\nc\n"))] := by
  apply (viewRight_iff newView _ ⟨rfl, rfl⟩).mpr
  exact Machine.RunWhile.cons trivial rfl (Machine.RunWhile.single trivial trivial)

/-- The second line of the text is lost, and a NUL is written behind the block. -/
theorem append_lost :
    ¬ viewMachine.Throughout ViewRight newView
        [.setText (some (ascii "a\nb")), .appendText (ascii "c") Memory.zero] ∧
      (viewMachine.after newView
          [.setText (some (ascii "a\nb")), .appendText (ascii "c") Memory.zero]).view.shown =
        [some (ascii "ac")] := by
  have hlines : (viewMachine.after newView
      [.setText (some (ascii "a\nb")), .appendText (ascii "c") Memory.zero]).view.shown =
        [some (ascii "ac")] := by
    decide +kernel
  refine ⟨fun h => ?_, hlines⟩
  have hlast := (h _ (List.prefix_refl _)).lines _ rfl
  rw [hlines] at hlast
  exact absurd hlast (by decide +kernel)

end SystemTestSuite.Dm2
