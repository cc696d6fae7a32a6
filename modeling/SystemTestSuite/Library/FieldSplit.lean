import SystemTestSuite.Library.CString

namespace SystemTestSuite.Library

variable {σ : Type}

/-- How far it is to the next delimiter, or, with `true`, to the NUL; `none` is a read behind the
string. -/
def fieldEnd (isDelim : UInt8 → Bool) : Bytes → Option (ℕ × Bool)
  | [] => none
  | c :: rest =>
    if isDelim c then some (0, false)
    else if c = 0 then some (0, true)
    else (fieldEnd isDelim rest).map fun e => (e.1 + 1, e.2)

/-- `visit` gets the string, where the field starts and where it has been ended. -/
def splitLoop (isDelim : UInt8 → Bool) (visit : σ → Bytes → ℕ → ℕ → Option σ) :
    ℕ → Bytes → ℕ → σ → Option (Bytes × σ)
  | 0, _, _, _ => none
  | fuel + 1, str, pptr, s => do
    let (n, done) ← fieldEnd isDelim (str.drop pptr)
    let ptr := pptr + n
    let str := str.set ptr 0
    let s ← visit s str pptr ptr
    if done then some (str, s) else splitLoop isDelim visit fuel str (ptr + 1) s

def splitFields (isDelim : UInt8 → Bool) (visit : σ → Bytes → ℕ → ℕ → Option σ) (str : Bytes) (s : σ) :
    Option (Bytes × σ) :=
  splitLoop isDelim visit ((cstr str).length + 1) (cstr str ++ [0]) 0 s

variable {isDelim : UInt8 → Bool} {visit : σ → Bytes → ℕ → ℕ → Option σ} {step : σ → Bytes → Option σ}

theorem fieldEnd_at {text : Bytes} (htext : ∀ b ∈ text, isDelim b = false ∧ b ≠ 0) {c : UInt8}
    {rest : Bytes} (hc : isDelim c = true ∨ isDelim c = false ∧ c = 0) :
    fieldEnd isDelim (text ++ c :: rest) = some (text.length, !isDelim c) := by
  induction text with
  | nil =>
    rcases hc with hc | ⟨hc, rfl⟩
    · simp [fieldEnd, hc]
    · simp [fieldEnd, hc]
  | cons b text ih =>
    obtain ⟨hdelim, hnul⟩ := htext b List.mem_cons_self
    have hrest := ih fun d hd => htext d (List.mem_cons_of_mem b hd)
    rw [List.cons_append, fieldEnd, hdelim, if_neg Bool.false_ne_true, if_neg hnul, hrest]
    rfl

theorem set_ended (pre text : Bytes) (c : UInt8) (rest : Bytes) :
    (pre ++ text ++ c :: rest).set (pre.length + text.length) 0 = pre ++ text ++ 0 :: rest := by
  rw [← List.length_append, List.set_append_right _ _ (Nat.le_refl _), Nat.sub_self, List.set_cons_zero]

theorem splitLoop_turn {pre text : Bytes} (htext : ∀ b ∈ text, isDelim b = false ∧ b ≠ 0) {c : UInt8}
    {rest : Bytes} (hc : isDelim c = true ∨ isDelim c = false ∧ c = 0)
    (hvisit : ∀ s, visit s (pre ++ text ++ 0 :: rest) pre.length (pre.length + text.length) = step s text)
    (fuel : ℕ) (s : σ) :
    splitLoop isDelim visit (fuel + 1) (pre ++ text ++ c :: rest) pre.length s =
      (step s text).bind fun s =>
        if (!isDelim c) = true then some (pre ++ text ++ 0 :: rest, s)
        else splitLoop isDelim visit fuel (pre ++ text ++ 0 :: rest) (pre.length + text.length + 1) s := by
  have hdrop : (pre ++ text ++ c :: rest).drop pre.length = text ++ c :: rest := by
    rw [List.append_assoc, List.drop_left]
  rw [splitLoop, hdrop, fieldEnd_at htext hc]
  simp only [Option.bind_eq_bind, Option.bind_some]
  rw [set_ended, hvisit]

theorem splitLoop_fields (hnul : isDelim 0 = false)
    (hvisit : ∀ s pre text rest, (∀ b ∈ text, b ≠ 0) →
      visit s (pre ++ text ++ 0 :: rest) pre.length (pre.length + text.length) = step s text)
    {str : Bytes} (hstr : ∀ b ∈ str, b ≠ 0) (pre : Bytes) (s : σ) {fuel : ℕ} (hfuel : str.length < fuel) :
    splitLoop isDelim visit fuel (pre ++ str ++ [0]) pre.length s =
      ((str.splitOnP isDelim).foldlM step s).map fun s =>
        (pre ++ str.map (fun c => if isDelim c then 0 else c) ++ [0], s) := by
  induction fuel generalizing str pre s with
  | zero => exact absurd hfuel (Nat.not_lt_zero _)
  | succ fuel ih =>
    obtain ⟨text, htext⟩ : ∃ text, text = str.takeWhile (fun b => !isDelim b) := ⟨_, rfl⟩
    have hplain : ∀ b ∈ text, isDelim b = false ∧ b ≠ 0 := by
      intro b hb
      rw [htext] at hb
      refine ⟨by simpa using List.mem_takeWhile_imp hb, hstr b ?_⟩
      exact (List.takeWhile_prefix _).subset hb
    have hkept : text.map (fun c => if isDelim c then 0 else c) = text := by
      conv_rhs => rw [← List.map_id text]
      apply List.map_congr_left
      intro b hb
      simp [(hplain b hb).1]
    have hsplit : str = text ++ str.dropWhile (fun b => !isDelim b) := by
      rw [htext, List.takeWhile_append_dropWhile]
    have hvisit' (rest : Bytes) (s : σ) := hvisit s pre text rest fun b hb => (hplain b hb).2
    cases hdrop : str.dropWhile (fun b => !isDelim b) with
    | nil =>
      rw [hdrop, List.append_nil] at hsplit
      rw [hsplit, splitLoop_turn hplain (Or.inr ⟨hnul, rfl⟩) (hvisit' []),
        List.splitOnP_eq_singleton fun b hb => (hplain b hb).1, hkept, hnul, List.foldlM_cons]
      cases step s text <;> rfl
    | cons c rest =>
      have hdelim : isDelim c = true := by
        have hhead := List.head?_dropWhile_not (fun b => !isDelim b) str
        rw [hdrop] at hhead
        simpa using hhead
      rw [hdrop] at hsplit
      have hrest : ∀ b ∈ rest, b ≠ 0 := fun b hb => hstr b (by rw [hsplit]; simp [hb])
      have hlen : rest.length < fuel := by
        rw [hsplit, List.length_append, List.length_cons] at hfuel
        omega
      have hnext (s : σ) := ih hrest (pre ++ text ++ [0]) s hlen
      rw [hsplit, List.append_assoc pre, List.append_assoc text, List.cons_append, ← List.append_assoc,
        splitLoop_turn hplain (Or.inl hdelim) (hvisit' (rest ++ [0])),
        List.splitOnP_append_cons_of_forall_mem (fun b hb => (hplain b hb).1) c hdelim, List.foldlM_cons,
        hdelim]
      cases step s text with
      | none => rfl
      | some s =>
        simp only [List.length_append, List.append_assoc, List.singleton_append, List.length_singleton]
          at hnext
        simp only [Bool.not_true, Bool.false_eq_true, if_false, Option.bind_some, Option.bind_eq_bind,
          List.map_append, List.map_cons, hkept, hdelim, if_true, List.append_assoc, List.cons_append,
          Nat.add_assoc]
        exact hnext s

theorem splitFields_eq (hnul : isDelim 0 = false)
    (hvisit : ∀ s pre text rest, (∀ b ∈ text, b ≠ 0) →
      visit s (pre ++ text ++ 0 :: rest) pre.length (pre.length + text.length) = step s text)
    (str : Bytes) (s : σ) :
    splitFields isDelim visit str s = (((cstr str).splitOnP isDelim).foldlM step s).map fun s =>
      ((cstr str).map (fun c => if isDelim c then 0 else c) ++ [0], s) :=
  splitLoop_fields hnul hvisit cstr_ne_zero [] s (Nat.lt_succ_self _)

theorem splitFields_foldl (hnul : isDelim 0 = false) {step : σ → Bytes → σ}
    (hvisit : ∀ s pre text rest, (∀ b ∈ text, b ≠ 0) →
      visit s (pre ++ text ++ 0 :: rest) pre.length (pre.length + text.length) = some (step s text))
    (str : Bytes) (s : σ) :
    splitFields isDelim visit str s =
      some ((cstr str).map (fun c => if isDelim c then 0 else c) ++ [0],
        ((cstr str).splitOnP isDelim).foldl step s) := by
  rw [splitFields_eq hnul hvisit, ← Option.pure_def, List.foldlM_pure]
  rfl

theorem splitOnP_intercalate {sep : UInt8} (hsep : isDelim sep = true) {fields : List Bytes}
    (hne : fields ≠ []) (h : ∀ text ∈ fields, ∀ b ∈ text, isDelim b = false) :
    ([sep].intercalate fields).splitOnP isDelim = fields := by
  induction fields with
  | nil => exact absurd rfl hne
  | cons text fields ih =>
    have htext := h text List.mem_cons_self
    have hrest := fun hne => ih hne fun t ht => h t (List.mem_cons_of_mem text ht)
    cases fields with
    | nil => rw [List.intercalate_singleton, List.splitOnP_eq_singleton htext]
    | cons next fields =>
      rw [List.intercalate_cons_cons, List.append_assoc, List.singleton_append,
        List.splitOnP_append_cons_of_forall_mem htext sep hsep, hrest (List.cons_ne_nil _ _)]

end SystemTestSuite.Library
