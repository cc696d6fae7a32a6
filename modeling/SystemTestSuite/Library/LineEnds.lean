import SystemTestSuite.Library.CString

namespace SystemTestSuite.Library

def endLine (sep term b : UInt8) : UInt8 := if b = sep then term else b

def endedLines (sep term : UInt8) (text : Bytes) : Bytes := text.map (endLine sep term) ++ [term]

def EndsLine (sep term : UInt8) (text : Bytes) (k : ℕ) : Prop :=
  ∀ b ∈ text[k]?, b = sep ∨ b = term

instance (sep term : UInt8) (text : Bytes) (k : ℕ) : Decidable (EndsLine sep term text k) :=
  inferInstanceAs (Decidable (∀ b ∈ text[k]?, b = sep ∨ b = term))

variable {sep term : UInt8} {text : Bytes}

theorem endedLines_length : (endedLines sep term text).length = text.length + 1 := by
  simp [endedLines]

theorem endedLines_ne_zero (hterm : term ≠ 0) (h : ∀ b ∈ text, b ≠ 0) :
    ∀ b ∈ endedLines sep term text, b ≠ 0 := by
  intro b hb
  rcases List.mem_append.mp hb with hline | hend
  · obtain ⟨b', hb', rfl⟩ := List.mem_map.mp hline
    unfold endLine
    split_ifs
    · exact hterm
    · exact h b' hb'
  · rw [List.mem_singleton.mp hend]
    exact hterm

theorem endedLines_getElem? {k : ℕ} (hk : k ≤ text.length) :
    (endedLines sep term text)[k]? = some ((text[k]?.map (endLine sep term)).getD term) := by
  unfold endedLines
  rcases Nat.lt_or_eq_of_le hk with hlt | rfl
  · rw [List.getElem?_append_left (by rwa [List.length_map])]
    simp [hlt]
  · rw [List.getElem?_append_right (by rw [List.length_map])]
    simp

theorem endedLines_take_line {c n : ℕ} (hfit : c + n ≤ text.length)
    (hline : ∀ b ∈ (text.drop c).take n, b ≠ sep) :
    (endedLines sep term text).take (c + n) =
      (endedLines sep term text).take c ++ (text.drop c).take n := by
  have hmap : ((text.drop c).take n).map (endLine sep term) = (text.drop c).take n := by
    calc ((text.drop c).take n).map (endLine sep term)
        = ((text.drop c).take n).map id := List.map_congr_left fun b hb => if_neg (hline b hb)
      _ = (text.drop c).take n := List.map_id _
  rw [List.take_add, List.append_cancel_left_eq]
  unfold endedLines
  rw [List.drop_append_of_le_length (by rw [List.length_map]; omega),
    List.take_append_of_le_length (by rw [List.length_drop, List.length_map]; omega),
    ← List.map_drop, ← List.map_take, hmap]

theorem endedLines_take_succ {k : ℕ} (hk : k ≤ text.length) :
    (endedLines sep term text).take (k + 1) = (endedLines sep term text).take k ++ [term] ↔
      EndsLine sep term text k := by
  rw [List.take_add_one, List.append_cancel_left_eq, endedLines_getElem? hk, EndsLine]
  cases text[k]? with
  | none => simp
  | some b =>
    by_cases hsep : b = sep
    · simp [endLine, hsep]
    · simp [endLine, hsep]

end SystemTestSuite.Library
