import SystemTestSuite.Library.CString
import SystemTestSuite.Library.LineTexts

namespace SystemTestSuite.Library.LineBuffer

variable (S : Shape)

/-- The texts read the same with `lost` and a separator before the first as without: the bytes
behind it make up for the difference, or it overflows the buffer. -/
def Resumes (m m' : Memory) (lost : Bytes) : List Bytes → Prop
  | [] => False
  | [text] => S.size ≤ (cstr text).length
  | text :: next :: texts =>
    handed S m (lost ++ S.sep :: text) = handed S m' text ∧
      SameTails S (S.left (m.store 0 (lost ++ S.sep :: text)) (handed S m' text))
        (S.left (m'.store 0 text) (handed S m' text)) (next :: texts)

def NoLoss (m m' : Memory) (lost final : Bytes) : List Line → Prop
  | [] => lost = final ∧ final.length < S.size
  | line :: lines =>
    line.1 = false ∧
      Resumes S m m' lost ((groups [] (line :: lines)).map (joinLines S.sep))

variable {S}

theorem handed_zero_append_iff (hsep : S.sep ≠ 0) {lost : Bytes} (hno : ∀ c ∈ lost, c ≠ 0)
    (text : Bytes) :
    handed S Memory.zero (lost ++ S.sep :: text) = handed S Memory.zero text ↔
      S.size ≤ (cstr text).length := by
  have hall : (cstr (lost ++ S.sep :: text)).length = lost.length + (cstr text).length + 1 := by
    rw [cstr_append hno, cstr_cons hsep, List.length_append, List.length_cons]
    omega
  rw [handed, handed, string?_store_zero, string?_store_zero]
  by_cases hlen : (cstr text).length < S.size
  · refine iff_of_false (fun heq => ?_) (by omega)
    rw [if_pos hlen] at heq
    split_ifs at heq
    have hlens := congrArg List.length (Option.some.inj heq)
    omega
  · rw [if_neg hlen, if_neg (by omega)]
    exact iff_of_true rfl (by omega)

theorem spoken_resumes_iff (hsep : S.sep ≠ 0) (m m' : Memory) {lost : Bytes}
    (hno : ∀ c ∈ lost, c ≠ 0) (final text : Bytes) (texts : List Bytes) :
    spoken S m final ((lost ++ S.sep :: text) :: texts) = spoken S m' final (text :: texts) ↔
      Resumes S m m' lost (text :: texts) := by
  cases texts with
  | nil =>
    simp only [spoken, List.cons.injEq, and_true]
    exact handed_zero_append_iff hsep hno text
  | cons next texts =>
    rw [spoken, spoken, List.cons.injEq, Resumes]
    refine and_congr_right (fun heq => ?_)
    rw [heq]
    exact spoken_same_iff _ _ final (next :: texts)

theorem spoken_noLoss_iff (hsep : S.sep ≠ 0) (m m' : Memory) (final : Bytes) {held : List Bytes}
    (hheld : held ≠ []) (hno : ∀ c ∈ joinLines S.sep held, c ≠ 0) (lines : List Line) :
    spoken S m final ((groups held lines).map (joinLines S.sep)) =
        spoken S m' final ((groups [] lines).map (joinLines S.sep)) ↔
      NoLoss S m m' (joinLines S.sep held) final lines := by
  cases lines with
  | nil => simpa [groups, hheld, spoken, NoLoss] using handed_zero_iff hno final
  | cons line lines =>
    by_cases hstart : line.1 = true
    · refine iff_of_false (fun heq => ?_) (fun h => absurd hstart (by simp [h.1]))
      have hcount := congrArg List.length heq
      rw [spoken_length, spoken_length, groups_starts hheld hstart] at hcount
      simp [groups_cons_ne_nil, orFinal] at hcount
    · obtain ⟨first, later, hne, hheldgroups, hgroups⟩ := groups_continues held hstart lines
      rw [NoLoss, hheldgroups, hgroups, List.map_cons, List.map_cons,
        joinLines_append S.sep hheld hne, spoken_resumes_iff hsep m m' hno]
      exact (and_iff_right (by simpa using hstart)).symm

end SystemTestSuite.Library.LineBuffer
