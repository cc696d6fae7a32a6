import SystemTestSuite.Library.CString
import SystemTestSuite.Library.LineBuffer

namespace SystemTestSuite.Library.LineBuffer

variable (S : Shape)

def Fits (text : Bytes) : Prop := text.length < S.size ∧ ∀ c ∈ text, c ≠ 0

def tail (m : Memory) (text : Bytes) : Option Bytes :=
  m.string? text.length (S.size - text.length)

def EndsOnNul (m : Memory) : List Bytes → Prop
  | [] | [_] => True
  | text :: next :: texts =>
    m text.length = 0 ∧ EndsOnNul (S.left (m.store 0 text) (some text)) (next :: texts)

def SameTails (m m' : Memory) : List Bytes → Prop
  | [] | [_] => True
  | text :: next :: texts =>
    (Fits S text → tail S m text = tail S m' text) ∧
      SameTails (S.left (m.store 0 text) (handed S m text))
        (S.left (m'.store 0 text) (handed S m' text)) (next :: texts)

def orFinal (final : Bytes) (texts : List Bytes) : List Bytes :=
  if texts = [] then [final] else texts

variable {S}

theorem handed_iff (m : Memory) (text : Bytes) :
    handed S m text = some text ↔ Fits S text ∧ m text.length = 0 := by
  have hslice : (m.store 0 text).slice 0 text.length = text := Memory.slice_store_same m 0 text
  have hend : m.store 0 text text.length = m text.length := Memory.store_behind _ _ (by omega)
  rw [handed, Memory.string?_eq_some_iff, Nat.zero_add, hend]
  constructor
  · rintro ⟨hlt, _, hno, hz⟩
    exact ⟨⟨hlt, hno⟩, hz⟩
  · rintro ⟨⟨hlt, hno⟩, hz⟩
    exact ⟨hlt, hslice, hno, hz⟩

theorem spoken_eq_iff (m : Memory) (final : Bytes) (texts : List Bytes) :
    spoken S m final texts = (orFinal final texts).map some ↔
      (∀ text ∈ texts, Fits S text) ∧ EndsOnNul S m texts := by
  match texts with
  | [] => simp [spoken, orFinal, EndsOnNul]
  | [text] =>
    have hzero : Memory.zero text.length = 0 := rfl
    simp [spoken, orFinal, EndsOnNul, handed_iff, hzero]
  | text :: next :: texts =>
    have hrest := spoken_eq_iff (S.left (m.store 0 text) (some text)) final (next :: texts)
    have hcons (ts : List Bytes) : orFinal final (text :: ts) = text :: ts := rfl
    rw [spoken, hcons, List.map_cons, List.cons.injEq, handed_iff, EndsOnNul, List.forall_mem_cons]
    constructor
    · rintro ⟨⟨hfit, hz⟩, htexts⟩
      rw [(handed_iff m text).mpr ⟨hfit, hz⟩] at htexts
      obtain ⟨hfits, hends⟩ := hrest.mp htexts
      exact ⟨⟨hfit, hfits⟩, hz, hends⟩
    · rintro ⟨⟨hfit, hfits⟩, hz, hends⟩
      rw [(handed_iff m text).mpr ⟨hfit, hz⟩]
      exact ⟨⟨hfit, hz⟩, hrest.mpr ⟨hfits, hends⟩⟩

theorem handed_fits (m : Memory) {text : Bytes} (h : Fits S text) :
    handed S m text = (tail S m text).map (text ++ ·) := by
  have hslice : (m.store 0 text).slice 0 text.length = text := Memory.slice_store_same m 0 text
  have hno : ∀ b ∈ (m.store 0 text).slice 0 text.length, b ≠ 0 := by
    rw [hslice]
    exact h.2
  have hbehind : (m.store 0 text).string? text.length (S.size - text.length) = tail S m text :=
    Memory.string?_congr (fun i hi _ => Memory.store_behind _ _ (by omega))
  rw [handed, Memory.string?_append _ h.1.le hno, hslice, Nat.zero_add, hbehind]

theorem handed_not_fits (m m' : Memory) {text : Bytes} (h : ¬ Fits S text) :
    handed S m text = handed S m' text := by
  by_cases hlen : text.length < S.size
  · obtain ⟨c, hc, hz⟩ : ∃ c ∈ text, c = 0 := by
      by_contra hno
      exact h ⟨hlen, fun c hc hz => hno ⟨c, hc, hz⟩⟩
    obtain ⟨n, hn, hget⟩ := List.getElem_of_mem hc
    have hzero : m.store 0 text n = 0 := by
      have hinside := Memory.store_inside m 0 text hn
      rw [Nat.zero_add] at hinside
      rw [hinside, hget, hz]
    exact Memory.string?_congr_nul (Nat.zero_le n) hzero
      (fun i _ hi => Memory.store_over _ (Nat.zero_le _) (by omega)) S.size
  · exact Memory.string?_congr (fun i _ hi => Memory.store_over _ (Nat.zero_le _) (by omega))

theorem handed_same_iff (m m' : Memory) (text : Bytes) :
    handed S m text = handed S m' text ↔ (Fits S text → tail S m text = tail S m' text) := by
  by_cases hfit : Fits S text
  · have hinj : Function.Injective (fun t : Bytes => text ++ t) :=
      fun _ _ => List.append_cancel_left
    rw [handed_fits m hfit, handed_fits m' hfit, (Option.map_injective hinj).eq_iff]
    exact ⟨fun heq _ => heq, fun heq => heq hfit⟩
  · exact iff_of_true (handed_not_fits m m' hfit) (fun h => absurd h hfit)

theorem spoken_same_iff (m m' : Memory) (final : Bytes) (texts : List Bytes) :
    spoken S m final texts = spoken S m' final texts ↔ SameTails S m m' texts := by
  match texts with
  | [] => simp [spoken, SameTails]
  | [text] => simp [spoken, SameTails]
  | text :: next :: texts =>
    rw [spoken, spoken, List.cons.injEq, handed_same_iff, SameTails]
    exact and_congr_right (fun _ => spoken_same_iff _ _ final (next :: texts))

theorem spoken_length (m : Memory) (final : Bytes) (texts : List Bytes) :
    (spoken S m final texts).length = (orFinal final texts).length := by
  match texts with
  | [] => rfl
  | [_] => rfl
  | text :: next :: texts =>
    have hrest := spoken_length (S.left (m.store 0 text) (handed S m text)) final (next :: texts)
    rw [spoken, List.length_cons, hrest]
    rfl

theorem handed_ne (hsep : S.sep ≠ 0) (m : Memory) {held more : List Bytes} (hheld : held ≠ [])
    (hmore : more ≠ []) (hno : ∀ c ∈ joinLines S.sep held, c ≠ 0) :
    handed S m (joinLines S.sep (held ++ more)) ≠ some (joinLines S.sep more) := by
  intro hread
  rw [handed, Memory.string?_eq_some_iff, Nat.zero_add] at hread
  obtain ⟨_, _, hnomore, hend⟩ := hread
  have hjoin := joinLines_append S.sep hheld hmore
  have hlen : (joinLines S.sep more).length < (joinLines S.sep (held ++ more)).length := by
    rw [hjoin, List.length_append, List.length_cons]
    omega
  have hinside := Memory.store_inside m 0 _ hlen
  rw [Nat.zero_add, hend] at hinside
  have hmem : (0 : UInt8) ∈ joinLines S.sep (held ++ more) := hinside ▸ List.getElem_mem hlen
  rw [hjoin, List.mem_append, List.mem_cons] at hmem
  rcases hmem with hm | hm | hm
  · exact hno _ hm rfl
  · exact hsep hm.symm
  · exact hnomore _ hm rfl

theorem groups_append (held : List Bytes) {more : List Bytes} (h : more ≠ [])
    (lines : List Line) :
    ∃ first later, first ≠ [] ∧ groups (held ++ more) lines = (held ++ first) :: later ∧
      groups more lines = first :: later := by
  induction lines generalizing more with
  | nil => exact ⟨more, [], h, by simp [groups, h], by simp [groups, h]⟩
  | cons line lines ih =>
    by_cases hstart : line.1 = true
    · exact ⟨more, groups [line.2] lines, h, by simp [groups, hstart, h],
        by simp [groups, hstart, h]⟩
    · have hlonger : more ++ [line.2] ≠ [] := by simp
      obtain ⟨first, later, hne, hall, hmore⟩ := ih hlonger
      exact ⟨first, later, hne, by simp [groups, hstart, hall], by simp [groups, hstart, hmore]⟩

theorem groups_starts {held : List Bytes} (hheld : held ≠ []) {line : Line}
    (hstart : line.1 = true) (lines : List Line) :
    groups held (line :: lines) = held :: groups [] (line :: lines) := by
  simp [groups, hstart, hheld]

theorem groups_continues (held : List Bytes) {line : Line} (hstart : ¬ line.1 = true)
    (lines : List Line) :
    ∃ first later, first ≠ [] ∧ groups held (line :: lines) = (held ++ first) :: later ∧
      groups [] (line :: lines) = first :: later := by
  obtain ⟨first, later, hne, hall, hmore⟩ :=
    groups_append held (List.cons_ne_nil line.2 []) lines
  exact ⟨first, later, hne, by simp [groups, hstart, hall], by simp [groups, hmore]⟩

theorem groups_cons_ne_nil (line : Line) (lines : List Line) : groups [] (line :: lines) ≠ [] := by
  obtain ⟨more, later, hgroups⟩ := groups_head (List.cons_ne_nil line.2 []) lines
  simp [groups, hgroups]

theorem handed_zero_iff {text : Bytes} (hno : ∀ c ∈ text, c ≠ 0) (final : Bytes) :
    handed S Memory.zero text = some final ↔ text = final ∧ final.length < S.size := by
  rw [handed, string?_store_zero, cstr_of_no_nul hno]
  constructor
  · intro heq
    split_ifs at heq with hlen
    obtain rfl := Option.some.inj heq
    exact ⟨rfl, hlen⟩
  · rintro ⟨rfl, hlen⟩
    exact if_pos hlen

theorem spoken_held_iff (hsep : S.sep ≠ 0) (m : Memory) (final : Bytes) {held : List Bytes}
    (hheld : held ≠ []) (hno : ∀ c ∈ joinLines S.sep held, c ≠ 0) (lines : List Line) :
    spoken S m final ((groups held lines).map (joinLines S.sep)) =
        (orFinal final ((groups [] lines).map (joinLines S.sep))).map some ↔
      lines = [] ∧ joinLines S.sep held = final ∧ final.length < S.size := by
  cases lines with
  | nil => simpa [groups, hheld, spoken, orFinal] using handed_zero_iff hno final
  | cons line lines =>
    simp only [reduceCtorEq, false_and, iff_false]
    intro heq
    by_cases hstart : line.1 = true
    · have hcount := congrArg List.length heq
      rw [spoken_length, List.length_map, groups_starts hheld hstart] at hcount
      simp [groups_cons_ne_nil, orFinal] at hcount
    · obtain ⟨first, later, hne, hheldgroups, hgroups⟩ := groups_continues held hstart lines
      rw [hheldgroups, hgroups] at heq
      cases later with
      | nil => exact handed_ne hsep Memory.zero hheld hne hno (List.cons.inj heq).1
      | cons second later => exact handed_ne hsep m hheld hne hno (List.cons.inj heq).1

end SystemTestSuite.Library.LineBuffer
