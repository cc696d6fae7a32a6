import SystemTestSuite.Library.Memory

/-!
A buffer of `size` bytes that collects lines, with a separator between two of them, and hands
them out as one C string: before a line that starts a new group, and once more at the end. Only
the last time a terminator is stored.
-/

namespace SystemTestSuite.Library

def joinLines (sep : UInt8) (lines : List Bytes) : Bytes := [sep].intercalate lines

structure LineBuffer where
  mem : Memory
  len : ℕ

namespace LineBuffer

/-- The parameters of a buffer; `left` is what a reader leaves of a string it was given. -/
structure Shape where
  sep : UInt8
  size : ℕ
  room : ℕ → ℕ
  left : Memory → Option Bytes → Memory
  size_pos : 0 < size
  room_eq : ∀ n ≤ size, room n = size - n
  left_congr : ∀ m m' r, (∀ i < size, m i = m' i) → ∀ i < size, left m r i = left m' r i

variable (S : Shape)

def add (b : LineBuffer) (line : Bytes) : LineBuffer :=
  let b := if b.len ≠ 0 then ⟨b.mem.store b.len [S.sep], b.len + 1⟩ else b
  let text := line.take (S.room b.len)
  ⟨b.mem.store b.len text, b.len + text.length⟩

def read (b : LineBuffer) : Option Bytes := b.mem.string? 0 S.size

abbrev Line := Bool × Bytes

def step (b : LineBuffer) (line : Line) : List (Option Bytes) × LineBuffer :=
  if line.1 = true ∧ b.len ≠ 0 then
    ([b.read S], add S ⟨S.left b.mem (b.read S), 0⟩ line.2)
  else ([], add S b line.2)

def run (b : LineBuffer) : List Line → List (Option Bytes) × LineBuffer
  | [] => ([], b)
  | line :: lines => ((b.step S line).1 ++ (run (b.step S line).2 lines).1,
      (run (b.step S line).2 lines).2)

def close (b : LineBuffer) (final : Bytes) : Option Bytes :=
  if b.len ≠ 0 then read S ⟨b.mem.store b.len [0], b.len⟩ else some final

def strings (b : LineBuffer) (lines : List Line) (final : Bytes) : List (Option Bytes) :=
  (b.run S lines).1 ++ [(b.run S lines).2.close S final]

/-- The lines that belong together, with those of `held` before the first. -/
def groups (held : List Bytes) : List Line → List (List Bytes)
  | [] => if held = [] then [] else [held]
  | line :: lines =>
    if line.1 = true ∧ held ≠ [] then held :: groups [line.2] lines
    else groups (held ++ [line.2]) lines

/-- The C string at the start of a memory after `text` was stored there. -/
def handed (m : Memory) (text : Bytes) : Option Bytes := (m.store 0 text).string? 0 S.size

/-- What a memory makes of texts: only the last one is read as if NULs stood behind it. -/
def spoken (m : Memory) (final : Bytes) : List Bytes → List (Option Bytes)
  | [] => [some final]
  | [text] => [handed S Memory.zero text]
  | text :: next :: texts =>
    handed S m text :: spoken (S.left (m.store 0 text) (handed S m text)) final (next :: texts)

structure Holds (m : Memory) (b : LineBuffer) (held : List Bytes) : Prop where
  empty : b.len = 0 ↔ held = []
  len : min b.len S.size = min (joinLines S.sep held).length S.size
  mem : ∀ i < S.size, b.mem i = m.store 0 (joinLines S.sep held) i

variable {S}

theorem joinLines_singleton (sep : UInt8) (line : Bytes) : joinLines sep [line] = line := by
  simp [joinLines]

theorem joinLines_append (sep : UInt8) {held more : List Bytes} (h : held ≠ [])
    (hmore : more ≠ []) :
    joinLines sep (held ++ more) = joinLines sep held ++ sep :: joinLines sep more := by
  induction held with
  | nil => exact absurd rfl h
  | cons first rest ih =>
    by_cases hrest : rest = []
    · rw [hrest, List.singleton_append, joinLines, List.intercalate_cons_of_ne_nil hmore]
      simp [joinLines]
    · have hjoin := ih hrest
      simp only [joinLines, List.cons_append] at hjoin ⊢
      rw [List.intercalate_cons_of_ne_nil (by simp [hrest]), hjoin,
        List.intercalate_cons_of_ne_nil hrest]
      simp

theorem Holds.congr {m : Memory} {mem : Memory} (h : ∀ i < S.size, mem i = m i) :
    Holds S m ⟨mem, 0⟩ [] :=
  ⟨by simp, rfl, by simpa [joinLines] using h⟩

theorem holds_empty (mem : Memory) : Holds S mem ⟨mem, 0⟩ [] := .congr (fun _ _ => rfl)

theorem holds_one (b : LineBuffer) (h : b.len ≠ 0) : Holds S b.mem b [b.mem.slice 0 b.len] := by
  refine ⟨by simp [h], by simp [joinLines], fun i _ => ?_⟩
  rw [joinLines_singleton, Memory.store_slice]

theorem add_len_ne_zero (b : LineBuffer) {line : Bytes} (hline : line ≠ []) :
    (b.add S line).len ≠ 0 := by
  have hpos : 0 < line.length := List.length_pos_of_ne_nil hline
  have hsize := S.size_pos
  by_cases hlen : b.len = 0
  · have hroom := S.room_eq 0 (Nat.zero_le _)
    simp only [add, hlen, ne_eq, not_true, if_false, List.length_take, hroom]
    omega
  · simp only [add, ne_eq, hlen, not_false_iff, if_true]
    omega

theorem store_take (m : Memory) {off i : ℕ} (text : Bytes) {n : ℕ} (hi : i < off + n) :
    m.store off (text.take n) i = m.store off text i := by
  rcases lt_or_ge i off with ho | ho
  · rw [Memory.store_before _ _ ho, Memory.store_before _ _ ho]
  · simp only [Memory.store, if_pos ho]
    rw [List.getElem?_take_of_lt (by omega)]

theorem Holds.add {m : Memory} {b : LineBuffer} {held : List Bytes} (h : Holds S m b held)
    {line : Bytes} (hline : line ≠ []) : Holds S m (b.add S line) (held ++ [line]) := by
  have hempty : (b.add S line).len = 0 ↔ held ++ [line] = [] := by
    simp [add_len_ne_zero b hline]
  by_cases hheld : held = []
  · have hlen : b.len = 0 := h.empty.mpr hheld
    have hadd : b.add S line =
        ⟨b.mem.store 0 (line.take S.size), (line.take S.size).length⟩ := by
      simp [LineBuffer.add, hlen, S.room_eq 0 (Nat.zero_le _)]
    have hmem := h.mem
    rw [hheld] at hmem
    refine ⟨hempty, ?_, fun i hi => ?_⟩
    · rw [hadd, hheld, List.nil_append, joinLines_singleton, List.length_take]
      dsimp only
      omega
    · rw [hadd, hheld, List.nil_append, joinLines_singleton]
      dsimp only
      rw [store_take _ _ (by omega)]
      exact Memory.store_congr line (by simpa [joinLines] using hmem i hi)
  · have hlen : b.len ≠ 0 := fun h0 => hheld (h.empty.mp h0)
    have hjoin : joinLines S.sep (held ++ [line]) =
        joinLines S.sep held ++ ([S.sep] ++ line) := by
      rw [joinLines_append S.sep hheld (by simp), joinLines_singleton]
      rfl
    obtain ⟨room, hroom⟩ : ∃ room, room = S.room (b.len + 1) := ⟨_, rfl⟩
    have hadd : b.add S line =
        ⟨(b.mem.store b.len [S.sep]).store (b.len + 1) (line.take room),
          b.len + 1 + (line.take room).length⟩ := by
      simp [LineBuffer.add, hlen, hroom]
    have hheldlen := h.len
    by_cases hfull : S.size ≤ b.len
    · refine ⟨hempty, ?_, fun i hi => ?_⟩
      · rw [hadd, hjoin, List.length_append]
        dsimp only
        omega
      · have hall := Memory.store_append m 0 (joinLines S.sep held) ([S.sep] ++ line)
        rw [hadd, hjoin, hall, Memory.store_before _ _ (by omega)]
        dsimp only
        rw [Memory.store_before _ _ (by omega), Memory.store_before _ _ (by omega)]
        exact h.mem i hi
    · have hl : b.len = (joinLines S.sep held).length := by omega
      rw [S.room_eq _ (by omega)] at hroom
      refine ⟨hempty, ?_, fun i hi => ?_⟩
      · rw [hadd, hjoin, List.length_append, List.length_append, List.length_singleton,
          List.length_take, hroom]
        dsimp only
        omega
      · have hall := Memory.store_append m 0 (joinLines S.sep held) ([S.sep] ++ line)
        have hline := Memory.store_append (m.store 0 (joinLines S.sep held)) b.len [S.sep] line
        rw [Nat.zero_add, ← hl, hline, List.length_singleton] at hall
        rw [hadd, hjoin, hall]
        dsimp only
        rw [store_take _ _ (by omega)]
        exact Memory.store_congr line (Memory.store_congr [S.sep] (h.mem i hi))

theorem Holds.step {m : Memory} {b : LineBuffer} {held : List Bytes} (h : Holds S m b held)
    {line : Line} (hline : line.2 ≠ []) (hstart : ¬ (line.1 = true ∧ held ≠ [])) :
    Holds S m (b.step S line).2 (held ++ [line.2]) := by
  have hiff : b.len ≠ 0 ↔ held ≠ [] := not_congr h.empty
  rw [LineBuffer.step, if_neg (fun hs => hstart ⟨hs.1, hiff.mp hs.2⟩)]
  exact h.add hline

theorem Holds.read {m : Memory} {b : LineBuffer} {held : List Bytes} (h : Holds S m b held) :
    b.read S = handed S m (joinLines S.sep held) :=
  Memory.string?_congr (fun i _ hi => h.mem i (by omega))

theorem Holds.start {m : Memory} {b : LineBuffer} {held : List Bytes} (h : Holds S m b held)
    {line : Line} (hline : line.2 ≠ []) (hstart : line.1 = true ∧ held ≠ []) :
    Holds S (S.left (m.store 0 (joinLines S.sep held)) (handed S m (joinLines S.sep held)))
      (b.step S line).2 [line.2] := by
  have hlen : b.len ≠ 0 := fun h0 => hstart.2 (h.empty.mp h0)
  rw [LineBuffer.step, if_pos ⟨hstart.1, hlen⟩, h.read]
  exact (Holds.congr (S.left_congr _ _ _ h.mem)).add hline

theorem Holds.close {m : Memory} {b : LineBuffer} {held : List Bytes} (h : Holds S m b held)
    (hheld : held ≠ []) (final : Bytes) :
    b.close S final = handed S Memory.zero (joinLines S.sep held) := by
  have hlen : b.len ≠ 0 := fun h0 => hheld (h.empty.mp h0)
  have hmin := h.len
  rw [LineBuffer.close, if_pos hlen, LineBuffer.read, handed]
  have hmem : ∀ i < min b.len S.size,
      b.mem.store b.len [0] i = Memory.zero.store 0 (joinLines S.sep held) i := by
    intro i hi
    rw [Memory.store_before _ _ (by omega), h.mem i (by omega)]
    exact Memory.store_over _ (Nat.zero_le _) (by omega)
  by_cases hfull : S.size ≤ b.len
  · exact Memory.string?_congr (fun i _ hi => hmem i (by omega))
  · have hzero : b.mem.store b.len [0] b.len = 0 :=
      Memory.store_inside b.mem b.len [0] (j := 0) (by simp)
    refine Memory.string?_congr_nul (Nat.zero_le b.len) hzero (fun i _ hi => ?_) S.size
    rcases Nat.lt_or_eq_of_le hi with hlt | rfl
    · exact hmem i (by omega)
    · rw [hzero, Memory.store_behind _ _ (by omega)]
      rfl

theorem groups_head {held : List Bytes} (h : held ≠ []) (lines : List Line) :
    ∃ more later, groups held lines = (held ++ more) :: later := by
  induction lines generalizing held with
  | nil => exact ⟨[], [], by simp [groups, h]⟩
  | cons line lines ih =>
    by_cases hstart : line.1 = true
    · exact ⟨[], groups [line.2] lines, by simp [groups, hstart, h]⟩
    · have hlonger : held ++ [line.2] ≠ [] := by simp
      obtain ⟨more, later, heq⟩ := ih hlonger
      exact ⟨line.2 :: more, later, by simp [groups, hstart, heq]⟩

theorem strings_eq {lines : List Line} (hlines : ∀ line ∈ lines, line.2 ≠ []) {m : Memory}
    {b : LineBuffer} {held : List Bytes} (h : Holds S m b held) (final : Bytes) :
    b.strings S lines final = spoken S m final ((groups held lines).map (joinLines S.sep)) := by
  induction lines generalizing b held m with
  | nil =>
    by_cases hheld : held = []
    · simp [strings, run, groups, hheld, spoken, LineBuffer.close, h.empty.mpr hheld]
    · simp [strings, run, groups, hheld, spoken, h.close hheld]
  | cons line lines ih =>
    have hrest := fun l hl => hlines l (List.mem_cons_of_mem line hl)
    have hline := hlines line (by simp)
    have hiff : b.len ≠ 0 ↔ held ≠ [] := not_congr h.empty
    by_cases hstart : line.1 = true ∧ held ≠ []
    · obtain ⟨more, later, hgroups⟩ := groups_head (List.cons_ne_nil line.2 []) lines
      have hstrings : b.strings S (line :: lines) final =
          b.read S :: (b.step S line).2.strings S lines final := by
        simp [strings, run, LineBuffer.step, hstart.1, hiff.mpr hstart.2]
      rw [hstrings, ih hrest (h.start hline hstart), h.read, groups, if_pos hstart, hgroups]
      rfl
    · have hstrings : b.strings S (line :: lines) final =
          (b.step S line).2.strings S lines final := by
        have hcont : ¬ (line.1 = true ∧ b.len ≠ 0) := fun hs => hstart ⟨hs.1, hiff.mp hs.2⟩
        simp [strings, run, LineBuffer.step, hcont]
      rw [hstrings, ih hrest (h.step hline hstart), groups, if_neg hstart]

end LineBuffer

end SystemTestSuite.Library
