import Mathlib.Data.List.Range
import Mathlib.Data.List.TakeWhile
import Mathlib.Data.Nat.Bitwise

/-!
Byte memories addressed by offset, and C strings read from them. An offset has no
upper bound here: a store outside an array is visible as a store at too large an offset.
-/

namespace SystemTestSuite.Library

abbrev Bytes := List UInt8

abbrev Memory := ℕ → UInt8

namespace Memory

def zero : Memory := fun _ => 0

def store (m : Memory) (off : ℕ) (bs : Bytes) : Memory :=
  fun i => if off ≤ i then bs[i - off]?.getD (m i) else m i

def fill (m : Memory) (off n : ℕ) (b : UInt8) : Memory :=
  fun i => if off ≤ i ∧ i < off + n then b else m i

def slice (m : Memory) (off : ℕ) : ℕ → Bytes
  | 0 => []
  | n + 1 => m off :: slice m (off + 1) n

/-- The C string at `off`, `none` when there is no NUL among the next `room` bytes. -/
def string? (m : Memory) (off : ℕ) : ℕ → Option Bytes
  | 0 => none
  | room + 1 => if m off = 0 then some [] else (string? m (off + 1) room).map (m off :: ·)

/-- An array as a C string, cut at its end when no NUL comes before. -/
def text (m : Memory) (size : ℕ) : Bytes := (m.string? 0 size).getD (m.slice 0 size)

@[simp] theorem store_nil (m : Memory) (off : ℕ) : m.store off [] = m := by
  funext i; simp [store]

theorem store_before (m : Memory) {off i : ℕ} (bs : Bytes) (h : i < off) :
    m.store off bs i = m i := if_neg (by omega)

theorem store_inside (m : Memory) (off : ℕ) {j : ℕ} (bs : Bytes) (h : j < bs.length) :
    m.store off bs (off + j) = bs[j] := by
  simp [store, h]

theorem store_behind (m : Memory) {off i : ℕ} (bs : Bytes) (h : off + bs.length ≤ i) :
    m.store off bs i = m i := by
  have hj : bs.length ≤ i - off := by omega
  simp [store, hj]

theorem store_congr {m m' : Memory} {off i : ℕ} (bs : Bytes) (h : m i = m' i) :
    m.store off bs i = m'.store off bs i := by
  simp [store, h]

theorem store_over {m m' : Memory} {off i : ℕ} (bs : Bytes) (ho : off ≤ i)
    (hi : i < off + bs.length) : m.store off bs i = m'.store off bs i := by
  obtain ⟨j, rfl⟩ := Nat.exists_eq_add_of_le ho
  rw [store_inside _ _ _ (by omega), store_inside _ _ _ (by omega)]

theorem store_append (m : Memory) (off : ℕ) (as bs : Bytes) :
    m.store off (as ++ bs) = (m.store off as).store (off + as.length) bs := by
  funext i
  rcases lt_or_ge i (off + as.length) with hi | hi
  · rw [store_before _ _ hi]
    rcases lt_or_ge i off with ho | ho
    · rw [store_before _ _ ho, store_before _ _ ho]
    · obtain ⟨j, rfl⟩ := Nat.exists_eq_add_of_le ho
      rw [store_inside _ _ _ (by rw [List.length_append]; omega), store_inside _ _ _ (by omega),
        List.getElem_append_left]
  · obtain ⟨j, rfl⟩ := Nat.exists_eq_add_of_le hi
    rcases lt_or_ge j bs.length with hj | hj
    · rw [store_inside _ _ _ hj, Nat.add_assoc,
        store_inside _ _ _ (by rw [List.length_append]; omega), List.getElem_append_right (by omega)]
      simp
    · have hall : off + (as ++ bs).length ≤ off + as.length + j := by
        rw [List.length_append]
        omega
      rw [store_behind _ _ hall, store_behind _ bs (by omega), store_behind _ as (by omega)]

@[simp] theorem slice_length (m : Memory) (off n : ℕ) : (m.slice off n).length = n := by
  induction n generalizing off with
  | zero => rfl
  | succ n ih => simp [slice, ih]

theorem slice_congr {m m' : Memory} {off n : ℕ} (h : ∀ i, off ≤ i → i < off + n → m i = m' i) :
    m.slice off n = m'.slice off n := by
  induction n generalizing off with
  | zero => rfl
  | succ n ih =>
    simp only [slice]
    rw [h off (by omega) (by omega), ih (fun i hi hn => h i (by omega) (by omega))]

theorem slice_shift (m : Memory) (base off n : ℕ) :
    slice (fun i => m (base + i)) off n = m.slice (base + off) n := by
  induction n generalizing off with
  | zero => rfl
  | succ n ih => rw [slice, slice, ih, Nat.add_assoc]

theorem slice_append (m : Memory) (off a b : ℕ) :
    m.slice off (a + b) = m.slice off a ++ m.slice (off + a) b := by
  induction a generalizing off with
  | zero => simp [slice]
  | succ a ih =>
    rw [Nat.succ_add]
    simp only [slice, List.cons_append]
    rw [ih, Nat.add_assoc, Nat.add_comm 1]

theorem slice_getElem (m : Memory) (off n : ℕ) {j : ℕ} (h : j < (m.slice off n).length) :
    (m.slice off n)[j] = m (off + j) := by
  induction n generalizing off j with
  | zero => simp [slice] at h
  | succ n ih =>
    cases j with
    | zero => rfl
    | succ j =>
      simp only [slice, List.getElem_cons_succ]
      rw [ih]
      congr 1
      omega

theorem slice_store_same (m : Memory) (off : ℕ) (bs : Bytes) :
    (m.store off bs).slice off bs.length = bs := by
  apply List.ext_getElem
  · simp
  · intro j hj hb
    rw [slice_getElem, store_inside _ _ _ hb]

theorem slice_store_before (m : Memory) {off at' n : ℕ} (bs : Bytes) (h : off + n ≤ at') :
    (m.store at' bs).slice off n = m.slice off n :=
  slice_congr (fun i _ hi => store_before m bs (by omega))

theorem store_nul (m : Memory) (off : ℕ) (bs : Bytes) : m.store off (bs ++ [0]) (off + bs.length) = 0 := by
  rw [store_append]
  exact store_inside _ _ (j := 0) [0] Nat.zero_lt_one

theorem slice_store_middle (m : Memory) (off : ℕ) (as bs cs : Bytes) :
    (m.store off (as ++ (bs ++ cs))).slice (off + as.length) bs.length = bs := by
  rw [store_append, store_append, slice_store_before _ _ (le_refl _), slice_store_same]

theorem slice_store_append (m : Memory) (off n : ℕ) (bs : Bytes) :
    (m.store (off + n) bs).slice off (n + bs.length) = m.slice off n ++ bs := by
  rw [slice_append, slice_store_before m bs (le_refl _), slice_store_same]

theorem slice_store_end (m : Memory) (off : ℕ) (bs more : Bytes) :
    ((m.store off bs).store (off + bs.length) more).slice off bs.length = bs := by
  rw [slice_store_before _ _ (le_refl _), slice_store_same]

theorem slice_succ (m : Memory) (off n : ℕ) : m.slice off (n + 1) = m.slice off n ++ [m (off + n)] := by
  rw [slice_append]
  rfl

theorem store_slice (m : Memory) (off n : ℕ) : m.store off (m.slice off n) = m := by
  funext i
  rcases lt_or_ge i off with ho | ho
  · exact store_before _ _ ho
  · obtain ⟨j, rfl⟩ := Nat.exists_eq_add_of_le ho
    rcases lt_or_ge j n with hj | hj
    · rw [store_inside _ _ _ (by rwa [slice_length]), slice_getElem]
    · exact store_behind _ _ (by rw [slice_length]; omega)

theorem string?_congr {m m' : Memory} {off room : ℕ}
    (h : ∀ i, off ≤ i → i < off + room → m i = m' i) : m.string? off room = m'.string? off room := by
  induction room generalizing off with
  | zero => rfl
  | succ room ih =>
    simp only [string?]
    rw [h off (le_refl _) (by omega), ih (fun i hi hr => h i (by omega) (by omega))]

theorem string?_congr_nul {m m' : Memory} {off n : ℕ} (hn : off ≤ n) (hz : m n = 0)
    (h : ∀ i, off ≤ i → i ≤ n → m i = m' i) (room : ℕ) :
    m.string? off room = m'.string? off room := by
  induction room generalizing off with
  | zero => rfl
  | succ room ih =>
    have hoff := h off (le_refl _) hn
    simp only [string?]
    rw [← hoff]
    by_cases hend : m off = 0
    · rw [if_pos hend, if_pos hend]
    · have hne : off ≠ n := by
        rintro rfl
        exact hend hz
      rw [if_neg hend, if_neg hend, ih (by omega) (fun i hi hl => h i (by omega) hl)]

theorem string?_getD_congr {m m' : Memory} {off room : ℕ}
    (h : ∀ i, off ≤ i → (∀ j, off ≤ j → j < i → m j ≠ 0) → m' i = m i) :
    (m'.string? off room).getD (m'.slice off room) = (m.string? off room).getD (m.slice off room) := by
  induction room generalizing off with
  | zero => rfl
  | succ room ih =>
    have hoff := h off (le_refl _) (fun j hj hlt => by omega)
    simp only [string?, slice, hoff]
    by_cases hend : m off = 0
    · rw [if_pos hend, if_pos hend]
      rfl
    · rw [if_neg hend, if_neg hend, Option.getD_map, Option.getD_map, ih]
      intro i hi hno
      apply h i (by omega)
      intro j hj hlt
      rcases Nat.eq_or_lt_of_le hj with rfl | hj
      · exact hend
      · exact hno j hj hlt

theorem string?_append (m : Memory) {off n room : ℕ} (hn : n ≤ room)
    (h : ∀ b ∈ m.slice off n, b ≠ 0) :
    m.string? off room = (m.string? (off + n) (room - n)).map (m.slice off n ++ ·) := by
  induction n generalizing off room with
  | zero => simp [slice]
  | succ n ih =>
    obtain ⟨room, rfl⟩ : ∃ r, room = r + 1 := ⟨room - 1, by omega⟩
    have hb : m off ≠ 0 := h _ (by simp [slice])
    rw [string?, if_neg hb, @ih (off + 1) room (by omega) (fun b hb => h b (by simp [slice, hb]))]
    simp only [Option.map_map, Nat.add_sub_add_right, slice, List.cons_append]
    rw [Nat.add_assoc, Nat.add_comm 1]
    rfl

theorem string?_eq_some (m : Memory) {off n room : ℕ} (hn : n < room)
    (h : ∀ b ∈ m.slice off n, b ≠ 0) (hz : m (off + n) = 0) :
    m.string? off room = some (m.slice off n) := by
  obtain ⟨k, hk⟩ : ∃ k, room - n = k + 1 := ⟨room - n - 1, by omega⟩
  rw [string?_append m hn.le h, hk, string?, if_pos hz]
  simp

theorem string?_eq_some_iff (m : Memory) {off room : ℕ} {t : Bytes} :
    m.string? off room = some t ↔
      t.length < room ∧ m.slice off t.length = t ∧ (∀ b ∈ t, b ≠ 0) ∧ m (off + t.length) = 0 := by
  constructor
  · intro h
    induction room generalizing off t with
    | zero => cases h
    | succ room ih =>
      rw [string?] at h
      split_ifs at h with hz
      · obtain rfl : [] = t := Option.some.inj h
        exact ⟨Nat.succ_pos _, rfl, by simp, hz⟩
      · obtain ⟨u, hu, rfl⟩ := Option.map_eq_some_iff.mp h
        obtain ⟨hlt, hslice, hno, hend⟩ := ih hu
        refine ⟨Nat.succ_lt_succ hlt, ?_, ?_, ?_⟩
        · rw [List.length_cons, slice, hslice]
        · simpa [hz] using hno
        · rw [List.length_cons, ← hend]
          congr 1
          omega
  · rintro ⟨hlt, hslice, hno, hend⟩
    rw [← hslice] at hno
    rw [string?_eq_some m hlt hno hend, hslice]

theorem string?_eq_none (m : Memory) {off room : ℕ} (h : m.string? off room = none) :
    ∀ b ∈ m.slice off room, b ≠ 0 := by
  induction room generalizing off with
  | zero => simp [slice]
  | succ room ih =>
    rw [string?] at h
    split_ifs at h with hz
    rw [Option.map_eq_none_iff] at h
    simpa [slice, hz] using ih h

theorem string?_isSome (m : Memory) (off room : ℕ) :
    (m.string? off room).isSome = true ↔ ∃ i < room, m (off + i) = 0 := by
  constructor
  · intro h
    obtain ⟨t, ht⟩ := Option.isSome_iff_exists.mp h
    obtain ⟨hlt, -, -, hend⟩ := (string?_eq_some_iff m).mp ht
    exact ⟨t.length, hlt, hend⟩
  · rintro ⟨i, hi, hnul⟩
    by_contra hnone
    have hno := string?_eq_none m (Option.not_isSome_iff_eq_none.mp hnone)
    have hlen : i < (m.slice off room).length := by rwa [slice_length]
    exact hno _ (List.getElem_mem hlen) ((slice_getElem m off room hlen).trans hnul)

theorem string?_shift (m : Memory) (base off : ℕ) {room : ℕ} {t : Bytes} :
    string? (fun i => m (base + i)) off room = some t ↔
      m.string? (base + off) room = some t := by
  simp only [string?_eq_some_iff, slice_shift, Nat.add_assoc]

theorem string?_room (m : Memory) {off room room' : ℕ} {t : Bytes} (hle : room ≤ room')
    (h : m.string? off room = some t) : m.string? off room' = some t := by
  rw [string?_eq_some_iff] at h ⊢
  exact ⟨h.1.trans_le hle, h.2⟩

theorem string?_stored (m : Memory) {off room : ℕ} {text : Bytes} (hnul : ∀ c ∈ text, c ≠ 0)
    (hroom : text.length < room) : (m.store off (text ++ [0])).string? off room = some text := by
  have hslice : (m.store off (text ++ [0])).slice off text.length = text := by
    rw [store_append, slice_store_end]
  have hend : (m.store off (text ++ [0])) (off + text.length) = 0 := by
    rw [store_inside m off _ (by rw [List.length_append, List.length_singleton]; omega)]
    simp
  have hstring := string?_eq_some (m.store off (text ++ [0])) hroom (by rwa [hslice]) hend
  rwa [hslice] at hstring

theorem string?_later {m m' : Memory} {off room : ℕ} {text : Bytes}
    (h : m.string? off room = some text) (hsame : ∀ i, off ≤ i → i ≤ off + text.length → m' i = m i) :
    m'.string? off room = some text := by
  obtain ⟨-, -, -, hend⟩ := (string?_eq_some_iff m).mp h
  rw [← h]
  symm
  apply string?_congr_nul (Nat.le_add_right _ _) hend
  exact fun i hlow hhigh => (hsame i hlow hhigh).symm

theorem text_congr_nul {m m' : Memory} {n size : ℕ} (hn : n < size) (hz : m n = 0)
    (h : ∀ i ≤ n, m i = m' i) : m.text size = m'.text size := by
  have hsame : m.string? 0 size = m'.string? 0 size :=
    string?_congr_nul (Nat.zero_le n) hz (fun i _ hi => h i hi) size
  rw [text, text, ← hsame]
  cases hs : m.string? 0 size with
  | some t => rfl
  | none =>
    have hno := string?_eq_none m hs
    have hmem : m n ∈ m.slice 0 size := by
      have hlen : n < (m.slice 0 size).length := by rwa [slice_length]
      have hget := slice_getElem m 0 size hlen
      rw [Nat.zero_add] at hget
      rw [← hget]
      exact List.getElem_mem hlen
    exact absurd hz (hno _ hmem)

end Memory

end SystemTestSuite.Library
