import SystemTestSuite.Library.Scanf

namespace SystemTestSuite.Library

/-- A single character at the end is left out. -/
def pairs : Bytes → List (UInt8 × UInt8)
  | a :: b :: rest => (a, b) :: pairs rest
  | _ => []

def hexPair (p : UInt8 × UInt8) : Option UInt8 := do
  let high ← hexValue p.1
  let low ← hexValue p.2
  return UInt8.ofNat (16 * high + low)

def IsHexPair (p : UInt8 × UInt8) : Prop := (hexPair p).isSome = true

instance (p : UInt8 × UInt8) : Decidable (IsHexPair p) := inferInstanceAs (Decidable (_ = true))

def FromDigits (text octets : Bytes) : Prop :=
  ∀ i : ℕ, ∀ octet ∈ octets[i]?, ∃ p ∈ (pairs text)[i]?, hexPair p = some octet

variable {size : ℕ} {shows : UInt8 → Bool}

def shownPairs (shows : UInt8 → Bool) (size : ℕ) (text : Bytes) : List (UInt8 × UInt8) :=
  ((pairs text).takeWhile (fun p => shows p.1 && shows p.2)).take size

theorem shownPairs_isPrefix (text : Bytes) : shownPairs shows size text <+: pairs text :=
  (List.take_prefix _ _).trans (List.takeWhile_prefix _)

theorem shownPairs_append {c : UInt8} (hc : shows c = false) (text behind : Bytes) :
    shownPairs shows size (text ++ c :: behind) = shownPairs shows size text := by
  have hpairs : (pairs (text ++ c :: behind)).takeWhile (fun p => shows p.1 && shows p.2) =
      (pairs text).takeWhile (fun p => shows p.1 && shows p.2) := by
    induction text using pairs.induct with
    | case1 a b rest ih =>
      rw [List.cons_append, List.cons_append, pairs, pairs, List.takeWhile_cons,
        List.takeWhile_cons, ih]
    | case2 text htext =>
      match text with
      | [] =>
        cases behind with
        | nil => rfl
        | cons b behind => simp [pairs, hc]
      | [a] => simp [pairs, hc]
      | a :: b :: rest => exact absurd rfl (htext a b rest)
  rw [shownPairs, hpairs, shownPairs]

theorem shownPairs_takeWhile {keep : UInt8 → Bool} (h : ∀ c, keep c = false → shows c = false)
    (text : Bytes) : shownPairs shows size (text.takeWhile keep) = shownPairs shows size text := by
  have hwhole := List.takeWhile_append_dropWhile (p := keep) (l := text)
  cases hrest : text.dropWhile keep with
  | nil =>
    rw [hrest, List.append_nil] at hwhole
    rw [hwhole]
  | cons c behind =>
    have hc := List.head?_dropWhile_not keep text
    rw [hrest, List.head?_cons] at hc
    rw [hrest] at hwhole
    rw [← shownPairs_append (h c (by simpa using hc)) _ behind, hwhole]

theorem scanHexPair_eq_none {a b : UInt8} : scanHexPair a b = none ↔ hexValue a = none := by
  unfold scanHexPair
  cases hexValue a with
  | none => exact iff_of_true rfl rfl
  | some high =>
    cases hexValue b with
    | none => exact iff_of_false (Option.some_ne_none _) (Option.some_ne_none _)
    | some low => exact iff_of_false (Option.some_ne_none _) (Option.some_ne_none _)

theorem scanHexPair_of_hexPair {p : UInt8 × UInt8} {octet : UInt8} (h : hexPair p = some octet) :
    scanHexPair p.1 p.2 = some octet := by
  simp only [hexPair, Option.bind_eq_bind, Option.bind_eq_some_iff] at h
  obtain ⟨high, hhigh, low, hlow, hsum⟩ := h
  rw [scanHexPair, hhigh, hlow]
  exact hsum

end SystemTestSuite.Library
