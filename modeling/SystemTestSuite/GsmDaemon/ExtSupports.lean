import SystemTestSuite.GsmDaemon.ExtTokens

namespace SystemTestSuite.GsmDaemon

open Library

variable {lead : Bytes} {item : RspItem} {items : List RspItem} {e : RspElement}
  {es : List RspElement} {r : RspRange} {v : ℤ} {k : ℕ}

def RspItem.Contains (v : ℤ) : RspItem → Prop
  | number n => v = n.value
  | range low high => low.value ≤ v ∧ v ≤ high.value

def RspRange.Lists (r : RspRange) (v : ℤ) : Prop := ∃ item ∈ r.items, item.Contains v

def Answers (es : List RspElement) (k : ℕ) (r : RspRange) (v : ℤ) : Prop :=
  ∃ er, extrspParse (responseText es) = some (some er) ∧ (extrspSupports er k v = 1 ↔ r.Lists v)

def withLead (lead : Bytes) : List RspItem → List (Bytes × RspItem)
  | [] => []
  | item :: items => (lead, item) :: withLead (item.leftover lead) items

/-- The item shows the value with `lead` read in front of it: a single number everything from 0 on. -/
def RspItem.Shows (v : ℤ) (lead : Bytes) : RspItem → Prop
  | number n => 0 ≤ v ∧ v ≤ digitsValue (lead ++ n.digits)
  | range low high =>
    (digitsValue (lead ++ low.digits) ≤ v ∨ v = 2 ^ 31 - 1) ∧ v ≤ high.value

def RspItem.Hides (v : ℤ) (lead : Bytes) : RspItem → Prop
  | number n => v < 0 ∨ digitsValue (lead ++ n.digits) < v
  | range _ high => v ≠ 2 ^ 31 - 1 ∨ high.value < v

structure RspRange.Exact (r : RspRange) (v : ℤ) : Prop where
  listed : r.Lists v → ∃ x ∈ withLead [] r.items, x.2.Shows v x.1
  others : ¬ r.Lists v → ∀ x ∈ withLead [] r.items, x.2.Hides v x.1

theorem readItems_withLead (lead : Bytes) (items : List RspItem) :
    readItems lead items = (withLead lead items).map fun x => x.2.read x.1 := by
  induction items generalizing lead with
  | nil => rfl
  | cons item items ih => rw [readItems, ih, withLead, List.map_cons]

theorem withLead_digits (hlead : ∀ c ∈ lead, isDigit c = true) :
    ∀ x ∈ withLead lead items, x.2 ∈ items ∧ ∀ c ∈ x.1, isDigit c = true := by
  induction items generalizing lead with
  | nil => exact fun x hx => by cases hx
  | cons item items ih =>
    intro x hx
    rcases List.mem_cons.mp hx with rfl | hx
    · exact ⟨List.mem_cons_self, hlead⟩
    · obtain ⟨hmem, hdigits⟩ := ih (leftover_digits hlead item) x hx
      exact ⟨List.mem_cons_of_mem _ hmem, hdigits⟩

theorem shows_iff (hlead : ∀ c ∈ lead, isDigit c = true) (hv : v < 2 ^ 31) :
    (v ≥ (item.read lead).min ∧ v ≤ (item.read lead).max) ↔ item.Shows v lead := by
  cases item with
  | number n =>
    rw [RspItem.read, RspItem.Shows, atoi_digits (List.forall_mem_append.mpr ⟨hlead, n.digit⟩)]
    dsimp only
    omega
  | range low high =>
    rw [RspItem.read, RspItem.Shows, atoi_digits (List.forall_mem_append.mpr ⟨hlead, low.digit⟩),
      atoi_digits high.digit, RspNumber.value]
    dsimp only
    omega

theorem hides_iff (hv : v < 2 ^ 31) (h : ¬ item.Contains v) :
    item.Hides v lead ↔ ¬ item.Shows v lead := by
  cases item with
  | number n =>
    rw [RspItem.Hides, RspItem.Shows]
    omega
  | range low high =>
    have hlow : low.value ≤ digitsValue (lead ++ low.digits) := by
      rw [digitsValue_append]
      exact Nat.le_add_left _ _
    rw [RspItem.Contains] at h
    rw [RspItem.Hides, RspItem.Shows]
    omega

theorem readElements_getElem (he : es[k]? = some e) (hclosed : e.Closed) :
    (readElements es)[k]? = some e.read := by
  induction es generalizing k with
  | nil => cases he
  | cons first es ih =>
    cases es with
    | nil =>
      cases k with
      | zero =>
        obtain rfl := Option.some.inj he
        cases first with
        | empty => exact absurd hclosed id
        | number n => exact absurd hclosed id
        | string t => rfl
        | range r => rfl
      | succ k => cases he
    | cons next es =>
      cases k with
      | zero =>
        obtain rfl := Option.some.inj he
        rfl
      | succ k => exact ih he

theorem supports_iff (hk : es[k]? = some (.range r)) (hv : v < 2 ^ 31) :
    extrspSupports ⟨readElements es⟩ k v = 1 ↔ ∃ x ∈ withLead [] r.items, x.2.Shows v x.1 := by
  have hread := readElements_getElem hk trivial
  have hany : ((readItems [] r.items).any fun ri => v ≥ ri.min ∧ v ≤ ri.max) = true ↔
      ∃ x ∈ withLead [] r.items, x.2.Shows v x.1 := by
    rw [readItems_withLead, List.any_map, List.any_eq_true]
    apply exists_congr
    intro x
    apply and_congr_right
    intro hx
    rw [Function.comp_apply, decide_eq_true_eq]
    exact shows_iff (withLead_digits (fun c hc => by cases hc) x hx).2 hv
  rw [extrspSupports, hread, ← hany]
  dsimp only [RspElement.read]
  split_ifs with h
  · exact iff_of_true rfl h
  · exact iff_of_false (by decide) h

theorem exact_iff (hv : v < 2 ^ 31) :
    r.Exact v ↔ ((∃ x ∈ withLead [] r.items, x.2.Shows v x.1) ↔ r.Lists v) := by
  have hhides (hnot : ¬ r.Lists v) (x : Bytes × RspItem) (hx : x ∈ withLead [] r.items) :
      x.2.Hides v x.1 ↔ ¬ x.2.Shows v x.1 := by
    refine hides_iff hv fun hcontains => hnot ⟨x.2, ?_, hcontains⟩
    exact (withLead_digits (fun c hc => by cases hc) x hx).1
  constructor
  · rintro ⟨hlisted, hothers⟩
    refine ⟨?_, hlisted⟩
    rintro ⟨x, hx, hshows⟩
    apply Classical.byContradiction
    intro hnot
    exact (hhides hnot x hx).mp (hothers hnot x hx) hshows
  · intro hiff
    refine ⟨hiff.mpr, fun hnot x hx => (hhides hnot x hx).mpr fun hshows => ?_⟩
    exact hnot (hiff.mp ⟨x, hx, hshows⟩)

theorem answersSupports_iff (hk : es[k]? = some (.range r)) (hv : v < 2 ^ 31) :
    Answers es k r v ↔ ElementsFit 0 es ∧ r.Exact v := by
  have htext := responseText_ne_nil (List.mem_of_getElem? hk) trivial
  have hparse := extrspParse_yields htext
  rw [exact_iff hv, ← supports_iff hk hv]
  constructor
  · rintro ⟨er, her, hiff⟩
    obtain ⟨hfits, heq⟩ := hparse.of_some her
    obtain rfl := Option.some.inj heq
    exact ⟨hfits, hiff⟩
  · rintro ⟨hfits, hiff⟩
    obtain ⟨_, hparse, rfl⟩ := hparse.result hfits
    exact ⟨_, hparse, hiff⟩

/-- `(0,0-5)` -/
def zeroOrFive : RspRange :=
  ⟨[.number numberZero, .range numberZero numberFive], List.cons_ne_nil _ _⟩

theorem zeroOrFive_lists : zeroOrFive.Lists 3 := by
  have hfive : numberFive.value = 5 := by decide
  have hzero : numberZero.value = 0 := by decide
  refine ⟨.range numberZero numberFive, List.mem_cons_of_mem _ List.mem_cons_self, ?_⟩
  rw [RspItem.Contains, hfive, hzero]
  omega

/-- `5,(0,0-5)` and 3 -/
theorem answersSupports_range :
    Answers [.number numberFive, .range zeroOrFive] 1 zeroOrFive 3 := by
  apply (answersSupports_iff rfl (by decide)).mpr
  have hfive : (RspElement.number numberFive).Fits :=
    show numberFive.digits.length < extrspBufSize by decide
  have hfirst : (RspItem.number numberZero).Fits [] :=
    show numberZero.digits.length < extrspBufSize by decide
  have hsecond : (RspItem.range numberZero numberFive).Fits numberZero.digits :=
    ⟨by decide, by decide⟩
  refine ⟨⟨⟨by decide, hfive⟩, by decide, ⟨hfirst, hsecond, trivial⟩, by decide⟩, fun _ => ?_,
    fun hnot => ?_⟩
  · refine ⟨(numberZero.digits, .range numberZero numberFive),
      List.mem_cons_of_mem _ List.mem_cons_self, Or.inl ?_, ?_⟩
    · decide
    · decide
  · exact absurd zeroOrFive_lists hnot

def onlyFive : RspRange := ⟨[.number numberFive], List.cons_ne_nil _ _⟩

/-- `(5)` and 0 -/
theorem answersSupports_single : ¬ ∀ (es : List RspElement) (k : ℕ) (r : RspRange) (v : ℤ),
    es[k]? = some (.range r) → r.items.length ≤ gsmExtrspMaxRanges → -2 ^ 31 ≤ v → v < 2 ^ 31 →
      Answers es k r v := by
  intro h
  obtain ⟨er, her, hiff⟩ := h [.range onlyFive] 0 onlyFive 0 rfl (by decide) (by decide) (by decide)
  have hparse : extrspParse (responseText [.range onlyFive]) = some (some ⟨[.range [⟨0, 5⟩]]⟩) := by
    decide
  rw [hparse] at her
  obtain rfl := Option.some.inj (Option.some.inj her)
  obtain ⟨item, hitem, hcontains⟩ := hiff.mp (by decide)
  obtain rfl := List.mem_singleton.mp hitem
  have hfive : numberFive.value = 5 := by decide
  rw [RspItem.Contains, hfive] at hcontains
  cases hcontains

end SystemTestSuite.GsmDaemon
