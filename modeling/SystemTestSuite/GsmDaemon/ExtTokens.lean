import SystemTestSuite.GsmDaemon.ExtElements

namespace SystemTestSuite.GsmDaemon

open Library

variable {lead : Bytes} {items : List RspItem} {e : RspElement} {es : List RspElement}

theorem RspNumber.no_nul (n : RspNumber) : ∀ c ∈ n.digits, c ≠ 0 := by
  rintro c hc rfl
  exact absurd (n.digit 0 hc) (by decide)

theorem commaSeparated_no_nul {texts : List Bytes} (h : ∀ t ∈ texts, ∀ c ∈ t, c ≠ 0) :
    ∀ c ∈ commaSeparated texts, c ≠ 0 := by
  induction texts with
  | nil => exact fun c hc => by cases hc
  | cons t texts ih =>
    have ht := h t List.mem_cons_self
    cases texts with
    | nil =>
      rw [commaSeparated_singleton]
      exact ht
    | cons u texts =>
      rw [commaSeparated_cons]
      intro c hc
      rcases List.mem_append.mp hc with hc | hc
      · exact ht c hc
      · rcases List.mem_cons.mp hc with rfl | hc
        · decide
        · exact ih (fun t ht => h t (List.mem_cons_of_mem _ ht)) c hc

theorem RspItem.no_nul (item : RspItem) : ∀ c ∈ item.text, c ≠ 0 := by
  cases item with
  | number n => exact n.no_nul
  | range low high =>
    intro c hc
    rcases List.mem_append.mp hc with hc | hc
    · exact low.no_nul c hc
    · rcases List.mem_cons.mp hc with rfl | hc
      · decide
      · exact high.no_nul c hc

theorem delimited_no_nul {body : Bytes} {a b : UInt8} (ha : a ≠ 0) (hb : b ≠ 0)
    (h : ∀ c ∈ body, c ≠ 0) : ∀ c ∈ a :: (body ++ [b]), c ≠ 0 := by
  intro c hc
  simp only [List.mem_cons, List.mem_append, List.not_mem_nil, or_false] at hc
  rcases hc with rfl | hc | rfl
  · exact ha
  · exact h c hc
  · exact hb

theorem RspElement.no_nul (e : RspElement) : ∀ c ∈ e.text, c ≠ 0 := by
  cases e with
  | empty => exact fun c hc => by cases hc
  | number n => exact n.no_nul
  | string t => exact delimited_no_nul (by decide) (by decide) fun c hc => (t.plain c hc).2
  | range r =>
    refine delimited_no_nul (by decide) (by decide) (commaSeparated_no_nul ?_)
    intro t ht
    obtain ⟨item, -, rfl⟩ := List.mem_map.mp ht
    exact item.no_nul

theorem cstr_responseText (es : List RspElement) : cstr (responseText es) = responseText es := by
  apply cstr_of_no_nul
  apply commaSeparated_no_nul
  intro t ht
  obtain ⟨e, -, rfl⟩ := List.mem_map.mp ht
  exact e.no_nul

theorem extrspParse_yields (h : responseText es ≠ []) :
    Yields (extrspParse (responseText es)) (ElementsFit 0 es) (· = some ⟨readElements es⟩) := by
  have hfront : InFront [] ExtrspParser.init := ⟨rfl, rfl⟩
  rw [extrspParse, extrspLoop, cstr_responseText, if_neg h]
  apply (elements_run es hfront).map
  intro p hp
  rw [hp, List.nil_append]

def Tokenises (es : List RspElement) : Prop :=
  extrspParse (responseText es) = some (some ⟨es.map RspElement.value⟩)

/-- An item is stored as it is meant, with `lead` left over: a range when the digits left over do not
change its low end, a single number only when it is 0. -/
def RspItem.ExactAt (lead : Bytes) : RspItem → Prop
  | number n => digitsValue lead = 0 ∧ n.value = 0
  | range low high =>
    (digitsValue lead = 0 ∧ low.value < 2 ^ 31 ∨ low.value = 2 ^ 31 - 1) ∧ high.value < 2 ^ 31

def ItemsExact (lead : Bytes) : List RspItem → Prop
  | [] => True
  | item :: items => item.ExactAt lead ∧ ItemsExact (item.leftover lead) items

def RspElement.Exact : RspElement → Prop
  | empty | string _ => True
  | number n => n.value < 2 ^ 31
  | range r => ItemsExact [] r.items

def EndsClosed (es : List RspElement) : Prop := ∃ e, es.getLast? = some e ∧ e.Closed

theorem item_exact (hlead : ∀ c ∈ lead, isDigit c = true) (item : RspItem) :
    item.read lead = item.value ↔ item.ExactAt lead := by
  have hclamp (n : RspNumber) : atoi (lead ++ n.digits) =
      min ((digitsValue lead * 10 ^ n.digits.length + n.value : ℕ) : ℤ) (2 ^ 31 - 1) := by
    have hdigits : ∀ c ∈ lead ++ n.digits, isDigit c = true :=
      List.forall_mem_append.mpr ⟨hlead, n.digit⟩
    rw [atoi_digits hdigits, digitsValue_append]
    rfl
  cases item with
  | number n =>
    rw [RspItem.read, RspItem.value, RspItem.ExactAt, GsmExtrspRangeItem.mk.injEq, hclamp]
    have hzero : digitsValue lead * 10 ^ n.digits.length = 0 ↔ digitsValue lead = 0 :=
      Nat.mul_eq_zero.trans (or_iff_left (Nat.pow_pos (by decide)).ne')
    rw [← hzero]
    omega
  | range low high =>
    rw [RspItem.read, RspItem.value, RspItem.ExactAt, GsmExtrspRangeItem.mk.injEq, hclamp,
      atoi_digits high.digit]
    have hzero : digitsValue lead * 10 ^ low.digits.length = 0 ↔ digitsValue lead = 0 :=
      Nat.mul_eq_zero.trans (or_iff_left (Nat.pow_pos (by decide)).ne')
    change _ ∧ min (high.value : ℤ) _ = _ ↔ _
    rw [← hzero]
    omega

theorem leftover_digits (hlead : ∀ c ∈ lead, isDigit c = true) (item : RspItem) :
    ∀ c ∈ item.leftover lead, isDigit c = true := by
  cases item with
  | number n => exact List.forall_mem_append.mpr ⟨hlead, n.digit⟩
  | range low high => exact high.digit

theorem items_exact (hlead : ∀ c ∈ lead, isDigit c = true) (items : List RspItem) :
    readItems lead items = items.map RspItem.value ↔ ItemsExact lead items := by
  induction items generalizing lead with
  | nil => exact iff_of_true rfl trivial
  | cons item items ih =>
    rw [readItems, List.map_cons, List.cons_eq_cons, item_exact hlead, ih (leftover_digits hlead item)]
    rfl

theorem element_exact (e : RspElement) : e.read = e.value ↔ e.Exact := by
  cases e with
  | empty => exact iff_of_true rfl trivial
  | number n =>
    rw [RspElement.read, RspElement.value, RspElement.Exact, GsmExtrspTok.numeric.injEq,
      atoi_digits n.digit]
    change min (n.value : ℤ) _ = _ ↔ _
    omega
  | string t => exact iff_of_true rfl trivial
  | range r =>
    rw [RspElement.read, RspElement.value, GsmExtrspTok.range.injEq]
    exact items_exact (fun c hc => by cases hc) r.items

theorem endsClosed_cons (next : RspElement) :
    EndsClosed (e :: next :: es) ↔ EndsClosed (next :: es) := by
  rw [EndsClosed, List.getLast?_cons_cons]
  rfl

theorem closed_fits (counted : ℕ) (h : EndsClosed es)
    (hlen : counted + es.length ≤ gsmExtrspMaxTokens) :
    readElements es = es.map RspElement.read ∧ (ElementsFit counted es ↔ ∀ e ∈ es, e.Fits) := by
  induction es generalizing counted with
  | nil => exact ⟨rfl, iff_of_true trivial fun e he => by cases he⟩
  | cons e es ih =>
    rw [List.length_cons] at hlen
    have hlt : counted < gsmExtrspMaxTokens := by omega
    cases es with
    | nil =>
      obtain ⟨e', he', hclosed⟩ := h
      obtain rfl := Option.some.inj he'
      rw [ElementsFit, readElements, List.map_singleton, List.forall_mem_singleton]
      cases e with
      | empty => exact absurd hclosed id
      | number n => exact absurd hclosed id
      | string t => exact ⟨rfl, And.right, fun h => ⟨hlt, h⟩⟩
      | range r => exact ⟨rfl, And.right, fun h => ⟨hlt, h⟩⟩
    | cons next es =>
      obtain ⟨hread, hfits⟩ := ih (counted + 1) ((endsClosed_cons next).mp h) (by omega)
      rw [readElements, hread, ElementsFit, hfits, List.forall_mem_cons (a := e)]
      exact ⟨rfl, fun h => ⟨h.1.2, h.2⟩, fun h => ⟨⟨hlt, h.1⟩, h.2⟩⟩

theorem open_short (h : ¬ EndsClosed es) (hne : es ≠ []) :
    (readElements es).length < es.length := by
  induction es with
  | nil => exact absurd rfl hne
  | cons e es ih =>
    cases es with
    | nil =>
      cases e with
      | empty => exact Nat.zero_lt_one
      | number n => exact Nat.zero_lt_one
      | string t => exact absurd ⟨.string t, rfl, trivial⟩ h
      | range r => exact absurd ⟨.range r, rfl, trivial⟩ h
    | cons next es =>
      have hrest := ih (fun hclosed => h ((endsClosed_cons next).mpr hclosed)) (List.cons_ne_nil _ _)
      rw [readElements, List.length_cons, List.length_cons (a := e)]
      omega

theorem responseText_ne_nil (he : e ∈ es) (hclosed : e.Closed) : responseText es ≠ [] := by
  cases es with
  | nil => cases he
  | cons first es =>
    cases es with
    | nil =>
      obtain rfl := List.mem_singleton.mp he
      rw [responseText, List.map_singleton, commaSeparated_singleton]
      cases e with
      | empty => exact absurd hclosed id
      | number n => exact absurd hclosed id
      | string t => exact List.cons_ne_nil _ _
      | range r => exact List.cons_ne_nil _ _
    | cons next es =>
      rw [responseText, List.map_cons, List.map_cons, commaSeparated_cons]
      exact List.append_ne_nil_of_right_ne_nil _ (List.cons_ne_nil _ _)

theorem tokenises_iff (hlen : es.length ≤ gsmExtrspMaxTokens) : Tokenises es ↔
    EndsClosed es ∧ ∀ e ∈ es, e.Fits ∧ e.Exact := by
  have hexact : es.map RspElement.read = es.map RspElement.value ↔ ∀ e ∈ es, e.Exact := by
    rw [List.map_inj_left]
    exact forall₂_congr fun e _ => element_exact e
  constructor
  · intro h
    have htext : responseText es ≠ [] := by
      intro hnil
      rw [Tokenises, extrspParse, cstr_responseText, if_pos hnil] at h
      cases h
    obtain ⟨hfits, htokens⟩ := (extrspParse_yields htext).of_some h
    have htokens : es.map RspElement.value = readElements es := by
      injection htokens with htokens
      injection htokens
    have hclosed : EndsClosed es := by
      apply Classical.byContradiction
      intro hopen
      have hne : es ≠ [] := by
        rintro rfl
        exact htext rfl
      have hshort := open_short hopen hne
      rw [← htokens, List.length_map] at hshort
      exact Nat.lt_irrefl _ hshort
    obtain ⟨hread, hall⟩ := closed_fits 0 hclosed (by omega)
    rw [hread] at htokens
    exact ⟨hclosed, fun e he => ⟨hall.mp hfits e he, hexact.mp htokens.symm e he⟩⟩
  · rintro ⟨hclosed, hall⟩
    obtain ⟨hread, hfits⟩ := closed_fits 0 hclosed (by omega)
    obtain ⟨e, he, hlast⟩ := hclosed
    have htext := responseText_ne_nil (List.mem_of_getLast? he) hlast
    obtain ⟨r, hr, hr'⟩ := (extrspParse_yields htext).result
      (hfits.mpr fun e he => (hall e he).1)
    rw [Tokenises, hr, hr', hread, hexact.mpr fun e he => (hall e he).2]

theorem digit_five : ∀ c ∈ ([53] : Bytes), isDigit c = true := List.forall_mem_singleton.mpr rfl

theorem digit_zero : ∀ c ∈ ([48] : Bytes), isDigit c = true := List.forall_mem_singleton.mpr rfl

def numberFive : RspNumber := ⟨[53], List.cons_ne_nil _ _, digit_five⟩

def numberZero : RspNumber := ⟨[48], List.cons_ne_nil _ _, digit_zero⟩

def zeroToFive : RspRange := ⟨[.range numberZero numberFive], List.cons_ne_nil _ _⟩

/-- `,5,(0-5)` -/
theorem tokenises_range : Tokenises [.empty, .number numberFive, .range zeroToFive] := by
  apply (tokenises_iff (by decide)).mpr
  refine ⟨⟨_, rfl, trivial⟩, ?_⟩
  intro e he
  simp only [List.mem_cons, List.not_mem_nil, or_false] at he
  rcases he with rfl | rfl | rfl
  · exact ⟨trivial, trivial⟩
  · have hshort : numberFive.digits.length < extrspBufSize := by decide
    have hsmall : numberFive.value < 2 ^ 31 := by decide
    exact ⟨hshort, hsmall⟩
  · have hitem : (RspItem.range numberZero numberFive).Fits [] := ⟨by decide, by decide⟩
    have hexact : (RspItem.range numberZero numberFive).ExactAt [] :=
      ⟨Or.inl ⟨by decide, by decide⟩, by decide⟩
    exact ⟨⟨⟨hitem, trivial⟩, by decide⟩, hexact, trivial⟩

/-- `5` -/
theorem tokenises_number : ¬ ∀ es : List RspElement, es.length ≤ gsmExtrspMaxTokens → Tokenises es := by
  intro h
  have hfive := h [.number numberFive] (by decide)
  rw [Tokenises] at hfive
  exact absurd hfive (by decide)

end SystemTestSuite.GsmDaemon
