import SystemTestSuite.Library.Scanf

namespace SystemTestSuite.Library

def readOne : Directive → Bytes → ℕ → Option (List Scanned × Bytes × ℕ)
  | .lit c, s, pos =>
    match s with
    | [] => none
    | b :: rest => if b = c then some ([], rest, pos + 1) else none
  | .space, s, pos =>
    some ([], s.dropWhile isSpace, pos + (s.length - (s.dropWhile isSpace).length))
  | .int store, s, pos =>
    (scanInt (s.dropWhile isSpace)).map fun r =>
      (if store then [.int r.1] else [], r.2, pos + (s.length - r.2.length))
  | .set width store mem, s, pos =>
    let text := (s.take (width.getD s.length)).takeWhile mem
    if text = [] then none
    else some (if store then [.text text] else [], s.drop text.length, pos + text.length)
  | .char, s, pos =>
    match s with
    | [] => none
    | b :: rest => some ([.char b], rest, pos + 1)
  | .count, s, pos => some ([.count pos], s, pos)

def Directive.stores : Directive → ℕ
  | .int store | .set _ store _ => if store then 1 else 0
  | .char => 1
  | _ => 0

def Directive.converts : Directive → Bool
  | .int _ | .set _ _ _ | .char => true
  | _ => false

def reads : List Directive → Bytes → ℕ → Option (List Scanned × Bytes × ℕ)
  | [], s, pos => some ([], s, pos)
  | d :: ds, s, pos =>
    (readOne d s pos).bind fun r => (reads ds r.2.1 r.2.2).map fun t => (r.1 ++ t.1, t.2)

def storesOf (ds : List Directive) : ℕ := (ds.map Directive.stores).sum

variable {d : Directive} {ds more : List Directive} {s rest : Bytes} {pos pos' done : ℕ}
  {matched : Bool} {items : List Scanned}

theorem scanInt_nil : scanInt [] = none := rfl

theorem readOne_set {width : Option ℕ} {store : Bool} {mem : UInt8 → Bool}
    {r : List Scanned × Bytes × ℕ} (h : readOne (.set width store mem) s pos = some r) :
    let text := (s.take (width.getD s.length)).takeWhile mem
    text ≠ [] ∧
      (if store then [.text text] else [], s.drop text.length, pos + text.length) = r := by
  rw [readOne] at h
  by_cases htext : (s.take (width.getD s.length)).takeWhile mem = []
  · rw [if_pos htext] at h
    cases h
  · rw [if_neg htext] at h
    exact ⟨htext, Option.some.inj h⟩

theorem sscanfLoop_read (h : readOne d s pos = some (items, rest, pos')) :
    sscanfLoop (d :: ds) s pos done matched =
      ((sscanfLoop ds rest pos' (done + d.stores) (matched || d.converts)).1,
        items ++ (sscanfLoop ds rest pos' (done + d.stores) (matched || d.converts)).2) := by
  cases d with
  | lit c =>
    cases s with
    | nil => cases h
    | cons b s =>
      by_cases hb : b = c
      · rw [readOne, if_pos hb] at h
        cases h
        rw [sscanfLoop, if_pos hb]
        simp [Directive.stores, Directive.converts]
      · rw [readOne, if_neg hb] at h
        cases h
  | space =>
    cases h
    simp [sscanfLoop, Directive.stores, Directive.converts]
  | int store =>
    rw [readOne, Option.map_eq_some_iff] at h
    obtain ⟨⟨z, rest'⟩, hscan, h⟩ := h
    cases h
    have hne : s.dropWhile isSpace ≠ [] := by
      intro hnil
      rw [hnil, scanInt_nil] at hscan
      cases hscan
    rw [sscanfLoop]
    dsimp only
    rw [if_neg hne, hscan]
    cases store <;> simp [Directive.stores, Directive.converts]
  | set width store mem =>
    obtain ⟨htext, h⟩ := readOne_set h
    cases h
    have hne : s ≠ [] := by
      rintro rfl
      simp at htext
    rw [sscanfLoop, if_neg hne]
    dsimp only
    rw [if_neg htext]
    cases store <;> simp [Directive.stores, Directive.converts]
  | char =>
    cases s with
    | nil => cases h
    | cons b s =>
      cases h
      simp [sscanfLoop, Directive.stores, Directive.converts]
  | count =>
    cases h
    simp [sscanfLoop, Directive.stores, Directive.converts]

/-- The result where a directive does not match: the input is at its end, or goes on otherwise. -/
theorem sscanfLoop_unread (h : readOne d s pos = none) :
    sscanfLoop (d :: ds) s pos done matched = (if matched then (done : ℤ) else -1, []) ∨
      sscanfLoop (d :: ds) s pos done matched = ((done : ℤ), []) := by
  cases d with
  | lit c =>
    cases s with
    | nil => exact Or.inl rfl
    | cons b s =>
      rw [readOne] at h
      split_ifs at h with hb
      exact Or.inr (if_neg hb)
  | space => cases h
  | int store =>
    rw [readOne, Option.map_eq_none_iff] at h
    rw [sscanfLoop]
    dsimp only
    by_cases hnil : s.dropWhile isSpace = []
    · exact Or.inl (if_pos hnil)
    · rw [if_neg hnil, h]
      exact Or.inr rfl
  | set width store mem =>
    rw [readOne] at h
    split_ifs at h with htext
    rw [sscanfLoop]
    by_cases hnil : s = []
    · exact Or.inl (if_pos hnil)
    · rw [if_neg hnil]
      exact Or.inr (if_pos htext)
  | char =>
    cases s with
    | nil => exact Or.inl rfl
    | cons b s => cases h
  | count => cases h

theorem readOne_items (h : readOne d s pos = some (items, rest, pos')) (hd : d ≠ .count) :
    items.length = d.stores := by
  cases d with
  | lit c =>
    cases s with
    | nil => cases h
    | cons b s =>
      rw [readOne] at h
      split_ifs at h
      cases h
      rfl
  | space =>
    cases h
    rfl
  | int store =>
    rw [readOne, Option.map_eq_some_iff] at h
    obtain ⟨r, -, h⟩ := h
    cases h
    cases store <;> rfl
  | set width store mem =>
    obtain ⟨-, h⟩ := readOne_set h
    cases h
    cases store <;> rfl
  | char =>
    cases s with
    | nil => cases h
    | cons b s =>
      cases h
      rfl
  | count => exact absurd rfl hd

theorem reads_cons_some {r : List Scanned × Bytes × ℕ} (h : reads (d :: ds) s pos = some r) :
    ∃ items rest pos' t, readOne d s pos = some (items, rest, pos') ∧
      reads ds rest pos' = some t ∧ r = (items ++ t.1, t.2) := by
  rw [reads, Option.bind_eq_some_iff] at h
  obtain ⟨⟨items, rest, pos'⟩, hone, h⟩ := h
  obtain ⟨t, ht, rfl⟩ := Option.map_eq_some_iff.mp h
  exact ⟨items, rest, pos', t, hone, ht, rfl⟩

theorem storesOf_cons (d : Directive) (ds : List Directive) :
    storesOf (d :: ds) = d.stores + storesOf ds := by
  simp [storesOf]

theorem sscanfLoop_reads (h : reads ds s pos = some (items, rest, pos')) :
    sscanfLoop (ds ++ more) s pos done matched =
      ((sscanfLoop more rest pos' (done + storesOf ds) (matched || ds.any Directive.converts)).1,
        items ++
          (sscanfLoop more rest pos' (done + storesOf ds) (matched || ds.any Directive.converts)).2) := by
  induction ds generalizing s pos done matched items with
  | nil =>
    cases h
    simp [storesOf]
  | cons d ds ih =>
    obtain ⟨first, mid, pos₁, ⟨items', t⟩, hone, hrest, heq⟩ := reads_cons_some h
    cases heq
    rw [List.cons_append, sscanfLoop_read hone, ih hrest, storesOf_cons, List.any_cons,
      Nat.add_assoc, Bool.or_assoc, List.append_assoc]

theorem sscanfLoop_unread_le (h : readOne d s pos = none) (n : ℕ) :
    (sscanfLoop (d :: ds) s pos done matched).1 ≤ done + n ∧
      (sscanfLoop (d :: ds) s pos done matched).2.length ≤ n := by
  have hcases : sscanfLoop (d :: ds) s pos done matched = _ ∨ _ = _ := sscanfLoop_unread h
  rcases hcases with heq | heq
  · rw [heq]
    refine ⟨?_, Nat.zero_le _⟩
    dsimp only
    split_ifs <;> omega
  · rw [heq]
    exact ⟨by dsimp only; omega, Nat.zero_le _⟩

theorem sscanfLoop_stops (h : reads (ds ++ [d]) s pos = none) (hcount : ∀ e ∈ ds, e ≠ .count) :
    (sscanfLoop (ds ++ d :: more) s pos done matched).1 ≤ done + storesOf ds ∧
      (sscanfLoop (ds ++ d :: more) s pos done matched).2.length ≤ storesOf ds := by
  induction ds generalizing s pos done matched with
  | nil =>
    apply sscanfLoop_unread_le
    cases hone : readOne d s pos with
    | none => rfl
    | some r => simp [reads, hone] at h
  | cons e ds ih =>
    obtain ⟨hne, hrest⟩ := List.forall_mem_cons.mp hcount
    cases hone : readOne e s pos with
    | none => exact sscanfLoop_unread_le hone _
    | some r =>
      obtain ⟨items, rest, pos'⟩ := r
      have hnone : reads (ds ++ [d]) rest pos' = none := by
        simpa [reads, hone] using h
      obtain ⟨hrc, hlen⟩ := @ih rest pos' (done + e.stores) (matched || e.converts) hnone hrest
      rw [List.cons_append, sscanfLoop_read hone, storesOf_cons, List.length_append,
        readOne_items hone hne]
      exact ⟨by push_cast at hrc ⊢; omega, by omega⟩

theorem reads_lit_cons (c : UInt8) (t : Bytes) :
    reads (.lit c :: ds) (c :: t) pos = reads ds t (pos + 1) := by
  rw [reads, readOne, if_pos rfl, Option.bind_some]
  exact Option.map_id'

theorem reads_lit {c : UInt8} {r : List Scanned × Bytes × ℕ}
    (h : reads (.lit c :: ds) s pos = some r) : ∃ t, s = c :: t ∧ reads ds t (pos + 1) = some r := by
  cases s with
  | nil => cases h
  | cons b s =>
    by_cases hb : b = c
    · obtain rfl := hb
      rw [reads_lit_cons] at h
      exact ⟨s, rfl, h⟩
    · rw [reads, readOne, if_neg hb] at h
      cases h

theorem reads_int_scanned {store : Bool} {z : ℤ} {t : Bytes}
    (h : scanInt (s.dropWhile isSpace) = some (z, t)) :
    reads (.int store :: ds) s pos = (reads ds t (pos + (s.length - t.length))).map fun u =>
      ((if store then [.int z] else []) ++ u.1, u.2) := by
  rw [reads, readOne, h]
  rfl

theorem reads_int {store : Bool} {r : List Scanned × Bytes × ℕ}
    (h : reads (.int store :: ds) s pos = some r) :
    ∃ z t u, scanInt (s.dropWhile isSpace) = some (z, t) ∧
      reads ds t (pos + (s.length - t.length)) = some u ∧
      r = ((if store then [.int z] else []) ++ u.1, u.2) := by
  obtain ⟨items, rest, pos', u, hone, hu, rfl⟩ := reads_cons_some h
  obtain ⟨⟨z, t⟩, hscan, hone⟩ := Option.map_eq_some_iff.mp hone
  cases hone
  exact ⟨z, t, u, hscan, hu, rfl⟩

/-- `%[` takes all it can: it ends at its width, or in front of what does not belong to it. -/
def Taken (width : Option ℕ) (mem : UInt8 → Bool) (text rest : Bytes) : Prop :=
  text ≠ [] ∧ (∀ b ∈ text, mem b = true) ∧ (∀ n ∈ width, text.length ≤ n) ∧
    (width = some text.length ∨ ∀ b ∈ rest.head?, mem b = false)

theorem takeWhile_take_nil {mem : UInt8 → Bool} {k : ℕ} :
    (rest.take k).takeWhile mem = [] ↔ k = 0 ∨ ∀ b ∈ rest.head?, mem b = false := by
  cases k with
  | zero => simp
  | succ k => cases rest <;> simp

theorem taken_iff {width : Option ℕ} {mem : UInt8 → Bool} {text rest : Bytes} :
    Taken width mem text rest ↔
      text ≠ [] ∧ ((text ++ rest).take (width.getD (text ++ rest).length)).takeWhile mem = text := by
  obtain ⟨n, hn⟩ : ∃ n, n = width.getD (text ++ rest).length := ⟨_, rfl⟩
  rw [Taken, ← hn]
  apply and_congr_right
  intro _
  have hwhile (hmem : ∀ b ∈ text, mem b = true) :
      (text ++ rest.take (n - text.length)).takeWhile mem = text ↔
        n - text.length = 0 ∨ ∀ b ∈ rest.head?, mem b = false := by
    rw [List.takeWhile_append_of_pos hmem, List.append_right_eq_self, takeWhile_take_nil]
  constructor
  · rintro ⟨hmem, hle, hend⟩
    have hlong : text.length ≤ n := by
      cases width with
      | none => simp [hn]
      | some w => exact hn ▸ hle w rfl
    rw [List.take_append, List.take_of_length_le hlong, hwhile hmem]
    refine hend.imp_left fun hw => ?_
    rw [hn, hw]
    exact Nat.sub_self _
  · intro h
    have hmem : ∀ b ∈ text, mem b = true := by
      intro b hb
      rw [← h] at hb
      exact List.mem_takeWhile_imp hb
    have hlong : text.length ≤ n := by
      have hlen := (List.takeWhile_prefix mem (l := (text ++ rest).take n)).length_le
      rw [h, List.length_take] at hlen
      omega
    rw [List.take_append, List.take_of_length_le hlong, hwhile hmem] at h
    refine ⟨hmem, ?_, ?_⟩
    · rintro w ⟨rfl⟩
      exact hlong.trans_eq hn
    · cases width with
      | none =>
        refine Or.inr (h.elim (fun hzero => ?_) id)
        have hnil : rest = [] := by
          rw [hn] at hzero
          simpa using hzero
        simp [hnil]
      | some w =>
        refine h.imp_left fun hzero => ?_
        have hw : n = w := hn
        rw [show w = text.length by omega]

theorem reads_set_taken {width : Option ℕ} {store : Bool} {mem : UInt8 → Bool} {text t : Bytes}
    (h : Taken width mem text t) :
    reads (.set width store mem :: ds) (text ++ t) pos =
      (reads ds t (pos + text.length)).map fun u =>
        ((if store then [.text text] else []) ++ u.1, u.2) := by
  obtain ⟨htext, hwhile⟩ := taken_iff.mp h
  rw [reads, readOne, hwhile, if_neg htext, List.drop_left]
  rfl

theorem reads_set {width : Option ℕ} {store : Bool} {mem : UInt8 → Bool}
    {r : List Scanned × Bytes × ℕ} (h : reads (.set width store mem :: ds) s pos = some r) :
    ∃ text t u, s = text ++ t ∧ Taken width mem text t ∧
      reads ds t (pos + text.length) = some u ∧
      r = ((if store then [.text text] else []) ++ u.1, u.2) := by
  obtain ⟨items, t, pos', u, hone, hrest, hr⟩ := reads_cons_some h
  obtain ⟨htext, heq⟩ := readOne_set hone
  obtain ⟨text, hdef⟩ : ∃ text, text = (s.take (width.getD s.length)).takeWhile mem := ⟨_, rfl⟩
  rw [← hdef] at htext heq
  cases heq
  have hsplit : s = text ++ s.drop text.length := by
    have hpre : text <+: s := hdef ▸ (List.takeWhile_prefix mem).trans (List.take_prefix _ _)
    exact (List.prefix_iff_eq_append.mp hpre).symm
  refine ⟨text, _, u, hsplit, taken_iff.mpr ⟨htext, ?_⟩, hrest, hr⟩
  rw [← hsplit, hdef]

theorem digits_taken {mem : UInt8 → Bool} (hmem : ∀ b, mem b = true → (hexValue b).isSome = true)
    (s : Bytes) : ∃ w, s = w ++ s.dropWhile mem ∧ ∀ b ∈ w, (hexValue b).isSome = true :=
  ⟨s.takeWhile mem, List.takeWhile_append_dropWhile.symm,
    fun b hb => hmem b (List.mem_takeWhile_imp hb)⟩

theorem isDigit_hex {b : UInt8} (h : isDigit b = true) : (hexValue b).isSome = true := by
  simp [hexValue, h]

theorem isOctal_digit {b : UInt8} (h : isOctal b = true) : isDigit b = true := by
  simp only [isOctal, isDigit, Bool.and_eq_true, decide_eq_true_eq, UInt8.le_iff_toNat_le] at h ⊢
  exact ⟨h.1, h.2.trans (by decide)⟩

def NumberChar (b : UInt8) : Prop := (hexValue b).isSome = true ∨ b ∈ ascii "+-xX"

theorem scanDigits_taken {n : ℕ} (h : scanDigits s = some (n, rest)) :
    ∃ w, s = w ++ rest ∧ ∀ b ∈ w, NumberChar b := by
  unfold scanDigits at h
  split at h
  · rename_i x more
    split_ifs at h with hx
    · obtain ⟨w, hw, hhex⟩ : ∃ w, more = w ++ more.dropWhile (fun b => (hexValue b).isSome) ∧ _ :=
        digits_taken (fun _ => id) more
      cases h
      refine ⟨48 :: x :: w, by rw [List.cons_append, List.cons_append, ← hw], ?_⟩
      refine List.forall_mem_cons.mpr ⟨Or.inl rfl, List.forall_mem_cons.mpr ⟨Or.inr ?_, ?_⟩⟩
      · rcases hx with rfl | rfl <;> decide
      · exact fun b hb => Or.inl (hhex b hb)
    · obtain ⟨w, hw, hhex⟩ := digits_taken (fun _ hb => isDigit_hex (isOctal_digit hb)) (x :: more)
      cases h
      refine ⟨48 :: w, by rw [List.cons_append, ← hw], ?_⟩
      exact List.forall_mem_cons.mpr ⟨Or.inl rfl, fun b hb => Or.inl (hhex b hb)⟩
  · cases h
    exact ⟨[48], rfl, List.forall_mem_singleton.mpr (Or.inl rfl)⟩
  · dsimp only at h
    split_ifs at h
    obtain ⟨w, hw, hhex⟩ := digits_taken (fun _ => isDigit_hex) s
    cases h
    exact ⟨w, hw, fun b hb => Or.inl (hhex b hb)⟩

theorem scanInt_taken {z : ℤ} (h : scanInt s = some (z, rest)) :
    ∃ w, s = w ++ rest ∧ ∀ b ∈ w, NumberChar b := by
  unfold scanInt at h
  split at h
  · obtain ⟨⟨n, t⟩, hn, heq⟩ := Option.map_eq_some_iff.mp h
    cases heq
    obtain ⟨w, rfl, hw⟩ := scanDigits_taken hn
    exact ⟨45 :: w, rfl, List.forall_mem_cons.mpr ⟨Or.inr (by decide), hw⟩⟩
  · obtain ⟨⟨n, t⟩, hn, heq⟩ := Option.map_eq_some_iff.mp h
    cases heq
    obtain ⟨w, rfl, hw⟩ := scanDigits_taken hn
    exact ⟨43 :: w, rfl, List.forall_mem_cons.mpr ⟨Or.inr (by decide), hw⟩⟩
  · obtain ⟨⟨n, t⟩, hn, heq⟩ := Option.map_eq_some_iff.mp h
    cases heq
    exact scanDigits_taken hn

theorem readOne_pos (h : readOne d s pos = some (items, rest, pos')) :
    pos' + rest.length = pos + s.length := by
  cases d with
  | lit c =>
    cases s with
    | nil => cases h
    | cons b s =>
      rw [readOne] at h
      split_ifs at h
      cases h
      rw [List.length_cons]
      omega
  | space =>
    cases h
    have hlen := (List.dropWhile_suffix isSpace (l := s)).length_le
    omega
  | int store =>
    obtain ⟨⟨z, t⟩, hscan, h⟩ := Option.map_eq_some_iff.mp h
    cases h
    obtain ⟨w, hw, -⟩ := scanInt_taken hscan
    have hlen := (List.dropWhile_suffix isSpace (l := s)).length_le
    rw [hw, List.length_append] at hlen
    dsimp only
    omega
  | set width store mem =>
    obtain ⟨-, h⟩ := readOne_set h
    cases h
    have hlen := ((List.takeWhile_prefix mem).trans
      (List.take_prefix (width.getD s.length) s)).length_le
    rw [List.length_drop]
    omega
  | char =>
    cases s with
    | nil => cases h
    | cons b s =>
      cases h
      rw [List.length_cons]
      omega
  | count =>
    cases h
    rfl

theorem reads_pos (h : reads ds s pos = some (items, rest, pos')) :
    pos' + rest.length = pos + s.length := by
  induction ds generalizing s pos items with
  | nil =>
    cases h
    rfl
  | cons d ds ih =>
    obtain ⟨first, mid, pos₁, ⟨items', t⟩, hone, hrest, heq⟩ := reads_cons_some h
    cases heq
    rw [ih hrest, readOne_pos hone]

theorem scanned_lits (cs : Bytes) (ds : List Directive) (s : Bytes) (pos done : ℕ) (matched : Bool) :
    (sscanfLoop (cs.map .lit ++ ds) s pos done matched).2 =
      if cs <+: s then (sscanfLoop ds (s.drop cs.length) (pos + cs.length) done matched).2 else [] := by
  by_cases hpre : cs <+: s
  · obtain ⟨rest, rfl⟩ := hpre
    rw [sscanfLoop_lits, if_pos (List.prefix_append cs rest), List.drop_left]
  · rw [if_neg hpre]
    induction cs generalizing s pos with
    | nil => exact absurd List.nil_prefix hpre
    | cons c cs ih =>
      cases s with
      | nil => rfl
      | cons b s =>
        rw [List.map_cons, List.cons_append, sscanfLoop]
        by_cases hb : b = c
        · rw [if_pos hb]
          exact ih s (pos + 1) fun hrest => hpre (by rw [hb]; exact (List.prefix_cons_inj c).mpr hrest)
        · rw [if_neg hb]

theorem scanned_text (mem : UInt8 → Bool) (ds : List Directive) (s : Bytes) (pos done : ℕ) (matched : Bool) :
    (sscanfLoop (.set none true mem :: ds) s pos done matched).2.head? =
      if s.takeWhile mem = [] then none else some (.text (s.takeWhile mem)) := by
  have hwhole : (s.take ((none : Option ℕ).getD s.length)).takeWhile mem = s.takeWhile mem := by
    rw [Option.getD_none, List.take_length]
  rw [sscanfLoop, hwhole]
  cases s with
  | nil => rfl
  | cons b s =>
    rw [if_neg (List.cons_ne_nil b s)]
    by_cases htext : (b :: s).takeWhile mem = []
    · rw [if_pos htext, if_pos htext]
      rfl
    · rw [if_neg htext, if_neg htext]
      rfl

end SystemTestSuite.Library
