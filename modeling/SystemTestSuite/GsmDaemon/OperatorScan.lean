import SystemTestSuite.GsmDaemon.UsockCallbacks
import SystemTestSuite.Library.ScanfReads

namespace SystemTestSuite.GsmDaemon

open Library

def operFields (out : Bool) : List Directive :=
  let width (n : ℕ) := if out then some n else none
  [.lit 40, .int out, .lit 44, .lit 34, .set (width 16) out notQuote, .lit 34, .lit 44, .lit 34,
    .set (width 8) out notQuote, .lit 34, .lit 44, .lit 34]

def operCode (out : Bool) : Directive := .set (if out then some 6 else none) out isDigit

theorem operFormat_eq (out : Bool) :
    operFormat out = operFields out ++ operCode out :: [.lit 34, .lit 41, .count] := rfl

structure OperText (s : Bytes) (stat : ℤ) (long short code rest : Bytes) : Prop where
  int : ∃ t, s = 40 :: t ∧ scanInt (t.dropWhile isSpace) = some (stat,
    44 :: 34 :: (long ++ 34 :: 44 :: 34 :: (short ++ 34 :: 44 :: 34 :: (code ++ rest))))
  long : long ≠ [] ∧ ∀ b ∈ long, b ≠ 34
  short : short ≠ [] ∧ ∀ b ∈ short, b ≠ 34
  code : code ≠ [] ∧ ∀ b ∈ code, isDigit b = true

variable {s str rest long short code : Bytes} {stat : ℤ} {n m pos : ℕ} {items : List Scanned}

theorem notQuote_iff {text : Bytes} : (∀ b ∈ text, notQuote b = true) ↔ ∀ b ∈ text, b ≠ 34 := by
  simp [notQuote]

def operItems (out : Bool) (stat : ℤ) (long short code : Bytes) : List Scanned :=
  if out then [.int stat, .text long, .text short, .text code] else []

def OperWithin (out : Bool) (long short code rest : Bytes) : Prop :=
  if out then long.length ≤ 16 ∧ short.length ≤ 8 ∧ code.length ≤ 6 ∧
    (code.length = 6 ∨ ∀ b ∈ rest.head?, isDigit b = false)
  else ∀ b ∈ rest.head?, isDigit b = false

theorem taken_within {out : Bool} {k : ℕ} {mem : UInt8 → Bool} {text rest : Bytes} :
    Taken (if out then some k else none) mem text rest ↔
      text ≠ [] ∧ (∀ b ∈ text, mem b = true) ∧
        if out then text.length ≤ k ∧ (text.length = k ∨ ∀ b ∈ rest.head?, mem b = false)
        else ∀ b ∈ rest.head?, mem b = false := by
  cases out with
  | false => simp [Taken]
  | true => simp [Taken, eq_comm (a := k)]

theorem reads_operHead {out : Bool}
    (h : reads (operFields out ++ [operCode out]) s 0 = some (items, rest, pos)) :
    ∃ stat long short code, OperText s stat long short code rest ∧
      OperWithin out long short code rest ∧ items = operItems out stat long short code := by
  obtain ⟨t₀, rfl, h₀⟩ := reads_lit h
  obtain ⟨stat, t₁, ⟨i₁, u₁⟩, hint, h₁, heq₁⟩ := reads_int h₀
  obtain ⟨t₂, rfl, h₂⟩ := reads_lit h₁
  obtain ⟨t₃, rfl, h₃⟩ := reads_lit h₂
  obtain ⟨long, t₄, ⟨i₄, u₄⟩, rfl, hlong, h₄, heq₄⟩ := reads_set h₃
  obtain ⟨t₅, rfl, h₅⟩ := reads_lit h₄
  obtain ⟨t₆, rfl, h₆⟩ := reads_lit h₅
  obtain ⟨t₇, rfl, h₇⟩ := reads_lit h₆
  obtain ⟨short, t₈, ⟨i₈, u₈⟩, rfl, hshort, h₈, heq₈⟩ := reads_set h₇
  obtain ⟨t₉, rfl, h₉⟩ := reads_lit h₈
  obtain ⟨t₁₀, rfl, h₁₀⟩ := reads_lit h₉
  obtain ⟨t₁₁, rfl, h₁₁⟩ := reads_lit h₁₀
  obtain ⟨code, t₁₂, ⟨i₁₂, u₁₂⟩, rfl, hcode, h₁₂, heq₁₂⟩ := reads_set h₁₁
  cases h₁₂
  cases heq₁₂
  cases heq₈
  cases heq₄
  cases heq₁
  obtain ⟨hlong, hlong', hlong''⟩ := taken_within.mp hlong
  obtain ⟨hshort, hshort', hshort''⟩ := taken_within.mp hshort
  obtain ⟨hcode, hcode', hcode''⟩ := taken_within.mp hcode
  refine ⟨stat, long, short, code, ⟨⟨t₀, rfl, hint⟩, ⟨hlong, notQuote_iff.mp hlong'⟩,
    ⟨hshort, notQuote_iff.mp hshort'⟩, hcode, hcode'⟩, ?_, ?_⟩
  · cases out with
    | false => exact hcode''
    | true => exact ⟨hlong''.1, hshort''.1, hcode''⟩
  · cases out <;> rfl

theorem OperText.read {out : Bool} (h : OperText s stat long short code rest)
    (hwithin : OperWithin out long short code rest) :
    reads (operFields out ++ [operCode out]) s 0 =
      some (operItems out stat long short code, rest, s.length - rest.length) := by
  obtain ⟨⟨t, rfl, hint⟩, ⟨hlong, hlong'⟩, ⟨hshort, hshort'⟩, hcode, hcode'⟩ := h
  have hquote (t : Bytes) : ∀ b ∈ (34 :: t : Bytes).head?, notQuote b = false := by
    rintro b ⟨⟩
    rfl
  obtain ⟨hl, hs, hc⟩ : Taken (if out then some 16 else none) notQuote long
        (34 :: 44 :: 34 :: (short ++ 34 :: 44 :: 34 :: (code ++ rest))) ∧
      Taken (if out then some 8 else none) notQuote short (34 :: 44 :: 34 :: (code ++ rest)) ∧
      Taken (if out then some 6 else none) isDigit code rest := by
    simp only [taken_within, notQuote_iff]
    cases out with
    | false => exact ⟨⟨hlong, hlong', hquote _⟩, ⟨hshort, hshort', hquote _⟩, hcode, hcode', hwithin⟩
    | true =>
      obtain ⟨hl, hs, hc⟩ := hwithin
      exact ⟨⟨hlong, hlong', hl, Or.inr (hquote _)⟩, ⟨hshort, hshort', hs, Or.inr (hquote _)⟩,
        hcode, hcode', hc⟩
  have hread : ∃ end', reads (operFields out ++ [operCode out]) (40 :: t) 0 =
      some (operItems out stat long short code, rest, end') := by
    simp only [operFields, operCode, List.cons_append, List.nil_append, reads_lit_cons,
      reads_int_scanned hint, reads_set_taken hl, reads_set_taken hs, reads_set_taken hc]
    cases out <;> exact ⟨_, rfl⟩
  obtain ⟨end', hread⟩ := hread
  have hpos := reads_pos hread
  rw [hread, show end' = (40 :: t).length - rest.length by omega]

def Closes (rest : Bytes) : Prop := [34, 41] <+: rest

instance (rest : Bytes) : Decidable (Closes rest) := inferInstanceAs (Decidable (_ <+: _))

theorem sscanfLoop_close (rest : Bytes) (pos done : ℕ) :
    sscanfLoop [.lit 34, .lit 41, .count] rest pos done true =
      ((done : ℤ), if Closes rest then [.count (pos + 2)] else []) := by
  match rest with
  | [] => rfl
  | [b] =>
    by_cases hb : b = 34 <;> simp [sscanfLoop, Closes, hb]
  | b :: c :: rest =>
    by_cases hb : b = 34
    · by_cases hc : c = 41
      · simp [sscanfLoop, Closes, hb, hc]
      · simp [sscanfLoop, Closes, hb, hc, Ne.symm hc]
    · simp [sscanfLoop, Closes, hb, Ne.symm hb]

def operHead (out : Bool) : List Directive := operFields out ++ [operCode out]

def operStored (out : Bool) : ℕ := if out then 4 else 0

theorem sscanf_read {out : Bool}
    (h : reads (operHead out) (cstr str) 0 = some (items, rest, pos)) :
    sscanf str (operFormat out) =
      ((operStored out : ℤ), items ++ if Closes rest then [.count (pos + 2)] else []) := by
  have hformat : operFormat out = operHead out ++ [.lit 34, .lit 41, .count] := by
    rw [operFormat_eq, operHead, List.append_assoc]
    rfl
  have hstored : storesOf (operHead out) = operStored out := by cases out <;> rfl
  have hmatched : (operHead out).any Directive.converts = true := by cases out <;> rfl
  rw [sscanf, hformat, sscanfLoop_reads h, hmatched, Bool.false_or, sscanfLoop_close, Nat.zero_add,
    hstored]

theorem sscanf_unread {out : Bool} (h : reads (operHead out) (cstr str) 0 = none) :
    (sscanf str (operFormat out)).1 ≤ (if out then 3 else 0) ∧
      (sscanf str (operFormat out)).2.length ≤ if out then 3 else 0 := by
  have hcount : ∀ e ∈ operFields out, e ≠ .count := by
    cases out <;> simp [operFields]
  obtain ⟨hrc, hlen⟩ : (sscanfLoop (operFields out ++ operCode out :: [.lit 34, .lit 41, .count])
      (cstr str) 0 0 false).1 ≤ _ ∧ _ := sscanfLoop_stops h hcount
  have hstores : storesOf (operFields out) = if out then 3 else 0 := by cases out <;> rfl
  rw [hstores] at hrc hlen
  rw [sscanf, operFormat_eq]
  refine ⟨hrc.trans_eq ?_, hlen⟩
  cases out <;> rfl

/-- `n` behind the `sscanf` of an element, none where it has not stored enough. -/
def operEnd (out : Bool) (n : ℕ) (str : Bytes) : Option ℕ :=
  let scan := sscanf str (operFormat out)
  if scan.1 < (if out then 4 else 0) then none
  else some (match scan.2.getLast? with
    | some (.count m) => m
    | _ => n)

theorem operEnd_read {out : Bool} (h : reads (operHead out) (cstr str) 0 = some (items, rest, pos))
    (n : ℕ) : operEnd out n str = some (if Closes rest then pos + 2 else n) := by
  obtain ⟨stat, long, short, code, -, -, rfl⟩ := reads_operHead h
  rw [operEnd, sscanf_read h]
  cases out <;> by_cases hc : Closes rest <;> simp [operItems, operStored, hc]

theorem operEnd_unread (h : reads (operHead true) (cstr str) 0 = none) (n : ℕ) :
    operEnd true n str = none := by
  have hrc := (sscanf_unread h).1
  rw [operEnd]
  apply if_pos
  simp only [if_true] at hrc ⊢
  omega

theorem operElement_end (out : Bool) (l : OperLocals) (str : Bytes) (len : ℕ) (buf : Memory) :
    (operElement out l str len buf).1 = (operEnd out l.n str).isSome ∧
      (operElement out l str len buf).2.1.n = (operEnd out l.n str).getD l.n := by
  cases h : reads (operHead out) (cstr str) 0 with
  | some r =>
    obtain ⟨items, rest, pos⟩ := r
    rw [operEnd_read h, operElement, sscanf_read h]
    obtain ⟨stat, long, short, code, -, -, rfl⟩ := reads_operHead h
    cases out <;> by_cases hc : Closes rest <;> simp [operItems, operStored, hc]
  | none =>
    obtain ⟨hrc, hlen⟩ := sscanf_unread h
    cases out with
    | true =>
      have hlt : (sscanf str (operFormat true)).1 < 4 := by
        simp only [if_true] at hrc
        omega
      rw [operEnd_unread h, operElement]
      simp [hlt]
    | false =>
      have hnil : (sscanf str (operFormat false)).2 = [] := by simpa using hlen
      by_cases hneg : (sscanf str (operFormat false)).1 < 0
      · simp [operEnd, operElement, hneg]
      · simp [operEnd, operElement, hneg, hnil]

def operNext (out : Bool) (n : ℕ) (str : Bytes) : Option ℕ :=
  if str.head? = some 40 then
    (operEnd out n str).bind fun m =>
      if m < 10 ∨ str[m - 1]? ≠ some 41 then none else some (skipComma str m)
  else none

theorem operNext_some {out : Bool} (h : operNext out n str = some m) :
    str.head? = some 40 ∧ ∃ e, operEnd out n str = some e ∧ 10 ≤ e ∧ str[e - 1]? = some 41 ∧
      m = skipComma str e := by
  rw [operNext] at h
  split_ifs at h with hhead
  obtain ⟨e, he, h⟩ := Option.bind_eq_some_iff.mp h
  split_ifs at h with hstop
  simp only [not_or, not_lt, not_not] at hstop
  exact ⟨hhead, e, he, hstop.1, hstop.2, (Option.some.inj h).symm⟩

theorem operNext_of_end {out : Bool} (hhead : str.head? = some 40) {e : ℕ}
    (he : operEnd out n str = some e) (hten : 10 ≤ e) (hclose : str[e - 1]? = some 41) :
    operNext out n str = some (skipComma str e) := by
  rw [operNext, if_pos hhead, he, Option.bind_some, if_neg]
  simp only [not_or, not_lt, not_not]
  exact ⟨hten, hclose⟩

theorem append_cons_unique {α : Type} {a : α} {x y A B : List α} (hx : a ∉ x) (hy : a ∉ y)
    (h : x ++ a :: A = y ++ a :: B) : x = y ∧ A = B := by
  induction x generalizing y with
  | nil =>
    cases y with
    | nil => exact ⟨rfl, (List.cons.inj h).2⟩
    | cons c y =>
      obtain ⟨rfl, -⟩ := List.cons.inj h
      exact absurd List.mem_cons_self hy
  | cons b x ih =>
    cases y with
    | nil =>
      obtain ⟨rfl, -⟩ := List.cons.inj h
      exact absurd List.mem_cons_self hx
    | cons c y =>
      obtain ⟨rfl, htail⟩ := List.cons.inj h
      obtain ⟨rfl, hA⟩ := ih (fun hm => hx (List.mem_cons_of_mem _ hm))
        (fun hm => hy (List.mem_cons_of_mem _ hm)) htail
      exact ⟨rfl, hA⟩

theorem drop_append_cons {α : Type} {a : α} {x y r : List α} {k : ℕ} (h : (x ++ y).drop k = a :: r) :
    (∃ r', x.drop k = a :: r' ∧ r = r' ++ y) ∨ x.length ≤ k ∧ y.drop (k - x.length) = a :: r := by
  rw [List.drop_append] at h
  cases hx : x.drop k with
  | nil =>
    rw [hx, List.nil_append] at h
    exact Or.inr ⟨List.drop_eq_nil_iff.mp hx, h⟩
  | cons b r' =>
    rw [hx] at h
    have hk : k - x.length = 0 := by
      have hlt : k < x.length := by
        by_contra hle
        rw [List.drop_eq_nil_of_le (Nat.le_of_not_lt hle)] at hx
        cases hx
      omega
    rw [hk, List.drop_zero] at h
    obtain ⟨rfl, rfl⟩ := List.cons.inj h
    exact Or.inl ⟨r', rfl, rfl⟩

theorem drop_append_skip {α : Type} {a : α} {x y r : List α} {k : ℕ} (h : (x ++ y).drop k = a :: r)
    (hx : a ∉ x) : x.length ≤ k ∧ y.drop (k - x.length) = a :: r := by
  apply (drop_append_cons h).resolve_left
  rintro ⟨r', hr', -⟩
  exact hx (List.mem_of_mem_drop (hr' ▸ List.mem_cons_self))

theorem OperText.split (h : OperText s stat long short code rest) :
    ∃ w, s = w ++ 34 :: (long ++ 34 :: ([44] ++ 34 :: (short ++ 34 :: ([44] ++ 34 :: (code ++ rest))))) ∧
      34 ∉ w ∧ 41 ∉ w := by
  obtain ⟨t, rfl, hint⟩ := h.int
  obtain ⟨w, hw, hchars⟩ := scanInt_taken hint
  have hspace : ∀ b ∈ t.takeWhile isSpace, isSpace b = true := fun b hb => List.mem_takeWhile_imp hb
  have hplain {c : UInt8} (hc : c ≠ 40 ∧ c ≠ 44) (hs : isSpace c = false) (hn : ¬ NumberChar c) :
      c ∉ 40 :: (t.takeWhile isSpace ++ w ++ [44]) := by
    simp only [List.mem_cons, List.mem_append, List.not_mem_nil, or_false]
    rintro (hc' | (hc' | hc') | hc')
    · exact hc.1 hc'
    · rw [hspace c hc'] at hs
      cases hs
    · exact hn (hchars c hc')
    · exact hc.2 hc'
  have hnumber {c : UInt8} (hhex : hexValue c = none) (hsign : c ∉ ascii "+-xX") :
      ¬ NumberChar c := by
    rintro (hc | hc)
    · rw [hhex] at hc
      cases hc
    · exact hsign hc
  refine ⟨40 :: (t.takeWhile isSpace ++ w ++ [44]), ?_,
    hplain (by decide) rfl (hnumber rfl (by decide)), hplain (by decide) rfl (hnumber rfl (by decide))⟩
  have ht : t = t.takeWhile isSpace ++ t.dropWhile isSpace :=
    List.takeWhile_append_dropWhile.symm
  conv_lhs => rw [ht, hw]
  simp

theorem comma_ne_quote : (34 : UInt8) ∉ ([44] : Bytes) := by decide

theorem OperText.quotes (h : OperText s stat long short code rest) {y z : Bytes} (hy : 34 ∉ y)
    (hs : s = y ++ 34 :: ([44] ++ 34 :: z)) :
    z = [44] ++ 34 :: (short ++ 34 :: ([44] ++ 34 :: (code ++ rest))) := by
  obtain ⟨w, hw, hw', -⟩ := h.split
  obtain ⟨-, h₁⟩ := append_cons_unique hy hw' (hs.symm.trans hw)
  obtain ⟨-, h₂⟩ := append_cons_unique comma_ne_quote (fun hm => h.long.2 34 hm rfl) h₁
  exact h₂

theorem OperText.code_ne (h : OperText s stat long short code rest) (more z : Bytes) :
    code ++ more ≠ [44] ++ z := by
  obtain ⟨d, ds, hd⟩ := List.exists_cons_of_ne_nil h.code.1
  have hdigit := h.code.2 d (hd ▸ List.mem_cons_self)
  rw [hd]
  rintro ⟨⟩
  cases hdigit

theorem OperText.not_inside {z : ℤ} {long' short' code' rest' y : Bytes}
    (h : OperText s stat long short code rest) (h' : OperText str z long' short' code' rest')
    (hy : 34 ∉ y)
    (hstr : str = y ++ 34 :: ([44] ++ 34 :: (short ++ 34 :: ([44] ++ 34 :: (code ++ rest)))) ∨
      str = y ++ 34 :: ([44] ++ 34 :: (code ++ rest))) : False := by
  rcases hstr with hstr | hstr
  · have h₁ := h'.quotes hy hstr
    obtain ⟨-, h₂⟩ := append_cons_unique (fun hm => h.short.2 34 hm rfl) comma_ne_quote h₁
    obtain ⟨-, h₃⟩ := append_cons_unique comma_ne_quote (fun hm => h'.short.2 34 hm rfl) h₂
    exact h.code_ne _ _ h₃
  · exact h.code_ne _ _ (h'.quotes hy hstr)

theorem OperText.inside {k : ℕ} {r : Bytes} (h : OperText s stat long short code (34 :: 41 :: rest))
    (hk : k + 1 + rest.length < s.length) (hr : s.drop k = 41 :: r) :
    ∃ y, 34 ∉ y ∧
      (r = y ++ 34 :: ([44] ++ 34 :: (short ++ 34 :: ([44] ++ 34 :: (code ++ 34 :: 41 :: rest)))) ∨
        r = y ++ 34 :: ([44] ++ 34 :: (code ++ 34 :: 41 :: rest))) := by
  obtain ⟨w, hs, -, hw⟩ := h.split
  have hsuffix {x y : Bytes} {i : ℕ} (hx : ∀ b ∈ x, b ≠ 34) (hy : x.drop i = 41 :: y) : 34 ∉ y :=
    fun hm => hx 34 (List.mem_of_mem_drop (hy ▸ List.mem_cons_of_mem _ hm)) rfl
  have hbetween : (41 : UInt8) ∉ ([34, 44, 34] : Bytes) := by decide
  have hcode : 41 ∉ code ++ [34] := by
    have hdigit : 41 ∉ code := fun hm => absurd (h.code.2 41 hm) (by decide)
    simpa using hdigit
  have hw' : 41 ∉ w ++ [34] := by simpa using hw
  have hsplit : s = (w ++ [34]) ++ (long ++ ([34, 44, 34] ++ (short ++ ([34, 44, 34] ++
      ((code ++ [34]) ++ 41 :: rest))))) := by
    rw [hs]
    simp
  rw [hsplit] at hr
  obtain ⟨hle, hr⟩ := drop_append_skip hr hw'
  rcases drop_append_cons hr with ⟨y, hy, rfl⟩ | ⟨hle', hr⟩
  · exact ⟨y, hsuffix h.long.2 hy, Or.inl (by simp)⟩
  · obtain ⟨hle₁, hr⟩ := drop_append_skip hr hbetween
    rcases drop_append_cons hr with ⟨y, hy, rfl⟩ | ⟨hle₂, hr⟩
    · exact ⟨y, hsuffix h.short.2 hy, Or.inr (by simp)⟩
    · obtain ⟨hle₃, hr⟩ := drop_append_skip hr hbetween
      obtain ⟨hle₄, -⟩ := drop_append_skip hr hcode
      have hlen := congrArg List.length hsplit
      simp only [List.length_append, List.length_cons, List.length_nil] at hlen hle hle₁ hle₃ hle₄
      omega

theorem operNext_reads (h : operNext true n str = some m) :
    ∃ items rest pos, reads (operHead true) (cstr str) 0 = some (items, rest, pos) := by
  obtain ⟨-, e, he, -⟩ := operNext_some h
  cases hread : reads (operHead true) (cstr str) 0 with
  | none =>
    rw [operEnd_unread hread] at he
    cases he
  | some r => exact ⟨r.1, r.2.1, r.2.2, rfl⟩

theorem operNext_inside (h : OperText (cstr str) stat long short code (34 :: 41 :: rest)) (hn : 1 ≤ n)
    (hinside : n + rest.length < (cstr str).length) (hbracket : str[n - 1]? = some 41) :
    operNext true (skipComma str n) (str.drop (skipComma str n)) = none := by
  cases hnext : operNext true (skipComma str n) (str.drop (skipComma str n)) with
  | none => rfl
  | some m =>
    obtain ⟨items, rest', pos, hread⟩ := operNext_reads hnext
    obtain ⟨z, long', short', code', htext, -⟩ := reads_operHead hread
    have hdrop : (cstr str).drop (n - 1) = 41 :: (cstr str).drop n := by
      rw [getElem?_in_cstr (by omega)] at hbracket
      obtain ⟨hlt, heq⟩ := List.getElem?_eq_some_iff.mp hbracket
      rw [List.drop_eq_getElem_cons hlt, heq, Nat.sub_add_cancel hn]
    obtain ⟨y, hy, hr⟩ := h.inside (by omega) hdrop
    have hskip : skipComma str n ≤ (cstr str).length := by
      rw [skipComma]
      split_ifs <;> omega
    rw [cstr_drop hskip] at htext
    rw [skipComma] at htext
    by_cases hcomma : str[n]? = some 44
    · rw [if_pos hcomma] at htext
      rw [getElem?_in_cstr (by omega)] at hcomma
      obtain ⟨hlt, heq⟩ := List.getElem?_eq_some_iff.mp hcomma
      rw [List.drop_eq_getElem_cons hlt, heq] at hr
      cases y with
      | nil => rcases hr with hr | hr <;> cases hr
      | cons c y =>
        have hy' : 34 ∉ y := fun hm => hy (List.mem_cons_of_mem _ hm)
        exact (h.not_inside htext hy' (hr.imp (fun hr => (List.cons.inj hr).2)
          fun hr => (List.cons.inj hr).2)).elim
    · rw [if_neg hcomma] at htext
      exact (h.not_inside htext hy hr).elim

/-- The element is complete, its code has more than six digits, and the old `n` stands behind a `)`
further on, where a `(` follows. -/
structure Strays (n : ℕ) (str : Bytes) : Prop where
  element : ∃ stat long short code tail,
    OperText (cstr str) stat long short code (34 :: 41 :: tail) ∧ long.length ≤ 16 ∧
      short.length ≤ 8 ∧ 6 < code.length ∧ (cstr str).length < n + tail.length
  bracket : str[n - 1]? = some 41
  next : str[skipComma str n]? = some 40

theorem OperText.length (h : OperText s stat long short code rest) : 10 + rest.length ≤ s.length := by
  obtain ⟨w, hs, -⟩ := h.split
  have hlong := List.length_pos_of_ne_nil h.long.1
  have hshort := List.length_pos_of_ne_nil h.short.1
  have hcode := List.length_pos_of_ne_nil h.code.1
  have hlen := congrArg List.length hs
  simp only [List.length_append, List.length_cons, List.length_nil] at hlen
  omega

theorem OperText.bracket (h : OperText s stat long short code (34 :: 41 :: rest)) :
    s[s.length - rest.length - 1]? = some 41 := by
  obtain ⟨w, hs, -⟩ := h.split
  obtain ⟨x, hx⟩ : ∃ x, s = x ++ 41 :: rest := by
    refine ⟨w ++ 34 :: (long ++ 34 :: ([44] ++ 34 :: (short ++ 34 :: ([44] ++ 34 :: (code ++ [34]))))), ?_⟩
    rw [hs]
    simp
  have hlen : (x ++ 41 :: rest).length - rest.length - 1 = x.length := by
    rw [List.length_append, List.length_cons]
    omega
  rw [hx, hlen, List.getElem?_append_right (Nat.le_refl _), Nat.sub_self]
  rfl

theorem OperText.whole (h : OperText s stat long short code rest) :
    OperText s stat long short (code ++ rest.takeWhile isDigit) (rest.dropWhile isDigit) ∧
      OperWithin false long short (code ++ rest.takeWhile isDigit) (rest.dropWhile isDigit) := by
  refine ⟨⟨?_, h.long, h.short, ?_, ?_⟩, ?_⟩
  · rw [List.append_assoc, List.takeWhile_append_dropWhile]
    exact h.int
  · exact List.append_ne_nil_of_left_ne_nil h.code.1 _
  · exact List.forall_mem_append.mpr ⟨h.code.2, fun b hb => List.mem_takeWhile_imp hb⟩
  · have hstop := List.head?_dropWhile_not isDigit rest
    intro b hb
    rw [hb] at hstop
    exact hstop

theorem digits_left (hwhole : OperText (cstr str) stat long short code (34 :: 41 :: rest))
    (hlong : long.length ≤ 16) (hshort : short.length ≤ 8) (hcode : 6 < code.length) (hten : 10 ≤ n)
    (hbracket : str[n - 1]? = some 41) :
    skipComma str ((cstr str).length - rest.length) = skipComma str n ∨
      operNext true (skipComma str n) (str.drop (skipComma str n)) = none ∨ Strays n str := by
  have hlen := hwhole.length
  rw [List.length_cons, List.length_cons] at hlen
  rcases Nat.lt_trichotomy n ((cstr str).length - rest.length) with hlt | heq | hgt
  · exact Or.inr (Or.inl (operNext_inside hwhole (by omega) (by omega) hbracket))
  · rw [heq]
    exact Or.inl rfl
  · by_cases hnext : str[skipComma str n]? = some 40
    · refine Or.inr (Or.inr ⟨⟨stat, long, short, code, rest, hwhole, hlong, hshort, hcode, ?_⟩,
        hbracket, hnext⟩)
      omega
    · refine Or.inr (Or.inl (if_neg ?_))
      rwa [List.head?_drop]

/-- Whatever the filling pass takes, the counting one takes; with another cursor behind it only
where the filling pass ends next, or strays. -/
theorem operNext_passes (h : operNext true n str = some m) :
    ∃ m', operNext false n str = some m' ∧
      (m' = m ∨ operNext true m (str.drop m) = none ∨ Strays n str) := by
  obtain ⟨hhead, e, he, hten, hbracket, rfl⟩ := operNext_some h
  obtain ⟨items, rest, pos, hread⟩ := operNext_reads h
  have hpos := reads_pos hread
  obtain ⟨stat, long, short, code, htext, ⟨hlong, hshort, -, hstop⟩, -⟩ := reads_operHead hread
  obtain ⟨hwhole, hwithin⟩ := htext.whole
  obtain ⟨rest', hrest'⟩ : ∃ rest', rest' = rest.dropWhile isDigit := ⟨_, rfl⟩
  rw [← hrest'] at hwhole hwithin
  have hcount := operEnd_read (hwhole.read hwithin) n
  have he' : (if Closes rest then pos + 2 else n) = e := by
    rw [operEnd_read hread] at he
    exact Option.some.inj he
  by_cases hcloses' : Closes rest'
  · rw [if_pos hcloses'] at hcount
    obtain ⟨tail, htail⟩ := hcloses'
    obtain rfl : rest' = 34 :: 41 :: tail := htail.symm
    have hlen := hwhole.length
    rw [List.length_cons, List.length_cons] at hlen hcount
    by_cases hcloses : Closes rest
    · -- both passes are at the end of the element
      have hsame : rest = 34 :: 41 :: tail := by
        obtain ⟨tail', rfl⟩ := hcloses
        exact hrest'.symm
      rw [if_pos hcloses] at he'
      rw [hsame, List.length_cons, List.length_cons] at hpos
      refine ⟨_, operNext_of_end hhead hcount ?_ ?_, Or.inl ?_⟩
      · omega
      · rw [← hbracket]
        congr 1
        omega
      · congr 1
        omega
    · rw [if_neg hcloses] at he'
      subst he'
      have hsplit : rest.takeWhile isDigit ++ 34 :: 41 :: tail = rest := by
        rw [hrest', List.takeWhile_append_dropWhile]
      have hmore : rest.takeWhile isDigit ≠ [] := by
        intro hnil
        rw [hnil] at hsplit
        exact hcloses ⟨tail, hsplit⟩
      have hcode : 6 < (code ++ rest.takeWhile isDigit).length := by
        have hpos := List.length_pos_of_ne_nil hmore
        rw [List.length_append]
        refine (hstop.resolve_right fun hhead => hmore ?_).symm ▸ by omega
        cases hr : rest with
        | nil => rfl
        | cons b bs => exact List.takeWhile_cons_of_neg (by rw [hhead b (by rw [hr]; rfl)]; decide)
      have hend : (cstr str).length - (tail.length + 1 + 1) + 2 =
          (cstr str).length - tail.length := by
        omega
      rw [hend] at hcount
      have hclose : str[(cstr str).length - tail.length - 1]? = some 41 := by
        rw [getElem?_in_cstr (by omega)]
        exact hwhole.bracket
      exact ⟨_, operNext_of_end hhead hcount (by omega) hclose,
        digits_left hwhole hlong hshort hcode hten hbracket⟩
  · have hcloses : ¬ Closes rest := by
      rintro ⟨tail, rfl⟩
      exact hcloses' (hrest' ▸ ⟨tail, rfl⟩)
    rw [if_neg hcloses] at he'
    subst he'
    rw [if_neg hcloses'] at hcount
    exact ⟨_, operNext_of_end hhead hcount hten hbracket, Or.inl rfl⟩

end SystemTestSuite.GsmDaemon
