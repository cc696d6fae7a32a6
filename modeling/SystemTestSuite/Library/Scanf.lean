import SystemTestSuite.Library.Hex

/-!
`sscanf` and other readers of the C library, on the bytes from a pointer on. An `int` and a `long`
have 32 bits.
-/

namespace SystemTestSuite.Library

inductive Directive
  | lit (c : UInt8)
  | space
  | int (store : Bool)
  | set (width : Option ℕ) (store : Bool) (mem : UInt8 → Bool)
  | char
  | count

inductive Scanned
  | int (z : ℤ)
  | text (bs : Bytes)
  | char (c : UInt8)
  | count (n : ℕ)
  deriving DecidableEq, Repr

def ordinary (s : String) : List Directive :=
  (ascii s).map (fun c => if isSpace c then .space else .lit c)

def isOctal (b : UInt8) : Bool := 48 ≤ b && b ≤ 55

def clampInt (z : ℤ) : ℤ := max (-2 ^ 31) (min (2 ^ 31 - 1) z)

def digitsIn (base : ℕ) (ds : Bytes) : ℕ :=
  ds.foldl (fun n d => base * n + (hexValue d).getD 0) 0

def scanDigits (s : Bytes) : Option (ℕ × Bytes) :=
  match s with
  | 48 :: x :: rest =>
    if x = 120 ∨ x = 88 then
      some (digitsIn 16 (rest.takeWhile (fun b => (hexValue b).isSome)),
        rest.dropWhile (fun b => (hexValue b).isSome))
    else some (digitsIn 8 ((x :: rest).takeWhile isOctal), (x :: rest).dropWhile isOctal)
  | [48] => some (0, [])
  | _ =>
    let ds := s.takeWhile isDigit
    if ds = [] then none else some (digitsIn 10 ds, s.dropWhile isDigit)

def scanInt (s : Bytes) : Option (ℤ × Bytes) :=
  match s with
  | 45 :: rest => (scanDigits rest).map (fun r => (clampInt (-r.1), r.2))
  | 43 :: rest => (scanDigits rest).map (fun r => (clampInt r.1, r.2))
  | _ => (scanDigits s).map (fun r => (clampInt r.1, r.2))

/-- The return value and what is stored, in order. `pos` bytes are read, `done` items stored, and
`matched` tells whether a conversion has succeeded: then the end of the input is no `EOF`. -/
def sscanfLoop : List Directive → Bytes → ℕ → ℕ → Bool → ℤ × List Scanned
  | [], _, _, done, _ => (done, [])
  | .space :: ds, s, pos, done, matched =>
    let rest := s.dropWhile isSpace
    sscanfLoop ds rest (pos + (s.length - rest.length)) done matched
  | .lit c :: ds, s, pos, done, matched =>
    match s with
    | [] => (if matched then done else -1, [])
    | b :: rest => if b = c then sscanfLoop ds rest (pos + 1) done matched else (done, [])
  | .int store :: ds, s, pos, done, matched =>
    let s' := s.dropWhile isSpace
    if s' = [] then (if matched then done else -1, [])
    else
      match scanInt s' with
      | none => (done, [])
      | some (z, rest) =>
        let pos := pos + (s.length - rest.length)
        if store then
          let r := sscanfLoop ds rest pos (done + 1) true
          (r.1, .int z :: r.2)
        else sscanfLoop ds rest pos done true
  | .set width store mem :: ds, s, pos, done, matched =>
    if s = [] then (if matched then done else -1, [])
    else
      let text := (s.take (width.getD s.length)).takeWhile mem
      if text = [] then (done, [])
      else if store then
        let r := sscanfLoop ds (s.drop text.length) (pos + text.length) (done + 1) true
        (r.1, .text text :: r.2)
      else sscanfLoop ds (s.drop text.length) (pos + text.length) done true
  | .char :: ds, s, pos, done, matched =>
    match s with
    | [] => (if matched then done else -1, [])
    | b :: rest =>
      let r := sscanfLoop ds rest (pos + 1) (done + 1) true
      (r.1, .char b :: r.2)
  | .count :: ds, s, pos, done, matched =>
    let r := sscanfLoop ds s pos done matched
    (r.1, .count pos :: r.2)

def sscanf (s : Bytes) (format : List Directive) : ℤ × List Scanned :=
  sscanfLoop format (cstr s) 0 0 false

/-- `%2hhX` on two characters none of which is white space or a sign. -/
def scanHexPair (a b : UInt8) : Option UInt8 := do
  let high ← hexValue a
  match hexValue b with
  | some low => return UInt8.ofNat (16 * high + low)
  | none => return if b = 120 ∧ a = 48 then 0 else UInt8.ofNat high

def atoi (s : Bytes) : ℤ :=
  let body := (cstr s).dropWhile isSpace
  let neg := body.head? = some 45
  let rest := if body.head? = some 45 ∨ body.head? = some 43 then body.tail else body
  let v : ℤ := digitsValue (rest.takeWhile isDigit)
  clampInt (if neg then -v else v)

/-- Where `atoi` stops; `[]` when nothing in `s` stops it. -/
def atoiRest (s : Bytes) : Bytes :=
  let body := s.dropWhile isSpace
  (if body.head? = some 45 ∨ body.head? = some 43 then body.tail else body).dropWhile isDigit

/-- `strtoul(s, NULL, 16)` with a 32-bit `unsigned long`. -/
def strtoulHex (s : Bytes) : ℕ :=
  let isHex (b : UInt8) : Bool := (hexValue b).isSome
  let body := (cstr s).dropWhile isSpace
  let rest := if body.head? = some 45 ∨ body.head? = some 43 then body.tail else body
  let digits :=
    if rest.head? = some 48 ∧ (rest[1]? = some 120 ∨ rest[1]? = some 88) ∧ rest[2]?.any isHex = true then
      rest.drop 2
    else rest
  let v := digitsIn 16 (digits.takeWhile isHex)
  if 2 ^ 32 ≤ v then 2 ^ 32 - 1 else if body.head? = some 45 then (2 ^ 32 - v) % 2 ^ 32 else v

def strrchr (s : Bytes) (c : UInt8) : Option ℕ :=
  ((cstr s).reverse.findIdx? (· = c)).map (fun i => (cstr s).length - 1 - i)

def strpbrk (s accept : Bytes) : Option ℕ := (cstr s).findIdx? (accept.contains ·)

/-- What `strtok` called again and again returns pointers to: each token with its NUL and all bytes
behind it. At most `fuel` of them. -/
def strtokLoop (delim : UInt8) : ℕ → Bytes → List Bytes
  | 0, _ => []
  | fuel + 1, s =>
    let s := s.dropWhile (· = delim)
    let token := (cstr s).takeWhile (· ≠ delim)
    if token = [] then []
    else
      let rest := s.drop token.length
      if rest.head? = some delim then (token ++ 0 :: rest.tail) :: strtokLoop delim fuel rest.tail
      else [token ++ rest]

def strtokAll (delim : UInt8) (s : Bytes) : List Bytes := strtokLoop delim (cstr s).length s

theorem strchr_at {pre rest : Bytes} {c : UInt8} (hpre : ∀ b ∈ pre, b ≠ 0 ∧ b ≠ c) (hc : c ≠ 0) :
    strchr (pre ++ c :: rest) c = some pre.length := by
  have hnone : pre.findIdx? (· = c) = none := by
    rw [List.findIdx?_eq_none_iff]
    exact fun b hb => decide_eq_false (hpre b hb).2
  have hfirst : (c :: cstr rest).findIdx? (· = c) = some 0 := by
    rw [List.findIdx?_cons, if_pos (decide_eq_true rfl)]
  rw [strchr, cstr_append (fun b hb => (hpre b hb).1), cstr_cons hc, List.findIdx?_append, hnone,
    hfirst]
  simp

theorem strrchr_at {pre post more : Bytes} {c : UInt8} (hpre : ∀ b ∈ pre, b ≠ 0)
    (hpost : ∀ b ∈ post, b ≠ 0 ∧ b ≠ c) (hc : c ≠ 0) :
    strrchr (pre ++ c :: (post ++ 0 :: more)) c = some pre.length := by
  have hcstr : cstr (pre ++ c :: (post ++ 0 :: more)) = pre ++ c :: post := by
    rw [cstr_append hpre, cstr_cons hc, cstr_ended fun b hb => (hpost b hb).1]
  have hnone : post.reverse.findIdx? (· = c) = none := by
    rw [List.findIdx?_eq_none_iff]
    exact fun b hb => decide_eq_false (hpost b (List.mem_reverse.mp hb)).2
  have hfirst : (c :: pre.reverse).findIdx? (· = c) = some 0 := by
    rw [List.findIdx?_cons, if_pos (decide_eq_true rfl)]
  rw [strrchr, hcstr, List.reverse_append, List.reverse_cons, List.append_assoc,
    List.singleton_append, List.findIdx?_append, hnone, hfirst]
  simp

theorem strtokLoop_last {delim : UInt8} (hdelim : delim ≠ 0) {line : Bytes} (hne : line ≠ [])
    (h : ∀ b ∈ line, b ≠ 0 ∧ b ≠ delim) (fuel : ℕ) {behind : Bytes} (hend : cstr behind = []) :
    strtokLoop delim (fuel + 1) (line ++ behind) = [line ++ behind] := by
  obtain ⟨c, rest, rfl⟩ := List.exists_cons_of_ne_nil hne
  have hcstr : cstr ((c :: rest) ++ behind) = c :: rest := by
    rw [cstr_append (fun b hb => (h b hb).1), hend, List.append_nil]
  have hstart : ((c :: rest) ++ behind).dropWhile (· = delim) = (c :: rest) ++ behind := by
    rw [List.cons_append, List.dropWhile_cons_of_neg]
    rw [decide_eq_true_eq]
    exact (h c List.mem_cons_self).2
  have htoken : (c :: rest).takeWhile (· ≠ delim) = c :: rest := by
    rw [List.takeWhile_eq_self_iff]
    exact fun b hb => decide_eq_true (h b hb).2
  have hbehind : behind.head? ≠ some delim := by
    intro heq
    obtain ⟨more, rfl⟩ := List.head?_eq_some_iff.mp heq
    rw [cstr_cons hdelim] at hend
    cases hend
  rw [strtokLoop, hstart, hcstr, htoken, List.drop_left]
  simp [hbehind]

theorem strtokLoop_next {delim : UInt8} (hdelim : delim ≠ 0) {line : Bytes} (hne : line ≠ [])
    (h : ∀ b ∈ line, b ≠ 0 ∧ b ≠ delim) (fuel : ℕ) (rest : Bytes) :
    strtokLoop delim (fuel + 1) (line ++ delim :: rest) =
      (line ++ 0 :: rest) :: strtokLoop delim fuel rest := by
  obtain ⟨c, cs, rfl⟩ := List.exists_cons_of_ne_nil hne
  have hstart : ((c :: cs) ++ delim :: rest).dropWhile (· = delim) = (c :: cs) ++ delim :: rest := by
    rw [List.cons_append, List.dropWhile_cons_of_neg]
    rw [decide_eq_true_eq]
    exact (h c List.mem_cons_self).2
  have htoken : (cstr ((c :: cs) ++ delim :: rest)).takeWhile (· ≠ delim) = c :: cs := by
    have hline : ∀ b ∈ c :: cs, decide (b ≠ delim) = true := fun b hb => decide_eq_true (h b hb).2
    rw [cstr_append fun b hb => (h b hb).1, cstr_cons hdelim, List.takeWhile_append_of_pos hline]
    simp
  rw [strtokLoop, hstart, htoken, List.drop_left]
  simp

theorem strtokAll_one {delim : UInt8} (hdelim : delim ≠ 0) {line : Bytes} (hne : line ≠ [])
    (h : ∀ b ∈ line, b ≠ 0 ∧ b ≠ delim) (more : Bytes) :
    strtokAll delim (line ++ 0 :: more) = [line ++ 0 :: more] := by
  obtain ⟨n, hn⟩ := Nat.exists_eq_succ_of_ne_zero (List.length_pos_of_ne_nil hne).ne'
  rw [strtokAll, cstr_ended fun b hb => (h b hb).1, hn, strtokLoop_last hdelim hne h n rfl]

theorem strtokLoop_lines {delim : UInt8} (hdelim : delim ≠ 0) {lines : List Bytes}
    (h : ∀ line ∈ lines, line ≠ [] ∧ ∀ b ∈ line, b ≠ 0 ∧ b ≠ delim) (more : Bytes) {fuel : ℕ}
    (hfuel : lines.length ≤ fuel) :
    List.Forall₂ (fun line token => ∃ behind, token = line ++ 0 :: behind) lines
      (strtokLoop delim fuel ([delim].intercalate lines ++ 0 :: more)) := by
  induction lines generalizing fuel with
  | nil =>
    have hnone : strtokLoop delim fuel (0 :: more) = [] := by
      cases fuel with
      | zero => rfl
      | succ fuel =>
        have hskip : (0 :: more).dropWhile (· = delim) = 0 :: more :=
          List.dropWhile_cons_of_neg (by simpa using Ne.symm hdelim)
        rw [strtokLoop, hskip]
        exact if_pos rfl
    change List.Forall₂ _ [] (strtokLoop delim fuel (0 :: more))
    rw [hnone]
    exact .nil
  | cons line lines ih =>
    obtain ⟨hne, hline⟩ := h line List.mem_cons_self
    rw [List.length_cons] at hfuel
    obtain ⟨fuel, rfl⟩ : ∃ n, fuel = n + 1 := ⟨fuel - 1, by omega⟩
    cases lines with
    | nil =>
      rw [List.intercalate_singleton, strtokLoop_last hdelim hne hline fuel rfl]
      exact .cons ⟨more, rfl⟩ .nil
    | cons next lines =>
      rw [List.intercalate_cons_cons, List.append_assoc, List.append_assoc, List.singleton_append,
        strtokLoop_next hdelim hne hline]
      exact .cons ⟨_, rfl⟩ (ih (fun l hl => h l (List.mem_cons_of_mem _ hl)) (by omega))

theorem joined_ne_zero {delim : UInt8} (hdelim : delim ≠ 0) {lines : List Bytes}
    (h : ∀ line ∈ lines, ∀ b ∈ line, b ≠ 0) : ∀ b ∈ [delim].intercalate lines, b ≠ 0 := by
  induction lines with
  | nil => exact List.forall_mem_nil _
  | cons line lines ih =>
    have hline := h line List.mem_cons_self
    have hrest := ih fun l hl => h l (List.mem_cons_of_mem _ hl)
    cases lines with
    | nil =>
      rw [List.intercalate_singleton]
      exact hline
    | cons next lines =>
      rw [List.intercalate_cons_cons, List.forall_mem_append, List.forall_mem_append,
        List.forall_mem_singleton]
      exact ⟨⟨hline, hdelim⟩, hrest⟩

theorem joined_length {delim : UInt8} {lines : List Bytes} (h : ∀ line ∈ lines, line ≠ []) :
    lines.length ≤ ([delim].intercalate lines).length := by
  induction lines with
  | nil => exact Nat.zero_le _
  | cons line lines ih =>
    have hline := List.length_pos_of_ne_nil (h line List.mem_cons_self)
    have hrest := ih fun l hl => h l (List.mem_cons_of_mem _ hl)
    cases lines with
    | nil =>
      rw [List.intercalate_singleton]
      exact hline
    | cons next lines =>
      rw [List.intercalate_cons_cons, List.length_append, List.length_append, List.length_cons,
        List.length_singleton]
      omega

theorem strtokAll_lines {delim : UInt8} (hdelim : delim ≠ 0) {lines : List Bytes}
    (h : ∀ line ∈ lines, line ≠ [] ∧ ∀ b ∈ line, b ≠ 0 ∧ b ≠ delim) (more : Bytes) :
    List.Forall₂ (fun line token => ∃ behind, token = line ++ 0 :: behind) lines
      (strtokAll delim ([delim].intercalate lines ++ 0 :: more)) := by
  have hcstr := cstr_ended (joined_ne_zero hdelim fun line hl b hb => ((h line hl).2 b hb).1) more
  rw [strtokAll, hcstr]
  exact strtokLoop_lines hdelim h more (joined_length fun line hl => (h line hl).1)

theorem strtoulHex_quoted {digits : Bytes} (h : ∀ d ∈ digits, (hexValue d).isSome = true)
    (hsmall : digitsIn 16 digits < 2 ^ 32) (rest : Bytes) :
    strtoulHex (digits ++ 34 :: rest) = digitsIn 16 digits := by
  have hquote : hexValue 34 = none := rfl
  have hhead : ∀ b ∈ (digits ++ 34 :: cstr rest).head?, (hexValue b).isSome = true ∨ b = 34 := by
    intro b hb
    cases digits with
    | nil => exact Or.inr (Option.some.inj hb).symm
    | cons d ds =>
      obtain rfl : d = b := Option.some.inj hb
      exact Or.inl (h d List.mem_cons_self)
  have hstart : (digits ++ 34 :: cstr rest).dropWhile isSpace = digits ++ 34 :: cstr rest := by
    have hspace : ∀ b ∈ (digits ++ 34 :: cstr rest).head?, isSpace b = false := by
      intro b hb
      rcases hhead b hb with hhex | rfl
      · exact hexDigit_not_space hhex
      · rfl
    cases hbody : digits ++ 34 :: cstr rest with
    | nil => rfl
    | cons b bs =>
      rw [hbody] at hspace
      rw [List.dropWhile_cons, hspace b rfl]
      rfl
  have hsign {c : UInt8} (hc : hexValue c = none) (hc' : c ≠ 34) :
      (digits ++ 34 :: cstr rest).head? ≠ some c := by
    intro heq
    rcases hhead c heq with hhex | rfl
    · exact hexDigit_ne hhex hc rfl
    · exact hc' rfl
  have hx : ¬((digits ++ 34 :: cstr rest).head? = some 48 ∧
      ((digits ++ 34 :: cstr rest)[1]? = some 120 ∨ (digits ++ 34 :: cstr rest)[1]? = some 88) ∧
        (digits ++ 34 :: cstr rest)[2]?.any (fun b => (hexValue b).isSome) = true) := by
    rintro ⟨hzero, hnext, -⟩
    match digits with
    | [] => cases hzero
    | [_] => rcases hnext with hnext | hnext <;> cases hnext
    | _ :: d :: _ =>
      have hd := h d (by simp)
      rcases hnext with hnext | hnext
      · exact hexDigit_ne hd (c := 120) rfl (Option.some.inj hnext)
      · exact hexDigit_ne hd (c := 88) rfl (Option.some.inj hnext)
  have hdigits : (digits ++ 34 :: cstr rest).takeWhile (fun b => (hexValue b).isSome) = digits := by
    rw [List.takeWhile_append_of_pos h, List.takeWhile_cons_of_neg (by rw [hquote]; decide),
      List.append_nil]
  unfold strtoulHex
  rw [cstr_append fun b hb => hexDigit_ne (h b hb) rfl, cstr_cons (by decide), hstart]
  dsimp only
  rw [if_neg (not_or.mpr ⟨hsign rfl (by decide), hsign rfl (by decide)⟩), if_neg hx, hdigits,
    if_neg (by omega), if_neg (hsign rfl (by decide))]

theorem sscanfLoop_lits (cs : Bytes) (ds : List Directive) (s : Bytes) (pos done : ℕ)
    (matched : Bool) : sscanfLoop (cs.map .lit ++ ds) (cs ++ s) pos done matched =
      sscanfLoop ds s (pos + cs.length) done matched := by
  induction cs generalizing pos with
  | nil => rfl
  | cons c cs ih =>
    rw [List.map_cons, List.cons_append, List.cons_append, sscanfLoop, if_pos rfl, ih,
      List.length_cons, Nat.add_assoc, Nat.add_comm 1]

theorem sscanfLoop_space {w s : Bytes} (hw : ∀ b ∈ w, isSpace b = true)
    (hs : ∀ b ∈ s.head?, isSpace b = false) (ds : List Directive) (pos done : ℕ) (matched : Bool) :
    sscanfLoop (.space :: ds) (w ++ s) pos done matched =
      sscanfLoop ds s (pos + w.length) done matched := by
  have hdrop : (w ++ s).dropWhile isSpace = s := by
    rw [List.dropWhile_append_of_pos hw]
    cases s with
    | nil => rfl
    | cons b s => rw [List.dropWhile_cons, hs b rfl, if_neg Bool.false_ne_true]
  have hlen : (w ++ s).length - s.length = w.length := by
    rw [List.length_append]
    omega
  rw [sscanfLoop, hdrop, hlen]

end SystemTestSuite.Library
