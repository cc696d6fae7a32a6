import SystemTestSuite.GsmDaemon.ExtSteps

namespace SystemTestSuite.GsmDaemon

open Library

/-- An element as it stands in the text, without its delimiters. Only the last one can lack the
delimiter at its end. -/
inductive Lexeme where
  | empty
  | numeric (body : Bytes) (closed : Bool)
  | string (body : Bytes) (closed : Bool)
  | range (body : Bytes) (closed : Bool)
  deriving DecidableEq, Repr

def behindComma (text : Bytes) : Bytes := (text.dropWhile (· ≠ 44)).tail

theorem behindComma_length (text : Bytes) : (behindComma text).length ≤ text.length := by
  rw [behindComma, List.length_tail]
  exact (Nat.sub_le _ _).trans (List.dropWhile_suffix _).length_le

def behind (c : UInt8) (text : Bytes) : Option Bytes :=
  match text.dropWhile (· ≠ c) with
  | [] => none
  | _ :: after => some after

theorem behind_length {c : UInt8} {text after : Bytes} (h : behind c text = some after) :
    after.length < text.length := by
  have hdrop := (List.dropWhile_suffix (l := text) (· ≠ c)).length_le
  unfold behind at h
  split at h
  · cases h
  · rename_i d rest hrest
    obtain rfl := Option.some.inj h
    rw [hrest, List.length_cons] at hdrop
    omega

def lexemes : Bytes → List Lexeme
  | [] => []
  | c :: rest =>
    if isBlank c then lexemes rest
    else if c = 34 then
      match _h : behind 34 rest with
      | none => [.string rest false]
      | some after => .string (rest.takeWhile (· ≠ 34)) true :: lexemes (behindComma after)
    else if c = 40 then
      match _h : behind 41 rest with
      | none => [.range rest false]
      | some after => .range (rest.takeWhile (· ≠ 41)) true :: lexemes (behindComma after)
    else if isDigit c then
      match _h : behind 44 rest with
      | none => [.numeric (c :: rest) false]
      | some after => .numeric (c :: rest.takeWhile (· ≠ 44)) true :: lexemes after
    else if c = 44 then .empty :: lexemes rest
    else lexemes rest
termination_by text => text.length
decreasing_by
  · exact Nat.lt_succ_self _
  · have := behind_length _h
    have := behindComma_length after
    rw [List.length_cons]
    omega
  · have := behind_length _h
    have := behindComma_length after
    rw [List.length_cons]
    omega
  · have := behind_length _h
    rw [List.length_cons]
    omega
  · exact Nat.lt_succ_self _
  · exact Nat.lt_succ_self _

def lastDigits (body : Bytes) : Bytes := (body.reverse.takeWhile (· ≠ 45)).reverse.filter isDigit

def HasItem (body : Bytes) : Prop :=
  (lastDigits body).length < extrspBufSize ∧ body.count 44 < gsmExtrspMaxRanges

structure RangeFits (room : ℕ) (body : Bytes) : Prop where
  digits : ∀ pre, pre <+: body → (lastDigits pre).length ≤ room
  items : ∀ pre c, pre ++ [c] <+: body → c = 45 ∨ c = 44 → HasItem pre

def Lexeme.Fits (room : ℕ) : Lexeme → Prop
  | empty => True
  | numeric body closed =>
    (body.filter isDigit).length ≤ room ∧
      (closed = true → (body.filter isDigit).length < extrspBufSize)
  | string body closed => body.length ≤ room ∧ (closed = true → body.length < extrspBufSize)
  | range body closed => RangeFits room body ∧ (closed = true → HasItem body)

variable {room : ℕ} {p q : ExtrspParser} {body text after : Bytes} {c : UInt8}

theorem lastDigits_append (body : Bytes) (c : UInt8) :
    lastDigits (body ++ [c]) =
      if c = 45 then [] else if isDigit c then lastDigits body ++ [c] else lastDigits body := by
  unfold lastDigits
  rw [List.reverse_append, List.reverse_singleton, List.singleton_append, List.takeWhile_cons]
  by_cases hc : c = 45
  · simp [hc]
  · simp only [ne_eq, hc, not_false_eq_true, decide_true, if_true, if_false, List.reverse_cons,
      List.filter_append]
    by_cases hdigit : isDigit c = true
    · simp [hdigit]
    · simp [hdigit]

theorem rangeFits_nil : RangeFits room [] := by
  constructor
  · intro pre hpre
    rw [List.prefix_nil.mp hpre]
    exact Nat.zero_le _
  · intro pre c hpre
    exact absurd (List.prefix_nil.mp hpre) (List.append_ne_nil_of_right_ne_nil _ (by simp))

theorem rangeFits_append : RangeFits room (body ++ [c]) ↔
    RangeFits room body ∧ (lastDigits (body ++ [c])).length ≤ room ∧
      (c = 45 ∨ c = 44 → HasItem body) := by
  constructor
  · rintro ⟨hdigits, hitems⟩
    have hpre : body <+: body ++ [c] := List.prefix_append _ _
    exact ⟨⟨fun pre h => hdigits pre (h.trans hpre), fun pre d h => hitems pre d (h.trans hpre)⟩,
      hdigits _ (List.prefix_refl _), hitems body c (List.prefix_refl _)⟩
  · rintro ⟨⟨hdigits, hitems⟩, hlast, hitem⟩
    refine ⟨fun pre h => ?_, fun pre d h hd => ?_⟩
    · rcases List.prefix_concat_iff.mp h with rfl | h
      · exact hlast
      · exact hdigits pre h
    · rcases List.prefix_concat_iff.mp h with heq | h
      · obtain ⟨rfl, hd'⟩ := List.append_inj' heq rfl
        obtain rfl := (List.cons.inj hd').1
        exact hitem hd
      · exact hitems pre d h hd

theorem string_loop (room : ℕ) (body : Bytes) (hp : p.state = .tokenString) (hbuf : p.buf = [])
    (hbody : ∀ c ∈ body, c ≠ 34) : Yields (body.foldlM (ExtrspParser.step room) p)
      (body.length ≤ room) (· = { p with buf := body }) := by
  have hloop := store_loop room p body
    (fun q hq c hc => string_char (hq.trans hp) (hbody c hc))
    (by rw [hbuf]; exact Nat.zero_le _)
  rwa [hbuf, List.length_nil, Nat.zero_add, List.nil_append] at hloop

theorem numeric_skip (hp : p.state = .tokenNumeric) (hbody : ∀ c ∈ body, c ≠ 44) :
    body.foldlM (ExtrspParser.step room) p =
      (body.filter isDigit).foldlM (ExtrspParser.step room) p := by
  induction body generalizing p with
  | nil => rfl
  | cons c body ih =>
    have hrest := fun d hd => hbody d (List.mem_cons_of_mem c hd)
    have hstep : p.step room c = if isDigit c then p.store room c else some p := by
      rw [ExtrspParser.step, hp]
      exact if_neg (hbody c List.mem_cons_self)
    rw [List.foldlM_cons]
    by_cases hdigit : isDigit c = true
    · rw [List.filter_cons_of_pos hdigit, List.foldlM_cons, hstep, if_pos hdigit,
        ExtrspParser.store]
      split_ifs
      · exact ih hp hrest
      · rfl
    · rw [List.filter_cons_of_neg hdigit, hstep, if_neg hdigit]
      exact ih hp hrest

theorem numeric_loop (body : Bytes) (hp : p.state = .tokenNumeric) (hdigit : isDigit c = true)
    (hbuf : p.buf = [c]) (hroom : 1 ≤ room) (hbody : ∀ c ∈ body, c ≠ 44) :
    Yields (body.foldlM (ExtrspParser.step room) p) (((c :: body).filter isDigit).length ≤ room)
      (· = { p with buf := (c :: body).filter isDigit }) := by
  have hstore : ∀ q : ExtrspParser, q.state = p.state → ∀ d ∈ body.filter isDigit,
      q.step room d = q.store room d :=
    fun q hq d hd => numeric_digit (hq.trans hp) (List.mem_filter.mp hd).2
  have hloop := store_loop room p (body.filter isDigit) hstore (by rw [hbuf]; exact hroom)
  rw [← numeric_skip hp hbody, hbuf, ← List.length_append, List.singleton_append,
    ← List.filter_cons_of_pos (l := body) hdigit] at hloop
  exact hloop

structure RangeRead (p : ExtrspParser) (body : Bytes) (q : ExtrspParser) : Prop where
  state : q.state = .tokenRange
  tokens : q.tokens = p.tokens
  buf : q.buf = lastDigits body
  items : q.items.length = body.count 44

theorem setMin_read (hq : RangeRead p body q) :
    Yields q.setMin (HasItem body) (RangeRead p (body ++ [45])) := by
  have hset := setMin_yields q
  rw [hq.buf, hq.items] at hset
  apply hset.weaken
  rintro _ rfl
  refine ⟨hq.state, hq.tokens, (lastDigits_append body 45).symm, ?_⟩
  rw [List.count_append]
  exact hq.items

theorem setMax_read (hq : RangeRead p body q) :
    Yields q.setMax (HasItem body) (RangeRead p (body ++ [44])) := by
  have hset := setMax_yields q
  rw [hq.buf, hq.items] at hset
  apply hset.weaken
  rintro _ rfl
  refine ⟨hq.state, hq.tokens, ?_, ?_⟩
  · rw [lastDigits_append, if_neg (by decide), if_neg (by decide)]
  · rw [List.count_append, ← hq.items]
    exact List.length_append

theorem range_step (hq : RangeRead p body q) (hc : c ≠ 41)
    (hfits : (lastDigits body).length ≤ room) :
    Yields (q.step room c)
      ((lastDigits (body ++ [c])).length ≤ room ∧ (c = 45 ∨ c = 44 → HasItem body))
      (RangeRead p (body ++ [c])) := by
  by_cases hdigit : isDigit c = true
  · have hset : c ≠ 45 ∧ c ≠ 44 := ⟨(by rintro rfl; cases hdigit), (by rintro rfl; cases hdigit)⟩
    have hlast : lastDigits (body ++ [c]) = lastDigits body ++ [c] := by
      rw [lastDigits_append, if_neg hset.1, if_pos hdigit]
    have hstore : Yields (q.store room c) ((lastDigits (body ++ [c])).length ≤ room)
        (RangeRead p (body ++ [c])) := by
      rw [hlast, List.length_append, List.length_singleton, ExtrspParser.store, hq.buf]
      refine yields_ite fun _ => ⟨hq.state, hq.tokens, hlast.symm, ?_⟩
      rw [List.count_append, ← hq.items, List.count_singleton]
      simp [hset.2]
    rw [range_digit hq.state hdigit]
    apply hstore.iff
    exact ⟨fun h => ⟨h, fun hor => absurd hor (not_or.mpr hset)⟩, And.left⟩
  · have hshorter : (lastDigits (body ++ [c])).length ≤ room := by
      rw [lastDigits_append, if_neg hdigit]
      split_ifs
      · exact Nat.zero_le _
      · exact hfits
    by_cases hmin : c = 45
    · subst hmin
      rw [range_dash hq.state]
      apply (setMin_read hq).iff
      exact ⟨fun h => ⟨hshorter, fun _ => h⟩, fun h => h.2 (Or.inl rfl)⟩
    · by_cases hmax : c = 44
      · subst hmax
        rw [range_comma hq.state]
        apply (setMax_read hq).iff
        exact ⟨fun h => ⟨hshorter, fun _ => h⟩, fun h => h.2 (Or.inr rfl)⟩
      · have hstep : q.step room c = some q := by
          rw [ExtrspParser.step, hq.state]
          dsimp only
          rw [if_neg hdigit, if_neg hmin, if_neg hmax, if_neg hc]
        have hread : RangeRead p (body ++ [c]) q := by
          refine ⟨hq.state, hq.tokens, ?_, ?_⟩
          · rw [lastDigits_append, if_neg hmin, if_neg hdigit]
            exact hq.buf
          · rw [hq.items, List.count_append, List.count_singleton]
            simp [hmax]
        rw [hstep]
        apply (yields_some hread).iff
        exact iff_of_true trivial ⟨hshorter, fun h => absurd h (not_or.mpr ⟨hmin, hmax⟩)⟩

theorem range_loop (room : ℕ) (body : Bytes) (hp : p.state = .tokenRange) (hbuf : p.buf = [])
    (hitems : p.items = [])
    (hbody : ∀ c ∈ body, c ≠ 41) :
    Yields (body.foldlM (ExtrspParser.step room) p) (RangeFits room body) (RangeRead p body) := by
  induction body using List.reverseRecOn with
  | nil =>
    have hread : RangeRead p [] p := ⟨hp, rfl, hbuf, by rw [hitems]; rfl⟩
    exact (yields_some hread).iff (iff_of_true trivial rangeFits_nil)
  | append_singleton body c ih =>
    have hbefore := ih fun d hd => hbody d (List.mem_append_left _ hd)
    have hloop := hbefore.keep fun hfits => hfits.digits body (List.prefix_refl body)
    have hmore := yields_foldlM_append hloop fun q hq =>
      yields_foldlM_singleton (range_step hq.1 (hbody c (by simp)) hq.2)
    exact hmore.iff rangeFits_append.symm

theorem behind_some (h : behind c text = some after) :
    text = text.takeWhile (· ≠ c) ++ c :: after := by
  unfold behind at h
  split at h
  · cases h
  · rename_i d rest hrest
    obtain rfl := Option.some.inj h
    have hd : d = c := by
      have hnot := List.head?_dropWhile_not (· ≠ c) text
      rw [hrest] at hnot
      simpa using hnot
    rw [← hd, ← hrest, hd, List.takeWhile_append_dropWhile]

theorem behind_none (h : behind c text = none) : ∀ d ∈ text, d ≠ c := by
  unfold behind at h
  split at h
  · rename_i hnil
    intro d hd
    have hall := List.dropWhile_eq_nil_iff.mp hnil d hd
    simpa using hall
  · cases h

theorem lastquote_run (hp : p.state = .tokenStringLastquote) :
    (text.foldlM (ExtrspParser.step room) p).isSome =
      ((behindComma text).foldlM (ExtrspParser.step room) { p with state := .idle }).isSome := by
  induction text with
  | nil => rfl
  | cons c text ih =>
    have hstep : p.step room c = if c = 44 then some { p with state := .idle } else some p := by
      rw [ExtrspParser.step, hp]
    rw [List.foldlM_cons, hstep]
    by_cases hc : c = 44
    · subst hc
      rw [if_pos rfl]
      rfl
    · have hskip : behindComma (c :: text) = behindComma text := by
        rw [behindComma, List.dropWhile_cons_of_pos (by simpa using hc)]
        rfl
      rw [if_neg hc, hskip]
      exact ih

structure Reads (room : ℕ) (p : ExtrspParser) (text : Bytes) (l : Lexeme) (rest : Bytes) : Prop where
  fits : l.Fits room → ∃ q : ExtrspParser, q.state = .idle ∧
    q.tokens.length = p.tokens.length + 1 ∧
    (text.foldlM (ExtrspParser.step room) p).isSome =
      (rest.foldlM (ExtrspParser.step room) q).isSome
  beyond : ¬ l.Fits room → text.foldlM (ExtrspParser.step room) p = none

theorem reads_open {l : Lexeme} {post : ExtrspParser → Prop} {fits : Prop}
    (h : Yields (text.foldlM (ExtrspParser.step room) p) fits post) (hiff : fits ↔ l.Fits room) :
    Reads room p text l [] := by
  refine ⟨fun hfits => ⟨p.finish .empty .idle, rfl, List.length_append, ?_⟩, (h.iff hiff).nothing⟩
  exact (h.iff hiff).isSome_iff.mpr hfits

theorem reads_closed {l : Lexeme} {rest : Bytes} {fits : Prop} (htext : text = body ++ c :: after)
    (h : Yields ((body ++ [c]).foldlM (ExtrspParser.step room) p) fits fun q =>
      q.tokens.length = p.tokens.length + 1 ∧
        ((q.state = .idle ∧ rest = after) ∨
          (q.state = .tokenStringLastquote ∧ rest = behindComma after)))
    (hiff : fits ↔ l.Fits room) : Reads room p text l rest := by
  have hsplit : text = (body ++ [c]) ++ after := by rw [htext, List.append_assoc]; rfl
  rw [hsplit]
  constructor
  · intro hfits
    obtain ⟨q, hq, hlen, ⟨hidle, rfl⟩ | ⟨hlast, rfl⟩⟩ := h.result (hiff.mpr hfits)
    · refine ⟨q, hidle, hlen, ?_⟩
      rw [List.foldlM_append, hq]
      rfl
    · refine ⟨{ q with state := .idle }, rfl, hlen, ?_⟩
      rw [List.foldlM_append, hq]
      exact lastquote_run hlast
  · intro hnot
    rw [List.foldlM_append, h.nothing fun hfits => hnot (hiff.mp hfits)]
    rfl

theorem reads_string_open (hp : p.state = .tokenString) (hbuf : p.buf = [])
    (h : behind 34 text = none) : Reads room p text (.string text false) [] :=
  reads_open (string_loop room text hp hbuf (behind_none h))
    ⟨fun hlen => ⟨hlen, fun h => by cases h⟩, And.left⟩

theorem reads_string (hp : p.state = .tokenString) (hbuf : p.buf = [])
    (h : behind 34 text = some after) :
    Reads room p text (.string (text.takeWhile (· ≠ 34)) true) (behindComma after) := by
  have hloop := string_loop room (text.takeWhile (· ≠ 34)) hp hbuf
    fun d hd => by simpa using List.mem_takeWhile_imp hd
  refine reads_closed (behind_some h) (yields_foldlM_append hloop ?_)
    (and_congr_right' (forall_prop_of_true rfl).symm)
  rintro _ rfl
  apply yields_foldlM_singleton
  apply (string_close (p := { p with buf := text.takeWhile (· ≠ 34) }) hp).weaken
  rintro _ rfl
  exact ⟨List.length_append, Or.inr ⟨rfl, rfl⟩⟩

theorem reads_numeric_open (hp : p.state = .tokenNumeric) (hdigit : isDigit c = true)
    (hbuf : p.buf = [c]) (hroom : 1 ≤ room) (h : behind 44 text = none) :
    Reads room p text (.numeric (c :: text) false) [] :=
  reads_open (numeric_loop text hp hdigit hbuf hroom (behind_none h))
    ⟨fun hlen => ⟨hlen, fun h => by cases h⟩, And.left⟩

theorem reads_numeric (hp : p.state = .tokenNumeric) (hdigit : isDigit c = true)
    (hbuf : p.buf = [c]) (hroom : 1 ≤ room) (h : behind 44 text = some after) :
    Reads room p text (.numeric (c :: text.takeWhile (· ≠ 44)) true) after := by
  have hloop := numeric_loop (text.takeWhile (· ≠ 44)) hp hdigit hbuf hroom
    fun d hd => by simpa using List.mem_takeWhile_imp hd
  refine reads_closed (behind_some h) (yields_foldlM_append hloop ?_)
    (and_congr_right' (forall_prop_of_true rfl).symm)
  rintro _ rfl
  apply yields_foldlM_singleton
  apply (numeric_close
    (p := { p with buf := (c :: text.takeWhile (· ≠ 44)).filter isDigit }) hp).weaken
  rintro _ rfl
  exact ⟨List.length_append, Or.inl ⟨rfl, rfl⟩⟩

theorem reads_range_open (hp : p.state = .tokenRange) (hbuf : p.buf = []) (hitems : p.items = [])
    (h : behind 41 text = none) : Reads room p text (.range text false) [] :=
  reads_open (range_loop room text hp hbuf hitems (behind_none h))
    ⟨fun hfits => ⟨hfits, fun h => by cases h⟩, And.left⟩

theorem reads_range (hp : p.state = .tokenRange) (hbuf : p.buf = []) (hitems : p.items = [])
    (h : behind 41 text = some after) :
    Reads room p text (.range (text.takeWhile (· ≠ 41)) true) (behindComma after) := by
  have hloop := range_loop room (text.takeWhile (· ≠ 41)) hp hbuf hitems
    fun d hd => by simpa using List.mem_takeWhile_imp hd
  refine reads_closed (behind_some h) (yields_foldlM_append hloop ?_)
    (and_congr_right' (forall_prop_of_true rfl).symm)
  intro q hread
  apply yields_foldlM_singleton
  rw [range_paren hread.state]
  apply (setMax_read hread).map
  intro q' hread'
  refine ⟨?_, Or.inr ⟨rfl, rfl⟩⟩
  rw [← hread'.tokens]
  exact List.length_append

def RestIff (room : ℕ) (p : ExtrspParser) (text : Bytes) (ls : List Lexeme) : Prop :=
  (text.foldlM (ExtrspParser.step room) p).isSome = true ↔
    p.tokens.length + ls.length ≤ gsmExtrspMaxTokens ∧ ∀ l ∈ ls, l.Fits room

theorem Reads.restIff {l : Lexeme} {rest : Bytes} {ls : List Lexeme}
    (h : Reads room p text l rest)
    (hrest : ∀ q : ExtrspParser, q.state = .idle → q.tokens.length = p.tokens.length + 1 →
      RestIff room q rest ls) : RestIff room p text (l :: ls) := by
  unfold RestIff
  by_cases hfits : l.Fits room
  · obtain ⟨q, hidle, hlen, heq⟩ := h.fits hfits
    have hiff := hrest q hidle hlen
    rw [RestIff] at hiff
    rw [heq, hiff, hlen, List.length_cons, List.forall_mem_cons]
    constructor
    · exact fun ⟨hle, hall⟩ => ⟨by omega, hfits, hall⟩
    · exact fun ⟨hle, _, hall⟩ => ⟨by omega, hall⟩
  · rw [h.beyond hfits]
    constructor
    · exact fun h => by cases h
    · exact fun ⟨_, hall⟩ => absurd (hall l List.mem_cons_self) hfits

theorem restIff_skip {ls : List Lexeme} {q : ExtrspParser} (hstep : p.step room c = some q)
    (hlen : q.tokens = p.tokens) (h : RestIff room q text ls) :
    RestIff room p (c :: text) ls := by
  unfold RestIff at *
  rw [List.foldlM_cons, hstep, ← hlen]
  exact h

theorem restIff_full {l : Lexeme} {ls : List Lexeme} (hfull : ¬ p.tokens.length < gsmExtrspMaxTokens)
    (hstep : p.step room c = none) : RestIff room p (c :: text) (l :: ls) := by
  unfold RestIff
  rw [List.foldlM_cons, hstep, List.length_cons]
  constructor
  · exact fun h => by cases h
  · exact fun ⟨hle, _⟩ => absurd hle (by omega)

theorem restIff_begins {l : Lexeme} {rest : Bytes} {ls : List Lexeme}
    (hfull : ¬ p.tokens.length < gsmExtrspMaxTokens → p.step room c = none)
    (hbegins : p.tokens.length < gsmExtrspMaxTokens →
      ∃ q, p.step room c = some q ∧ q.tokens = p.tokens ∧ Reads room q text l rest)
    (hrest : ∀ q : ExtrspParser, q.state = .idle → q.tokens.length ≤ gsmExtrspMaxTokens →
      RestIff room q rest ls) : RestIff room p (c :: text) (l :: ls) := by
  by_cases hlt : p.tokens.length < gsmExtrspMaxTokens
  · obtain ⟨q, hq, htokens, hreads⟩ := hbegins hlt
    apply restIff_skip hq htokens
    refine hreads.restIff fun r hidle hlen => hrest r hidle ?_
    rw [hlen, htokens]
    exact hlt
  · exact restIff_full hlt (hfull hlt)

theorem restIff_nil (hlen : p.tokens.length ≤ gsmExtrspMaxTokens) : RestIff room p [] [] := by
  simp [RestIff, hlen]

theorem restIff_lexemes (hroom : 1 ≤ room) (text : Bytes) : ∀ p : ExtrspParser, p.state = .idle →
    p.tokens.length ≤ gsmExtrspMaxTokens → RestIff room p text (lexemes text) := by
  fun_induction lexemes text with
  | case1 => exact fun p hp hlen => restIff_nil hlen
  | case2 c rest hblank ih => exact fun p hp hlen => restIff_skip (blank_step hp hblank) rfl (ih _ hp hlen)
  | case3 rest hopen _ =>
    intro p hp _
    apply restIff_begins (fun h => (quote_step hp).trans (if_neg h)) _ (fun q _ => restIff_nil)
    exact fun h => ⟨_, (quote_step hp).trans (if_pos h), rfl, reads_string_open rfl rfl hopen⟩
  | case4 rest after hclosed _ ih =>
    intro p hp _
    apply restIff_begins (fun h => (quote_step hp).trans (if_neg h)) _ ih
    exact fun h => ⟨_, (quote_step hp).trans (if_pos h), rfl, reads_string rfl rfl hclosed⟩
  | case5 rest hopen _ _ =>
    intro p hp _
    apply restIff_begins (fun h => (paren_step hp).trans (if_neg h)) _ (fun q _ => restIff_nil)
    exact fun h => ⟨_, (paren_step hp).trans (if_pos h), rfl, reads_range_open rfl rfl rfl hopen⟩
  | case6 rest after hclosed _ _ ih =>
    intro p hp _
    apply restIff_begins (fun h => (paren_step hp).trans (if_neg h)) _ ih
    exact fun h => ⟨_, (paren_step hp).trans (if_pos h), rfl, reads_range rfl rfl rfl hclosed⟩
  | case7 c rest _ _ _ hdigit hopen =>
    intro p hp _
    have hstep := digit_step hp hdigit hroom
    apply restIff_begins (fun h => hstep.trans (if_neg h)) _ (fun q _ => restIff_nil)
    exact fun h =>
      ⟨_, hstep.trans (if_pos h), rfl, reads_numeric_open rfl hdigit rfl hroom hopen⟩
  | case8 c rest _ _ _ hdigit after hclosed ih =>
    intro p hp _
    have hstep := digit_step hp hdigit hroom
    apply restIff_begins (fun h => hstep.trans (if_neg h)) _ ih
    exact fun h => ⟨_, hstep.trans (if_pos h), rfl, reads_numeric rfl hdigit rfl hroom hclosed⟩
  | case9 rest _ _ _ _ ih =>
    intro p hp hlen
    have hstep : p.step room 44 = _ := comma_step hp
    by_cases hlt : p.tokens.length < gsmExtrspMaxTokens
    · have hreads : Reads room p (44 :: rest) .empty rest := by
        refine ⟨fun _ => ⟨(Begun p .idle).finish .empty .idle, rfl, List.length_append, ?_⟩,
          fun h => absurd trivial h⟩
        rw [List.foldlM_cons, hstep, if_pos hlt]
        rfl
      exact hreads.restIff fun q hidle hq => ih q hidle (by omega)
    · exact restIff_full hlt (hstep.trans (if_neg hlt))
  | case10 c rest _ hquote hparen hdigit hcomma ih =>
    exact fun p hp hlen =>
      restIff_skip (skip_step hp hquote hparen hdigit hcomma) rfl (ih _ hp hlen)

/-- No access goes outside, and the NUL of `buf` stays. -/
def ParsesInside (input : Bytes) : Prop := ∀ read, read <+: cstr input →
  ∃ p, read.foldlM (ExtrspParser.step extrspBufSize) .init = some p ∧
    p.buf.length < extrspBufSize

theorem store_short : p.store (extrspBufSize - 1) c = some q ↔
    p.store extrspBufSize c = some q ∧ q.buf.length < extrspBufSize := by
  unfold ExtrspParser.store extrspBufSize
  constructor
  · intro h
    split_ifs at h with hlt
    obtain rfl := Option.some.inj h
    refine ⟨if_pos (by omega), ?_⟩
    rw [List.length_append, List.length_singleton]
    omega
  · rintro ⟨h, hlen⟩
    split_ifs at h with hlt
    obtain rfl := Option.some.inj h
    rw [List.length_append, List.length_singleton] at hlen
    exact if_pos (by omega)

theorem start_buf {state : ExtrspState} (h : p.start state = some q) : q.buf = p.buf := by
  unfold ExtrspParser.start at h
  split_ifs at h
  rw [← Option.some.inj h]

theorem setMin_buf (h : p.setMin = some q) : q.buf = [] := by
  unfold ExtrspParser.setMin at h
  obtain ⟨number, -, h⟩ := Option.bind_eq_some_iff.mp h
  split_ifs at h
  rw [← Option.some.inj h]

theorem setMax_buf (h : p.setMax = some q) : q.buf = p.buf := by
  unfold ExtrspParser.setMax at h
  obtain ⟨number, -, h⟩ := Option.bind_eq_some_iff.mp h
  split_ifs at h
  rw [← Option.some.inj h]

theorem step_short (hp : p.buf.length < extrspBufSize) : p.step (extrspBufSize - 1) c = some q ↔
    p.step extrspBufSize c = some q ∧ q.buf.length < extrspBufSize := by
  have hkeep {r : Option ExtrspParser} (hr : r = some q → q.buf = [] ∨ q.buf = p.buf) :
      r = some q ↔ r = some q ∧ q.buf.length < extrspBufSize := by
    refine ⟨fun h => ⟨h, ?_⟩, And.left⟩
    rcases hr h with hbuf | hbuf
    · rw [hbuf]
      decide
    · rw [hbuf]
      exact hp
  unfold ExtrspParser.step
  cases p.state with
  | idle =>
    dsimp only
    split_ifs
    · exact hkeep fun h => Or.inl (by rw [← Option.some.inj h])
    · exact hkeep fun h => Or.inl (start_buf h)
    · exact hkeep fun h => Or.inl (start_buf h)
    · generalize ExtrspParser.start _ _ = r
      cases r with
      | none => exact hkeep fun h => absurd h (by rintro ⟨⟩)
      | some r => exact store_short
    · refine hkeep fun h => Or.inl ?_
      obtain ⟨r, hr, h⟩ := Option.bind_eq_some_iff.mp h
      rw [← Option.some.inj h]
      exact start_buf hr
    · exact hkeep fun h => Or.inl (by rw [← Option.some.inj h])
  | tokenNumeric =>
    dsimp only
    split_ifs
    · refine hkeep fun h => Or.inr ?_
      obtain ⟨r, hr, h⟩ := Option.bind_eq_some_iff.mp h
      rw [← Option.some.inj h]
      rfl
    · exact store_short
    · exact hkeep fun h => Or.inr (by rw [← Option.some.inj h])
  | tokenString =>
    dsimp only
    split_ifs
    · refine hkeep fun h => Or.inr ?_
      obtain ⟨r, hr, h⟩ := Option.bind_eq_some_iff.mp h
      rw [← Option.some.inj h]
      rfl
    · exact store_short
  | tokenStringLastquote =>
    dsimp only
    split_ifs
    · exact hkeep fun h => Or.inr (by rw [← Option.some.inj h])
    · exact hkeep fun h => Or.inr (by rw [← Option.some.inj h])
  | tokenRange =>
    dsimp only
    split_ifs
    · exact store_short
    · exact hkeep fun h => Or.inl (setMin_buf h)
    · exact hkeep fun h => Or.inr (setMax_buf h)
    · refine hkeep fun h => Or.inr ?_
      obtain ⟨r, hr, h⟩ := Option.bind_eq_some_iff.mp h
      rw [← Option.some.inj h]
      exact @setMax_buf p r hr
    · exact hkeep fun h => Or.inr (by rw [← Option.some.inj h])

theorem run_short (hp : p.buf.length < extrspBufSize) :
    (∀ read, read <+: text → ∃ q, read.foldlM (ExtrspParser.step extrspBufSize) p = some q ∧
      q.buf.length < extrspBufSize) ↔
    (text.foldlM (ExtrspParser.step (extrspBufSize - 1)) p).isSome = true := by
  induction text generalizing p with
  | nil =>
    refine ⟨fun _ => rfl, fun _ read hread => ⟨p, ?_, hp⟩⟩
    rw [List.prefix_nil.mp hread]
    rfl
  | cons c text ih =>
    rw [List.foldlM_cons]
    constructor
    · intro h
      obtain ⟨q, hq, hlen⟩ := h [c] (by simp)
      replace hq : p.step extrspBufSize c = some q := by simpa using hq
      rw [(step_short hp).mpr ⟨hq, hlen⟩]
      apply (ih hlen).mp
      intro read hread
      obtain ⟨r, hr, hshort⟩ := h (c :: read) ((List.prefix_cons_inj c).mpr hread)
      rw [List.foldlM_cons, hq] at hr
      exact ⟨r, hr, hshort⟩
    · intro h read hread
      cases hq : p.step (extrspBufSize - 1) c with
      | none =>
        rw [hq] at h
        cases h
      | some q =>
        rw [hq] at h
        obtain ⟨hq, hlen⟩ := (step_short hp).mp hq
        rcases List.prefix_cons_iff.mp hread with rfl | ⟨read, rfl, hmore⟩
        · exact ⟨p, rfl, hp⟩
        · rw [List.foldlM_cons, hq]
          exact (ih hlen).mpr h read hmore

theorem parsesInside_iff (input : Bytes) : ParsesInside input ↔
    (lexemes (cstr input)).length ≤ gsmExtrspMaxTokens ∧
      ∀ l ∈ lexemes (cstr input), l.Fits (extrspBufSize - 1) := by
  have hiff := restIff_lexemes (show 1 ≤ extrspBufSize - 1 by decide) (cstr input) .init
    rfl (by decide)
  rw [RestIff, ExtrspParser.init, List.length_nil, Nat.zero_add] at hiff
  exact (run_short (by decide)).trans hiff

theorem parsesInside_commas : ¬ ∀ input : Bytes, input.length ≤ llparseBufSize →
    ParsesInside input := by
  intro h
  obtain ⟨p, hp, -⟩ := h (List.replicate 17 44) (by decide) _ (List.prefix_refl _)
  have hnone : (cstr (List.replicate 17 44)).foldlM (ExtrspParser.step extrspBufSize) .init = none := by
    decide
  rw [hnone] at hp
  cases hp

end SystemTestSuite.GsmDaemon
