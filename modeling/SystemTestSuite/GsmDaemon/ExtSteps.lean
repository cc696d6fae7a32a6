import SystemTestSuite.GsmDaemon.ExtResponse
import SystemTestSuite.Library.Yields

namespace SystemTestSuite.GsmDaemon

open Library

variable {room : ℕ} {p q : ExtrspParser} {body : Bytes} {c : UInt8}

theorem text_yields (p : ExtrspParser) :
    Yields p.text (p.buf.length < extrspBufSize) (· = p.buf) := yields_ite fun _ => rfl

theorem setMin_yields (p : ExtrspParser) :
    Yields p.setMin (p.buf.length < extrspBufSize ∧ p.items.length < gsmExtrspMaxRanges)
      (· = { p with min := atoi p.buf, buf := [] }) := by
  apply (text_yields p).bind
  rintro _ rfl
  exact yields_ite fun _ => rfl

theorem setMax_yields (p : ExtrspParser) :
    Yields p.setMax (p.buf.length < extrspBufSize ∧ p.items.length < gsmExtrspMaxRanges)
      (· = { p with items := p.items ++ [⟨p.min, atoi p.buf⟩], min := 0 }) := by
  apply (text_yields p).bind
  rintro _ rfl
  exact yields_ite fun _ => rfl

theorem string_close (hp : p.state = .tokenString) :
    Yields (p.step room 34) (p.buf.length < extrspBufSize)
      (· = p.finish (.string (p.buf.take (extrspStringSize - 1))) .tokenStringLastquote) := by
  rw [ExtrspParser.step, hp]
  refine ((text_yields p).bind fun t ht => yields_some ?_).iff (iff_of_eq (and_true _))
  rw [ht]

theorem numeric_close (hp : p.state = .tokenNumeric) :
    Yields (p.step room 44) (p.buf.length < extrspBufSize)
      (· = p.finish (.numeric (atoi p.buf)) .idle) := by
  rw [ExtrspParser.step, hp]
  refine ((text_yields p).bind fun t ht => yields_some ?_).iff (iff_of_eq (and_true _))
  rw [ht]

theorem lastquote_comma (hp : p.state = .tokenStringLastquote) :
    p.step room 44 = some { p with state := .idle } := by
  rw [ExtrspParser.step, hp]
  rfl

theorem string_char (hp : p.state = .tokenString) (hc : c ≠ 34) : p.step room c = p.store room c := by
  rw [ExtrspParser.step, hp]
  exact if_neg hc

theorem numeric_digit (hp : p.state = .tokenNumeric) (hc : isDigit c = true) :
    p.step room c = p.store room c := by
  have hcomma : c ≠ 44 := by
    rintro rfl
    cases hc
  rw [ExtrspParser.step, hp]
  exact (if_neg hcomma).trans (if_pos hc)

theorem range_digit (hp : p.state = .tokenRange) (hc : isDigit c = true) :
    p.step room c = p.store room c := by
  rw [ExtrspParser.step, hp]
  exact if_pos hc

theorem range_dash (hp : p.state = .tokenRange) : p.step room 45 = p.setMin := by
  rw [ExtrspParser.step, hp]
  rfl

theorem range_comma (hp : p.state = .tokenRange) : p.step room 44 = p.setMax := by
  rw [ExtrspParser.step, hp]
  rfl

theorem range_paren (hp : p.state = .tokenRange) : p.step room 41 =
    p.setMax.map fun q => q.finish (.range q.items) .tokenStringLastquote := by
  rw [ExtrspParser.step, hp]
  change p.setMax.bind _ = _
  cases p.setMax <;> rfl

theorem store_loop (room : ℕ) (p : ExtrspParser) (body : Bytes)
    (hstore : ∀ q : ExtrspParser, q.state = p.state → ∀ c ∈ body, q.step room c = q.store room c)
    (hroom : p.buf.length ≤ room) :
    Yields (body.foldlM (ExtrspParser.step room) p) (p.buf.length + body.length ≤ room)
      (· = { p with buf := p.buf ++ body }) := by
  induction body generalizing p with
  | nil =>
    refine (yields_some ?_).iff (iff_of_true trivial hroom)
    rw [List.append_nil]
  | cons c body ih =>
    have hstep : Yields (p.step room c) (p.buf.length < room)
        (fun q => q = { p with buf := p.buf ++ [c] } ∧ p.buf.length + 1 ≤ room) := by
      rw [hstore p rfl c List.mem_cons_self]
      exact yields_ite fun hlt => ⟨rfl, hlt⟩
    have hloop : Yields ((c :: body).foldlM (ExtrspParser.step room) p)
        (p.buf.length < room ∧ p.buf.length + 1 + body.length ≤ room)
        (· = { p with buf := p.buf ++ c :: body }) := by
      apply yields_foldlM_cons hstep
      rintro q ⟨rfl, hlt⟩
      have hrest := @ih { p with buf := p.buf ++ [c] }
        (fun q hq d hd => hstore q hq d (List.mem_cons_of_mem c hd))
        (by rwa [List.length_append, List.length_singleton])
      rwa [List.length_append, List.length_singleton, List.append_assoc, List.singleton_append]
        at hrest
    apply hloop.iff
    rw [List.length_cons]
    omega

def Begun (p : ExtrspParser) (state : ExtrspState) : ExtrspParser :=
  { p with state, buf := [], items := [], min := 0 }

theorem quote_step (hp : p.state = .idle) : p.step room 34 =
    if p.tokens.length < gsmExtrspMaxTokens then some (Begun p .tokenString) else none := by
  rw [ExtrspParser.step, hp]
  rfl

theorem paren_step (hp : p.state = .idle) : p.step room 40 =
    if p.tokens.length < gsmExtrspMaxTokens then some (Begun p .tokenRange) else none := by
  rw [ExtrspParser.step, hp]
  rfl

theorem digit_step (hp : p.state = .idle) (hdigit : isDigit c = true) (hroom : 1 ≤ room) :
    p.step room c =
      if p.tokens.length < gsmExtrspMaxTokens then
        some { Begun p .tokenNumeric with buf := [c] }
      else none := by
  have hother : isBlank c = false ∧ c ≠ 34 ∧ c ≠ 40 := by
    refine ⟨?_, (by rintro rfl; cases hdigit), (by rintro rfl; cases hdigit)⟩
    rw [isBlank, Bool.or_eq_false_iff, decide_eq_false_iff_not, decide_eq_false_iff_not]
    exact ⟨(by rintro rfl; cases hdigit), (by rintro rfl; cases hdigit)⟩
  rw [ExtrspParser.step, hp]
  dsimp only
  rw [hother.1, if_neg (by decide), if_neg hother.2.1, if_neg hother.2.2, if_pos hdigit,
    ExtrspParser.start]
  split_ifs with hlt
  · exact if_pos hroom
  · rfl

theorem comma_step (hp : p.state = .idle) : p.step room 44 =
    if p.tokens.length < gsmExtrspMaxTokens then some ((Begun p .idle).finish .empty .idle)
    else none := by
  rw [ExtrspParser.step, hp]
  change ((ExtrspParser.start _ _).bind _) = _
  rw [ExtrspParser.start]
  split_ifs <;> rfl

theorem skip_step (hp : p.state = .idle) (hquote : c ≠ 34) (hparen : c ≠ 40)
    (hdigit : ¬ isDigit c = true) (hcomma : c ≠ 44) :
    p.step room c = some { p with buf := [] } := by
  rw [ExtrspParser.step, hp]
  dsimp only
  rw [if_neg hquote, if_neg hparen, if_neg hdigit, if_neg hcomma, ite_self]

theorem blank_step (hp : p.state = .idle) (hblank : isBlank c = true) :
    p.step room c = some { p with buf := [] } := by
  rw [ExtrspParser.step, hp]
  dsimp only
  rw [if_pos hblank]

end SystemTestSuite.GsmDaemon
