import SystemTestSuite.GsmDaemon.ExtSteps
import SystemTestSuite.Library.Decimal

namespace SystemTestSuite.GsmDaemon

open Library

structure RspNumber where
  digits : Bytes
  ne_nil : digits ≠ []
  digit : ∀ c ∈ digits, isDigit c = true

def RspNumber.value (n : RspNumber) : ℕ := digitsValue n.digits

structure RspText where
  text : Bytes
  short : text.length < extrspStringSize
  plain : ∀ c ∈ text, c ≠ 34 ∧ c ≠ 0

inductive RspItem where
  | number (n : RspNumber)
  | range (low high : RspNumber)

structure RspRange where
  items : List RspItem
  ne_nil : items ≠ []

inductive RspElement where
  | empty
  | number (n : RspNumber)
  | string (t : RspText)
  | range (r : RspRange)

def commaSeparated (texts : List Bytes) : Bytes := [44].intercalate texts

namespace RspItem

def text : RspItem → Bytes
  | number n => n.digits
  | range low high => low.digits ++ 45 :: high.digits

def value : RspItem → GsmExtrspRangeItem
  | number n => ⟨n.value, n.value⟩
  | range low high => ⟨low.value, high.value⟩

/-- The digits that are read with those of the next item: all since the last `-`. -/
def leftover (lead : Bytes) : RspItem → Bytes
  | number n => lead ++ n.digits
  | range _ high => high.digits

def Fits (lead : Bytes) : RspItem → Prop
  | number n => (lead ++ n.digits).length < extrspBufSize
  | range low high =>
    (lead ++ low.digits).length < extrspBufSize ∧ high.digits.length < extrspBufSize

def read (lead : Bytes) : RspItem → GsmExtrspRangeItem
  | number n => ⟨0, atoi (lead ++ n.digits)⟩
  | range low high => ⟨atoi (lead ++ low.digits), atoi high.digits⟩

end RspItem

def readItems (lead : Bytes) : List RspItem → List GsmExtrspRangeItem
  | [] => []
  | item :: items => item.read lead :: readItems (item.leftover lead) items

def ItemsFit (lead : Bytes) : List RspItem → Prop
  | [] => True
  | item :: items => item.Fits lead ∧ ItemsFit (item.leftover lead) items

namespace RspElement

def text : RspElement → Bytes
  | empty => []
  | number n => n.digits
  | string t => 34 :: (t.text ++ [34])
  | range r => 40 :: (commaSeparated (r.items.map RspItem.text) ++ [41])

def value : RspElement → GsmExtrspTok
  | empty => .empty
  | number n => .numeric n.value
  | string t => .string t.text
  | range r => .range (r.items.map RspItem.value)

def Closed : RspElement → Prop
  | empty | number _ => False
  | string _ | range _ => True

def Fits : RspElement → Prop
  | empty | string _ => True
  | number n => n.digits.length < extrspBufSize
  | range r => ItemsFit [] r.items ∧ r.items.length ≤ gsmExtrspMaxRanges

def read : RspElement → GsmExtrspTok
  | empty => .empty
  | number n => .numeric (atoi n.digits)
  | string t => .string t.text
  | range r => .range (readItems [] r.items)

/-- A number at the end is not read, and its digits fill `buf` to the last character. -/
def FitsLast (counted : ℕ) : RspElement → Prop
  | empty => True
  | number n => counted < gsmExtrspMaxTokens ∧ n.digits.length ≤ extrspBufSize
  | string t => counted < gsmExtrspMaxTokens ∧ (string t).Fits
  | range r => counted < gsmExtrspMaxTokens ∧ (range r).Fits

def readLast : RspElement → List GsmExtrspTok
  | empty | number _ => []
  | string t => [(string t).read]
  | range r => [(range r).read]

end RspElement

def ElementsFit (counted : ℕ) : List RspElement → Prop
  | [] => True
  | [e] => e.FitsLast counted
  | e :: next :: es =>
    (counted < gsmExtrspMaxTokens ∧ e.Fits) ∧ ElementsFit (counted + 1) (next :: es)

def readElements : List RspElement → List GsmExtrspTok
  | [] => []
  | [e] => e.readLast
  | e :: next :: es => e.read :: readElements (next :: es)

def responseText (elements : List RspElement) : Bytes :=
  commaSeparated (elements.map RspElement.text)

variable {p q : ExtrspParser} {lead : Bytes} {item : RspItem} {items : List RspItem}
  {stored : List GsmExtrspRangeItem} {tokens : List GsmExtrspTok} {e : RspElement}

theorem commaSeparated_singleton (t : Bytes) : commaSeparated [t] = t := by
  simp [commaSeparated]

theorem commaSeparated_cons (t u : Bytes) (ts : List Bytes) :
    commaSeparated (t :: u :: ts) = t ++ 44 :: commaSeparated (u :: ts) := by
  rw [commaSeparated, List.intercalate_cons_of_ne_nil (List.cons_ne_nil _ _), List.append_assoc]
  rfl

structure InRange (lead : Bytes) (stored : List GsmExtrspRangeItem) (tokens : List GsmExtrspTok)
    (p : ExtrspParser) : Prop where
  state : p.state = .tokenRange
  buf : p.buf = lead
  items : p.items = stored
  min : p.min = 0
  tokens : p.tokens = tokens

structure InFront (tokens : List GsmExtrspTok) (p : ExtrspParser) : Prop where
  state : p.state = .idle
  tokens : p.tokens = tokens

theorem range_digits (hp : p.state = .tokenRange) (hroom : p.buf.length < extrspBufSize)
    (n : RspNumber) : Yields (n.digits.foldlM (ExtrspParser.step extrspBufSize) p)
      ((p.buf ++ n.digits).length ≤ extrspBufSize)
      (· = { p with buf := p.buf ++ n.digits }) := by
  rw [List.length_append]
  have hdigit (q : ExtrspParser) (hq : q.state = p.state) : ∀ c ∈ n.digits,
      q.step extrspBufSize c = q.store extrspBufSize c :=
    fun c hc => range_digit (hq.trans hp) (n.digit c hc)
  exact store_loop extrspBufSize p n.digits hdigit hroom.le

structure AtDelimiter (lead : Bytes) (stored : List GsmExtrspRangeItem) (tokens : List GsmExtrspTok)
    (item : RspItem) (p : ExtrspParser) : Prop where
  state : p.state = .tokenRange
  buf : p.buf = item.leftover lead
  items : p.items = stored
  read : item.read lead = ⟨p.min, atoi p.buf⟩
  tokens : p.tokens = tokens

theorem number_run (hp : InRange lead stored tokens p) (hlead : lead.length < extrspBufSize)
    (n : RspNumber) : Yields (n.digits.foldlM (ExtrspParser.step extrspBufSize) p)
      ((lead ++ n.digits).length ≤ extrspBufSize)
      (AtDelimiter lead stored tokens (.number n)) := by
  obtain ⟨hstate, rfl, rfl, hmin, rfl⟩ := hp
  apply (range_digits hstate hlead n).weaken
  rintro _ rfl
  exact ⟨hstate, rfl, rfl, by rw [hmin]; rfl, rfl⟩

theorem range_run (hp : InRange lead stored tokens p) (hlead : lead.length < extrspBufSize)
    (low high : RspNumber) :
    Yields ((RspItem.range low high).text.foldlM (ExtrspParser.step extrspBufSize) p)
      ((lead ++ low.digits).length ≤ extrspBufSize ∧
        ((lead ++ low.digits).length < extrspBufSize ∧ stored.length < gsmExtrspMaxRanges) ∧
          high.digits.length ≤ extrspBufSize)
      (AtDelimiter lead stored tokens (.range low high)) := by
  obtain ⟨hstate, rfl, rfl, hmin, rfl⟩ := hp
  apply yields_foldlM_append (range_digits hstate hlead low)
  rintro _ rfl
  have hdash := setMin_yields { p with buf := p.buf ++ low.digits }
  have hstep : ExtrspParser.step extrspBufSize { p with buf := p.buf ++ low.digits } 45 = _ :=
    range_dash hstate
  rw [← hstep] at hdash
  apply yields_foldlM_cons hdash
  rintro _ rfl
  have hempty : ([] : Bytes).length < extrspBufSize := by decide
  apply (range_digits (p := { p with min := atoi (p.buf ++ low.digits), buf := [] })
    hstate hempty high).weaken
  rintro _ rfl
  exact ⟨hstate, rfl, rfl, rfl, rfl⟩

theorem setMax_run (hp : AtDelimiter lead stored tokens item p) :
    Yields p.setMax
      ((item.leftover lead).length < extrspBufSize ∧ stored.length < gsmExtrspMaxRanges)
      (InRange (item.leftover lead) (stored ++ [item.read lead]) tokens) := by
  obtain ⟨hstate, hbuf, rfl, hread, rfl⟩ := hp
  refine ((setMax_yields p).weaken ?_).iff (by rw [hbuf])
  rintro _ rfl
  exact ⟨hstate, hbuf, by rw [hread], rfl, rfl⟩

theorem item_run (hp : InRange lead stored tokens p) (hlead : lead.length < extrspBufSize)
    {c : UInt8} {f : ExtrspParser → ExtrspParser}
    (hc : ∀ q : ExtrspParser, q.state = .tokenRange → q.step extrspBufSize c = q.setMax.map f) :
    Yields ((item.text ++ [c]).foldlM (ExtrspParser.step extrspBufSize) p)
      (item.Fits lead ∧ stored.length < gsmExtrspMaxRanges)
      (fun q => ∃ r, q = f r ∧
        InRange (item.leftover lead) (stored ++ [item.read lead]) tokens r) := by
  have hclose {q : ExtrspParser} (hq : AtDelimiter lead stored tokens item q) :
      Yields ([c].foldlM (ExtrspParser.step extrspBufSize) q)
        ((item.leftover lead).length < extrspBufSize ∧ stored.length < gsmExtrspMaxRanges)
        (fun q => ∃ r, q = f r ∧
          InRange (item.leftover lead) (stored ++ [item.read lead]) tokens r) := by
    apply yields_foldlM_singleton
    rw [hc q hq.state]
    exact (setMax_run hq).map fun r hr => ⟨r, rfl, hr⟩
  cases item with
  | number n =>
    apply (yields_foldlM_append (number_run hp hlead n) fun q hq => hclose hq).iff
    exact ⟨And.right, fun h => ⟨h.1.le, h⟩⟩
  | range low high =>
    apply (yields_foldlM_append (range_run hp hlead low high) fun q hq => hclose hq).iff
    constructor
    · exact fun ⟨⟨_, ⟨hlow, _⟩, _⟩, hhigh, hitems⟩ => ⟨⟨hlow, hhigh⟩, hitems⟩
    · exact fun ⟨⟨hlow, hhigh⟩, hitems⟩ => ⟨⟨hlow.le, ⟨hlow, hitems⟩, hhigh.le⟩, hhigh, hitems⟩

theorem leftover_length (h : item.Fits lead) : (item.leftover lead).length < extrspBufSize := by
  cases item with
  | number n => exact h
  | range low high => exact h.2

theorem item_comma (item : RspItem) (hp : InRange lead stored tokens p)
    (hlead : lead.length < extrspBufSize) :
    Yields ((item.text ++ [44]).foldlM (ExtrspParser.step extrspBufSize) p)
      (item.Fits lead ∧ stored.length < gsmExtrspMaxRanges)
      (fun q => InRange (item.leftover lead) (stored ++ [item.read lead]) tokens q ∧
        (item.leftover lead).length < extrspBufSize) := by
  have hcomma (q : ExtrspParser) (hq : q.state = .tokenRange) :
      q.step extrspBufSize 44 = q.setMax.map id := by
    rw [range_comma hq, Option.map_id]
    rfl
  apply ((item_run hp hlead hcomma).keep fun h => leftover_length h.1).weaken
  rintro _ ⟨⟨r, rfl, hr⟩, hlen⟩
  exact ⟨hr, hlen⟩

theorem items_run (hp : InRange lead stored tokens p) (hlead : lead.length < extrspBufSize)
    (hitems : items ≠ []) :
    Yields ((commaSeparated (items.map RspItem.text) ++ [41]).foldlM
        (ExtrspParser.step extrspBufSize) p)
      (ItemsFit lead items ∧ stored.length + items.length ≤ gsmExtrspMaxRanges)
      (fun q => q.state = .tokenStringLastquote ∧
        q.tokens = tokens ++ [.range (stored ++ readItems lead items)]) := by
  induction items generalizing lead stored p with
  | nil => exact absurd rfl hitems
  | cons item items ih =>
    cases items with
    | nil =>
      rw [List.map_singleton, commaSeparated_singleton]
      refine ((item_run hp hlead fun q hq => range_paren hq).weaken ?_).iff ?_
      · rintro _ ⟨r, rfl, hr⟩
        refine ⟨rfl, ?_⟩
        change r.tokens ++ [.range r.items] = _
        rw [hr.tokens, hr.items]
        rfl
      · rw [ItemsFit, ItemsFit, and_true]
        exact Iff.rfl
    | cons next items =>
      have hsplit : commaSeparated ((item :: next :: items).map RspItem.text) ++ [41] =
          (item.text ++ [44]) ++ (commaSeparated ((next :: items).map RspItem.text) ++ [41]) := by
        rw [List.map_cons, List.map_cons, commaSeparated_cons]
        simp
      have hrun := yields_foldlM_append (item_comma item hp hlead)
        fun q hq => ih hq.1 hq.2 (List.cons_ne_nil next items)
      rw [hsplit]
      refine (hrun.weaken ?_).iff ?_
      · rintro q ⟨hstate, htokens⟩
        refine ⟨hstate, ?_⟩
        rw [htokens, List.append_assoc]
        rfl
      · rw [ItemsFit, List.length_append, List.length_singleton, List.length_cons (a := item),
          List.length_cons]
        constructor
        · exact fun ⟨⟨hfits, _⟩, hmore, hlen⟩ => ⟨⟨hfits, hmore⟩, by omega⟩
        · exact fun ⟨⟨hfits, hmore⟩, hlen⟩ => ⟨⟨hfits, by omega⟩, hmore, by omega⟩

theorem number_begins (hp : InFront tokens p) (n : RspNumber) :
    Yields (n.digits.foldlM (ExtrspParser.step extrspBufSize) p)
      (tokens.length < gsmExtrspMaxTokens ∧ n.digits.length ≤ extrspBufSize)
      (fun q => q.state = .tokenNumeric ∧ q.buf = n.digits ∧ q.tokens = tokens) := by
  obtain ⟨hidle, rfl⟩ := hp
  obtain ⟨digits, hne, hdigits⟩ := n
  cases digits with
  | nil => exact absurd rfl hne
  | cons c digits =>
    have hfirst : Yields (p.step extrspBufSize c) (p.tokens.length < gsmExtrspMaxTokens)
        (· = { Begun p .tokenNumeric with buf := [c] }) := by
      rw [digit_step hidle (hdigits c List.mem_cons_self) (by decide)]
      exact yields_ite fun _ => rfl
    have hmore := store_loop extrspBufSize { Begun p .tokenNumeric with buf := [c] } digits
      (fun q hq d hd => numeric_digit hq (hdigits d (List.mem_cons_of_mem c hd)))
      (Nat.one_le_two_pow (n := 9))
    rw [List.length_cons, Nat.add_comm]
    apply yields_foldlM_cons hfirst
    rintro _ rfl
    apply hmore.weaken
    rintro _ rfl
    exact ⟨rfl, rfl, rfl⟩

theorem string_run (hp : InFront tokens p) (t : RspText) :
    Yields ((RspElement.string t).text.foldlM (ExtrspParser.step extrspBufSize) p)
      (tokens.length < gsmExtrspMaxTokens)
      (fun q => q.state = .tokenStringLastquote ∧ q.tokens = tokens ++ [.string t.text]) := by
  obtain ⟨hidle, rfl⟩ := hp
  have hfirst : Yields (p.step extrspBufSize 34) (p.tokens.length < gsmExtrspMaxTokens)
      (· = Begun p .tokenString) := by
    rw [quote_step hidle]
    exact yields_ite fun _ => rfl
  have hshort : t.text.length < extrspBufSize := t.short.trans (by decide)
  have hbody := store_loop extrspBufSize (Begun p .tokenString) t.text
    (fun q hq c hc => string_char hq (t.plain c hc).1) (Nat.zero_le _)
  have hclose : Yields
      (ExtrspParser.step extrspBufSize { Begun p .tokenString with buf := t.text } 34) _ _ :=
    string_close rfl
  have hrun : Yields ((34 :: (t.text ++ [34])).foldlM (ExtrspParser.step extrspBufSize) p)
      (p.tokens.length < gsmExtrspMaxTokens ∧ 0 + t.text.length ≤ extrspBufSize ∧
        t.text.length < extrspBufSize)
      (fun q => q.state = .tokenStringLastquote ∧ q.tokens = p.tokens ++ [.string t.text]) := by
    apply yields_foldlM_cons hfirst
    rintro _ rfl
    apply yields_foldlM_append hbody
    rintro _ rfl
    apply yields_foldlM_singleton
    apply hclose.weaken
    rintro _ rfl
    refine ⟨rfl, ?_⟩
    change p.tokens ++ [.string (t.text.take (extrspStringSize - 1))] = _
    rw [List.take_of_length_le (Nat.le_sub_one_of_lt t.short)]
  apply hrun.iff
  exact ⟨And.left, fun h => ⟨h, by omega, hshort⟩⟩

theorem parenthesised_run (hp : InFront tokens p) (r : RspRange) :
    Yields ((RspElement.range r).text.foldlM (ExtrspParser.step extrspBufSize) p)
      (tokens.length < gsmExtrspMaxTokens ∧ (RspElement.range r).Fits)
      (fun q => q.state = .tokenStringLastquote ∧
        q.tokens = tokens ++ [.range (readItems [] r.items)]) := by
  obtain ⟨hidle, rfl⟩ := hp
  have hfirst : Yields (p.step extrspBufSize 40) (p.tokens.length < gsmExtrspMaxTokens)
      (· = Begun p .tokenRange) := by
    rw [paren_step hidle]
    exact yields_ite fun _ => rfl
  have hrange : InRange [] [] p.tokens (Begun p .tokenRange) := ⟨rfl, rfl, rfl, rfl, rfl⟩
  have hitems := items_run hrange (by decide) r.ne_nil
  rw [List.length_nil, Nat.zero_add, List.nil_append] at hitems
  apply yields_foldlM_cons hfirst
  rintro _ rfl
  exact hitems

theorem closed_run (hp : InFront tokens p) (he : e.Closed) :
    Yields (e.text.foldlM (ExtrspParser.step extrspBufSize) p)
      (tokens.length < gsmExtrspMaxTokens ∧ e.Fits)
      (fun q => q.state = .tokenStringLastquote ∧ q.tokens = tokens ++ [e.read]) := by
  cases e with
  | empty => exact absurd he id
  | number n => exact absurd he id
  | string t => exact (string_run hp t).iff ⟨fun h => ⟨h, trivial⟩, And.left⟩
  | range r => exact parenthesised_run hp r

theorem element_comma (hp : InFront tokens p) :
    Yields ((e.text ++ [44]).foldlM (ExtrspParser.step extrspBufSize) p)
      (tokens.length < gsmExtrspMaxTokens ∧ e.Fits) (InFront (tokens ++ [e.read])) := by
  have hcomma {q : ExtrspParser} (hq : q.state = .tokenStringLastquote ∧
      q.tokens = tokens ++ [e.read]) :
      Yields ([44].foldlM (ExtrspParser.step extrspBufSize) q) True
        (InFront (tokens ++ [e.read])) := by
    apply yields_foldlM_singleton
    rw [lastquote_comma hq.1]
    exact yields_some ⟨rfl, hq.2⟩
  cases e with
  | empty =>
    obtain ⟨hidle, rfl⟩ := hp
    have hstep : Yields (p.step extrspBufSize 44) (p.tokens.length < gsmExtrspMaxTokens)
        (InFront (p.tokens ++ [.empty])) := by
      rw [comma_step hidle]
      exact yields_ite fun _ => ⟨rfl, rfl⟩
    exact (yields_foldlM_singleton hstep).iff (iff_of_eq (and_true _).symm)
  | number n =>
    have hclose {q : ExtrspParser} (hq : q.state = .tokenNumeric ∧ q.buf = n.digits ∧
        q.tokens = tokens) : Yields ([44].foldlM (ExtrspParser.step extrspBufSize) q)
          (n.digits.length < extrspBufSize) (InFront (tokens ++ [.numeric (atoi n.digits)])) := by
      obtain ⟨hstate, hbuf, rfl⟩ := hq
      rw [← hbuf]
      apply yields_foldlM_singleton
      apply (numeric_close hstate).weaken
      rintro _ rfl
      exact ⟨rfl, rfl⟩
    apply (yields_foldlM_append (number_begins hp n) fun q hq => hclose hq).iff
    exact ⟨fun h => ⟨h.1.1, h.2⟩, fun h => ⟨⟨h.1, le_of_lt h.2⟩, h.2⟩⟩
  | string t =>
    have hrun := yields_foldlM_append (closed_run (e := .string t) hp trivial) fun q hq => hcomma hq
    exact hrun.iff (iff_of_eq (and_true _))
  | range r =>
    have hrun := yields_foldlM_append (closed_run (e := .range r) hp trivial) fun q hq => hcomma hq
    exact hrun.iff (iff_of_eq (and_true _))

theorem element_last (hp : InFront tokens p) :
    Yields (e.text.foldlM (ExtrspParser.step extrspBufSize) p) (e.FitsLast tokens.length)
      (fun q => q.tokens = tokens ++ e.readLast) := by
  cases e with
  | empty =>
    refine (yields_some ?_).iff Iff.rfl
    rw [RspElement.readLast, List.append_nil]
    exact hp.tokens
  | number n =>
    apply (number_begins hp n).weaken
    rintro q ⟨-, -, htokens⟩
    rw [RspElement.readLast, List.append_nil]
    exact htokens
  | string t => exact (closed_run (e := .string t) hp trivial).weaken fun q hq => hq.2
  | range r => exact (closed_run (e := .range r) hp trivial).weaken fun q hq => hq.2

theorem elements_run (es : List RspElement) (hp : InFront tokens p) :
    Yields ((responseText es).foldlM (ExtrspParser.step extrspBufSize) p)
      (ElementsFit tokens.length es) (fun q => q.tokens = tokens ++ readElements es) := by
  induction es generalizing tokens p with
  | nil =>
    refine (yields_some ?_).iff Iff.rfl
    rw [readElements, List.append_nil]
    exact hp.tokens
  | cons e es ih =>
    cases es with
    | nil =>
      rw [responseText, List.map_singleton, commaSeparated_singleton]
      exact element_last hp
    | cons next es =>
      have hsplit : responseText (e :: next :: es) =
          (e.text ++ [44]) ++ responseText (next :: es) := by
        rw [responseText, List.map_cons, List.map_cons, commaSeparated_cons, List.append_assoc]
        rfl
      have hrun := yields_foldlM_append (element_comma (e := e) hp) fun q hq => ih hq
      rw [hsplit]
      refine (hrun.weaken ?_).iff ?_
      · intro q hq
        rw [hq, List.append_assoc]
        rfl
      · rw [List.length_append, List.length_singleton]
        exact Iff.rfl

end SystemTestSuite.GsmDaemon
