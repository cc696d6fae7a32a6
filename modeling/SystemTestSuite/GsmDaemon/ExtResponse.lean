import SystemTestSuite.GsmDaemon.MlParse
import SystemTestSuite.Library.Scanf

/-!
The parser of extended responses, `gsmd/ext_response.c`.
-/

namespace SystemTestSuite.GsmDaemon

open Library

def gsmExtrspMaxTokens : ℕ := 16
def gsmExtrspMaxRanges : ℕ := 16

def extrspStringSize : ℕ := 64

def extrspBufSize : ℕ := 512

structure GsmExtrspRangeItem where
  min : ℤ
  max : ℤ
  deriving DecidableEq, Repr

inductive GsmExtrspTok where
  | empty
  | numeric (value : ℤ)
  | string (text : Bytes)
  | range (items : List GsmExtrspRangeItem)
  deriving DecidableEq, Repr

structure GsmExtrsp where
  tokens : List GsmExtrspTok
  deriving DecidableEq, Repr

def extrspSupports (er : GsmExtrsp) (index : ℕ) (value : ℤ) : ℤ :=
  match er.tokens[index]? with
  | some (.range items) => if items.any (fun ri => value ≥ ri.min ∧ value ≤ ri.max) then 1 else 0
  | _ => -EINVAL

inductive ExtrspState where
  | idle
  | tokenString
  | tokenStringLastquote
  | tokenNumeric
  | tokenRange
  deriving DecidableEq, Repr

/-- `buf` is what stands in front of `cur_buf`, `items` and `min` are what `cur_token` has of a range:
the items that `num_items` counts and the `min` of the one behind them. -/
structure ExtrspParser where
  state : ExtrspState
  buf : Bytes
  items : List GsmExtrspRangeItem
  min : ℤ
  tokens : List GsmExtrspTok
  deriving DecidableEq, Repr

def isBlank (c : UInt8) : Bool := c = 32 || c = 9

namespace ExtrspParser

def init : ExtrspParser := ⟨.idle, [], [], 0, []⟩

def store (room : ℕ) (p : ExtrspParser) (c : UInt8) : Option ExtrspParser :=
  if p.buf.length < room then some { p with buf := p.buf ++ [c] } else none

def text (p : ExtrspParser) : Option Bytes :=
  if p.buf.length < extrspBufSize then some p.buf else none

def start (p : ExtrspParser) (state : ExtrspState) : Option ExtrspParser :=
  if p.tokens.length < gsmExtrspMaxTokens then some { p with state, items := [], min := 0 }
  else none

def finish (p : ExtrspParser) (tok : GsmExtrspTok) (state : ExtrspState) : ExtrspParser :=
  { p with state, tokens := p.tokens ++ [tok] }

def setMin (p : ExtrspParser) : Option ExtrspParser := do
  let number ← p.text
  if p.items.length < gsmExtrspMaxRanges then return { p with min := atoi number, buf := [] }
  else none

def setMax (p : ExtrspParser) : Option ExtrspParser := do
  let number ← p.text
  if p.items.length < gsmExtrspMaxRanges then
    return { p with items := p.items ++ [⟨p.min, atoi number⟩], min := 0 }
  else none

/-- The loop's body. `none` is an access outside `tokens`, `item` or `buf`. -/
def step (room : ℕ) (p : ExtrspParser) (c : UInt8) : Option ExtrspParser :=
  match p.state with
  | .idle =>
    let p := { p with buf := [] }
    if isBlank c then some p
    else if c = 34 then p.start .tokenString
    else if c = 40 then p.start .tokenRange
    else if isDigit c then do (← p.start .tokenNumeric).store room c
    else if c = 44 then do return (← p.start .idle).finish .empty .idle
    else some p
  | .tokenNumeric =>
    if c = 44 then do return p.finish (.numeric (atoi (← p.text))) .idle
    else if isDigit c then p.store room c
    else some p
  | .tokenString =>
    if c = 34 then do
      let text ← p.text
      return p.finish (.string (text.take (extrspStringSize - 1))) .tokenStringLastquote
    else p.store room c
  | .tokenStringLastquote => if c = 44 then some { p with state := .idle } else some p
  | .tokenRange =>
    if isDigit c then p.store room c
    else if c = 45 then p.setMin
    else if c = 44 then p.setMax
    else if c = 41 then do
      let p ← p.setMax
      return p.finish (.range p.items) .tokenStringLastquote
    else some p

end ExtrspParser

def extrspLoop (room : ℕ) (input : Bytes) : Option ExtrspParser :=
  (cstr input).foldlM (ExtrspParser.step room) .init

/-- `none` is an access outside, `some none` a NULL pointer. -/
def extrspParse (input : Bytes) : Option (Option GsmExtrsp) :=
  if cstr input = [] then some none
  else (extrspLoop extrspBufSize input).map fun p => some ⟨p.tokens⟩

end SystemTestSuite.GsmDaemon
