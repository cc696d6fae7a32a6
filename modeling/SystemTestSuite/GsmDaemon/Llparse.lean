import SystemTestSuite.Library.Memory
import SystemTestSuite.Library.Transducer

/-!
The low-level parser of `gsmd/atcmd.c`: one byte at a time, one callback for each
line and for each prompt of the modem.
-/

namespace SystemTestSuite.GsmDaemon

open Library

abbrev CR : UInt8 := 13
abbrev LF : UInt8 := 10
abbrev SP : UInt8 := 32
abbrev GT : UInt8 := 62

def lgsmAtcmdFExtended : UInt32 := 0x01
def lgsmAtcmdFLfcr : UInt32 := 0x04

def llparseBufSize : ℕ := 1024

def EFBIG : ℤ := 27

inductive LlparseState where
  | idle | idleCr | idleLf | result | resultCr | resultLf | prompt | promptSpc | error
  deriving DecidableEq, Repr

/-- `cur` is the offset of the cursor in `buf`. -/
structure Llparser where
  state : LlparseState
  len : ℕ
  flags : UInt32
  cur : ℕ
  buf : Memory

inductive Delivery where
  | cb (buf : Memory) (len : ℕ)
  | promptCb

def llparseAppend (llp : Llparser) (byte : UInt8) : ℤ × Llparser :=
  if llp.cur < llp.len then
    (0, { llp with buf := llp.buf.store llp.cur [byte], cur := llp.cur + 1 })
  else (-EFBIG, llp)

def llparseEndline (llp : Llparser) : Llparser :=
  { llp with cur := 0, state := .idle, buf := llp.buf.fill 0 llparseBufSize 0 }

def llparseByte (llp : Llparser) (byte : UInt8) : ℤ × Llparser :=
  match llp.state with
  | .idle | .promptSpc =>
    if llp.flags &&& lgsmAtcmdFExtended ≠ 0 then
      if byte = CR then (0, { llp with state := .idleCr })
      else if byte = GT then (0, { llp with state := .prompt })
      else llparseAppend { llp with state := .result } byte
    else llparseAppend { llp with state := .result } byte
  | .idleCr =>
    if byte = LF then (0, { llp with state := .idleLf }) else (0, { llp with state := .error })
  | .idleLf =>
    if byte = CR then (0, { llp with state := .resultCr })
    else if byte = GT then (0, { llp with state := .prompt })
    else llparseAppend { llp with state := .result } byte
  | .result =>
    if byte = CR then (0, { llp with state := .resultCr })
    else if llp.flags &&& lgsmAtcmdFLfcr ≠ 0 ∧ byte = LF then (0, { llp with state := .resultLf })
    else llparseAppend llp byte
  | .resultCr => (0, if byte = LF then llparseEndline llp else llp)
  | .resultLf => (0, if byte = CR then llparseEndline llp else llp)
  | .prompt =>
    if byte = SP then (0, { llp with state := .promptSpc })
    else
      -- this was not a real "> " prompt; only the second append decides the return value
      let r := llparseAppend (llparseAppend llp GT).2 byte
      (r.1, { r.2 with state := .result })
  | .error => (0, llp)

/-- The calls `llparse_string` makes after a byte, read off the state reached. -/
def deliveries (llp : Llparser) : List Delivery :=
  (if llp.state = .resultCr then [.cb llp.buf llp.cur] else []) ++
    (if llp.state = .promptSpc then [.promptCb] else [])

def llparseString (llp : Llparser) : Bytes → ℤ × Llparser × List Delivery
  | [] => (0, llp, [])
  | byte :: buf =>
    let r := llparseByte llp byte
    if r.1 < 0 then (r.1, r.2, [])
    else
      let t := llparseString r.2 buf
      (t.1, t.2.1, deliveries r.2 ++ t.2.2)

def llparseInit (llp : Llparser) : Llparser := { llp with state := .idle }

def llparserAtInit : Llparser :=
  llparseInit { state := .idle, len := llparseBufSize, flags := lgsmAtcmdFExtended, cur := 0,
                buf := Memory.zero }

def llparseReads (llp : Llparser) : List Bytes → List ℤ × Llparser × List Delivery
  | [] => ([], llp, [])
  | buf :: reads =>
    let r := llparseString llp buf
    let t := llparseReads r.2.1 reads
    (r.1 :: t.1, t.2.1, r.2.2 ++ t.2.2)

def llparseStep (llp : Llparser) (byte : UInt8) : Option (Llparser × List Delivery) :=
  let r := llparseByte llp byte
  if r.1 < 0 then none else some (r.2, deliveries r.2)

theorem llparseString_of_feed {llp llp' : Llparser} {buf : Bytes} {ds : List Delivery}
    (h : Transducer.feed llparseStep llp buf = some (llp', ds)) :
    llparseString llp buf = (0, llp', ds) := by
  induction buf generalizing llp ds with
  | nil => simp_all [llparseString]
  | cons byte buf ih =>
    obtain ⟨⟨mid, os⟩, hb, hrest⟩ := Option.bind_eq_some_iff.mp h
    obtain ⟨⟨fin, ps⟩, hf, he⟩ := Option.map_eq_some_iff.mp hrest
    simp only [Prod.mk.injEq] at he
    obtain ⟨rfl, rfl⟩ := he
    simp only [llparseStep] at hb
    split at hb
    · simp at hb
    · rename_i hrc
      simp only [Option.some.injEq, Prod.mk.injEq] at hb
      obtain ⟨rfl, rfl⟩ := hb
      simp only [llparseString, if_neg hrc, ih hf]

theorem llparseReads_of_feed {llp llp' : Llparser} {reads : List Bytes} {ds : List Delivery}
    (h : Transducer.feed llparseStep llp reads.flatten = some (llp', ds)) :
    llparseReads llp reads = (List.replicate reads.length 0, llp', ds) := by
  rw [← Transducer.feedReads_eq] at h
  induction reads generalizing llp ds with
  | nil =>
    simp only [Transducer.feedReads, Option.some.injEq, Prod.mk.injEq] at h
    obtain ⟨rfl, rfl⟩ := h
    rfl
  | cons buf reads ih =>
    obtain ⟨⟨mid, os⟩, hb, hrest⟩ := Option.bind_eq_some_iff.mp h
    obtain ⟨⟨fin, ps⟩, hf, he⟩ := Option.map_eq_some_iff.mp hrest
    simp only [Prod.mk.injEq] at he
    obtain ⟨rfl, rfl⟩ := he
    simp only [llparseReads, llparseString_of_feed hb, ih hf, List.length_cons, List.replicate_succ]

end SystemTestSuite.GsmDaemon
