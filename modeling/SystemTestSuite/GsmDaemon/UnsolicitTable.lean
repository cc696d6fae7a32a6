import SystemTestSuite.GsmDaemon.Response
import SystemTestSuite.Library.NullTable
import Mathlib.Data.List.Find

namespace SystemTestSuite.GsmDaemon

open Library

variable {κ ω σ : Type}

def unsolicitSize : ℕ := 256

/-- The `param` of a parser: NULL, the 2 that is two behind NULL, or an offset in the line. -/
inductive ParamPtr
  | null
  | wild
  | into (off : ℕ)

/-- `strchr(buf, ':') + 2`, NULL when it lies behind `buf + len`. -/
def paramPtr (buf : Bytes) (len : ℕ) : ParamPtr :=
  match strchr buf 58 with
  | none => .wild
  | some colon => if colon + 2 > len then .null else .into (colon + 2)

/-- An entry of the table: its `parse` is given `buf`, `len`, `param` and the daemon. -/
structure UnsolicitEntry (σ : Type) where
  pfx : Bytes
  parse : Bytes → ℕ → ParamPtr → σ → ℤ × σ

/-- An array of handlers as it is registered: its length is an `int`, its prefixes are strings. -/
structure UnsolicitArray (σ : Type) where
  entries : List (UnsolicitEntry σ)
  len_int : entries.length < 2 ^ 31
  texts : ∀ i ∈ entries, ∀ b ∈ i.pfx, b ≠ 0

abbrev UnsolicitTable (σ : Type) := Slots (UnsolicitEntry σ)

def unsolicitedRegisterArray (unsolicit : UnsolicitTable σ) (arr : UnsolicitArray σ) :
    Option (ℤ × UnsolicitTable σ) := do
  let len := arr.entries.length
  let curlen ← unsolicit.countThrough 0 unsolicitSize
  -- compared as unsigned numbers
  if (len + curlen) % 2 ^ 32 > unsolicitSize then some (-ENOMEM, unsolicit)
  else
    let unsolicit ← unsolicit.moveUp unsolicitSize len curlen
    let unsolicit ← unsolicit.copyIn unsolicitSize arr.entries
    some (0, unsolicit)

/-- The body of the loop in `unsolicited_parse`: both branches behind the call return `rc`. -/
def unsolicitedBody (g : σ) (buf : Bytes) (len : ℕ) (i : UnsolicitEntry σ) : Option (ℤ × σ) :=
  if ¬ strncmp (cstr buf) i.pfx i.pfx.length then none
  else some (i.parse (cstr buf) len (paramPtr buf len) g)

def unsolicitedParseIn (unsolicit : UnsolicitTable σ) (g : σ) (buf : Bytes) (len : ℕ) :
    Option (ℤ × σ) :=
  unsolicit.scan (unsolicitedBody g buf len) (-ENOENT, g) 0 unsolicitSize

abbrev Registrations (σ : Type) := List (UnsolicitArray σ × ℤ) × UnsolicitTable σ

def registerNext (s : Registrations σ) (arr : UnsolicitArray σ) : Option (Registrations σ) := do
  let r ← unsolicitedRegisterArray s.2 arr
  some (s.1 ++ [(arr, r.1)], r.2)

def registerAll (arrs : List (UnsolicitArray σ)) : Option (Registrations σ) :=
  arrs.foldlM registerNext ([], Slots.null)

def registered (calls : List (UnsolicitArray σ × ℤ)) : List (UnsolicitEntry σ) :=
  ((calls.filter fun call => call.2 = 0).reverse.map fun call => call.1.entries).flatten

variable {unsolicit : UnsolicitTable σ} {entries : List (UnsolicitEntry σ)}
  {arr : UnsolicitArray σ} {calls : List (UnsolicitArray σ × ℤ)}

theorem register_full (h : unsolicit.Holds unsolicitSize entries)
    (hlen : unsolicitSize < arr.entries.length + (entries.length + 1)) :
    unsolicitedRegisterArray unsolicit arr = some (-ENOMEM, unsolicit) := by
  have hsum : (arr.entries.length + (entries.length + 1)) % 2 ^ 32 > unsolicitSize := by
    have hint := arr.len_int
    have hfits := h.fits
    unfold unsolicitSize at *
    omega
  unfold unsolicitedRegisterArray
  simp only [h.countThrough, Option.bind_eq_bind, Option.bind_some, if_pos hsum]

theorem register_fits (h : unsolicit.Holds unsolicitSize entries)
    (hlen : arr.entries.length + (entries.length + 1) ≤ unsolicitSize) :
    ∃ unsolicit', unsolicitedRegisterArray unsolicit arr = some (0, unsolicit') ∧
      unsolicit'.Holds unsolicitSize (arr.entries ++ entries) := by
  obtain ⟨moved, copied, hmove, hcopy, hholds⟩ := h.prepend hlen
  refine ⟨copied, ?_, hholds⟩
  have hsum : ¬ (arr.entries.length + (entries.length + 1)) % 2 ^ 32 > unsolicitSize := by
    unfold unsolicitSize at *
    omega
  unfold unsolicitedRegisterArray
  simp only [h.countThrough, Option.bind_eq_bind, Option.bind_some, if_neg hsum, hmove, hcopy]

theorem registered_snoc (arr : UnsolicitArray σ) (rc : ℤ) :
    registered (calls ++ [(arr, rc)]) =
      (if rc = 0 then arr.entries else []) ++ registered calls := by
  by_cases hrc : rc = 0 <;> simp [registered, List.filter_append, hrc]

theorem registerNext_holds (h : unsolicit.Holds unsolicitSize (registered calls))
    (arr : UnsolicitArray σ) :
    ∃ rc unsolicit', registerNext (calls, unsolicit) arr = some (calls ++ [(arr, rc)], unsolicit') ∧
      unsolicit'.Holds unsolicitSize (registered (calls ++ [(arr, rc)])) := by
  by_cases hlen : arr.entries.length + ((registered calls).length + 1) ≤ unsolicitSize
  · obtain ⟨unsolicit', hcall, hholds⟩ := register_fits h hlen
    refine ⟨0, unsolicit', ?_, ?_⟩
    · simp [registerNext, hcall]
    · rw [registered_snoc, if_pos rfl]
      exact hholds
  · refine ⟨-ENOMEM, unsolicit, ?_, ?_⟩
    · simp [registerNext, register_full h (Nat.not_le.mp hlen)]
    · have hrc : -ENOMEM ≠ 0 := by decide
      rw [registered_snoc, if_neg hrc]
      exact h

theorem registerAll_holds (arrs : List (UnsolicitArray σ)) :
    ∃ calls unsolicit, registerAll arrs = some (calls, unsolicit) ∧ calls.map Prod.fst = arrs ∧
      unsolicit.Holds unsolicitSize (registered calls) := by
  induction arrs using List.reverseRecOn with
  | nil => exact ⟨[], Slots.null, rfl, rfl, Slots.Holds.null (by decide)⟩
  | append_singleton arrs arr ih =>
    obtain ⟨calls, unsolicit, hrun, hcalls, hholds⟩ := ih
    obtain ⟨rc, unsolicit', hnext, hholds'⟩ := registerNext_holds hholds arr
    refine ⟨_, unsolicit', ?_, ?_, hholds'⟩
    · unfold registerAll at hrun ⊢
      rw [List.foldlM_append, hrun]
      simp [hnext]
    · rw [List.map_append, hcalls, List.map_singleton]

theorem unsolicitedParseIn_find (h : unsolicit.Holds unsolicitSize entries) (g : σ) (buf : Bytes)
    (len : ℕ) :
    unsolicitedParseIn unsolicit g buf len =
      some ((entries.find? fun i => strncmp (cstr buf) i.pfx i.pfx.length).elim (-ENOENT, g)
        fun i => i.parse (cstr buf) len (paramPtr buf len) g) := by
  unfold unsolicitedParseIn
  rw [h.scan]
  congr 1
  clear h
  induction entries with
  | nil => rfl
  | cons i entries ih =>
    rw [List.findSome?_cons, List.find?_cons, unsolicitedBody]
    by_cases hcmp : strncmp (cstr buf) i.pfx i.pfx.length
    · simp [hcmp]
    · simp only [hcmp, decide_false, not_false_eq_true, if_true]
      exact ih

theorem strncmp_pfx {i : UnsolicitEntry σ} (h : ∀ b ∈ i.pfx, b ≠ 0) (buf : Bytes) :
    strncmp (cstr buf) i.pfx i.pfx.length ↔ i.pfx <+: cstr buf := by
  rw [strncmp, cstr_of_no_nul cstr_ne_zero, cstr_of_no_nul h, List.take_length]
  exact eq_comm.trans List.prefix_iff_eq_take.symm

theorem unsolicitedParseIn_eq (h : unsolicit.Holds unsolicitSize entries)
    (htexts : ∀ i ∈ entries, ∀ b ∈ i.pfx, b ≠ 0) (g : σ) (buf : Bytes) (len : ℕ) :
    unsolicitedParseIn unsolicit g buf len =
      some ((entries.find? fun i => i.pfx <+: cstr buf).elim (-ENOENT, g)
        fun i => i.parse (cstr buf) len (paramPtr buf len) g) := by
  have hfind : (entries.find? fun i => decide (strncmp (cstr buf) i.pfx i.pfx.length)) =
      entries.find? fun i => decide (i.pfx <+: cstr buf) := by
    apply List.find?_congr
    intro i hi
    exact decide_eq_decide.mpr (strncmp_pfx (htexts i hi) buf)
  rw [unsolicitedParseIn_find h, hfind]

/-- A handler as the AT layer sees it, which makes its own `param`. -/
def GsmdUnsolicit.entry (i : GsmdUnsolicit κ ω) : UnsolicitEntry (Gsmd κ ω) where
  pfx := i.pfx
  parse buf len _ g :=
    let r := i.parse g.world buf len
    let g := react g r
    (r.rc, if r.rc = -EAGAIN then g else g.emit (.unsolicited buf))

theorem unsolicitedParse_table {env : Env κ ω} {unsolicit : UnsolicitTable (Gsmd κ ω)}
    (h : unsolicit.Holds unsolicitSize (env.unsolicit.map GsmdUnsolicit.entry)) (g : Gsmd κ ω)
    (buf : Bytes) (len : ℕ) :
    unsolicitedParseIn unsolicit g buf len = some (unsolicitedParse env g buf len) := by
  have hfind : (env.unsolicit.map GsmdUnsolicit.entry).find?
      (fun i => strncmp (cstr buf) i.pfx i.pfx.length) =
        (env.unsolicit.find? fun i => strncmp (cstr buf) i.pfx i.pfx.length).map
          GsmdUnsolicit.entry := List.find?_map
  rw [unsolicitedParseIn_find h, unsolicitedParse, hfind]
  cases env.unsolicit.find? fun i => strncmp (cstr buf) i.pfx i.pfx.length with
  | none => rfl
  | some i => rfl

theorem registered_texts : ∀ i ∈ registered calls, ∀ b ∈ i.pfx, b ≠ 0 := by
  intro i hi
  obtain ⟨entries, hentries, hi⟩ := List.mem_flatten.mp hi
  obtain ⟨call, -, rfl⟩ := List.mem_map.mp hentries
  exact call.1.texts i hi

/-- The first entry that fits the line is called with the line, its length and the `param` made from
them; what it returns is returned, with the state it leaves. -/
theorem unsolicited_table (arrs : List (UnsolicitArray σ)) :
    ∃ calls unsolicit, registerAll arrs = some (calls, unsolicit) ∧ calls.map Prod.fst = arrs ∧
      unsolicit.Holds unsolicitSize (registered calls) ∧
      (∀ arr : UnsolicitArray σ,
        arr.entries.length + ((registered calls).length + 1) ≤ unsolicitSize →
        ∃ unsolicit', unsolicitedRegisterArray unsolicit arr = some (0, unsolicit') ∧
          unsolicit'.Holds unsolicitSize (arr.entries ++ registered calls)) ∧
      (∀ arr : UnsolicitArray σ,
        unsolicitSize < arr.entries.length + ((registered calls).length + 1) →
        unsolicitedRegisterArray unsolicit arr = some (-ENOMEM, unsolicit)) ∧
      ∀ (g : σ) (buf : Bytes) (len : ℕ), unsolicitedParseIn unsolicit g buf len =
        some (((registered calls).find? fun i => i.pfx <+: cstr buf).elim (-ENOENT, g)
          fun i => i.parse (cstr buf) len (paramPtr buf len) g) := by
  obtain ⟨calls, unsolicit, hrun, hcalls, hholds⟩ := registerAll_holds arrs
  exact ⟨calls, unsolicit, hrun, hcalls, hholds, fun _ => register_fits hholds,
    fun _ => register_full hholds, unsolicitedParseIn_eq hholds registered_texts⟩

end SystemTestSuite.GsmDaemon
