import SystemTestSuite.GsmDaemon.UnsolicitedHandlers

namespace SystemTestSuite.GsmDaemon

open Library

variable {σ : Type} {u : Unset} {flags : UInt32} {text buf p : Bytes} {param : ParamPtr} {len : ℕ}

def behindColon (buf : Bytes) : Bytes := (cstr buf).drop ((strchr buf 58).getD 0 + 2)

/-- There is a colon, and a character behind it. -/
def ParamInside (buf : Bytes) (len : ℕ) : Prop :=
  ∃ colon ∈ strchr buf 58, colon + 2 ≤ len ∧ colon + 2 ≤ (cstr buf).length

def CommasInside (p : Bytes) : Prop :=
  ∀ comma ∈ strchr p 44, comma + 2 ≤ p.length ∧
    ∀ next ∈ strchr (p.drop (comma + 1)) 44, comma + 1 + (next + 2) ≤ p.length

def UnsolicitedHandler.Inside (buf : Bytes) (len : ℕ) : UnsolicitedHandler → Prop
  | ringParse | ccwaParse | cusdParse | cccmParse | cgevParse | cgregParse | cpriParse | tiCtzvParse =>
    True
  | cpiParse | copnParse => ∃ colon ∈ strchr buf 58, len < colon + 2 ∨ colon + 2 ≤ (cstr buf).length
  | cregParse => ParamInside buf len ∧ CommasInside (behindColon buf)
  | cringParse | clipParse | colpParse | ctzvParse | csqParse | cmtiParse | cmtParse | cbmiParse
    | cbmParse | cdsiParse | cdsParse => ParamInside buf len

def LineInside (buf : Bytes) (len : ℕ) : Prop :=
  ∀ handler ∈ unsolicitedHandler buf, handler.Inside buf len

theorem paramPtr_string (buf : Bytes) (len : ℕ) :
    ((paramPtr buf len).string (cstr buf)).isSome = true ↔ ParamInside buf len := by
  unfold paramPtr ParamInside
  cases strchr buf 58 with
  | none => exact iff_of_false Bool.false_ne_true (by simp)
  | some colon =>
    by_cases hlen : colon + 2 > len
    · simp [hlen, ParamPtr.string]
    · by_cases htext : colon + 2 ≤ (cstr buf).length
      · simp [hlen, htext, ParamPtr.string, stringIn]
        omega
      · simp [hlen, htext, ParamPtr.string, stringIn]

theorem paramPtr_some (h : (paramPtr buf len).string (cstr buf) = some p) : p = behindColon buf := by
  unfold paramPtr at h
  unfold behindColon
  cases hcolon : strchr buf 58 with
  | none =>
    rw [hcolon] at h
    cases h
  | some colon =>
    rw [hcolon] at h
    dsimp only at h
    split_ifs at h
    · cases h
    · unfold ParamPtr.string stringIn at h
      dsimp only at h
      split_ifs at h
      exact (Option.some.inj h).symm

theorem paramPtr_debugp (buf : Bytes) (len : ℕ) :
    ((paramPtr buf len).debugp (cstr buf)).isSome = true ↔
      ∃ colon ∈ strchr buf 58, len < colon + 2 ∨ colon + 2 ≤ (cstr buf).length := by
  unfold paramPtr
  cases strchr buf 58 with
  | none => exact iff_of_false Bool.false_ne_true (by simp)
  | some colon =>
    by_cases hlen : colon + 2 > len
    · simp [hlen, ParamPtr.debugp]
    · by_cases htext : colon + 2 ≤ (cstr buf).length
      · simp [hlen, htext, ParamPtr.debugp, ParamPtr.string, stringIn]
      · simp [hlen, htext, ParamPtr.debugp, ParamPtr.string, stringIn]

section

variable {α β : Type} {o : Option α} {f : α → Option β}

theorem isSome_bind_all (h : ∀ a, (f a).isSome = true) : (o.bind f).isSome = o.isSome := by
  cases o with
  | none => rfl
  | some a => exact h a

end

theorem cringParse_reads : (cringParse u text param).isSome = (param.string text).isSome := by
  apply isSome_bind_all
  intro p
  dsimp only
  split_ifs <;> rfl

theorem addrParse_reads (evt : ℕ) :
    (addrParse evt u text param).isSome = (param.string text).isSome := by
  apply isSome_bind_all
  intro p
  cases strchr p 44 with
  | none => rfl
  | some comma =>
    dsimp only
    split_ifs <;> rfl

theorem ctzvParse_reads : (ctzvParse u text param).isSome = (param.string text).isSome := by
  apply isSome_bind_all
  intro p
  dsimp only
  split_ifs <;> rfl

theorem copnParse_reads : (copnParse text param).isSome = (param.debugp text).isSome := by
  cases param with
  | null => rfl
  | wild => rfl
  | into off =>
    have hdebugp : ((ParamPtr.into off).debugp text).isSome =
        ((ParamPtr.into off).string text).isSome := Option.isSome_map
    rw [hdebugp]
    apply isSome_bind_all
    intro p
    split
    · rfl
    · rfl
    · split <;> rfl

theorem memIndexParse_reads (evt : ℕ) :
    (memIndexParse evt u text param).isSome = (param.string text).isSome := by
  apply isSome_bind_all
  intro p
  split <;> rfl

theorem pduHandling_reads (parse : Unset → Option Bytes → Option (Except ℤ InlinedEvent)) :
    (pduHandling parse u text param).isSome = (param.string text).isSome := by
  apply isSome_bind_all
  intro p
  split <;> rfl

theorem csqParse_reads : (csqParse u text param).isSome = (param.string text).isSome := by
  have hdebugp (p : Bytes) (h : param.string text = some p) : param.debugp text = some () := by
    cases param with
    | null => rfl
    | wild => cases h
    | into off => exact Option.map_eq_some_iff.mpr ⟨p, h, rfl⟩
  unfold csqParse
  cases hp : param.string text with
  | none => simp
  | some p =>
    rw [hdebugp p hp]
    simp only [Option.bind_eq_bind, Option.bind_some]
    split <;> rfl

theorem cpiParse_reads : (cpiParse u text param).isSome = (param.debugp text).isSome := by
  apply isSome_bind_all
  intro _
  split <;> rfl

theorem cpriParse_reads : (cpriParse u flags text).isSome = true := by
  unfold cpriParse
  split <;> rfl

theorem ccwaParse_reads : (ccwaParse u text).isSome = true := by
  unfold ccwaParse
  dsimp only
  split <;> rfl

theorem cregParse_reads (h : param.string text = some p) :
    (cregParse u text param).isSome = true ↔ CommasInside p := by
  unfold cregParse CommasInside
  simp only [h, Option.bind_eq_bind, Option.bind_some, Option.mem_def]
  cases hcomma : strchr p 44 with
  | none => exact iff_of_true rfl fun _ hsome => by cases hsome
  | some comma =>
    have hlt := (List.findIdx?_eq_some_iff_findIdx_eq.mp hcomma).1
    have hle := cstr_length_le p
    have hrest : stringIn p (comma + 1) = some (p.drop (comma + 1)) := if_pos (by omega)
    simp only [hrest, Option.bind_some, Option.some.injEq, forall_eq']
    by_cases hlac : comma + 2 ≤ p.length
    · have hlac' : stringIn p (comma + 2) = some (p.drop (comma + 2)) := if_pos hlac
      rw [hlac', Option.bind_some, and_iff_right hlac]
      cases hnext : strchr (p.drop (comma + 1)) 44 with
      | none => exact iff_of_true rfl fun _ hsome => by cases hsome
      | some next =>
        simp only [Option.some.injEq, forall_eq']
        by_cases hci : comma + 1 + (next + 2) ≤ p.length
        · have hci' : stringIn (p.drop (comma + 1)) (next + 2) =
              some ((p.drop (comma + 1)).drop (next + 2)) :=
            if_pos (by rw [List.length_drop]; omega)
          rw [hci', Option.bind_some]
          exact iff_of_true rfl hci
        · have hci' : stringIn (p.drop (comma + 1)) (next + 2) = none :=
            if_neg (by rw [List.length_drop]; omega)
          rw [hci', Option.bind_none]
          exact iff_of_false Bool.false_ne_true hci
    · have hlac' : stringIn p (comma + 2) = none := if_neg hlac
      rw [hlac', Option.bind_none]
      exact iff_of_false Bool.false_ne_true fun h => hlac h.1

theorem cregParse_inside (u : Unset) (buf : Bytes) (len : ℕ) :
    (cregParse u (cstr buf) (paramPtr buf len)).isSome = true ↔
      ParamInside buf len ∧ CommasInside (behindColon buf) := by
  rw [← paramPtr_string]
  cases hp : (paramPtr buf len).string (cstr buf) with
  | none =>
    have hnone : cregParse u (cstr buf) (paramPtr buf len) = none := by
      unfold cregParse
      rw [hp]
      rfl
    rw [hnone]
    exact iff_of_false Bool.false_ne_true fun h => by cases h.1
  | some p =>
    rw [cregParse_reads hp, paramPtr_some hp]
    exact (and_iff_right rfl).symm

theorem run_inside (handler : UnsolicitedHandler) :
    (handler.run u flags (cstr buf) (paramPtr buf len)).isSome = true ↔ handler.Inside buf len := by
  cases handler with
  | ringParse | cusdParse | cccmParse | cgevParse | cgregParse | tiCtzvParse =>
    exact iff_of_true rfl trivial
  | ccwaParse => exact iff_of_true ccwaParse_reads trivial
  | cpriParse => exact iff_of_true cpriParse_reads trivial
  | cpiParse => exact (Bool.eq_iff_iff.mp cpiParse_reads).trans (paramPtr_debugp buf len)
  | cregParse => exact cregParse_inside u buf len
  | cringParse => exact (Bool.eq_iff_iff.mp cringParse_reads).trans (paramPtr_string buf len)
  | clipParse => exact (Bool.eq_iff_iff.mp (addrParse_reads _)).trans (paramPtr_string buf len)
  | colpParse => exact (Bool.eq_iff_iff.mp (addrParse_reads _)).trans (paramPtr_string buf len)
  | ctzvParse => exact (Bool.eq_iff_iff.mp ctzvParse_reads).trans (paramPtr_string buf len)
  | copnParse => exact (Bool.eq_iff_iff.mp copnParse_reads).trans (paramPtr_debugp buf len)
  | csqParse => exact (Bool.eq_iff_iff.mp csqParse_reads).trans (paramPtr_string buf len)
  | cmtiParse => exact (Bool.eq_iff_iff.mp (memIndexParse_reads _)).trans (paramPtr_string buf len)
  | cbmiParse => exact (Bool.eq_iff_iff.mp (memIndexParse_reads _)).trans (paramPtr_string buf len)
  | cdsiParse => exact (Bool.eq_iff_iff.mp (memIndexParse_reads _)).trans (paramPtr_string buf len)
  | cmtParse => exact (Bool.eq_iff_iff.mp (pduHandling_reads _)).trans (paramPtr_string buf len)
  | cbmParse => exact (Bool.eq_iff_iff.mp (pduHandling_reads _)).trans (paramPtr_string buf len)
  | cdsParse => exact (Bool.eq_iff_iff.mp (pduHandling_reads _)).trans (paramPtr_string buf len)

theorem unsolicitedReads_iff (u : Unset) (flags : UInt32) (buf : Bytes) (len : ℕ) :
    (unsolicitedHandling u flags buf len).isSome = true ↔ LineInside buf len := by
  unfold unsolicitedHandling LineInside
  cases unsolicitedHandler buf with
  | none => exact iff_of_true rfl fun _ h => by cases h
  | some handler =>
    simp only [Option.mem_def, Option.some.injEq, forall_eq']
    exact run_inside handler

theorem unsolicitedReads_creg :
    extendedLine idleEnv (ascii "+CREG:") ∧ (strchr (ascii "+CREG:") 58).isSome = true ∧
      ∀ u flags, unsolicitedHandling u flags (ascii "+CREG:") 6 = none := by
  refine ⟨⟨43, rfl, Or.inl rfl⟩, rfl, fun u flags => rfl⟩

inductive RegisteredTable
  | gsm0707
  | ticalypso
  | gsm0705

namespace RegisteredTable

def handlers : RegisteredTable → List (Bytes × UnsolicitedHandler)
  | gsm0707 => gsm0707Unsolicit
  | ticalypso => ticalypsoUnsolicit
  | gsm0705 => gsm0705Unsolicit

theorem handlers_texts (t : RegisteredTable) : ∀ i ∈ t.handlers, ∀ b ∈ i.1, b ≠ 0 := by
  have hall : (t.handlers.all fun i => i.1.all fun b => b ≠ 0) = true := by cases t <;> rfl
  simpa using hall

theorem handlers_length (t : RegisteredTable) : t.handlers.length ≤ 12 := by
  cases t <;> decide

def array (parse : UnsolicitedHandler → Bytes → ℕ → ParamPtr → σ → ℤ × σ) (t : RegisteredTable) :
    UnsolicitArray σ where
  entries := t.handlers.map fun i => ⟨i.1, parse i.2⟩
  len_int := by
    rw [List.length_map]
    exact t.handlers_length.trans_lt (by decide)
  texts := by
    intro i hi
    obtain ⟨x, hx, rfl⟩ := List.mem_map.mp hi
    exact t.handlers_texts x hx

end RegisteredTable

/-- With the three tables registered as `unsolicited_init` and `sms_cb_init` do, the handler that is
run is the one of `unsolicitedHandler`, with the `param` of `unsolicitedHandling`. -/
theorem handlers_registered (parse : UnsolicitedHandler → Bytes → ℕ → ParamPtr → σ → ℤ × σ) :
    ∃ calls unsolicit,
      registerAll [RegisteredTable.gsm0707.array parse, RegisteredTable.ticalypso.array parse,
        RegisteredTable.gsm0705.array parse] = some (calls, unsolicit) ∧
      ∀ (g : σ) (buf : Bytes) (len : ℕ), unsolicitedParseIn unsolicit g buf len =
        some ((unsolicitedHandler buf).elim (-ENOENT, g)
          fun handler => parse handler (cstr buf) len (paramPtr buf len) g) := by
  have hsmall (t : RegisteredTable) : (t.array parse).entries.length ≤ 12 := by
    rw [RegisteredTable.array, List.length_map]
    exact t.handlers_length
  have hsize : unsolicitSize = 256 := rfl
  have hfirst : (RegisteredTable.gsm0707.array parse).entries.length +
      (([] : List (UnsolicitEntry σ)).length + 1) ≤ unsolicitSize := by
    have hlen := hsmall .gsm0707
    rw [List.length_nil, hsize]
    omega
  obtain ⟨one, hone, hold⟩ := register_fits (Slots.Holds.null (by decide)) hfirst
  have hsecond : (RegisteredTable.ticalypso.array parse).entries.length +
      (((RegisteredTable.gsm0707.array parse).entries ++ []).length + 1) ≤ unsolicitSize := by
    have hlen := hsmall .gsm0707
    have hnext := hsmall .ticalypso
    rw [List.append_nil, hsize]
    omega
  obtain ⟨two, htwo, hold⟩ := register_fits hold hsecond
  have hthird : (RegisteredTable.gsm0705.array parse).entries.length +
      (((RegisteredTable.ticalypso.array parse).entries ++
        ((RegisteredTable.gsm0707.array parse).entries ++ [])).length + 1) ≤ unsolicitSize := by
    have hlen := hsmall .gsm0707
    have hnext := hsmall .ticalypso
    have hlast := hsmall .gsm0705
    rw [List.append_nil, List.length_append, hsize]
    omega
  obtain ⟨three, hthree, hold⟩ := register_fits hold hthird
  have hrun : registerAll [RegisteredTable.gsm0707.array parse, RegisteredTable.ticalypso.array parse,
      RegisteredTable.gsm0705.array parse] = some ([(RegisteredTable.gsm0707.array parse, 0),
        (RegisteredTable.ticalypso.array parse, 0), (RegisteredTable.gsm0705.array parse, 0)],
          three) := by
    simp [registerAll, registerNext, hone, htwo, hthree]
  refine ⟨_, three, hrun, fun g buf len => ?_⟩
  have hentries : (RegisteredTable.gsm0705.array parse).entries ++
      ((RegisteredTable.ticalypso.array parse).entries ++
        ((RegisteredTable.gsm0707.array parse).entries ++ [])) =
      unsolicitTables.map fun i => ⟨i.1, parse i.2⟩ := rfl
  rw [hentries] at hold
  rw [unsolicitedParseIn_find hold, List.find?_map, unsolicitedHandler, Option.elim_map,
    Option.elim_map]
  rfl

end SystemTestSuite.GsmDaemon
