import SystemTestSuite.GsmDaemon.PhonebookCallbacks
import SystemTestSuite.Library.Yields
import Mathlib.Data.List.Induction

/-!
The list of phonebook storages, `phonebook_list_storage_cb` of `gsmd/usock.c`, with every access to the
response and to `mem` checked.
-/

namespace SystemTestSuite.GsmDaemon

open Library

def phonebookMems : ℕ := 20

/-- The loop of `phonebook_list_storage_cb`; `s` is what is left of the response in front of its NUL. -/
def storageChecked (buf : Memory) (num : UInt8) (s : Bytes) : Option (UInt8 × Memory) :=
  match _h : strpbrk s (ascii "(,") with
  | none => some (num, buf)
  | some ptr =>
    if ptr + 2 ≤ s.length ∧ num.toNat < phonebookMems then
      storageChecked (buf.store (1 + 8 * num.toNat) (strncpy (s.drop (ptr + 2)) 2 ++ [0])) (num + 1)
        (s.drop (ptr + 2))
    else none
termination_by s.length
decreasing_by
  rw [List.length_drop]
  omega

def storageReply (ucmd : GsmdUcmd) (r : UInt8 × Memory) : GsmdUcmd := { ucmd with buf := r.2.store 0 [r.1] }

/-- The callback on the response `cstr resp`; `none` is an access outside the response or `mem`. -/
def phonebookListStorageChecked (u : Unset) (resp : Bytes) : Option CbOutcome :=
  let ucmd := gsmdUcmdFill u.ucmd 161 gsmdMsgPhonebook gsmdPhonebookListStorage 0
  let r := if strncmp resp (ascii "+CPBS") 5 then storageChecked ucmd.buf 0 (cstr resp) else some (0, ucmd.buf)
  r.map fun r => { reply := some (storageReply ucmd r) }

/-- `num` is the first byte of the reply. -/
def StorageInside (u : Unset) (resp : Bytes) : Prop :=
  ∃ o, phonebookListStorageChecked u resp = some o ∧
    ∀ ucmd ∈ o.reply, (ucmd.buf 0).toNat ≤ phonebookMems

def storageDelim (b : UInt8) : Bool := (ascii "(,").contains b

/-- The lengths of the runs of `(` and `,` in a text, with a 0 where two other characters are neighbours. -/
def delimRuns (text : Bytes) : List ℕ := (text.splitOnP fun b => !storageDelim b).map List.length

/-- Every second delimiter of a run stands for a storage, the first one included. -/
def storagesCount (text : Bytes) : ℕ := ((delimRuns text).map fun n => (n + 1) / 2).sum

def lastRun (text : Bytes) : ℕ := (delimRuns text).getLastD 0

def StoragesFit (text : Bytes) : Prop := storagesCount text ≤ phonebookMems ∧ lastRun text % 2 = 0

instance (text : Bytes) : Decidable (StoragesFit text) := inferInstanceAs (Decidable (_ ∧ _))

variable {buf : Memory} {num : UInt8} {s : Bytes} {b c : UInt8} {r : UInt8 × Memory}

theorem delimRuns_ne_nil (text : Bytes) : delimRuns text ≠ [] := by
  rw [delimRuns, Ne, List.map_eq_nil_iff]
  exact List.splitOnP_ne_nil _ _

theorem delimRuns_other (h : storageDelim b = false) (s : Bytes) : delimRuns (b :: s) = 0 :: delimRuns s := by
  rw [delimRuns, List.splitOnP_cons_eq_if_modifyHead, h]
  rfl

theorem delimRuns_delim (h : storageDelim b = true) (s : Bytes) :
    delimRuns (b :: s) = (delimRuns s).modifyHead (· + 1) := by
  rw [delimRuns, List.splitOnP_cons_eq_if_modifyHead, h, delimRuns]
  cases List.splitOnP (fun b => !storageDelim b) s with
  | nil => rfl
  | cons run runs => rfl

theorem lastRun_other (h : storageDelim b = false) (s : Bytes) : lastRun (b :: s) = lastRun s := by
  obtain ⟨n, runs, hruns⟩ := List.exists_cons_of_ne_nil (delimRuns_ne_nil s)
  rw [lastRun, lastRun, delimRuns_other h, hruns]
  rfl

theorem storagesCount_other (h : storageDelim b = false) (s : Bytes) :
    storagesCount (b :: s) = storagesCount s := by
  rw [storagesCount, delimRuns_other h, List.map_cons, List.sum_cons]
  exact Nat.zero_add _

theorem delimRuns_pair (h : storageDelim b = true) (c : UInt8) (s : Bytes) :
    storagesCount (b :: c :: s) = storagesCount s + 1 ∧ lastRun (b :: c :: s) % 2 = lastRun s % 2 := by
  obtain ⟨n, runs, hruns⟩ := List.exists_cons_of_ne_nil (delimRuns_ne_nil s)
  unfold storagesCount lastRun
  cases hc : storageDelim c with
  | false =>
    rw [delimRuns_delim h, delimRuns_other hc, hruns]
    simp only [List.modifyHead_cons, List.map_cons, List.sum_cons, List.getLastD_cons]
    exact ⟨by omega, trivial⟩
  | true =>
    rw [delimRuns_delim h, delimRuns_delim hc, hruns]
    simp only [List.modifyHead_cons, List.map_cons, List.sum_cons, List.getLastD_cons]
    refine ⟨by omega, ?_⟩
    cases runs with
    | nil => exact Nat.add_mod_right n 2
    | cons m runs => rfl

theorem storageChecked_end (h : strpbrk s (ascii "(,") = none) (buf : Memory) (num : UInt8) :
    storageChecked buf num s = some (num, buf) := by
  rw [storageChecked]
  split
  · rfl
  · rename_i hptr
    rw [h] at hptr
    cases hptr

theorem storageChecked_next {ptr : ℕ} (h : strpbrk s (ascii "(,") = some ptr) (buf : Memory) (num : UInt8) :
    storageChecked buf num s =
      if ptr + 2 ≤ s.length ∧ num.toNat < phonebookMems then
        storageChecked (buf.store (1 + 8 * num.toNat) (strncpy (s.drop (ptr + 2)) 2 ++ [0])) (num + 1)
          (s.drop (ptr + 2))
      else none := by
  rw [storageChecked]
  split
  · rename_i hptr
    rw [h] at hptr
    cases hptr
  · rename_i hptr
    rw [h] at hptr
    obtain rfl := Option.some.inj hptr
    rfl

theorem strpbrk_other (hzero : b ≠ 0) (h : storageDelim b = false) (s : Bytes) :
    strpbrk (b :: s) (ascii "(,") = (strpbrk s (ascii "(,")).map (· + 1) := by
  have hb : (ascii "(,").contains b = false := h
  rw [strpbrk, cstr_cons hzero, List.findIdx?_cons, hb]
  rfl

theorem strpbrk_delim (hzero : b ≠ 0) (h : storageDelim b = true) (s : Bytes) :
    strpbrk (b :: s) (ascii "(,") = some 0 := by
  have hb : (ascii "(,").contains b = true := h
  rw [strpbrk, cstr_cons hzero, List.findIdx?_cons, hb]
  rfl

theorem storageChecked_other (hzero : b ≠ 0) (h : storageDelim b = false) (buf : Memory) (num : UInt8)
    (s : Bytes) : storageChecked buf num (b :: s) = storageChecked buf num s := by
  have hscan := strpbrk_other hzero h s
  cases hptr : strpbrk s (ascii "(,") with
  | none =>
    rw [hptr] at hscan
    rw [storageChecked_end hscan, storageChecked_end hptr]
  | some ptr =>
    rw [hptr] at hscan
    have hlen : ptr + 1 + 2 ≤ (b :: s).length ↔ ptr + 2 ≤ s.length := by
      rw [List.length_cons]
      omega
    rw [storageChecked_next hscan, storageChecked_next hptr]
    simp only [hlen]
    rfl

theorem storageChecked_nil (buf : Memory) (hnum : num.toNat ≤ phonebookMems) :
    Yields (storageChecked buf num []) (num.toNat + storagesCount [] ≤ phonebookMems ∧ lastRun [] % 2 = 0)
      fun r => r.1.toNat = num.toNat + storagesCount [] := by
  rw [storageChecked_end rfl]
  exact ⟨fun _ => ⟨(num, buf), rfl, rfl⟩, fun hnot => absurd ⟨hnum, rfl⟩ hnot⟩

theorem storageChecked_yields (hs : ∀ b ∈ s, b ≠ 0) (buf : Memory) (hnum : num.toNat ≤ phonebookMems) :
    Yields (storageChecked buf num s)
      (num.toNat + storagesCount s ≤ phonebookMems ∧ lastRun s % 2 = 0)
      fun r => r.1.toNat = num.toNat + storagesCount s := by
  induction s using List.twoStepInduction generalizing buf num with
  | nil => exact storageChecked_nil buf hnum
  | singleton b =>
    have hzero := hs b List.mem_cons_self
    cases h : storageDelim b with
    | false =>
      rw [storageChecked_other hzero h, storagesCount_other h, lastRun_other h]
      exact storageChecked_nil buf hnum
    | true =>
      have hrun : lastRun [b] = 1 := by
        rw [lastRun, delimRuns_delim h]
        rfl
      have hshort : ¬(0 + 2 ≤ [b].length ∧ num.toNat < phonebookMems) := fun hin => absurd hin.1 (by simp)
      rw [storageChecked_next (strpbrk_delim hzero h []), if_neg hshort, hrun]
      exact ⟨fun hfits => absurd hfits.2 (by decide), fun _ => rfl⟩
  | cons_cons b c s ih ih' =>
    have hzero := hs b List.mem_cons_self
    have hrest : ∀ a ∈ c :: s, a ≠ 0 := fun a ha => hs a (List.mem_cons_of_mem b ha)
    cases h : storageDelim b with
    | false =>
      rw [storageChecked_other hzero h, storagesCount_other h, lastRun_other h]
      exact ih' c hrest buf hnum
    | true =>
      obtain ⟨hcount, hlast⟩ := delimRuns_pair h c s
      have hlen : 0 + 2 ≤ (b :: c :: s).length := by simp
      rw [storageChecked_next (strpbrk_delim hzero h _), hcount, hlast]
      by_cases hroom : num.toNat < phonebookMems
      · have hnext : (num + 1).toNat = num.toNat + 1 := by
          have hsmall : num.toNat + 1 < 2 ^ 8 := Nat.lt_of_le_of_lt hroom (by decide)
          rw [UInt8.toNat_add]
          exact Nat.mod_eq_of_lt hsmall
        have hsum : num.toNat + (storagesCount s + 1) = (num + 1).toNat + storagesCount s := by omega
        rw [if_pos ⟨hlen, hroom⟩, hsum]
        exact ih (fun a ha => hrest a (List.mem_cons_of_mem c ha)) _ (hnext.trans_le hroom)
      · rw [if_neg (fun hin => hroom hin.2)]
        exact ⟨fun hfits => absurd hfits.1 (by omega), fun _ => rfl⟩

theorem strpbrk_ended (hs : ∀ b ∈ s, b ≠ 0) (behind accept : Bytes) :
    strpbrk (s ++ 0 :: behind) accept = strpbrk s accept := by
  rw [strpbrk, strpbrk, cstr_ended hs, cstr_of_no_nul hs]

theorem strncpy_ended (hs : ∀ b ∈ s, b ≠ 0) (behind : Bytes) (n : ℕ) :
    strncpy (s ++ 0 :: behind) n = strncpy s n := by
  rw [strncpy, strncpy, cstr_ended hs, cstr_of_no_nul hs]

theorem storageChecked_loop (hs : ∀ b ∈ s, b ≠ 0) (behind : Bytes) (h : storageChecked buf num s = some r) :
    storageLoop buf num (s ++ 0 :: behind) = r := by
  have hscan := strpbrk_ended hs behind (ascii "(,")
  fun_induction storageChecked buf num s with
  | case1 buf num s hend =>
    rw [storageLoop]
    split
    · exact Option.some.inj h
    · rename_i hptr
      rw [hscan, hend] at hptr
      cases hptr
  | case2 buf num s ptr hfound hin ih =>
    have hdrop : (s ++ 0 :: behind).drop (ptr + 2) = s.drop (ptr + 2) ++ 0 :: behind :=
      List.drop_append_of_le_length hin.1
    have hrest : ∀ b ∈ s.drop (ptr + 2), b ≠ 0 := fun b hb => hs b (List.mem_of_mem_drop hb)
    rw [storageLoop]
    split
    · rename_i hend
      rw [hscan, hfound] at hend
      cases hend
    · rename_i hptr
      rw [hscan, hfound] at hptr
      obtain rfl := Option.some.inj hptr
      rw [hdrop, strncpy_ended hrest]
      exact ih hrest h (strpbrk_ended hrest behind _)
  | case3 => cases h

@[simp] theorem storageReply_num (ucmd : GsmdUcmd) (r : UInt8 × Memory) : (storageReply ucmd r).buf 0 = r.1 :=
  Memory.store_inside r.2 0 [r.1] (j := 0) Nat.one_pos

theorem listStorageChecked_refines {u : Unset} {resp : Bytes} {o : CbOutcome}
    (h : phonebookListStorageChecked u resp = some o) (behind : Bytes) :
    phonebookListStorageCb u (cstr resp ++ 0 :: behind) = some o := by
  have hsame : strncmp (cstr resp ++ 0 :: behind) (ascii "+CPBS") 5 ↔ strncmp resp (ascii "+CPBS") 5 := by
    rw [strncmp, strncmp, cstr_ended cstr_ne_zero]
  unfold phonebookListStorageChecked at h
  obtain ⟨r, hr, rfl⟩ := Option.map_eq_some_iff.mp h
  unfold phonebookListStorageCb
  simp only [hsame]
  split_ifs at hr ⊢ with hlist
  · rw [storageChecked_loop cstr_ne_zero behind hr]
    rfl
  · rw [← Option.some.inj hr]
    rfl

theorem storageInside_listed (u : Unset) {resp : Bytes} (hlist : strncmp resp (ascii "+CPBS") 5) :
    StorageInside u resp ↔ StoragesFit (cstr resp) := by
  have hnum : (0 : UInt8).toNat ≤ phonebookMems := Nat.zero_le _
  have hloop := storageChecked_yields (s := cstr resp) cstr_ne_zero
    (gsmdUcmdFill u.ucmd 161 gsmdMsgPhonebook gsmdPhonebookListStorage 0).buf hnum
  rw [UInt8.toNat_zero, Nat.zero_add] at hloop
  unfold StorageInside phonebookListStorageChecked
  dsimp only
  rw [if_pos hlist]
  constructor
  · rintro ⟨o, ho, -⟩
    obtain ⟨r, hr, -⟩ := Option.map_eq_some_iff.mp ho
    exact (hloop.of_some hr).1
  · intro hfits
    obtain ⟨r, hr, hnum⟩ := hloop.result hfits
    refine ⟨_, congrArg (Option.map _) hr, ?_⟩
    intro ucmd hreply
    rw [← Option.some.inj hreply, storageReply_num, hnum]
    exact hfits.1

theorem storageInside_iff (u : Unset) (resp : Bytes) :
    StorageInside u resp ↔ (strncmp resp (ascii "+CPBS") 5 → StoragesFit (cstr resp)) := by
  by_cases hlist : strncmp resp (ascii "+CPBS") 5
  · rw [storageInside_listed u hlist]
    exact ⟨fun hfits _ => hfits, fun hfits => hfits hlist⟩
  · refine iff_of_true ?_ (fun hnot => absurd hnot hlist)
    unfold StorageInside phonebookListStorageChecked
    dsimp only
    rw [if_neg hlist]
    refine ⟨_, rfl, ?_⟩
    intro ucmd hreply
    rw [← Option.some.inj hreply, storageReply_num]
    exact Nat.zero_le _

theorem storage_truncated : ¬ StorageInside zeroed (ascii "+CPBS: (") := by
  rw [storageInside_listed zeroed (by decide)]
  decide

end SystemTestSuite.GsmDaemon
