import SystemTestSuite.GsmDaemon.PhonebookRuns

namespace SystemTestSuite.GsmDaemon

open Library

def storeIn (room : ℕ) (buf : Memory) (off : ℕ) (bs : Bytes) : Option Memory :=
  if off + bs.length ≤ room then some (buf.store off bs) else none

def strcpyIn (room : ℕ) (buf : Memory) (gp off : ℕ) (pb : Memory) : Option Memory := do
  let s ← pb.string? off (sizeofPhonebook - off)
  storeIn room buf (gp + off) (s ++ [0])

def pbRecordIn (room : ℕ) (buf : Memory) (gp : ℕ) (pb : Memory) : Option Memory := do
  let buf ← storeIn room buf gp [pb 0]
  let buf ← strcpyIn room buf gp pbNumb pb
  let buf ← storeIn room buf (gp + pbType) [pb pbType]
  strcpyIn room buf gp pbText pb

def retrieveLen (num : ℤ) : ℕ := (sizeofPhonebook * num % 2 ^ 32).toNat

structure Retrieval where
  ucmd : GsmdUcmd
  records : ℕ
  sent : Bool

/-- The loop over the list, with `records` written before: `free` takes no entry that comes from
`talloc`, so the daemon ends at the first. -/
def pbCopyIn (room : ℕ) (ucmd : GsmdUcmd) (records : ℕ) : List Memory → Option Retrieval
  | [] => some ⟨ucmd, records, true⟩
  | pb :: _ => do
    let buf ← pbRecordIn room ucmd.buf (sizeofPhonebook * records) pb
    some ⟨{ ucmd with buf := buf }, records + 1, false⟩

/-- `none` when an access is outside; `some none` when there is no memory for the reply. -/
def pbRetrieveIn (block : GsmdUcmd) (num : ℤ) (msgSubtype : UInt8) (entries : List Memory) :
    Option (Option Retrieval) :=
  let len := retrieveLen num
  let size := (sizeofUcmd + len) % 2 ^ 32
  if tallocRefuses len then some none
  else if size < sizeofUcmd then none
  else
    (pbCopyIn (size - sizeofUcmd) (gsmdUcmdFill block len gsmdMsgPhonebook msgSubtype 0) 0
      entries).map some

/-- At most `num` records are written, `hdr.len` is the size of `num`, and each record that is sent has
been filled in. -/
def SentWithin (kind : PbKind) (entries : List Memory) (num : ℤ) : Prop :=
  ∀ block : GsmdUcmd, ∃ r, pbRetrieveIn block num kind.retrieve entries = some r ∧
    ∀ ret ∈ r, ret.records ≤ num ∧ ret.ucmd.hdr.len.toNat = sizeofPhonebook * num ∧
      (ret.sent = true → num ≤ ret.records)

def Terminated (pb : Memory) : Prop := (pb.string? pbText (sizeofPhonebook - pbText)).isSome = true

def Retrievable (entries : List Memory) (num : ℤ) : Prop :=
  tallocRefuses (retrieveLen num) ∨
    sizeofPhonebook * num < 2 ^ 16 ∧
      (entries = [] ∧ num = 0 ∨ 1 ≤ num ∧ ∃ pb ∈ entries.head?, Terminated pb)

variable {kind : PbKind} {pb buf : Memory} {room off : ℕ} {entries : List Memory} {num : ℤ}

theorem storeIn_some {bs : Bytes} (h : off + bs.length ≤ room) :
    storeIn room buf off bs = some (buf.store off bs) := if_pos h

theorem Terminated.strings (h : Terminated pb) :
    ∃ numb text, pb.string? pbNumb (sizeofPhonebook - pbNumb) = some numb ∧
      pb.string? pbText (sizeofPhonebook - pbText) = some text := by
  obtain ⟨i, hi, hnul⟩ := (Memory.string?_isSome pb _ _).mp h
  obtain ⟨text, htext⟩ := Option.isSome_iff_exists.mp h
  have hsome : (pb.string? pbNumb (sizeofPhonebook - pbNumb)).isSome = true := by
    apply (Memory.string?_isSome pb _ _).mpr
    unfold sizeofPhonebook pbText at hi
    refine ⟨46 + i, by unfold sizeofPhonebook pbNumb; omega, ?_⟩
    rw [← hnul]
    congr 1
    unfold pbNumb pbText
    omega
  obtain ⟨numb, hnumb⟩ := Option.isSome_iff_exists.mp hsome
  exact ⟨numb, text, hnumb, htext⟩

theorem pbRecordIn_some (h : Terminated pb) (hroom : sizeofPhonebook ≤ room) (buf : Memory) :
    ∃ buf', pbRecordIn room buf 0 pb = some buf' := by
  obtain ⟨numb, text, hnumb, htext⟩ := h.strings
  have hnumbLen := ((Memory.string?_eq_some_iff pb).mp hnumb).1
  have htextLen := ((Memory.string?_eq_some_iff pb).mp htext).1
  have hlen (s : Bytes) : (s ++ [(0 : UInt8)]).length = s.length + 1 := List.length_append
  unfold sizeofPhonebook at hroom
  unfold sizeofPhonebook pbNumb at hnumbLen
  unfold sizeofPhonebook pbText at htextLen
  unfold pbRecordIn
  simp only [strcpyIn, hnumb, htext, Option.bind_eq_bind, Option.bind_some]
  rw [storeIn_some (by rw [List.length_singleton]; omega), Option.bind_some,
    storeIn_some (by unfold pbNumb; rw [hlen]; omega), Option.bind_some,
    storeIn_some (by unfold pbType; rw [List.length_singleton]; omega), Option.bind_some,
    storeIn_some (by unfold pbText; rw [hlen]; omega)]
  exact ⟨_, rfl⟩

theorem pbRecordIn_terminated {buf' : Memory} {gp : ℕ} (h : pbRecordIn room buf gp pb = some buf') :
    Terminated pb := by
  by_contra hends
  have htext : pb.string? pbText (sizeofPhonebook - pbText) = none := by
    rwa [Terminated, Option.not_isSome_iff_eq_none] at hends
  have hlast (buf : Memory) : strcpyIn room buf gp pbText pb = none := by
    rw [strcpyIn, htext]
    rfl
  unfold pbRecordIn at h
  simp only [hlast, Option.bind_eq_bind, Option.bind_fun_none] at h
  cases h

theorem pbRetrieveIn_room (block : GsmdUcmd) (msgSubtype : UInt8) {n : ℕ}
    (h : sizeofPhonebook * n < 2 ^ 16) :
    pbRetrieveIn block n msgSubtype entries =
      (pbCopyIn (sizeofPhonebook * n) (gsmdUcmdFill block (sizeofPhonebook * n) gsmdMsgPhonebook
        msgSubtype 0) 0 entries).map some := by
  have hlen : retrieveLen n = sizeofPhonebook * n := by
    unfold retrieveLen
    omega
  have hroom : (sizeofUcmd + sizeofPhonebook * n) % 2 ^ 32 = sizeofUcmd + sizeofPhonebook * n := by
    unfold sizeofUcmd
    omega
  have htaken : ¬ tallocRefuses (sizeofPhonebook * n) := by
    rw [tallocRefuses, hroom]
    unfold maxTallocSize sizeofUcmd
    omega
  unfold pbRetrieveIn
  simp only [hlen, hroom, if_neg htaken, if_neg (Nat.not_lt.mpr (Nat.le_add_right _ _)),
    Nat.add_sub_cancel_left]

theorem fill_len (block : GsmdUcmd) (msgSubtype : UInt8) {n : ℕ} (h : sizeofPhonebook * n < 2 ^ 16) :
    ((gsmdUcmdFill block (sizeofPhonebook * n) gsmdMsgPhonebook msgSubtype 0).hdr.len.toNat : ℤ) =
      sizeofPhonebook * (n : ℤ) := by
  change ((UInt16.ofNat (sizeofPhonebook * n)).toNat : ℤ) = _
  rw [UInt16.toNat_ofNat', Nat.mod_eq_of_lt h]
  push_cast
  rfl

theorem sentWithin_of_retrievable (h : Retrievable entries num) : SentWithin kind entries num := by
  intro block
  rcases h with hrefused | ⟨hlen, ⟨rfl, rfl⟩ | ⟨hone, pb, hpb, hends⟩⟩
  · exact ⟨none, if_pos hrefused, fun ret hret => by cases hret⟩
  · have hnone : sizeofPhonebook * 0 < 2 ^ 16 := by decide
    refine ⟨_, pbRetrieveIn_room block kind.retrieve hnone, fun ret hret => ?_⟩
    obtain rfl := Option.some.inj hret
    exact ⟨Int.le_refl _, fill_len block kind.retrieve hnone, fun _ => Int.le_refl _⟩
  · obtain ⟨n, rfl⟩ := Int.eq_ofNat_of_zero_le (Int.le_trans Int.one_nonneg hone)
    have hfits : sizeofPhonebook * n < 2 ^ 16 := by exact_mod_cast hlen
    have hroom : sizeofPhonebook ≤ sizeofPhonebook * n :=
      Nat.le_mul_of_pos_right _ (by exact_mod_cast hone)
    obtain ⟨entries, rfl⟩ := List.head?_eq_some_iff.mp hpb
    obtain ⟨buf, hbuf⟩ := pbRecordIn_some hends hroom
      (gsmdUcmdFill block (sizeofPhonebook * n) gsmdMsgPhonebook kind.retrieve 0).buf
    obtain ⟨ucmd, hucmd⟩ : ∃ ucmd, ucmd = gsmdUcmdFill block (sizeofPhonebook * n) gsmdMsgPhonebook
      kind.retrieve 0 := ⟨_, rfl⟩
    refine ⟨some ⟨{ ucmd with buf := buf }, 1, false⟩, ?_, fun ret hret => ?_⟩
    · rw [pbRetrieveIn_room block kind.retrieve hfits, pbCopyIn, Nat.mul_zero, hbuf, hucmd]
      rfl
    · obtain rfl := Option.some.inj hret
      rw [hucmd]
      exact ⟨by exact_mod_cast hone, fill_len block kind.retrieve hfits, nofun⟩

theorem retrievable_of_sentWithin (h : SentWithin kind entries num) : Retrievable entries num := by
  obtain ⟨r, hr, hall⟩ := h zeroed.ucmd
  by_cases hrefused : tallocRefuses (retrieveLen num)
  · exact Or.inl hrefused
  · right
    unfold pbRetrieveIn at hr
    simp only [if_neg hrefused] at hr
    split_ifs at hr with hsize
    obtain ⟨ret, hcopy, hsome⟩ := Option.map_eq_some_iff.mp hr
    obtain ⟨hcount, hlen, hfilled⟩ := hall ret hsome.symm
    have hfits : (sizeofPhonebook : ℤ) * num < 2 ^ 16 := by
      rw [← hlen]
      exact_mod_cast UInt16.toNat_lt _
    refine ⟨hfits, ?_⟩
    cases entries with
    | nil =>
      obtain rfl := Option.some.inj hcopy
      exact Or.inl ⟨rfl, Int.le_antisymm (hfilled rfl) hcount⟩
    | cons pb entries =>
      obtain ⟨buf, hbuf, hret⟩ := Option.bind_eq_some_iff.mp hcopy
      obtain rfl := Option.some.inj hret
      exact Or.inr ⟨hcount, pb, rfl, pbRecordIn_terminated hbuf⟩

theorem sentWithin_iff : SentWithin kind entries num ↔ Retrievable entries num :=
  ⟨retrievable_of_sentWithin, sentWithin_of_retrievable⟩

theorem retrieveLen_intAt (buf : Memory) (off : ℕ) :
    retrieveLen (intAt buf off) = sizeofPhonebook * uintAt buf off % 2 ^ 32 := by
  have hmod : (sizeofPhonebook : ℤ) * intAt buf off % 2 ^ 32 =
      ((sizeofPhonebook * uintAt buf off % 2 ^ 32 : ℕ) : ℤ) := by
    unfold intAt
    rw [Int.mul_emod]
    have hbmod := @Int.bmod_emod (uintAt buf off : ℤ) (2 ^ 32)
    push_cast at hbmod ⊢
    rw [hbmod, ← Int.mul_emod]
  unfold retrieveLen
  rw [hmod, Int.toNat_natCast]

/-- What the unchecked handler does, wherever the checked copy has a result. -/
theorem usockRcvPhonebook_in {block : GsmdUcmd} {gu len : ℕ} {client : Client}
    (hsub : (hdrAt buf 0).msgSubtype = kind.retrieve) (hlen : sizeofHdr + 4 ≤ len)
    {r : Option Retrieval} (hr : pbRetrieveIn block (intAt buf sizeofHdr) kind.retrieve
      (kind.list client) = some r) :
    usockRcvPhonebook block gu client buf len =
      r.elim (.error .enomem) fun ret =>
        if ret.sent then
          .ok { client := { client with gu := usockCmdEnqueue ret.ucmd client.gu } }
        else .error .aborts := by
  rw [usockRcvPhonebook_retrieve block gu client hsub hlen, ← retrieveLen_intAt]
  by_cases hrefused : tallocRefuses (retrieveLen (intAt buf sizeofHdr))
  · rw [pbRetrieveIn, if_pos hrefused] at hr
    obtain rfl := Option.some.inj hr
    exact if_pos hrefused
  · unfold pbRetrieveIn at hr
    simp only [if_neg hrefused] at hr
    split_ifs at hr
    obtain ⟨ret, hcopy, rfl⟩ := Option.map_eq_some_iff.mp hr
    rw [if_neg hrefused]
    cases hlist : kind.list client with
    | nil =>
      rw [hlist] at hcopy
      obtain rfl := Option.some.inj hcopy
      rw [retrieveLen_intAt]
      rfl
    | cons pb entries =>
      rw [hlist, pbCopyIn] at hcopy
      obtain ⟨buf', -, hret⟩ := Option.bind_eq_some_iff.mp hcopy
      have hends : ret.sent = false := by
        rw [← Option.some.inj hret]
      rw [Option.elim_some, hends]
      rfl

variable {κ ω : Type} {own : Own κ ω}

def ServesRetrieval (g : Daemon κ ω) : DaemonEvent κ → Prop
  | .request gu buf len => ∀ client kind, g.world.users.lookup gu = some client →
      (hdrAt buf 0).version = gsmdProtoVersion → RetrieveRequest kind buf → sizeofHdr + 4 ≤ len →
      SentWithin kind (kind.list client) (intAt buf sizeofHdr)
  | _ => True

def AsksForAll (g : Daemon κ ω) : DaemonEvent κ → Prop
  | .request gu buf len => ∀ client kind, g.world.users.lookup gu = some client →
      (hdrAt buf 0).version = gsmdProtoVersion → RetrieveRequest kind buf → sizeofHdr + 4 ≤ len →
      Retrievable (kind.list client) (intAt buf sizeofHdr)
  | _ => True

theorem servesRetrieval_iff (g : Daemon κ ω) (e : DaemonEvent κ) :
    ServesRetrieval g e ↔ AsksForAll g e := by
  cases e with
  | request gu buf len => simp only [ServesRetrieval, AsksForAll, sentWithin_iff]
  | _ => exact Iff.rfl

theorem retrievals_iff {s t : Daemon κ ω} {es : List (DaemonEvent κ)} :
    (daemon own).RunWhile ServesRetrieval s es t ↔ (daemon own).RunWhile AsksForAll s es t := by
  apply Machine.runWhile_congr (I := fun _ => True) _ _ trivial
  · exact fun _ _ _ _ _ => trivial
  · exact fun g e _ _ => servesRetrieval_iff g e

theorem servesRetrieval_fresh :
    (daemon idleOwn).start daemonStart ∧
      (daemon idleOwn).Run daemonStart [.connect 1] ((daemon idleOwn).after daemonStart [.connect 1]) ∧
      (daemon idleOwn).enabled ((daemon idleOwn).after daemonStart [.connect 1])
        (.request 1 retrieveRequest 12) ∧
      ¬ ServesRetrieval ((daemon idleOwn).after daemonStart [.connect 1])
        (.request 1 retrieveRequest 12) := by
  refine ⟨daemonStart_init, ?_, by decide, fun hserves => ?_⟩
  · exact Machine.RunWhile.single ⟨by decide, by decide⟩ trivial
  · have hsent := hserves newClient .readrg rfl (by decide) ⟨by decide, by decide⟩ (by decide)
    rcases retrievable_of_sentWithin hsent with hrefused | ⟨-, ⟨-, hcount⟩ | ⟨-, pb, hpb, -⟩⟩
    · exact absurd hrefused (by decide)
    · exact absurd hcount (by decide)
    · cases hpb

end SystemTestSuite.GsmDaemon
