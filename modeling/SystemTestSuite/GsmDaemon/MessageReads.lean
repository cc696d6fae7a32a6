import SystemTestSuite.GsmDaemon.CommandTexts

namespace SystemTestSuite.GsmDaemon

open Library

variable {client : Client} {gu len : ℕ} {buf buf' : Memory} {use : MessageUse}

def FieldRead.At (buf : Memory) : FieldRead → ℕ → Prop
  | .bytes off n, i => off ≤ i ∧ i < off + n
  | .string off, i => off ≤ i ∧ ∀ j, off ≤ j → j < i → buf j ≠ 0

theorem FieldRead.Within.lt {f : FieldRead} (h : f.Within buf len) {i : ℕ} (hi : f.At buf i) :
    i < len := by
  cases f with
  | bytes off n => exact hi.2.trans_le h
  | string off =>
    obtain ⟨k, hk, hoff, hnul⟩ := h
    by_contra hge
    exact hi.2 k hoff (by omega) hnul

def MessageUse.Same (use : MessageUse) (buf buf' : Memory) : Prop :=
  ∀ f ∈ use.reads, ∀ i, f.At use.buf i → buf' i = buf i

namespace MessageUse.Same

theorem byte (h : use.Same buf buf') (off n : ℕ) (hmem : .bytes off n ∈ use.reads) {i : ℕ}
    (hi : i < n) : buf' (off + i) = buf (off + i) :=
  h _ hmem _ ⟨Nat.le_add_right _ _, Nat.add_lt_add_left hi _⟩

theorem msgSubtype (h : use.Same buf buf') (hmem : readSubtype ∈ use.reads) :
    (hdrAt buf' 0).msgSubtype = (hdrAt buf 0).msgSubtype :=
  h.byte 2 1 hmem Nat.one_pos

theorem word (h : use.Same buf buf') (off : ℕ) (hmem : .bytes off 2 ∈ use.reads) :
    wordAt buf' off = wordAt buf off := by
  have hlow := h.byte off 2 hmem (show 0 < 2 by decide)
  have hhigh := h.byte off 2 hmem (show 1 < 2 by decide)
  simp only [Nat.add_zero] at hlow
  rw [wordAt, wordAt, hlow, hhigh]

theorem id (h : use.Same buf buf') (hmem : readId ∈ use.reads) :
    (hdrAt buf' 0).id = (hdrAt buf 0).id := h.word 4 hmem

theorem uint (h : use.Same buf buf') (off : ℕ) (hmem : .bytes off 4 ∈ use.reads) :
    uintAt buf' off = uintAt buf off := by
  have h₀ := h.byte off 4 hmem (show 0 < 4 by decide)
  have h₁ := h.byte off 4 hmem (show 1 < 4 by decide)
  have h₂ := h.byte off 4 hmem (show 2 < 4 by decide)
  have h₃ := h.byte off 4 hmem (show 3 < 4 by decide)
  simp only [Nat.add_zero] at h₀
  rw [uintAt, uintAt, h₀, h₁, h₂, h₃]

theorem int (h : use.Same buf buf') (off : ℕ) (hmem : .bytes off 4 ∈ use.reads) :
    intAt buf' off = intAt buf off :=
  congrArg (fun n : ℕ => Int.bmod n (2 ^ 32)) (h.uint off hmem)

theorem string (h : use.Same buf buf') (off : ℕ) (hmem : .string off ∈ use.reads)
    (hbuf : use.buf = buf) : stringAt buf' off = stringAt buf off := by
  apply Memory.string?_getD_congr
  intro i hi hno
  exact h _ hmem i ⟨hi, hbuf.symm ▸ hno⟩

end MessageUse.Same

def SeesOnly (use : MessageUse) (buf buf' : Memory) (r r' : Except Refusal Handled) : Prop :=
  use.Same buf buf' → r' = r

theorem seesOnly_ite {c c' : Prop} [Decidable c] [Decidable c'] {use' : MessageUse}
    {r₁ r₁' r₂ r₂' : Except Refusal Handled} (hc : c' ↔ c)
    (ht : SeesOnly use buf buf' r₁ r₁') (hf : SeesOnly use' buf buf' r₂ r₂') :
    SeesOnly (if c then use else use') buf buf' (if c then r₁ else r₂) (if c' then r₁' else r₂') := by
  by_cases h : c
  · rw [if_pos h, if_pos h, if_pos (hc.mpr h)]
    exact ht
  · rw [if_neg h, if_neg h, if_neg (fun h' => h (hc.mp h'))]
    exact hf

theorem readSubtype_ite {c : Prop} [Decidable c] {use' : MessageUse}
    (ht : readSubtype ∈ use.reads) (hf : readSubtype ∈ use'.reads) :
    readSubtype ∈ (if c then use else use').reads := by
  by_cases h : c
  · rwa [if_pos h]
  · rwa [if_neg h]

theorem readSubtype_phonebook (buf : Memory) : readSubtype ∈ (phonebookUse buf).reads := by
  unfold phonebookUse
  repeat' first | exact List.mem_cons_self | apply readSubtype_ite

theorem usockRcvPhonebook_seesOnly (block : GsmdUcmd) :
    SeesOnly (phonebookUse buf) buf buf' (usockRcvPhonebook block gu client buf len)
      (usockRcvPhonebook block gu client buf' len) := by
  intro h
  have hsub := h.msgSubtype (readSubtype_phonebook buf)
  have hc (t : UInt8) : (hdrAt buf' 0).msgSubtype = t ↔ (hdrAt buf 0).msgSubtype = t := by
    rw [hsub]
  revert h
  apply seesOnly_ite (hc _)
  · intro h
    rw [h.id (by simp)]
  apply seesOnly_ite (hc _)
  · intro h
    rw [h.id (by simp), h.string sizeofHdr (by simp) rfl]
  apply seesOnly_ite (hc _)
  · intro h
    rw [h.id (by simp), h.string sizeofHdr (by simp) rfl]
  apply seesOnly_ite (hc _)
  · intro h
    rw [h.id (by simp), h.int sizeofHdr (by simp)]
  apply seesOnly_ite (hc _)
  · intro h
    have hlow := h.byte sizeofHdr 2 (by simp) (show 0 < 2 by decide)
    have hhigh := h.byte sizeofHdr 2 (by simp) (show 1 < 2 by decide)
    rw [Nat.add_zero] at hlow
    rw [h.id (by simp), hlow, hhigh]
  apply seesOnly_ite (hc _)
  · intro h
    have hindex := h.byte sizeofHdr 1 (by simp) Nat.one_pos
    have htype := h.byte (sizeofHdr + pbType) 1 (by simp) Nat.one_pos
    rw [Nat.add_zero] at hindex htype
    rw [h.id (by simp), h.string (sizeofHdr + pbNumb) (by simp) rfl,
      h.string (sizeofHdr + pbText) (by simp) rfl, hindex, htype]
  apply seesOnly_ite (hc _)
  · intro h
    rw [h.id (by simp), h.int sizeofHdr (by simp)]
  apply seesOnly_ite (hc _)
  · intro h
    rw [h.id (by simp)]
  apply seesOnly_ite (hc _)
  · intro h
    rw [hsub, h.uint sizeofHdr (by simp)]
  apply seesOnly_ite (hc _)
  · intro h
    rw [hsub, h.uint sizeofHdr (by simp)]
  apply seesOnly_ite (hc _)
  · intro h
    rfl
  · intro h
    rfl

theorem usockRcvPin_seesOnly :
    SeesOnly (pinUse buf) buf buf' (usockRcvPin gu client buf len) (usockRcvPin gu client buf' len) := by
  intro h
  have hlen : (hdrAt buf' 0).len = (hdrAt buf 0).len := h.word 6 (by simp [pinUse])
  have hsub := h.msgSubtype (by simp [pinUse])
  have hpin := h.string (sizeofHdr + 4) (by simp [pinUse]) rfl
  have hnewpin := h.string (sizeofHdr + 4 + gsmdPinMaxlen + 1) (by simp [pinUse]) rfl
  unfold usockRcvPin
  dsimp only
  rw [hlen, hsub, h.uint sizeofHdr (by simp [pinUse]), hpin, hnewpin]

theorem readSubtype_voicecall (buf : Memory) : readSubtype ∈ (voicecallUse buf).reads := by
  unfold voicecallUse
  repeat' first | exact List.mem_cons_self | apply readSubtype_ite

theorem usockRcvVoicecall_seesOnly :
    SeesOnly (voicecallUse buf) buf buf' (usockRcvVoicecall gu client buf len)
      (usockRcvVoicecall gu client buf' len) := by
  intro h
  have hsub := h.msgSubtype (readSubtype_voicecall buf)
  have hc (t : UInt8) : (hdrAt buf' 0).msgSubtype = t ↔ (hdrAt buf 0).msgSubtype = t := by
    rw [hsub]
  revert h
  apply seesOnly_ite (hc _)
  · intro h
    have hnumber : stringAt (buf'.store (sizeofHdr + 1 + gsmdAddrMaxlen) [0]) (sizeofHdr + 1) =
        stringAt (buf.store (sizeofHdr + 1 + gsmdAddrMaxlen) [0]) (sizeofHdr + 1) := by
      apply Memory.string?_getD_congr
      intro i hi hno
      apply Memory.store_congr
      exact h (.string (sizeofHdr + 1)) (by simp) i ⟨hi, hno⟩
    rw [h.id (by simp), hnumber]
  apply seesOnly_ite (hc _)
  · intro h
    rw [h.id (by simp)]
  apply seesOnly_ite (hc _)
  · intro h
    rw [h.id (by simp)]
  apply seesOnly_ite (hc _)
  · by_cases hdigits : (buf sizeofHdr).toNat ≠ 1
    · rw [if_pos hdigits]
      intro h
      have hcount := h.byte sizeofHdr 1 (by simp) Nat.one_pos
      rw [Nat.add_zero] at hcount
      -- the digit behind the count is not looked at
      dsimp only
      rw [hcount, if_pos hdigits, if_pos hdigits]
      rfl
    · rw [if_neg hdigits]
      intro h
      have hcount := h.byte sizeofHdr 1 (by simp) Nat.one_pos
      have hdigit := h.byte (sizeofHdr + 1) 1 (by simp) Nat.one_pos
      rw [Nat.add_zero] at hcount hdigit
      rw [h.id (by simp), hcount, hdigit]
  · intro h
    rfl

theorem TextHandler.run_reads (h : TextHandler) (block : GsmdUcmd)
    (hsame : (h.use buf).Same buf buf') :
    h.run block gu client buf' len = h.run block gu client buf len := by
  cases h with
  | voicecall => exact usockRcvVoicecall_seesOnly hsame
  | pin => exact usockRcvPin_seesOnly hsame
  | phonebook => exact usockRcvPhonebook_seesOnly block hsame

/-- A handler that keeps inside the message does not know what stands behind it. -/
theorem TextHandler.run_inside (h : TextHandler) (block : GsmdUcmd)
    (hin : Contained len (h.use buf) (h.run block gu client buf len))
    (hsame : ∀ i < len, buf' i = buf i) :
    h.run block gu client buf' len = h.run block gu client buf len := by
  obtain ⟨-, -, hreads⟩ := hin
  apply h.run_reads
  intro f hf i hi
  exact hsame i ((List.forall_iff_forall_mem.mp hreads f hf).lt hi)

end SystemTestSuite.GsmDaemon
