import SystemTestSuite.GsmDaemon.UsockRequests
import SystemTestSuite.Library.Accepted
import SystemTestSuite.Library.Decimal

/-!
The texts that the voicecall, pin and phonebook handlers print into the buffers of their commands,
and what they read of the message for it.
-/

namespace SystemTestSuite.GsmDaemon

open Library

inductive FieldRead
  | bytes (off n : ℕ)
  | string (off : ℕ)

def FieldRead.Within (buf : Memory) (len : ℕ) : FieldRead → Prop
  | .bytes off n => off + n ≤ len
  | .string off => ∃ i < len, off ≤ i ∧ buf i = 0

instance (buf : Memory) (len : ℕ) : (f : FieldRead) → Decidable (f.Within buf len)
  | .bytes off n => inferInstanceAs (Decidable (off + n ≤ len))
  | .string off => inferInstanceAs (Decidable (∃ i < len, off ≤ i ∧ buf i = 0))

/-- What a handler does with a message that passes its length checks: it reads `reads` of `buf`,
prints `scratch` bytes into a buffer on the stack and passes `buflen` to `atcmd_fill`. -/
structure MessageUse where
  buf : Memory
  reads : List FieldRead
  buflen : ℕ := 0
  scratch : ℕ := 0

def readSubtype : FieldRead := .bytes 2 1
def readId : FieldRead := .bytes 4 2

def voicecallUse (buf : Memory) : MessageUse :=
  let msgSubtype := (hdrAt buf 0).msgSubtype
  if msgSubtype = gsmdVoicecallDial then
    let buf := buf.store (sizeofHdr + 1 + gsmdAddrMaxlen) [0]
    ⟨buf, [readSubtype, .string (sizeofHdr + 1), readId],
      5 + (stringAt buf (sizeofHdr + 1)).length, 0⟩
  else if msgSubtype = gsmdVoicecallHangup then ⟨buf, [readSubtype, readId], 4, 0⟩
  else if msgSubtype = gsmdVoicecallAnswer then ⟨buf, [readSubtype, readId], 4, 0⟩
  else if msgSubtype = gsmdVoicecallDtmf then
    let digits := (buf sizeofHdr).toNat
    if digits ≠ 1 then ⟨buf, [readSubtype, .bytes sizeofHdr 1], 0, 0⟩
    else ⟨buf, [readSubtype, .bytes sizeofHdr 1, readId, .bytes (sizeofHdr + 1) 1],
      1 + 7 + digits * 2, 0⟩
  else ⟨buf, [readSubtype], 0, 0⟩

def VoicecallLengthOk (buf : Memory) (len : ℕ) : Prop :=
  let msgSubtype := (hdrAt buf 0).msgSubtype
  if msgSubtype = gsmdVoicecallDial then sizeofHdr + 34 ≤ len
  else if msgSubtype = gsmdVoicecallHangup then True
  else if msgSubtype = gsmdVoicecallAnswer then True
  else if msgSubtype = gsmdVoicecallDtmf then
    sizeofHdr + 1 ≤ len ∧ sizeofHdr + 1 + (buf sizeofHdr).toNat ≤ len
  else True

/-- The log line in front prints both strings. -/
def pinUse (buf : Memory) : MessageUse :=
  ⟨buf, [.bytes 6 2, .bytes sizeofHdr 4, .string (sizeofHdr + 4),
    .string (sizeofHdr + 4 + gsmdPinMaxlen + 1), readSubtype],
    if (hdrAt buf 0).msgSubtype ≠ gsmdPinInput then 0
    else 9 + gsmdPinMaxlen + 3 + gsmdPinMaxlen + 2, 0⟩

def PinLengthOk (buf : Memory) (len : ℕ) : Prop :=
  22 ≤ (hdrAt buf 0).len.toNat ∧ 22 + sizeofHdr ≤ len

def phonebookUse (buf : Memory) : MessageUse :=
  let msgSubtype := (hdrAt buf 0).msgSubtype
  if msgSubtype = gsmdPhonebookListStorage then ⟨buf, [readSubtype, readId], 9 + 1, 0⟩
  else if msgSubtype = gsmdPhonebookSetStorage then
    ⟨buf, [readSubtype, readId, .string sizeofHdr], 1 + 9 + 2 + 1, 0⟩
  else if msgSubtype = gsmdPhonebookFind then
    ⟨buf, [readSubtype, .string sizeofHdr, readId], 1 + 9 + (stringAt buf sizeofHdr).length + 1, 0⟩
  else if msgSubtype = gsmdPhonebookRead then
    let text := printInt (intAt buf sizeofHdr)
    ⟨buf, [readSubtype, .bytes sizeofHdr 4, readId], 1 + 8 + text.length, text.length + 1⟩
  else if msgSubtype = gsmdPhonebookReadrg then
    let text := printInt (buf sizeofHdr).toNat ++ ascii "," ++
      printInt (buf (sizeofHdr + 1)).toNat
    ⟨buf, [readSubtype, .bytes sizeofHdr 2, readId], 1 + 8 + text.length, text.length + 1⟩
  else if msgSubtype = gsmdPhonebookWrite then
    let text := printInt (buf sizeofHdr).toNat ++ ascii ",\"" ++
      stringAt buf (sizeofHdr + pbNumb) ++ ascii "\"," ++
      printInt (buf (sizeofHdr + pbType)).toNat ++ ascii ",\"" ++
      stringAt buf (sizeofHdr + pbText) ++ ascii "\""
    ⟨buf, [readSubtype, .bytes sizeofHdr 1, .string (sizeofHdr + pbNumb),
      .bytes (sizeofHdr + pbType) 1, .string (sizeofHdr + pbText), readId],
      1 + 8 + text.length, text.length + 1⟩
  else if msgSubtype = gsmdPhonebookDelete then
    let text := printInt (intAt buf sizeofHdr)
    ⟨buf, [readSubtype, .bytes sizeofHdr 4, readId], 1 + 8 + text.length, text.length + 1⟩
  else if msgSubtype = gsmdPhonebookGetSupport then ⟨buf, [readSubtype, readId], 9 + 1, 0⟩
  else if msgSubtype = gsmdPhonebookRetrieveReadrg then
    ⟨buf, [readSubtype, .bytes sizeofHdr 4], 0, 0⟩
  else if msgSubtype = gsmdPhonebookRetrieveFind then
    ⟨buf, [readSubtype, .bytes sizeofHdr 4], 0, 0⟩
  else if msgSubtype = gsmdPhonebookGetImsi then ⟨buf, [readSubtype], 7 + 1, 0⟩
  else ⟨buf, [readSubtype], 0, 0⟩

def PhonebookLengthOk (buf : Memory) (len : ℕ) : Prop :=
  let msgSubtype := (hdrAt buf 0).msgSubtype
  if msgSubtype = gsmdPhonebookListStorage then True
  else if msgSubtype = gsmdPhonebookSetStorage then sizeofHdr + 3 ≤ len
  else if msgSubtype = gsmdPhonebookFind then sizeofHdr + 15 ≤ len
  else if msgSubtype = gsmdPhonebookRead then sizeofHdr + 4 ≤ len
  else if msgSubtype = gsmdPhonebookReadrg then sizeofHdr + 2 ≤ len
  else if msgSubtype = gsmdPhonebookWrite then sizeofHdr + sizeofPhonebook ≤ len
  else if msgSubtype = gsmdPhonebookDelete then sizeofHdr + 4 ≤ len
  else if msgSubtype = gsmdPhonebookGetSupport then True
  else if msgSubtype = gsmdPhonebookRetrieveReadrg then sizeofHdr + 4 ≤ len
  else if msgSubtype = gsmdPhonebookRetrieveFind then sizeofHdr + 4 ≤ len
  else True

inductive TextHandler
  | voicecall
  | pin
  | phonebook
  deriving DecidableEq, Repr

namespace TextHandler

def run (block : GsmdUcmd) (gu : ℕ) (client : Client) (buf : Memory) (len : ℕ) :
    TextHandler → Except Refusal Handled
  | voicecall => usockRcvVoicecall gu client buf len
  | pin => usockRcvPin gu client buf len
  | phonebook => usockRcvPhonebook block gu client buf len

def use (buf : Memory) : TextHandler → MessageUse
  | voicecall => voicecallUse buf
  | pin => pinUse buf
  | phonebook => phonebookUse buf

def LengthOk (buf : Memory) (len : ℕ) : TextHandler → Prop
  | voicecall => VoicecallLengthOk buf len
  | pin => PinLengthOk buf len
  | phonebook => PhonebookLengthOk buf len

end TextHandler

def Handled.Fits (buflen : ℕ) (handled : Handled) : Prop :=
  ∀ cmd, .submit cmd ∈ handled.events ∨ .cancel cmd ∈ handled.events →
    (cstr cmd.buf).length + 1 ≤ buflen

/-- The text fits the buffer, what is printed on the way fits the one on the stack, and nothing
behind the message is read. -/
def Contained (len : ℕ) (use : MessageUse) (r : Except Refusal Handled) : Prop :=
  OnceAccepted (Handled.Fits use.buflen) r ∧ use.scratch ≤ 1024 ∧
    use.reads.Forall (FieldRead.Within use.buf len)

def EndsInside (buf : Memory) (len off : ℕ) : Prop := ∃ i < len, off ≤ i ∧ buf i = 0

instance (buf : Memory) (len off : ℕ) : Decidable (EndsInside buf len off) :=
  inferInstanceAs (Decidable (∃ i < len, off ≤ i ∧ buf i = 0))

def VoicecallFits (buf : Memory) (len : ℕ) : Prop :=
  let msgSubtype := (hdrAt buf 0).msgSubtype
  if msgSubtype = gsmdVoicecallDial then True
  else if msgSubtype = gsmdVoicecallHangup then 6 ≤ len
  else if msgSubtype = gsmdVoicecallAnswer then 6 ≤ len
  else if msgSubtype = gsmdVoicecallDtmf then True
  else 3 ≤ len

def PinFits (buf : Memory) (len : ℕ) : Prop :=
  let type := uintAt buf sizeofHdr
  let pin := stringAt buf (sizeofHdr + 4)
  let newpin := stringAt buf (sizeofHdr + 4 + gsmdPinMaxlen + 1)
  EndsInside buf len (sizeofHdr + 4 + gsmdPinMaxlen + 1) ∧
    ((hdrAt buf 0).msgSubtype = gsmdPinInput →
      pin.length + (if type = gsmdPinSimPuk ∨ type = gsmdPinSimPuk2 then 3 + newpin.length else 0) ≤
        19)

def PhonebookFits (buf : Memory) (len : ℕ) : Prop :=
  let msgSubtype := (hdrAt buf 0).msgSubtype
  if msgSubtype = gsmdPhonebookListStorage then 6 ≤ len
  else if msgSubtype = gsmdPhonebookSetStorage then
    EndsInside buf len sizeofHdr ∧ (stringAt buf sizeofHdr).length ≤ 2
  else if msgSubtype = gsmdPhonebookFind then EndsInside buf len sizeofHdr
  else if msgSubtype = gsmdPhonebookRead then True
  else if msgSubtype = gsmdPhonebookReadrg then True
  else if msgSubtype = gsmdPhonebookWrite then
    EndsInside buf len (sizeofHdr + pbText) ∧
      (printInt (buf sizeofHdr).toNat).length + (stringAt buf (sizeofHdr + pbNumb)).length +
        (printInt (buf (sizeofHdr + pbType)).toNat).length +
        (stringAt buf (sizeofHdr + pbText)).length ≤ 1016
  else if msgSubtype = gsmdPhonebookDelete then True
  else if msgSubtype = gsmdPhonebookGetSupport then 6 ≤ len
  else if msgSubtype = gsmdPhonebookRetrieveReadrg then True
  else if msgSubtype = gsmdPhonebookRetrieveFind then True
  else 3 ≤ len

def TextHandler.TextFits (buf : Memory) (len : ℕ) : TextHandler → Prop
  | voicecall => VoicecallFits buf len
  | pin => PinFits buf len
  | phonebook => PhonebookFits buf len

variable {client : Client} {gu len : ℕ} {buf : Memory}

/-- With the length checks passed, the handler keeps within its buffers exactly if `fits`. -/
def Settles (len : ℕ) (lengthOk : Prop) (use : MessageUse) (r : Except Refusal Handled)
    (fits : Prop) : Prop := lengthOk → (Contained len use r ↔ fits)

section Settles

variable {ok ok' fits fits' : Prop} {use use' : MessageUse} {r r' : Except Refusal Handled}

theorem settles_ite {c : Prop} [Decidable c] (ht : c → Settles len ok use r fits)
    (hf : ¬ c → Settles len ok' use' r' fits') :
    Settles len (if c then ok else ok') (if c then use else use') (if c then r else r')
      (if c then fits else fits') := by
  by_cases hc : c
  · rw [if_pos hc, if_pos hc, if_pos hc, if_pos hc]
    exact ht hc
  · rw [if_neg hc, if_neg hc, if_neg hc, if_neg hc]
    exact hf hc

theorem settles_ite_same {c : Prop} [Decidable c] (ht : c → Settles len ok use r fits)
    (hf : ¬ c → Settles len ok use' r' fits) :
    Settles len ok (if c then use else use') (if c then r else r') fits := by
  by_cases hc : c
  · rw [if_pos hc, if_pos hc]
    exact ht hc
  · rw [if_neg hc, if_neg hc]
    exact hf hc

theorem settles_guard {c : Prop} [Decidable c] {e : Refusal}
    {k : PUnit → Except Refusal Handled} (hc : ok → ¬ c) (h : Settles len ok use r fits) :
    Settles len ok use (if c then (throw e : Except Refusal PUnit) >>= k else r) fits := by
  intro hok
  rw [if_neg (hc hok)]
  exact h hok

theorem settles_refuses {c : Prop} [Decidable c] {e : Refusal}
    {k : PUnit → Except Refusal Handled} (ht : Settles len ok use (.error e) fits)
    (hf : Settles len ok use r fits) :
    Settles len ok use (if c then (throw e : Except Refusal PUnit) >>= k else r) fits := by
  by_cases hc : c
  · rw [if_pos hc]
    exact ht
  · rw [if_neg hc]
    exact hf

theorem settles_quiet {handled : Handled} (hev : handled.events = []) (hscratch : use.scratch = 0)
    (h : ok → (use.reads.Forall (FieldRead.Within use.buf len) ↔ fits)) :
    Settles len ok use (.ok handled) fits := by
  intro hok
  have hfits : OnceAccepted (Handled.Fits use.buflen) (.ok handled : Except Refusal Handled) := by
    apply onceAccepted_ok
    intro cmd hcmd
    rw [hev] at hcmd
    rcases hcmd with hcmd | hcmd <;> cases hcmd
  rw [Contained, and_iff_right hfits, hscratch, and_iff_right (Nat.zero_le _)]
  exact h hok

theorem settles_error {e : Refusal} (hscratch : use.scratch = 0)
    (h : ok → (use.reads.Forall (FieldRead.Within use.buf len) ↔ fits)) :
    Settles len ok use (.error e) fits := by
  intro hok
  rw [Contained, and_iff_right (onceAccepted_error e), hscratch, and_iff_right (Nat.zero_le _)]
  exact h hok

end Settles

theorem cstr_append_nul_length (as bs : Bytes) : (cstr (as ++ 0 :: bs)).length ≤ as.length := by
  induction as with
  | nil => exact le_rfl
  | cons a as ih =>
    by_cases ha : a = 0
    · rw [ha]
      exact Nat.zero_le _
    · rw [List.cons_append, cstr_cons ha, List.length_cons, List.length_cons]
      omega

theorem print_length (cmd : FilledAtcmd UsockCb) (text : Bytes) :
    (cstr (cmd.print text).buf).length ≤ text.length := cstr_append_nul_length _ _

theorem print_text (cmd : FilledAtcmd UsockCb) {text : Bytes} (h : ∀ b ∈ text, b ≠ 0) :
    cstr (cmd.print text).buf = text := cstr_ended h _

theorem filled_ok (fmt : Bytes) {rlen : ℕ} (hrlen : 0 < rlen) (cb : Option UsockCb) (ctx : ℕ)
    (id : UInt16) : ∃ cmd, filled fmt rlen cb ctx id = .ok cmd ∧
      (fmt.length < rlen → (cstr cmd.buf).length + 1 ≤ rlen) := by
  have hlen := cstr_length_le fmt
  unfold filled atcmdFill
  dsimp only
  rw [if_neg (by split_ifs <;> omega)]
  refine ⟨_, rfl, ?_⟩
  intro hfmt
  change (cstr (strncpy fmt ((if rlen > (cstr fmt).length then rlen else (cstr fmt).length) - 1) ++
    [0])).length + 1 ≤ rlen
  rw [if_pos (by omega)]
  have hbuf := cstr_append_nul_length (strncpy fmt (rlen - 1)) []
  have hcpy : (strncpy fmt (rlen - 1)).length = rlen - 1 := by
    unfold strncpy
    rw [List.length_append, List.length_take, List.length_replicate]
    omega
  omega

section Fill

variable {ok fits : Prop} {use : MessageUse} {fmt text : Bytes} {rlen : ℕ} {cb : Option UsockCb}
  {id : UInt16}

theorem fits_submits {cmd : FilledAtcmd UsockCb} :
    Handled.Fits use.buflen (submits client cmd) ↔ (cstr cmd.buf).length + 1 ≤ use.buflen := by
  constructor
  · intro h
    exact h cmd (Or.inl (List.mem_singleton.mpr rfl))
  · intro h c hc
    rcases hc with hc | hc
    · cases List.mem_singleton.mp hc
      exact h
    · cases List.mem_singleton.mp hc

theorem fits_prints (hpos : 0 < rlen) (htext : text.length + 1 ≤ use.buflen) :
    OnceAccepted (Handled.Fits use.buflen)
      (filled fmt rlen cb gu id >>= fun cmd => .ok (submits client (cmd.print text))) := by
  obtain ⟨cmd, hcmd, _⟩ := filled_ok fmt hpos cb gu id
  rw [hcmd]
  apply onceAccepted_ok
  have hlen := print_length cmd text
  exact fits_submits.mpr (by omega)

theorem fits_prints_iff (hpos : 0 < rlen) (hnul : ∀ b ∈ text, b ≠ 0) :
    OnceAccepted (Handled.Fits use.buflen)
        (filled fmt rlen cb gu id >>= fun cmd => .ok (submits client (cmd.print text))) ↔
      text.length + 1 ≤ use.buflen := by
  refine ⟨fun h => ?_, fits_prints hpos⟩
  obtain ⟨cmd, hcmd, _⟩ := filled_ok fmt hpos cb gu id
  rw [hcmd] at h
  have hfits := fits_submits.mp (h _ rfl)
  rwa [print_text cmd hnul] at hfits

theorem settles_prints (hpos : 0 < rlen) (htext : text.length + 1 ≤ use.buflen)
    (h : ok → (use.scratch ≤ 1024 ∧ use.reads.Forall (FieldRead.Within use.buf len) ↔ fits)) :
    Settles len ok use
      (filled fmt rlen cb gu id >>= fun cmd => .ok (submits client (cmd.print text))) fits := by
  intro hok
  rw [Contained, and_iff_right (fits_prints hpos htext)]
  exact h hok

theorem settles_prints_iff (hpos : 0 < rlen) (hnul : ∀ b ∈ text, b ≠ 0)
    (h : ok → (text.length + 1 ≤ use.buflen ∧ use.scratch ≤ 1024 ∧
      use.reads.Forall (FieldRead.Within use.buf len) ↔ fits)) :
    Settles len ok use
      (filled fmt rlen cb gu id >>= fun cmd => .ok (submits client (cmd.print text))) fits := by
  intro hok
  rw [Contained, fits_prints_iff hpos hnul]
  exact h hok

theorem settles_fills {handled : FilledAtcmd UsockCb → Handled} (hfmt : fmt.length < use.buflen)
    (hev : ∀ cmd c, .submit c ∈ (handled cmd).events ∨ .cancel c ∈ (handled cmd).events → c = cmd)
    (hscratch : use.scratch = 0) (h : ok → (use.reads.Forall (FieldRead.Within use.buf len) ↔ fits)) :
    Settles len ok use (filled fmt use.buflen cb gu id >>= fun cmd => .ok (handled cmd)) fits := by
  intro hok
  obtain ⟨cmd, hcmd, hlen⟩ := filled_ok fmt (Nat.zero_lt_of_lt hfmt) cb gu id
  have hfits : OnceAccepted (Handled.Fits use.buflen)
      (filled fmt use.buflen cb gu id >>= fun cmd => .ok (handled cmd)) := by
    rw [hcmd]
    apply onceAccepted_ok
    intro c hc
    rw [hev cmd c hc]
    exact hlen hfmt
  rw [Contained, and_iff_right hfits, hscratch, and_iff_right (Nat.zero_le _)]
  exact h hok

theorem submits_only (cmd c : FilledAtcmd UsockCb)
    (h : .submit c ∈ (submits client cmd).events ∨ .cancel c ∈ (submits client cmd).events) :
    c = cmd := by
  rcases h with h | h
  · cases List.mem_singleton.mp h
    rfl
  · cases List.mem_singleton.mp h

end Fill

theorem within_id : [readSubtype, readId].Forall (FieldRead.Within buf len) ↔ 6 ≤ len := by
  change 2 + 1 ≤ len ∧ 4 + 2 ≤ len ↔ 6 ≤ len
  omega

theorem usockRcvVoicecall_settles :
    Settles len (VoicecallLengthOk buf len) (voicecallUse buf)
      (usockRcvVoicecall gu client buf len) (VoicecallFits buf len) := by
  apply settles_ite
  · intro _
    apply settles_guard (fun (hok : sizeofHdr + 34 ≤ len) => by omega)
    apply settles_prints (by omega)
    · simp [ascii]
      omega
    · intro hok
      have hlen : 8 + 34 ≤ len := hok
      refine ⟨fun _ => trivial, fun _ => ⟨Nat.zero_le _, ?_⟩⟩
      -- the NUL of the handler is in the last byte of the number
      have hnul : (buf.store (sizeofHdr + 1 + gsmdAddrMaxlen) [0]) 41 = 0 :=
        Memory.store_inside buf 41 [0] (j := 0) Nat.one_pos
      exact ⟨show 2 + 1 ≤ len by omega, ⟨41, by omega, by decide, hnul⟩, show 4 + 2 ≤ len by omega⟩
  intro _
  apply settles_ite
  · intro _
    refine settles_fills (show 3 < 4 by decide) ?_ rfl (fun _ => within_id)
    rintro cmd c (hc | hc)
    · cases List.mem_singleton.mp hc
    · cases List.mem_singleton.mp hc
      rfl
  intro _
  apply settles_ite
  · intro _
    exact settles_fills (show 3 < 4 by decide) submits_only rfl (fun _ => within_id)
  intro _
  apply settles_ite
  · intro _
    apply settles_guard (fun hok => not_lt.mpr hok.1)
    apply settles_guard (fun hok => not_lt.mpr hok.2)
    by_cases hdigits : (buf sizeofHdr).toNat ≠ 1
    · rw [if_pos hdigits]
      dsimp only
      rw [if_pos hdigits]
      apply settles_error rfl
      rintro ⟨hlen, _⟩
      have hlen : 8 + 1 ≤ len := hlen
      exact iff_of_true ⟨show 2 + 1 ≤ len by omega, hlen⟩ trivial
    · rw [if_neg hdigits]
      dsimp only
      rw [if_neg hdigits]
      rw [not_not] at hdigits
      apply settles_prints (by omega)
      · rw [hdigits]
        exact le_rfl
      · rintro ⟨_, hlen⟩
        rw [hdigits] at hlen
        have hlen : 8 + 1 + 1 ≤ len := hlen
        refine ⟨fun _ => trivial, fun _ => ⟨Nat.zero_le _, ?_⟩⟩
        exact ⟨show 2 + 1 ≤ len by omega, show 8 + 1 ≤ len by omega, show 4 + 2 ≤ len by omega, hlen⟩
  · intro _
    exact settles_error rfl (fun _ => Iff.rfl)

theorem stringAt_ne_zero (buf : Memory) (off : ℕ) : ∀ b ∈ stringAt buf off, b ≠ 0 := by
  unfold stringAt
  cases hs : buf.string? off (rcvBufSize - off) with
  | none => exact Memory.string?_eq_none buf hs
  | some text => exact ((Memory.string?_eq_some_iff buf).mp hs).2.2.1

theorem usockRcvPin_settles :
    Settles len (PinLengthOk buf len) (pinUse buf) (usockRcvPin gu client buf len)
      (PinFits buf len) := by
  apply settles_guard
  · rintro ⟨hhdr, hlen⟩
    omega
  rintro ⟨_, hlen⟩
  have hlen : 30 ≤ len := hlen
  -- the string in front cannot get past the NUL that ends the second one
  have hreads : (pinUse buf).reads.Forall (FieldRead.Within (pinUse buf).buf len) ↔
      EndsInside buf len (sizeofHdr + 4 + gsmdPinMaxlen + 1) := by
    constructor
    · rintro ⟨_, _, _, hend, _⟩
      exact hend
    · rintro ⟨i, hi, hoff, hnul⟩
      have hoff : 21 ≤ i := hoff
      exact ⟨show 6 + 2 ≤ len by omega, show 8 + 4 ≤ len by omega,
        ⟨i, hi, show 12 ≤ i by omega, hnul⟩, ⟨i, hi, hoff, hnul⟩, show 2 + 1 ≤ len by omega⟩
  have hscratch : (pinUse buf).scratch ≤ 1024 := Nat.zero_le _
  rw [Contained, and_iff_right hscratch, PinFits]
  by_cases hsub : (hdrAt buf 0).msgSubtype ≠ gsmdPinInput
  · rw [if_pos hsub, hreads]
    refine (and_iff_right (onceAccepted_error Refusal.einval)).trans ?_
    exact (and_iff_left fun h => absurd h hsub).symm
  · have hbuflen : (pinUse buf).buflen = 30 := if_neg hsub
    rw [if_neg hsub, hreads, and_comm]
    apply and_congr_right
    intro _
    rw [forall_prop_of_true (not_not.mp hsub)]
    have hnul : ∀ b ∈ ascii "AT+CPIN=\"" ++ stringAt buf (sizeofHdr + 4) ++
        (if uintAt buf sizeofHdr = gsmdPinSimPuk ∨ uintAt buf sizeofHdr = gsmdPinSimPuk2 then
          ascii "\",\"" ++ stringAt buf (sizeofHdr + 4 + gsmdPinMaxlen + 1) else []) ++
        ascii "\"", b ≠ 0 := by
      have hsecond : ∀ b ∈ ascii "\",\"" ++ stringAt buf (sizeofHdr + 4 + gsmdPinMaxlen + 1),
          b ≠ 0 := List.forall_mem_append.mpr ⟨no_nul_of_all rfl, stringAt_ne_zero buf _⟩
      refine List.forall_mem_append.mpr ⟨List.forall_mem_append.mpr ⟨?_, ?_⟩, no_nul_of_all rfl⟩
      · exact List.forall_mem_append.mpr ⟨no_nul_of_all rfl, stringAt_ne_zero buf _⟩
      · split_ifs
        · exact hsecond
        · exact List.forall_mem_nil _
    apply (fits_prints_iff (by decide) hnul).trans
    rw [hbuflen]
    simp only [List.length_append]
    split_ifs <;> simp [ascii] <;> omega

theorem intAt_natAbs (buf : Memory) (off : ℕ) : (intAt buf off).natAbs < 10 ^ 10 := by
  have hlow := Int.le_bmod (x := (uintAt buf off : ℤ)) (m := 2 ^ 32) (by decide)
  have hhigh := Int.bmod_lt (x := (uintAt buf off : ℤ)) (m := 2 ^ 32) (by decide)
  unfold intAt
  omega

theorem printed_number {fmt : Bytes} {off : ℕ} (hfmt : fmt.length = 8) :
    (fmt ++ printInt (intAt buf off)).length + 1 ≤ 1 + 8 + (printInt (intAt buf off)).length := by
  rw [List.length_append, hfmt]
  omega

theorem within_number (h : sizeofHdr + 4 ≤ len) :
    (printInt (intAt buf sizeofHdr)).length + 1 ≤ 1024 ∧
      [readSubtype, .bytes sizeofHdr 4, readId].Forall (FieldRead.Within buf len) ↔ True := by
  have hlen : 8 + 4 ≤ len := h
  have hprint := printInt_length (intAt_natAbs buf sizeofHdr)
  exact iff_of_true ⟨by omega, show 2 + 1 ≤ len by omega, hlen, show 4 + 2 ≤ len by omega⟩ trivial

theorem within_count (h : sizeofHdr + 4 ≤ len) :
    [readSubtype, .bytes sizeofHdr 4].Forall (FieldRead.Within buf len) ↔ True := by
  have hlen : 8 + 4 ≤ len := h
  exact iff_of_true ⟨show 2 + 1 ≤ len by omega, hlen⟩ trivial

theorem within_storage (h : sizeofHdr + 3 ≤ len) :
    [readSubtype, readId, .string sizeofHdr].Forall (FieldRead.Within buf len) ↔
      EndsInside buf len sizeofHdr := by
  have hlen : 8 + 3 ≤ len := h
  constructor
  · rintro ⟨_, _, hend⟩
    exact hend
  · intro hend
    exact ⟨show 2 + 1 ≤ len by omega, show 4 + 2 ≤ len by omega, hend⟩

theorem within_find (h : sizeofHdr + 15 ≤ len) :
    [readSubtype, .string sizeofHdr, readId].Forall (FieldRead.Within buf len) ↔
      EndsInside buf len sizeofHdr := by
  have hlen : 8 + 15 ≤ len := h
  constructor
  · rintro ⟨_, hend, _⟩
    exact hend
  · intro hend
    exact ⟨show 2 + 1 ≤ len by omega, hend, show 4 + 2 ≤ len by omega⟩

theorem within_range (h : sizeofHdr + 2 ≤ len) :
    [readSubtype, .bytes sizeofHdr 2, readId].Forall (FieldRead.Within buf len) ↔ True := by
  have hlen : 8 + 2 ≤ len := h
  exact iff_of_true ⟨show 2 + 1 ≤ len by omega, hlen, show 4 + 2 ≤ len by omega⟩ trivial

theorem within_write (h : sizeofHdr + sizeofPhonebook ≤ len) :
    [readSubtype, .bytes sizeofHdr 1, .string (sizeofHdr + pbNumb), .bytes (sizeofHdr + pbType) 1,
      .string (sizeofHdr + pbText), readId].Forall (FieldRead.Within buf len) ↔
      EndsInside buf len (sizeofHdr + pbText) := by
  have hlen : 8 + 62 ≤ len := h
  constructor
  · rintro ⟨_, _, _, _, hend, _⟩
    exact hend
  · rintro ⟨i, hi, hoff, hnul⟩
    -- the NUL of the text ends the number in front of it at the latest
    have hoff : 55 ≤ i := hoff
    exact ⟨show 2 + 1 ≤ len by omega, show 8 + 1 ≤ len by omega,
      ⟨i, hi, show 9 ≤ i by omega, hnul⟩, show 54 + 1 ≤ len by omega, ⟨i, hi, hoff, hnul⟩,
      show 4 + 2 ≤ len by omega⟩

theorem settles_retrieve {ok fits : Prop} {use : MessageUse} {block : GsmdUcmd} {num : ℕ}
    {msgSubtype : UInt8} {entries : List Memory} {answered : GsmdUcmd → Client}
    (hscratch : use.scratch = 0)
    (h : ok → (use.reads.Forall (FieldRead.Within use.buf len) ↔ fits)) :
    Settles len ok use (pbRetrieve block num msgSubtype entries >>= fun ucmd =>
      .ok { client := answered ucmd }) fits := by
  cases entries with
  | nil => exact settles_quiet rfl hscratch h
  | cons pb entries => exact settles_error hscratch h

theorem usockRcvPhonebook_settles (block : GsmdUcmd) :
    Settles len (PhonebookLengthOk buf len) (phonebookUse buf)
      (usockRcvPhonebook block gu client buf len) (PhonebookFits buf len) := by
  apply settles_ite
  · intro _
    exact settles_fills (show 9 < 10 by decide) submits_only rfl (fun _ => within_id)
  intro _
  apply settles_ite
  · intro _
    apply settles_guard (fun (hok : sizeofHdr + 3 ≤ len) => by omega)
    apply settles_prints_iff (by decide)
    · refine List.forall_mem_append.mpr ⟨?_, no_nul_of_all rfl⟩
      refine List.forall_mem_append.mpr ⟨no_nul_of_all rfl, ?_⟩
      exact stringAt_ne_zero buf _
    · intro hok
      rw [within_storage hok, and_iff_right (Nat.zero_le _), and_comm, List.length_append,
        List.length_append]
      apply and_congr_right
      intro _
      change 9 + (stringAt buf sizeofHdr).length + 1 + 1 ≤ 13 ↔ _
      omega
  intro _
  apply settles_ite
  · intro _
    apply settles_guard (fun (hok : sizeofHdr + 15 ≤ len) => by omega)
    apply settles_prints (by omega)
    · simp [ascii]
      omega
    · intro hok
      rw [within_find hok, and_iff_right (Nat.zero_le _)]
  intro _
  apply settles_ite
  · intro _
    apply settles_guard (fun (hok : sizeofHdr + 4 ≤ len) => by omega)
    exact settles_prints (by omega) (printed_number (by decide)) (fun hok => within_number hok)
  intro _
  apply settles_ite
  · intro _
    apply settles_guard (fun (hok : sizeofHdr + 2 ≤ len) => by omega)
    apply settles_prints (by omega)
    · simp [ascii]
      omega
    · intro hok
      have hfirst := printByte_length (buf sizeofHdr)
      have hsecond := printByte_length (buf (sizeofHdr + 1))
      rw [within_range hok, and_true, iff_true]
      simp [ascii]
      omega
  intro _
  apply settles_ite
  · intro _
    apply settles_guard (fun (hok : sizeofHdr + sizeofPhonebook ≤ len) => by omega)
    apply settles_prints (by omega)
    · simp [ascii]
      omega
    · intro hok
      rw [within_write hok, and_comm]
      apply and_congr_right
      intro _
      simp [ascii]
      omega
  intro _
  apply settles_ite
  · intro _
    apply settles_guard (fun (hok : sizeofHdr + 4 ≤ len) => by omega)
    exact settles_prints (by omega) (printed_number (by decide)) (fun hok => within_number hok)
  intro _
  apply settles_ite
  · intro _
    exact settles_fills (show 9 < 10 by decide) submits_only rfl (fun _ => within_id)
  intro _
  apply settles_ite
  · intro _
    apply settles_guard (fun (hok : sizeofHdr + 4 ≤ len) => by omega)
    exact settles_refuses (settles_error rfl within_count) (settles_retrieve rfl within_count)
  intro _
  apply settles_ite
  · intro _
    apply settles_guard (fun (hok : sizeofHdr + 4 ≤ len) => by omega)
    exact settles_refuses (settles_error rfl within_count) (settles_retrieve rfl within_count)
  intro _
  apply settles_ite_same
  · intro _
    exact settles_fills (show 7 < 8 by decide) submits_only rfl (fun _ => Iff.rfl)
  · intro _
    exact settles_error rfl (fun _ => Iff.rfl)

theorem contained_iff_textFits (h : TextHandler) (block : GsmdUcmd) (gu : ℕ) (client : Client)
    {buf : Memory} {len : ℕ} (hok : h.LengthOk buf len) :
    Contained len (h.use buf) (h.run block gu client buf len) ↔ h.TextFits buf len := by
  cases h with
  | voicecall => exact usockRcvVoicecall_settles hok
  | pin => exact usockRcvPin_settles hok
  | phonebook => exact usockRcvPhonebook_settles block hok

def setStorage (name : Bytes) : Memory :=
  Memory.zero.store 0 ([gsmdProtoVersion, gsmdMsgPhonebook, gsmdPhonebookSetStorage, 0, 0, 0, 4, 0] ++
    name ++ [0])

def noClient : Client := ⟨⟨[], false, 0⟩, [], []⟩

def noBlock : GsmdUcmd := ⟨0, hdrAt Memory.zero 0, Memory.zero⟩

theorem setStorage_lengthOk : PhonebookLengthOk (setStorage (ascii "ABC")) 12 := by
  unfold PhonebookLengthOk
  decide

theorem contained_iff_textFits_storage :
    Contained 12 (TextHandler.phonebook.use (setStorage (ascii "ABC")))
        (TextHandler.phonebook.run noBlock 0 noClient (setStorage (ascii "ABC")) 12) ↔
      TextHandler.phonebook.TextFits (setStorage (ascii "ABC")) 12 :=
  contained_iff_textFits .phonebook noBlock 0 noClient setStorage_lengthOk

theorem contained_storage_overrun :
    TextHandler.phonebook.LengthOk (setStorage (ascii "ABC")) 12 ∧
      ¬ Contained 12 (TextHandler.phonebook.use (setStorage (ascii "ABC")))
        (TextHandler.phonebook.run noBlock 0 noClient (setStorage (ascii "ABC")) 12) := by
  refine ⟨setStorage_lengthOk, fun h => ?_⟩
  have hfits := (usockRcvPhonebook_settles noBlock setStorage_lengthOk).mp h
  unfold PhonebookFits at hfits
  revert hfits
  decide

end SystemTestSuite.GsmDaemon
