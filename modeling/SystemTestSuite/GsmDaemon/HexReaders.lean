import SystemTestSuite.GsmDaemon.ListEntry
import SystemTestSuite.GsmDaemon.SmsUnsolicited
import SystemTestSuite.Library.HexPairs

namespace SystemTestSuite.GsmDaemon

open Library

variable {κ : Type}

def continuesHex (b : UInt8) : Bool := decide (b ≥ 48)

theorem readHexPdu_eq (size : ℕ) (text : Bytes) :
    readHexPdu size text =
      (shownPairs continuesHex size text).mapM (fun p => scanHexPair p.1 p.2) := by
  induction size generalizing text with
  | zero => simp [readHexPdu, shownPairs]
  | succ size ih =>
    rcases text with _ | ⟨a, _ | ⟨b, rest⟩⟩
    · rfl
    · rfl
    · rw [readHexPdu]
      by_cases hshow : a ≥ 48 ∧ b ≥ 48
      · have htake : (continuesHex a && continuesHex b) = true := by
          simpa [continuesHex] using hshow
        have hshown : shownPairs continuesHex (size + 1) (a :: b :: rest) =
            (a, b) :: shownPairs continuesHex size rest := by
          simp [shownPairs, pairs, htake]
        rw [if_pos hshow, hshown, List.mapM_cons, ih]
      · have hstop : (continuesHex a && continuesHex b) = false := by
          simpa [continuesHex] using hshow
        have hshown : shownPairs continuesHex (size + 1) (a :: b :: rest) = [] := by
          simp [shownPairs, pairs, hstop]
        rw [if_neg hshow, hshown]
        rfl

def lineOf (text : Bytes) : Bytes := (cstr text).takeWhile (· ≠ LF)

theorem readHexPdu_line (size : ℕ) (text : Bytes) :
    readHexPdu size text =
      (shownPairs continuesHex size (lineOf text)).mapM (fun p => scanHexPair p.1 p.2) := by
  have hlf : ∀ c : UInt8, decide (c ≠ LF) = false → continuesHex c = false := by
    intro c hc
    obtain rfl : c = LF := by simpa using hc
    rfl
  have hnul : ∀ c : UInt8, decide (c ≠ 0) = false → continuesHex c = false := by
    intro c hc
    obtain rfl : c = 0 := by simpa using hc
    rfl
  rw [lineOf, shownPairs_takeWhile hlf, cstr, shownPairs_takeWhile hnul, readHexPdu_eq]

def smsListHeader (cmd : GsmdAtcmd κ) (resp : Bytes) : Option (ℤ × Bytes) :=
  if cmd.ret ≠ 0 ∧ cmd.ret ≠ -255 then none
  else
    let first := sscanf resp (ordinary "+CMGL: " ++ [.int true, .lit 44, .int true, .lit 44,
      .lit 44, .int true, .space, .count])
    let second := sscanf resp (ordinary "+CMGL: " ++ [.int true, .lit 44, .int true, .lit 44,
      .lit 34, .set none false notQuote, .lit 34, .lit 44, .int true, .space, .count])
    match (if first.1 < 3 then second else first).2 with
    | [.int _, .int _, .int len, .count cr] => if len > 164 then none else some (len, resp.drop cr)
    | _ => none

def smsReadHeader (cmd : GsmdAtcmd κ) (resp : Bytes) : Option (ℤ × Bytes) :=
  if cmd.ret ≠ 0 then none
  else
    let first := sscanf resp (ordinary "+CMGR: " ++ [.int true, .lit 44, .lit 44, .int true,
      .space, .count])
    let second := sscanf resp (ordinary "+CMGR: " ++ [.int true, .lit 44, .int false, .lit 44,
      .int true, .space, .count])
    match (if first.1 < 2 then second else first).2 with
    | [.int _, .int len, .count cr] => if len > 164 then none else some (len, resp.drop cr)
    | _ => none

inductive HexReader (κ : Type) where
  | smsList (cmd : GsmdAtcmd κ)
  | smsRead (cmd : GsmdAtcmd κ)
  | cmt
  | cbm
  | cds

variable (u : Unset)

namespace HexReader

def size : HexReader κ → ℕ
  | cbm => cbmMaxPduSize
  | _ => smsMaxPduSize

def header : HexReader κ → Bytes → Option (ℤ × Bytes)
  | smsList cmd, resp => smsListHeader cmd resp
  | smsRead cmd, resp => smsReadHeader cmd resp
  | cmt, param => (cmtHeader param).toOption
  | cbm, param | cds, param => (pduHeader param).toOption

def Rejects : HexReader κ → Bytes → Prop
  | smsList cmd, resp => smsListCb u cmd resp = some { rc := -EINVAL }
  | smsRead cmd, resp => smsReadCb u cmd resp = some { rc := -EINVAL }
  | cmt, param => cmtParse u (some param) = some (.error (-EINVAL))
  | cbm, param => cbmParse u (some param) = some (.error (-EINVAL))
  | cds, param => cdsParse u (some param) = some (.error (-EINVAL))

def Refuses (r : HexReader κ) (len : ℤ) (pdu : Bytes) : Prop :=
  match r with
  | cbm => ∃ rc, cbsPduToMsg (pduArray u cbmMaxPduSize pdu) len pdu.length = some (.error rc)
  | _ => ∃ rc ≠ 0,
      (smsPduToMsg u.msg (pduArray u smsMaxPduSize pdu) len pdu.length).map Prod.fst = some rc

end HexReader

variable {u}

theorem smsPduReply_rejects {cmd : GsmdAtcmd κ} {msgSubtype index : UInt8} {stat len : ℤ}
    {last hex : Bytes} :
    smsPduReply u cmd msgSubtype index stat len last hex = some { rc := -EINVAL } ↔
      ∀ pdu ∈ readHexPdu smsMaxPduSize hex, HexReader.Refuses u (.smsList cmd) len pdu := by
  unfold smsPduReply
  cases hpdu : readHexPdu smsMaxPduSize hex with
  | none => simp
  | some pdu =>
    have hcode := (smsPduToMsg_alike { u.msg with index := index } u.msg
      (pduArray u smsMaxPduSize pdu) len pdu.length).code
    have harray : pdu ++ u.array.slice pdu.length (smsMaxPduSize - pdu.length) =
        pduArray u smsMaxPduSize pdu := rfl
    simp only [Option.mem_some_iff, forall_eq', HexReader.Refuses, ← hcode, harray]
    cases hr : smsPduToMsg { u.msg with index := index } (pduArray u smsMaxPduSize pdu) len
        pdu.length with
    | none => simp
    | some r =>
      obtain ⟨rc, msg⟩ := r
      by_cases hrc : rc = 0
      · simp [hrc]
      · simp [hrc]

theorem smsOfHex_rejects {evt : ℕ} {len : ℤ} {hex : Bytes} :
    smsOfHex u evt len hex = some (.error (-EINVAL)) ↔
      ∀ pdu ∈ readHexPdu smsMaxPduSize hex, HexReader.Refuses u (@HexReader.cmt κ) len pdu := by
  unfold smsOfHex
  cases hpdu : readHexPdu smsMaxPduSize hex with
  | none => simp
  | some pdu =>
    simp only [Option.mem_some_iff, forall_eq', HexReader.Refuses]
    cases hr : smsPduToMsg u.msg (pduArray u smsMaxPduSize pdu) len pdu.length with
    | none => simp
    | some r =>
      obtain ⟨rc, msg⟩ := r
      by_cases hrc : rc = 0
      · simp [hrc]
      · simp [hrc]

theorem cbmOfHex_rejects {len : ℤ} {hex : Bytes} :
    cbmOfHex u len hex = some (.error (-EINVAL)) ↔
      ∀ pdu ∈ readHexPdu cbmMaxPduSize hex, HexReader.Refuses u (@HexReader.cbm κ) len pdu := by
  unfold cbmOfHex
  cases hpdu : readHexPdu cbmMaxPduSize hex with
  | none => simp
  | some pdu =>
    simp only [Option.mem_some_iff, forall_eq', HexReader.Refuses]
    cases hr : cbsPduToMsg (pduArray u cbmMaxPduSize pdu) len pdu.length with
    | none => simp
    | some r =>
      cases r with
      | error rc => simp
      | ok msg => simp

theorem smsListCb_rejects {cmd : GsmdAtcmd κ} {resp hex : Bytes} {len : ℤ}
    (h : smsListHeader cmd resp = some (len, hex)) :
    smsListCb u cmd resp = some { rc := -EINVAL } ↔
      ∀ pdu ∈ readHexPdu smsMaxPduSize hex, HexReader.Refuses u (.smsList cmd) len pdu := by
  unfold smsListHeader at h
  unfold smsListCb
  split_ifs at h with hret
  rw [if_neg hret]
  dsimp only at h ⊢
  generalize Prod.snd _ = scanned at h ⊢
  split at h
  · split_ifs at h with hlen
    obtain ⟨rfl, rfl⟩ := Prod.mk.inj (Option.some.inj h)
    simp only [if_neg hlen]
    exact smsPduReply_rejects
  · cases h

theorem smsReadCb_rejects {cmd : GsmdAtcmd κ} {resp hex : Bytes} {len : ℤ}
    (h : smsReadHeader cmd resp = some (len, hex)) :
    smsReadCb u cmd resp = some { rc := -EINVAL } ↔
      ∀ pdu ∈ readHexPdu smsMaxPduSize hex, HexReader.Refuses u (.smsRead cmd) len pdu := by
  unfold smsReadHeader at h
  unfold smsReadCb
  split_ifs at h with hret
  rw [if_neg hret]
  dsimp only at h ⊢
  generalize Prod.snd _ = scanned at h ⊢
  split at h
  · split_ifs at h with hlen
    obtain ⟨rfl, rfl⟩ := Prod.mk.inj (Option.some.inj h)
    simp only [if_neg hlen]
    exact smsPduReply_rejects
  · cases h

theorem toOption_eq_some {ε α : Type} {e : Except ε α} {a : α} (h : e.toOption = some a) :
    e = .ok a := by
  cases e with
  | error _ => cases h
  | ok a' => rw [Option.some.inj h]

theorem HexReader.rejects_iff (r : HexReader κ) {text hex : Bytes} {len : ℤ}
    (h : r.header text = some (len, hex)) :
    r.Rejects u text ↔ ∀ pdu ∈ readHexPdu r.size hex, r.Refuses u len pdu := by
  cases r with
  | smsList cmd => exact smsListCb_rejects h
  | smsRead cmd => exact smsReadCb_rejects h
  | cmt =>
    have hheader := toOption_eq_some h
    simp only [Rejects, cmtParse, Option.bind_some, hheader]
    exact @smsOfHex_rejects κ u _ len hex
  | cbm =>
    have hheader := toOption_eq_some h
    simp only [Rejects, cbmParse, Option.bind_some, hheader]
    exact cbmOfHex_rejects
  | cds =>
    have hheader := toOption_eq_some h
    simp only [Rejects, cdsParse, Option.bind_some, hheader]
    exact @smsOfHex_rejects κ u _ len hex

namespace HexReader

variable (r : HexReader κ) (u : Unset) {text hex octets : Bytes} {len : ℤ}

structure ReadsHex (text hex : Bytes) : Prop where
  rendered : ∀ octets, lineOf hex = hexText octets → octets.length ≤ r.size →
    readHexPdu r.size hex = some octets
  rejected : (∃ p ∈ pairs (lineOf hex), ¬ IsHexPair p) → r.Rejects u text
  digits : ∀ octets, readHexPdu r.size hex = some octets → octets.length ≤ r.size ∧
    FromDigits (lineOf hex) octets

def shown (hex : Bytes) : List (UInt8 × UInt8) := shownPairs continuesHex r.size (lineOf hex)

/-- The loop meets a pair that begins with no digit, or only pairs of two digits; a bad pair that it
does not come to leaves octets that are refused. -/
def MeetsHex (len : ℤ) (hex : Bytes) : Prop :=
  (∃ p ∈ r.shown hex, hexValue p.1 = none) ∨
    (∀ p ∈ r.shown hex, IsHexPair p) ∧
      ((∀ p ∈ pairs (lineOf hex), IsHexPair p) ∨ r.Refuses u len ((r.shown hex).filterMap hexPair))

variable {r u}

theorem pdu_eq (r : HexReader κ) (hex : Bytes) :
    readHexPdu r.size hex = (r.shown hex).mapM (fun p => scanHexPair p.1 p.2) :=
  readHexPdu_line r.size hex

theorem pdu_eq_none : readHexPdu r.size hex = none ↔ ∃ p ∈ r.shown hex, hexValue p.1 = none := by
  simp only [pdu_eq, mapM_eq_none, scanHexPair_eq_none]

theorem pdu_of_hex (h : ∀ p ∈ r.shown hex, IsHexPair p) :
    readHexPdu r.size hex = some ((r.shown hex).filterMap hexPair) := by
  rw [pdu_eq]
  generalize r.shown hex = ps at h
  induction ps with
  | nil => rfl
  | cons p ps ih =>
    obtain ⟨octet, hoctet⟩ := Option.isSome_iff_exists.mp (h p List.mem_cons_self)
    rw [List.mapM_cons, scanHexPair_of_hexPair hoctet,
      ih (fun q hq => h q (List.mem_cons_of_mem p hq)), List.filterMap_cons_some hoctet]
    rfl

theorem pdu_rendered (hline : lineOf hex = hexText octets) (hsize : octets.length ≤ r.size) :
    readHexPdu r.size hex = some octets := by
  have hread := readHexPdu_hex (hexOctets_hexText octets) r.size []
  rw [readHexPdu_line, hline, ← readHexPdu_eq]
  rw [List.append_nil] at hread
  rw [hread, List.take_of_length_le hsize]
  cases r.size - octets.length with
  | zero => simp [readHexPdu]
  | succ n => simp [readHexPdu]

theorem pdu_get (h : readHexPdu r.size hex = some octets) (i : ℕ) :
    (r.shown hex)[i]?.map (fun p => scanHexPair p.1 p.2) = octets[i]?.map some := by
  rw [pdu_eq, mapM_eq_some] at h
  rw [← List.getElem?_map, ← List.getElem?_map, h]

theorem shown_get {i : ℕ} {p : UInt8 × UInt8} (h : (r.shown hex)[i]? = some p) :
    (pairs (lineOf hex))[i]? = some p := by
  obtain ⟨more, hmore⟩ := @shownPairs_isPrefix r.size continuesHex (lineOf hex)
  have happend := @List.getElem?_append_left _ _ more _ (List.getElem?_eq_some_iff.mp h).1
  rw [← hmore]
  exact happend.trans h

theorem digits_iff (h : readHexPdu r.size hex = some octets) :
    octets.length ≤ r.size ∧ FromDigits (lineOf hex) octets ↔ ∀ p ∈ r.shown hex, IsHexPair p := by
  constructor
  · rintro ⟨-, hdigits⟩ p hp
    obtain ⟨i, hi⟩ := List.mem_iff_getElem?.mp hp
    have hget := pdu_get h i
    rw [hi, Option.map_some] at hget
    obtain ⟨octet, hoctet, -⟩ := Option.map_eq_some_iff.mp hget.symm
    obtain ⟨q, hq, hpair⟩ := hdigits i octet hoctet
    obtain rfl := Option.some.inj ((shown_get hi).symm.trans hq)
    exact Option.isSome_iff_exists.mpr ⟨octet, hpair⟩
  · refine fun hhex => ⟨readHexPdu_length h, fun i octet hoctet => ?_⟩
    have hget := pdu_get h i
    rw [hoctet, Option.map_some] at hget
    obtain ⟨p, hp, hscan⟩ := Option.map_eq_some_iff.mp hget
    obtain ⟨octet', hpair⟩ := Option.isSome_iff_exists.mp (hhex p (List.mem_of_getElem? hp))
    rw [scanHexPair_of_hexPair hpair] at hscan
    exact ⟨p, shown_get hp, hpair.trans hscan⟩

theorem readsHex_iff (h : r.header text = some (len, hex)) :
    r.ReadsHex u text hex ↔ r.MeetsHex u len hex := by
  have hrejects := @rejects_iff _ u r _ _ _ h
  constructor
  · intro hreads
    cases hpdu : readHexPdu r.size hex with
    | none => exact Or.inl (pdu_eq_none.mp hpdu)
    | some octets =>
      have hhex := (digits_iff hpdu).mp (hreads.digits octets hpdu)
      refine Or.inr ⟨hhex, or_iff_not_imp_left.mpr fun hbad => ?_⟩
      push Not at hbad
      exact hrejects.mp (hreads.rejected hbad) _ (pdu_of_hex hhex)
  · intro hmeets
    refine ⟨fun octets hline hsize => pdu_rendered hline hsize, fun hbad => ?_, fun octets hpdu => ?_⟩
    · rw [hrejects]
      intro pdu hpdu
      rcases hmeets with hnone | ⟨hhex, hrest⟩
      · rw [pdu_eq_none.mpr hnone] at hpdu
        cases hpdu
      · rw [pdu_of_hex hhex] at hpdu
        obtain rfl := Option.some.inj hpdu
        apply hrest.resolve_left
        push Not
        exact hbad
    · rcases hmeets with hnone | ⟨hhex, -⟩
      · rw [pdu_eq_none.mpr hnone] at hpdu
        cases hpdu
      · exact (digits_iff hpdu).mpr hhex

theorem readsHex_iff_hi :
    (cmt : HexReader Unit).ReadsHex zeroed (ascii ",15\n0001000B915892214365F7000002C834")
      (ascii "0001000B915892214365F7000002C834") := by
  have hheader : (cmt : HexReader Unit).header (ascii ",15\n0001000B915892214365F7000002C834") =
      some (15, ascii "0001000B915892214365F7000002C834") := by decide +kernel
  have hpairs : (pairs (lineOf (ascii "0001000B915892214365F7000002C834"))).all
      (fun p => (hexPair p).isSome) = true := by decide +kernel
  have hhex := List.all_eq_true.mp hpairs
  exact (readsHex_iff hheader).mpr
    (Or.inr ⟨fun p hp => hhex p ((shownPairs_isPrefix _).subset hp), Or.inl hhex⟩)

def oneDigitHex : Bytes := ascii "0001000B915892214365F7000002C83G"

theorem readsHex_oneDigit :
    (cmt : HexReader Unit).header (ascii ",15\n" ++ oneDigitHex) = some (15, oneDigitHex) ∧
      ¬ (cmt : HexReader Unit).ReadsHex zeroed (ascii ",15\n" ++ oneDigitHex) oneDigitHex := by
  have hheader : (cmt : HexReader Unit).header (ascii ",15\n" ++ oneDigitHex) =
      some (15, oneDigitHex) := by decide
  refine ⟨hheader, fun h => ?_⟩
  have hbad : ∃ p ∈ pairs (lineOf oneDigitHex), ¬ IsHexPair p := by decide
  have hread : readHexPdu smsMaxPduSize oneDigitHex = some (hiSubmit.dropLast ++ [3]) := by
    decide
  obtain ⟨rc, hrc, hr⟩ := (rejects_iff cmt hheader).mp (h.rejected hbad) _ hread
  obtain ⟨msg, hmsg⟩ := (accepts_iff zeroed.msg (hiSubmit.dropLast ++ [3]) 15).mp (by decide)
  rw [pduArray, smsPduToMsg_behind hmsg] at hr
  exact hrc (Option.some.inj hr).symm

end HexReader

end SystemTestSuite.GsmDaemon
