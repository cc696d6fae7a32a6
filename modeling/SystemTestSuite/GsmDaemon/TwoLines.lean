import SystemTestSuite.GsmDaemon.Llparse
import SystemTestSuite.GsmDaemon.PduLines
import SystemTestSuite.GsmDaemon.SecondLine

namespace SystemTestSuite.GsmDaemon

open Library

variable {κ ω : Type}

/-- What is around the parsers: what an uninitialised variable holds, what is done where the
behaviour is undefined, and `usock_evt_send` with the events that it has sent. -/
structure PduEnv (κ ω : Type) where
  unset : Unset
  undefined : ω → Reaction κ ω
  send : ω → InlinedEvent → ω
  numSent : ω → InlinedEvent → ℕ
  events : ω → List InlinedEvent
  events_send : ∀ w e, events (send w e) = events w ++ [e]

def PduEnv.reaction (p : PduEnv κ ω) (w : ω) : Option (Except ℤ InlinedEvent) → Reaction κ ω
  | none => p.undefined w
  | some (.error rc) => ⟨rc, w, []⟩
  | some (.ok e) => ⟨p.numSent w e, p.send w e, []⟩

def pduParse (p : PduEnv κ ω) (k : PduMessage) (w : ω) (buf : Bytes) (len : ℕ) : Reaction κ ω :=
  p.reaction w (k.parse p.unset (unsolicitedParam buf len))

structure Registers (env : Env κ ω) (p : PduEnv κ ω) (k : PduMessage) : Prop where
  entry : ∀ buf, k.start <+: buf →
    ∃ i ∈ env.unsolicit.find? (fun i => strncmp buf i.pfx i.pfx.length), i.parse = pduParse p k
  enoent : ∀ i ∈ env.unsolicit, ∀ w buf len, (i.parse w buf len).rc ≠ -ENOENT

def ReachesMlbuf (env : Env κ ω) (v0 : Bool) (buf : Bytes) : Prop :=
  ¬ readyLine buf ∧
    if extendedLine env buf then
      (strchr buf 58).isSome = true ∧ extendedResult buf = none ∧
        env.unsolicit.find? (fun i => strncmp (cstr buf) i.pfx i.pfx.length) = none
    else ¬ ringLine v0 buf ∧ basicResult v0 buf = none

def behindHeader (m : Memory) (header pdu : Bytes) : Bytes :=
  cstr (pdu ++ m.slice (header.length + 1 + pdu.length)
    (mlparseBufSize - (header.length + 1 + pdu.length)))

namespace PduMessage

def handed (k : PduMessage) (text : Bytes) (len : ℕ) : Option Bytes := do
  let param ← unsolicitedParam text len
  let number ← k.number param
  let (_, hex) ← (pduHeader number).toOption
  readHexPdu k.reader.size hex

def Announces (k : PduMessage) (header pdu octets : Bytes) : Prop :=
  hexOctets pdu = some octets ∧ k.Takes (k.length header) octets

def RefusesLine (k : PduMessage) (u : Unset) (number : Bytes) : Prop :=
  ∃ r, pduHeader number = .ok r ∧
    ∀ octets ∈ readHexPdu k.reader.size r.2, k.reader.Refuses u r.1 octets

end PduMessage

variable (env : Env κ ω) (p : PduEnv κ ω) (k : PduMessage) (g : Gsmd κ ω) (header pdu : Bytes)

/-- A PDU gives its event, anything else gives none, and nothing is left in `mlbuf`. -/
structure TakesBothLines : Prop where
  mlunsolicited : (receive env g [header, pdu]).mlunsolicited = false
  mlbufLen : (receive env g [header, pdu]).mlbufLen = 0
  defined : k.parse p.unset (unsolicitedParam (mlbufText (receive env g [header, pdu]))
    (header ++ LF :: pdu).length) ≠ none
  sent : ∀ octets, k.Announces header pdu octets →
    k.handed (mlbufText (receive env g [header, pdu])) (header ++ LF :: pdu).length = some octets ∧
      ∃ e ∈ k.event p.unset (k.length header) octets,
        p.events (receive env g [header, pdu]).world = p.events g.world ++ [e]
  malformed : (∀ octets, ¬ k.Announces header pdu octets) →
    p.events (receive env g [header, pdu]).world = p.events g.world

/-- The line comes to `mlbuf`, nothing behind it there goes on with its PDU, and the length in the
header is followed by nothing. -/
structure LinesMeet : Prop where
  noNul : ∀ b ∈ header, b ≠ 0
  reaches : ReachesMlbuf env g.v0 pdu
  announced : ∀ octets, k.Announces header pdu octets →
    (strtoul ((k.lengthText header).getD [])).2 = [] ∧ octets.length ≤ k.reader.size ∧
      (octets.length < k.reader.size → ¬ (g.mlbuf (header.length + 1 + pdu.length) ≥ 48 ∧
        g.mlbuf (header.length + 1 + pdu.length + 1) ≥ 48))
  malformed : (∀ octets, ¬ k.Announces header pdu octets) →
    k.RefusesLine p.unset ((k.lengthText header).getD [] ++ LF :: behindHeader g.mlbuf header pdu)

variable {env p k g header pdu}

theorem start_head {text : Bytes} (h : k.start <+: text) : text.head? = some 43 := by
  obtain ⟨rest, rfl⟩ := h
  cases k <;> rfl

theorem strchr_start (h : k.start <+: cstr header) : strchr header 58 = some 4 := by
  obtain ⟨rest, hrest⟩ := h
  rw [strchr, ← hrest]
  cases k <;> rfl

theorem start_foreign (hidle : g.busyAtcmds = []) (h : k.start <+: cstr header) :
    Foreign env g header := by
  have hhead := start_head h
  refine ⟨?_, ?_, ⟨43, hhead, Or.inl rfl⟩, ⟨4, strchr_start h, by rw [hidle]; rfl⟩, ?_⟩
  · rintro (hnil | hready)
    · rw [hnil] at hhead
      cases hhead
    · rw [hready] at hhead
      exact absurd hhead (by decide)
  · rw [echoLine, hidle]
    exact Bool.false_ne_true
  · obtain ⟨rest, hrest⟩ := h
    have hcolon : strchr header 58 = some 4 := strchr_start ⟨rest, hrest⟩
    rw [extendedResult, hcolon]
    dsimp only
    rw [← hrest, if_neg, if_neg]
    · cases k <;> simp [strncmp, PduMessage.start, ascii, cstr]
    · cases k <;> simp [strncmp, PduMessage.start, ascii, cstr]

theorem unsolicitedParse_pdu (hreg : Registers env p k) {text : Bytes}
    (h : k.start <+: cstr text) (len : ℕ) : unsolicitedParse env g text len =
      ((pduParse p k g.world (cstr text) len).rc,
        if (pduParse p k g.world (cstr text) len).rc = -EAGAIN then
          react g (pduParse p k g.world (cstr text) len)
        else (react g (pduParse p k g.world (cstr text) len)).emit (.unsolicited (cstr text))) := by
  obtain ⟨i, hi, hparse⟩ := hreg.entry _ h
  rw [unsolicitedParse, hi]
  dsimp only
  rw [hparse]

def waiting (g : Gsmd κ ω) (header : Bytes) : Gsmd κ ω :=
  { g with
    mlbufLen := header.length
    mlbuf := g.mlbuf.store 0 header
    mlunsolicited := true }

def assembled (g : Gsmd κ ω) (header pdu : Bytes) : Gsmd κ ω :=
  { g with
    mlbuf := g.mlbuf.store 0 (header ++ LF :: pdu)
    mlbufLen := (header ++ LF :: pdu).length
    mlunsolicited := true }

theorem mlParse_header (hreg : Registers env p k) (hidle : g.busyAtcmds = [])
    (h : AcceptedHeader p.unset k header) : (mlParse env g header).2 = waiting g header := by
  have hstart := start_cstr h.starts
  have hparse : pduParse p k g.world (cstr header) header.length = ⟨-EAGAIN, g.world, []⟩ := by
    rw [pduParse, h.asks]
    rfl
  rw [mlParse_foreign (start_foreign hidle hstart)]
  dsimp only
  rw [unsolicitedParse_pdu hreg hstart, hparse, if_pos rfl, if_pos rfl]
  rfl

theorem mlAppend_waiting (hheader : header.length ≤ llparseBufSize)
    (hpdu : pdu.length ≤ llparseBufSize) (hne : header ≠ []) (rc : ℤ) :
    mlAppend env (waiting g header) rc pdu =
      let g := assembled g header pdu
      let r := unsolicitedParse env g (mlbufText g) g.mlbufLen
      if r.1 = -EAGAIN then (0, r.2)
      else (r.1, { r.2 with mlunsolicited := false, mlbufLen := 0 }) := by
  have hlen : header.length ≠ 0 := List.length_pos_of_ne_nil hne |>.ne'
  have hroom : pdu.take ((mlparseBufSize + 2 ^ 32 - (header.length + 1)) % 2 ^ 32) = pdu := by
    apply List.take_of_length_le
    rw [llparseBufSize] at hheader hpdu
    rw [mlparseBufSize]
    omega
  have hstore : ((g.mlbuf.store 0 header).store header.length [LF]).store (header.length + 1) pdu =
      g.mlbuf.store 0 (header ++ LF :: pdu) := by
    rw [Memory.store_append _ 0 header, Nat.zero_add, ← List.singleton_append (l := pdu),
      Memory.store_append _ _ [LF], List.length_singleton]
  have hcount : header.length + 1 + pdu.length = (header ++ LF :: pdu).length := by
    rw [List.length_append, List.length_cons]
    omega
  unfold mlAppend waiting assembled
  dsimp only
  rw [if_pos hlen]
  dsimp only
  rw [hroom, hstore, hcount, if_pos rfl]

theorem mlAppend_rc (h : g.mlunsolicited = true) (rc rc' : ℤ) :
    mlAppend env g rc pdu = mlAppend env g rc' pdu := by
  unfold mlAppend
  by_cases hlen : g.mlbufLen = 0
  · simp [hlen, h]
  · simp [hlen, h]

theorem not_echo (hidle : g.busyAtcmds = []) : ¬ echoLine g pdu := by
  rw [echoLine, hidle]
  exact Bool.false_ne_true

theorem mlParse_reaches (hidle : g.busyAtcmds = []) (hwait : g.mlunsolicited = true)
    (h : ReachesMlbuf env g.v0 pdu) : (mlParse env g pdu).2 = (mlAppend env g 0 pdu).2 := by
  obtain ⟨hready, hline⟩ := h
  split_ifs at hline with hext
  · obtain ⟨hcolon, hinfo, hnone⟩ := hline
    obtain ⟨colon, hcolon⟩ := Option.isSome_iff_exists.mp hcolon
    have hforeign : Foreign env g pdu :=
      ⟨hready, not_echo hidle, hext, ⟨colon, hcolon, by rw [hidle]; rfl⟩, hinfo⟩
    have hparse : unsolicitedParse env g pdu pdu.length = (-ENOENT, g) := by
      rw [unsolicitedParse, hnone]
    rw [mlParse_foreign hforeign, hparse]
    dsimp only
    rw [if_neg (by decide), if_neg (by simp), mlResponse, hidle]
    exact congrArg Prod.snd (mlAppend_rc hwait _ _)
  · exact congrArg Prod.snd (mlParse_plain ⟨hready, not_echo hidle, hext, hline.1, hline.2⟩)

theorem mlParse_missed (hreg : Registers env p k) (hidle : g.busyAtcmds = [])
    (hwait : g.mlunsolicited = true) (h : ¬ ReachesMlbuf env g.v0 pdu) :
    (mlParse env g pdu).2.mlunsolicited = true := by
  have hparse := (unsolicitedParse_text env g pdu pdu.length).mlunsolicited.trans hwait
  have hfinal {r : Option ℤ × Option FinalError} (hr : finalResult env g pdu = some r) :
      (mlParse env g pdu).2.mlunsolicited = true := by
    rw [mlParse_final env g hr, finalCb, hidle]
    exact hwait
  by_cases hready : readyLine pdu
  · rw [mlParse, if_pos hready]
    exact (atcmdSubmit_text _ _).mlunsolicited.trans hwait
  have hecho : ¬ echoLine g pdu := not_echo hidle
  by_cases hext : extendedLine env pdu
  · cases hcolon : strchr pdu 58 with
    | none =>
      rw [mlParse, if_neg hready, if_neg hecho, if_pos hext, mlExtended, hcolon]
      exact hwait
    | some colon =>
      cases hinfo : extendedResult pdu with
      | some r =>
        apply hfinal
        rw [finalResult, if_neg hready, if_neg hecho, if_pos hext, hinfo]
      | none =>
        have hforeign : Foreign env g pdu :=
          ⟨hready, hecho, hext, ⟨colon, hcolon, by rw [hidle]; rfl⟩, hinfo⟩
        obtain ⟨i, hi⟩ : ∃ i, env.unsolicit.find?
            (fun i => strncmp (cstr pdu) i.pfx i.pfx.length) = some i := by
          apply Option.ne_none_iff_exists'.mp
          intro hnone
          refine h ⟨hready, ?_⟩
          rw [if_pos hext, hcolon]
          exact ⟨rfl, hinfo, hnone⟩
        have henoent : (unsolicitedParse env g pdu pdu.length).1 ≠ -ENOENT := by
          rw [unsolicitedParse, hi]
          exact hreg.enoent i (List.mem_of_find?_eq_some hi) _ _ _
        rw [mlParse_foreign hforeign]
        dsimp only
        split_ifs with hagain
        · rfl
        · exact hparse
  · by_cases hring : ringLine g.v0 pdu
    · rw [mlParse, if_neg hready, if_neg hecho, if_neg hext, mlBasic]
      dsimp only
      rw [if_pos hring]
      exact hparse
    · cases hbasic : basicResult g.v0 pdu with
      | some r =>
        apply hfinal
        rw [finalResult, if_neg hready, if_neg hecho, if_neg hext, hbasic]
      | none =>
        refine absurd ⟨hready, ?_⟩ h
        rw [if_neg hext]
        exact ⟨hring, hbasic⟩

theorem mlbufText_assembled (hheader : header.length ≤ llparseBufSize)
    (hpdu : pdu.length ≤ llparseBufSize) : mlbufText (assembled g header pdu) =
      cstr (header ++ LF :: (pdu ++ g.mlbuf.slice (header.length + 1 + pdu.length)
        (mlparseBufSize - (header.length + 1 + pdu.length)))) := by
  have hcount : (header ++ LF :: pdu).length = header.length + 1 + pdu.length := by
    rw [List.length_append, List.length_cons]
    omega
  have hsize : mlparseBufSize = (header ++ LF :: pdu).length +
      (mlparseBufSize - (header.length + 1 + pdu.length)) := by
    rw [hcount]
    rw [llparseBufSize] at hheader hpdu
    rw [mlparseBufSize]
    omega
  rw [mlbufText, text_eq_cstr, assembled]
  dsimp only
  nth_rewrite 1 [hsize]
  rw [Memory.slice_append, Memory.slice_store_same, Nat.zero_add, hcount]
  have hbehind : (g.mlbuf.store 0 (header ++ LF :: pdu)).slice (header.length + 1 + pdu.length)
      (mlparseBufSize - (header.length + 1 + pdu.length)) =
        g.mlbuf.slice (header.length + 1 + pdu.length)
          (mlparseBufSize - (header.length + 1 + pdu.length)) := by
    apply Memory.slice_congr
    intro i hi _
    exact Memory.store_behind _ _ (by omega)
  rw [hbehind, List.append_assoc, List.cons_append]

def Cleared (g : Gsmd κ ω) : Prop := g.mlunsolicited = false ∧ g.mlbufLen = 0

structure Parsed (p : PduEnv κ ω) (g : Gsmd κ ω) (outcome : Option (Except ℤ InlinedEvent))
    (g' : Gsmd κ ω) : Prop where
  again : outcome = some (.error (-EAGAIN)) → g'.mlunsolicited = true
  error : ∀ rc ≠ -EAGAIN, outcome = some (.error rc) → Cleared g' ∧ g'.world = g.world
  event : ∀ e, outcome = some (.ok e) → Cleared g' ∧ g'.world = p.send g.world e

theorem receive_parsed (hreg : Registers env p k) (hidle : g.busyAtcmds = [])
    (h : AcceptedHeader p.unset k header) (hheader : header.length ≤ llparseBufSize)
    (hpdu : pdu.length ≤ llparseBufSize) (hreach : ReachesMlbuf env g.v0 pdu) :
    mlbufText (receive env g [header, pdu]) = mlbufText (assembled g header pdu) ∧
      Parsed p g (k.parse p.unset (unsolicitedParam (mlbufText (assembled g header pdu))
        (header ++ LF :: pdu).length)) (receive env g [header, pdu]) := by
  have hne : header ≠ [] := by
    rintro rfl
    exact absurd h.number_read.1 (by decide)
  obtain ⟨t, ht⟩ : ∃ t, t = assembled g header pdu := ⟨_, rfl⟩
  have hreceive : receive env g [header, pdu] =
      if (unsolicitedParse env t (mlbufText t) t.mlbufLen).1 = -EAGAIN then
        (unsolicitedParse env t (mlbufText t) t.mlbufLen).2
      else { (unsolicitedParse env t (mlbufText t) t.mlbufLen).2 with
        mlunsolicited := false
        mlbufLen := 0 } := by
    have hlines : receive env g [header, pdu] = (mlParse env (mlParse env g header).2 pdu).2 := rfl
    rw [hlines, mlParse_header hreg hidle h, mlParse_reaches (g := waiting g header) hidle rfl hreach,
      mlAppend_waiting hheader hpdu hne, ← ht]
    dsimp only
    split_ifs <;> rfl
  have hno := mlbufText_no_nul t
  have hstart : k.start <+: cstr (mlbufText t) := by
    rw [cstr_of_no_nul hno, ht, mlbufText_assembled hheader hpdu]
    exact start_cstr (h.starts.trans (List.prefix_append _ _))
  have hsame := unsolicitedParse_text env t (mlbufText t) t.mlbufLen
  have hwait : t.mlunsolicited = true := by rw [ht]; rfl
  have hworld : t.world = g.world := by rw [ht]; rfl
  have hlen : t.mlbufLen = (header ++ LF :: pdu).length := by rw [ht]; rfl
  obtain ⟨outcome, houtcome⟩ : ∃ outcome, outcome =
    k.parse p.unset (unsolicitedParam (mlbufText t) (header ++ LF :: pdu).length) := ⟨_, rfl⟩
  have hrun : pduParse p k t.world (cstr (mlbufText t)) t.mlbufLen =
      p.reaction g.world outcome := by
    rw [houtcome, pduParse, cstr_of_no_nul hno, hlen, hworld]
  have hparse := @unsolicitedParse_pdu _ _ env p k t hreg _ hstart t.mlbufLen
  rw [hrun] at hparse
  have hrc := congrArg Prod.fst hparse
  dsimp only at hrc
  rw [hreceive, ← ht, ← houtcome]
  refine ⟨?_, ?_, ?_, ?_⟩
  · split_ifs
    · exact congrArg (fun m : Memory => m.text mlparseBufSize) hsame.mlbuf
    · exact congrArg (fun m : Memory => m.text mlparseBufSize) hsame.mlbuf
  · rintro rfl
    have hagain : (unsolicitedParse env t (mlbufText t) t.mlbufLen).1 = -EAGAIN := hrc
    rw [if_pos hagain]
    exact hsame.mlunsolicited.trans hwait
  · rintro rc hne rfl
    have hagain : (p.reaction g.world (some (.error rc))).rc ≠ -EAGAIN := hne
    rw [if_neg (hrc.trans_ne hagain)]
    refine ⟨⟨rfl, rfl⟩, ?_⟩
    dsimp only
    rw [hparse, if_neg hagain]
    rfl
  · rintro e rfl
    have hagain : (p.reaction g.world (some (.ok e))).rc ≠ -EAGAIN := by
      dsimp only [PduEnv.reaction, EAGAIN]
      omega
    rw [if_neg (hrc.trans_ne hagain)]
    refine ⟨⟨rfl, rfl⟩, ?_⟩
    dsimp only
    rw [hparse, if_neg hagain]
    rfl

theorem cstr_nul {text : Bytes} (h : 0 ∈ text) (behind : Bytes) :
    cstr (text ++ behind) = cstr text := by
  obtain ⟨rest, hrest⟩ := cstr_terminated h
  nth_rewrite 1 [hrest]
  rw [List.append_assoc, List.cons_append, cstr_ended cstr_ne_zero]

theorem assembled_no_nul (hno : ∀ b ∈ header, b ≠ 0) (hheader : header.length ≤ llparseBufSize)
    (hpdu : pdu.length ≤ llparseBufSize) : mlbufText (assembled g header pdu) =
      header ++ LF :: behindHeader g.mlbuf header pdu := by
  rw [mlbufText_assembled hheader hpdu, cstr_append hno, cstr_cons (by decide)]
  rfl

theorem readHexPdu_cstr (size : ℕ) (text : Bytes) :
    readHexPdu size (cstr text) = readHexPdu size text := by
  rw [readHexPdu_line, readHexPdu_line size text, lineOf, cstr_of_no_nul cstr_ne_zero, lineOf]

theorem readHexPdu_ends {hex octets rest : Bytes} {a b : UInt8} {size : ℕ}
    (h : hexOctets hex = some octets) : readHexPdu size (hex ++ a :: b :: rest) = some octets ↔
      octets.length ≤ size ∧ (octets.length < size → ¬ (a ≥ 48 ∧ b ≥ 48)) := by
  rw [readHexPdu_hex h]
  constructor
  · intro hread
    obtain ⟨extra, hextra, hall⟩ := Option.map_eq_some_iff.mp hread
    have hlen := congrArg List.length hall
    have hmore := readHexPdu_length hextra
    rw [List.length_append, List.length_take] at hlen
    refine ⟨by omega, fun hlt hgoes => ?_⟩
    obtain ⟨n, hn⟩ : ∃ n, size - octets.length = n + 1 := ⟨size - octets.length - 1, by omega⟩
    rw [hn, readHexPdu, if_pos hgoes] at hextra
    obtain ⟨octet, -, hmore⟩ := Option.bind_eq_some_iff.mp hextra
    obtain ⟨more, -, hcons⟩ := Option.bind_eq_some_iff.mp hmore
    obtain rfl := Option.some.inj hcons
    rw [List.length_cons] at hlen
    omega
  · rintro ⟨hle, hends⟩
    have hextra : readHexPdu (size - octets.length) (a :: b :: rest) = some [] := by
      cases hn : size - octets.length with
      | zero => exact readHexPdu.eq_1 _
      | succ n =>
        rw [readHexPdu, if_neg (hends (by omega))]
    rw [hextra, List.take_of_length_le hle]
    exact congrArg some (List.append_nil _)

theorem pduHeader_line {digits hex : Bytes} (hno : ∀ b ∈ digits, b ≠ 0)
    (hhex : ∀ b ∈ hex, b ≠ 0) (hnumber : (strtoul digits).1 ≠ 0)
    (hasks : pduHeader digits = .error (-EAGAIN)) :
    pduHeader (digits ++ LF :: hex) =
      if (strtoul digits).2 = [] then .ok (toInt32 (strtoul digits).1, hex)
      else .error (-EAGAIN) := by
  have hline := strtoul_line hno hnumber hhex
  unfold pduHeader at hasks ⊢
  rw [hline]
  cases hrest : (strtoul digits).2 with
  | nil => rfl
  | cons c rest =>
    rw [hrest] at hasks
    dsimp only at hasks
    split_ifs at hasks with hlf
    exact if_neg hlf

section Parsing

variable {digits : Bytes} (g : Gsmd κ ω) (pdu : Bytes) (h : AcceptedHeader p.unset k header)
  (hno : ∀ b ∈ header, b ≠ 0) (hdigits : k.lengthText header = some digits)

include h hno hdigits

theorem assembled_number :
    ((unsolicitedParam (header ++ LF :: behindHeader g.mlbuf header pdu)
      (header ++ LF :: pdu).length).bind fun param => k.number param) =
        some (digits ++ LF :: behindHeader g.mlbuf header pdu) := by
  have hsix := h.number_read.1
  apply number_read_line h hdigits hno cstr_ne_zero
  rw [List.length_append]
  omega

theorem assembled_parse :
    k.parse p.unset (unsolicitedParam (header ++ LF :: behindHeader g.mlbuf header pdu)
      (header ++ LF :: pdu).length) =
        match pduHeader (digits ++ LF :: behindHeader g.mlbuf header pdu) with
        | .error rc => some (.error rc)
        | .ok (len, hex) => k.ofHex p.unset len hex := by
  obtain ⟨param, hparam, hnumber⟩ :=
    Option.bind_eq_some_iff.mp (assembled_number g pdu h hno hdigits)
  rw [hparam]
  exact parse_number hnumber

theorem assembled_handed :
    k.handed (header ++ LF :: behindHeader g.mlbuf header pdu) (header ++ LF :: pdu).length =
      (pduHeader (digits ++ LF :: behindHeader g.mlbuf header pdu)).toOption.bind
        fun r => readHexPdu k.reader.size r.2 := by
  obtain ⟨param, hparam, hnumber⟩ :=
    Option.bind_eq_some_iff.mp (assembled_number g pdu h hno hdigits)
  rw [PduMessage.handed, hparam]
  simp only [Option.bind_eq_bind, Option.bind_some, hnumber]

end Parsing

theorem lengthText_no_nul {digits : Bytes} (hdigits : k.lengthText header = some digits) :
    ∀ b ∈ digits, b ≠ 0 := by
  obtain ⟨param, hparam, hnumber⟩ := Option.bind_eq_some_iff.mp hdigits
  apply number_no_nul _ hnumber
  obtain ⟨colon, -, hdrop⟩ := Option.bind_eq_some_iff.mp hparam
  split_ifs at hdrop
  obtain rfl := Option.some.inj hdrop
  intro b hb
  exact cstr_ne_zero b ((List.drop_sublist _ _).mem hb)

theorem announced_line {digits octets : Bytes} (m : Memory) (h : k.Announces header pdu octets)
    (hdigits : k.lengthText header = some digits) (hasks : pduHeader digits = .error (-EAGAIN)) :
    pduHeader (digits ++ LF :: behindHeader m header pdu) =
      if (strtoul digits).2 = [] then .ok (k.length header, behindHeader m header pdu)
      else .error (-EAGAIN) := by
  have hlength : k.length header = toInt32 (strtoul digits).1 := by
    rw [PduMessage.length, hdigits, Option.getD_some]
  have hnumber : (strtoul digits).1 ≠ 0 := by
    intro hzero
    have hpos := takes_pos h.2
    rw [hlength, hzero] at hpos
    exact absurd hpos (by decide)
  rw [hlength]
  exact pduHeader_line (lengthText_no_nul hdigits) cstr_ne_zero hnumber hasks

theorem behindHeader_ends (hheader : header.length ≤ llparseBufSize)
    (hpdu : pdu.length ≤ llparseBufSize) {octets : Bytes} {size : ℕ}
    (h : hexOctets pdu = some octets) :
    readHexPdu size (behindHeader g.mlbuf header pdu) = some octets ↔
      octets.length ≤ size ∧ (octets.length < size →
        ¬ (g.mlbuf (header.length + 1 + pdu.length) ≥ 48 ∧
          g.mlbuf (header.length + 1 + pdu.length + 1) ≥ 48)) := by
  obtain ⟨n, hn⟩ : ∃ n, mlparseBufSize - (header.length + 1 + pdu.length) = n + 2 := by
    refine ⟨mlparseBufSize - (header.length + 1 + pdu.length) - 2, ?_⟩
    rw [llparseBufSize] at hheader hpdu
    rw [mlparseBufSize]
    omega
  rw [behindHeader, readHexPdu_cstr, hn]
  exact readHexPdu_ends h

theorem ofHex_silent {len : ℤ} {hex : Bytes} :
    (∀ octets ∈ readHexPdu k.reader.size hex, k.reader.Refuses p.unset len octets) ↔
      k.ofHex p.unset len hex ≠ none ∧ ∀ e, k.ofHex p.unset len hex ≠ some (.ok e) := by
  rw [← ofHex_rejects]
  constructor
  · intro hrejects
    rw [hrejects]
    exact ⟨Option.some_ne_none _, fun e h => by cases Option.some.inj h⟩
  · rintro ⟨hdefined, hsilent⟩
    rcases @ofHex_cases p.unset hex len k with hof | hof | ⟨e, hof⟩
    · exact absurd hof hdefined
    · exact hof
    · exact absurd hof (hsilent e)

theorem receive_missed (hreg : Registers env p k) (hidle : g.busyAtcmds = [])
    (h : AcceptedHeader p.unset k header) (hmiss : ¬ ReachesMlbuf env g.v0 pdu) :
    (receive env g [header, pdu]).mlunsolicited = true := by
  have hlines : receive env g [header, pdu] = (mlParse env (mlParse env g header).2 pdu).2 := rfl
  rw [hlines, mlParse_header hreg hidle h]
  exact mlParse_missed hreg (g := waiting g header) hidle rfl hmiss

theorem assembled_nul (h : AcceptedHeader p.unset k header) (hnul : 0 ∈ header)
    (hheader : header.length ≤ llparseBufSize) (hpdu : pdu.length ≤ llparseBufSize) :
    k.parse p.unset (unsolicitedParam (mlbufText (assembled g header pdu))
      (header ++ LF :: pdu).length) = some (.error (-EAGAIN)) := by
  have hsix := h.number_read.1
  rw [mlbufText_assembled hheader hpdu, cstr_nul hnul]
  apply parse_alone h
  rw [List.length_append]
  omega

theorem TakesBothLines.meet (ht : TakesBothLines env p k g header pdu)
    (hreg : Registers env p k) (hidle : g.busyAtcmds = []) (h : AcceptedHeader p.unset k header)
    (hheader : header.length ≤ llparseBufSize) (hpdu : pdu.length ≤ llparseBufSize) :
    LinesMeet env p k g header pdu := by
  obtain ⟨-, digits, -, hdigits, hasks⟩ := h.number_read
  have hcleared : ¬ (receive env g [header, pdu]).mlunsolicited = true := by
    rw [ht.mlunsolicited]
    exact Bool.false_ne_true
  have hreach : ReachesMlbuf env g.v0 pdu := by
    by_contra hmiss
    exact hcleared (receive_missed hreg hidle h hmiss)
  obtain ⟨htext, hparsed⟩ := receive_parsed hreg hidle h hheader hpdu hreach
  have hno : ∀ b ∈ header, b ≠ 0 := by
    rintro b hb rfl
    exact hcleared (hparsed.again (assembled_nul h hb hheader hpdu))
  have hdefined := ht.defined
  have hsent := ht.sent
  rw [htext, assembled_no_nul hno hheader hpdu] at hdefined hsent
  rw [assembled_no_nul hno hheader hpdu] at hparsed
  rw [assembled_parse g pdu h hno hdigits] at hdefined hparsed
  rw [assembled_handed g pdu h hno hdigits] at hsent
  rcases pduHeader_cases (digits ++ LF :: behindHeader g.mlbuf header pdu) with hagain | ⟨r, hr⟩
  · rw [hagain] at hparsed
    exact absurd (hparsed.again rfl) hcleared
  rw [hr] at hdefined hparsed hsent
  refine ⟨hno, hreach, ?_, ?_⟩
  · intro octets hann
    obtain ⟨hhanded, -⟩ := hsent octets hann
    rw [announced_line g.mlbuf hann hdigits hasks] at hr
    split_ifs at hr with hwhole
    obtain rfl := Except.ok.inj hr
    rw [hdigits]
    exact ⟨hwhole, (behindHeader_ends hheader hpdu hann.1).mp hhanded⟩
  · intro hbad
    rw [hdigits]
    refine ⟨r, hr, ofHex_silent.mpr ⟨hdefined, fun e he => ?_⟩⟩
    have hsame := ht.malformed hbad
    rw [(hparsed.event e he).2, p.events_send] at hsame
    exact List.cons_ne_nil _ _ (List.append_right_eq_self.mp hsame)

theorem LinesMeet.taken (hm : LinesMeet env p k g header pdu)
    (hreg : Registers env p k) (hidle : g.busyAtcmds = []) (h : AcceptedHeader p.unset k header)
    (hheader : header.length ≤ llparseBufSize) (hpdu : pdu.length ≤ llparseBufSize) :
    TakesBothLines env p k g header pdu := by
  obtain ⟨-, digits, -, hdigits, hasks⟩ := h.number_read
  obtain ⟨htext, hparsed⟩ := receive_parsed hreg hidle h hheader hpdu hm.reaches
  rw [assembled_no_nul hm.noNul hheader hpdu] at htext hparsed
  have hparse := assembled_parse g pdu h hm.noNul hdigits
  have hhanded := assembled_handed g pdu h hm.noNul hdigits
  by_cases hann : ∃ octets, k.Announces header pdu octets
  · obtain ⟨octets, hann⟩ := hann
    obtain ⟨hwhole, hends⟩ := hm.announced octets hann
    rw [hdigits, Option.getD_some] at hwhole
    have hline := announced_line g.mlbuf hann hdigits hasks
    have hread := (behindHeader_ends hheader hpdu hann.1).mpr hends
    obtain ⟨e, he, hof⟩ := ofHex_taken hann.2 p.unset hread
    rw [if_pos hwhole] at hline
    rw [hline] at hparse hhanded
    rw [hparse] at hparsed
    obtain ⟨hcleared, hworld⟩ := hparsed.event e hof
    refine ⟨hcleared.1, hcleared.2, ?_, ?_, fun hbad => absurd hann (hbad octets)⟩
    · rw [htext, hparse]
      exact hof.trans_ne (Option.some_ne_none _)
    · intro octets' hann'
      obtain rfl : octets = octets' := Option.some.inj (hann.1.symm.trans hann'.1)
      rw [htext, hworld, p.events_send]
      exact ⟨hhanded.trans hread, e, he, rfl⟩
  · have hbad : ∀ octets, ¬ k.Announces header pdu octets := fun octets ho => hann ⟨octets, ho⟩
    obtain ⟨r, hr, hrefuses⟩ := hm.malformed hbad
    rw [hdigits, Option.getD_some] at hr
    have hof := ofHex_rejects.mpr hrefuses
    rw [hr] at hparse
    rw [hparse] at hparsed
    obtain ⟨hcleared, hworld⟩ := hparsed.error (-EINVAL) (by decide) hof
    refine ⟨hcleared.1, hcleared.2, ?_, fun octets ho => absurd ho (hbad octets), fun _ => ?_⟩
    · rw [htext, hparse]
      exact hof.trans_ne (Option.some_ne_none _)
    · rw [hworld]

theorem takesBothLines_iff (hreg : Registers env p k) (hidle : g.busyAtcmds = [])
    (h : AcceptedHeader p.unset k header) (hheader : header.length ≤ llparseBufSize)
    (hpdu : pdu.length ≤ llparseBufSize) :
    TakesBothLines env p k g header pdu ↔ LinesMeet env p k g header pdu :=
  ⟨fun ht => ht.meet hreg hidle h hheader hpdu, fun hm => hm.taken hreg hidle h hheader hpdu⟩

def samplePduEnv : PduEnv Unit (List InlinedEvent) where
  unset := zeroed
  undefined w := ⟨0, w, []⟩
  send w e := w ++ [e]
  numSent _ _ := 0
  events w := w
  events_send _ _ := rfl

def cmtEnv : Env Unit (List InlinedEvent) where
  extChars := ascii "%@"
  unsolicit := [⟨ascii "+CMT", pduParse samplePduEnv .cmt⟩]
  callback _ world _ _ := ⟨0, world, []⟩
  scribble _ text := text
  initsettings := filledText (ascii "ATZ") (some ())
  generateEventFromCme world _ := world
  generateEventFromCms world _ := world

theorem cmtEnv_registers : Registers cmtEnv samplePduEnv .cmt := by
  constructor
  · rintro buf ⟨rest, rfl⟩
    exact ⟨_, rfl, rfl⟩
  · intro i hi w buf len
    obtain rfl := List.mem_singleton.mp hi
    change (pduParse samplePduEnv .cmt w buf len).rc ≠ -ENOENT
    unfold pduParse
    cases hparse : PduMessage.cmt.parse samplePduEnv.unset (unsolicitedParam buf len) with
    | none => exact (by decide : (0 : ℤ) ≠ -ENOENT)
    | some outcome =>
      cases outcome with
      | ok e => exact (by decide : (0 : ℤ) ≠ -ENOENT)
      | error rc =>
        cases hparam : unsolicitedParam buf len with
        | none =>
          rw [hparam] at hparse
          cases hparse
        | some param =>
          rw [hparam] at hparse
          rcases parse_error hparse with rfl | rfl
          · exact (by decide : -EINVAL ≠ -ENOENT)
          · exact (by decide : -EAGAIN ≠ -ENOENT)

def idleWith (mlbuf : Memory) : Gsmd Unit (List InlinedEvent) where
  v0 := false
  interpreterReady := true
  fdWrite := false
  pendingAtcmds := []
  busyAtcmds := []
  mlbuf := mlbuf
  mlbufLen := 0
  mlunsolicited := false
  wakeupTimer := none
  timers := []
  world := []
  serial := 0
  log := []

def cmtHeaderLine : Bytes := ascii "+CMT: ,15"

def cmtPduLine : Bytes := hexText hiSubmit

theorem cmtHeaderLine_accepted : AcceptedHeader zeroed .cmt cmtHeaderLine :=
  ⟨⟨ascii " ,15", rfl⟩, rfl⟩

theorem cmtPduLine_announced : PduMessage.cmt.Announces cmtHeaderLine cmtPduLine hiSubmit :=
  ⟨hexOctets_hexText hiSubmit, by decide⟩

theorem takesBothLines_zeroed :
    TakesBothLines cmtEnv samplePduEnv .cmt (idleWith Memory.zero) cmtHeaderLine cmtPduLine := by
  apply (takesBothLines_iff cmtEnv_registers rfl cmtHeaderLine_accepted (by decide)
    (by decide)).mpr
  have hnul : ∀ c ∈ cmtHeaderLine, c ≠ 0 := no_nul_of_all (by decide)
  refine ⟨hnul, ⟨by decide, ?_⟩, ?_, fun hbad => absurd cmtPduLine_announced (hbad _)⟩
  · rw [if_neg (by decide)]
    exact ⟨by decide, by decide⟩
  · intro octets hann
    obtain rfl : hiSubmit = octets :=
      Option.some.inj (cmtPduLine_announced.1.symm.trans hann.1)
    exact ⟨by decide, by decide, fun _ => by decide⟩

theorem takesBothLines_stale :
    AcceptedHeader zeroed .cmt cmtHeaderLine ∧
      PduMessage.cmt.Announces cmtHeaderLine cmtPduLine hiSubmit ∧
      ¬ TakesBothLines cmtEnv samplePduEnv .cmt (idleWith fun _ => 48) cmtHeaderLine cmtPduLine := by
  refine ⟨cmtHeaderLine_accepted, cmtPduLine_announced, fun ht => ?_⟩
  have hmeet := ht.meet cmtEnv_registers rfl cmtHeaderLine_accepted (by decide) (by decide)
  obtain ⟨-, -, hends⟩ := hmeet.announced hiSubmit cmtPduLine_announced
  exact hends (by decide) (by decide)

end SystemTestSuite.GsmDaemon
