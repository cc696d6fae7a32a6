import SystemTestSuite.GsmDaemon.ExtLexemes
import SystemTestSuite.Library.CheckedArray
import SystemTestSuite.Library.Decimal

namespace SystemTestSuite.GsmDaemon

open Library

variable {κ ω : Type}

def cpmbBufSize : ℕ := 20

def gsmdSimplecmd (testAtcb : κ) (world : ω) (cmdtxt : Bytes) : Reaction κ ω :=
  ⟨0, world, [filledText cmdtxt (some testAtcb)]⟩

def csvmText (number : Bytes) (type : ℤ) : Bytes :=
  ascii "AT+CSVM=1,\"" ++ number ++ ascii "\"," ++ printInt type

def fiveTokens (er : GsmExtrsp) : Option (Bytes × ℤ) :=
  match er.tokens with
  | [_, _, .string number, .numeric type, .string _] => some (number, type)
  | _ => none

/-- `rc` and `atcmdBuf` are what the two variables hold before anything is assigned to them. `none` is
an access outside `atcmdBuf`. -/
def cpmbTokens (testAtcb : κ) (world : ω) (rc : ℤ) (atcmdBuf : Memory) (er : GsmExtrsp) :
    Option (Reaction κ ω) := do
  match fiveTokens er with
  | some (number, type) =>
    let text ← sprint cpmbBufSize [] (csvmText number type)
    let rc : ℤ := text.length
    if rc ≠ 0 then return gsmdSimplecmd testAtcb world text
    else return ⟨rc, world, []⟩
  | none =>
    if rc ≠ 0 then return gsmdSimplecmd testAtcb world (← atcmdBuf.string? 0 cpmbBufSize)
    else return ⟨rc, world, []⟩

def cpmbDetectCb (testAtcb : κ) (world : ω) (rc : ℤ) (atcmdBuf : Memory) (resp : Bytes) :
    Option (Reaction κ ω) := do
  if ¬ strncmp resp (ascii "%CPMB: ") 7 then return ⟨-EINVAL, world, []⟩
  match ← extrspParse (resp.drop 7) with
  | none => return ⟨-ENOMEM, world, []⟩
  | some er => cpmbTokens testAtcb world rc atcmdBuf er

variable {testAtcb : κ} {world : ω} {rc : ℤ} {atcmdBuf : Memory} {text number : Bytes} {type : ℤ}
  {er : GsmExtrsp}

/-- A command goes out for five tokens and for nothing else, with their number and type. -/
structure Provisions (testAtcb : κ) (text : Bytes) (r : Reaction κ ω) : Prop where
  once : r.submits.length ≤ 1
  command : ∀ cmd, cmd ∈ r.submits ↔ ∃ er number type, extrspParse text = some (some er) ∧
    fiveTokens er = some (number, type) ∧ cmd = filledText (csvmText number type) (some testAtcb)

structure CpmbFits (rc : ℤ) (text : Bytes) : Prop where
  tokens : (lexemes (cstr text)).length ≤ gsmExtrspMaxTokens
  room : ∀ l ∈ lexemes (cstr text), l.Fits extrspBufSize
  five : ∀ er number type, extrspParse text = some (some er) →
    fiveTokens er = some (number, type) → number.length + (printInt type).length ≤ 6
  others : ∀ er, extrspParse text = some (some er) → fiveTokens er = none → rc = 0

theorem extrspParse_isSome (text : Bytes) : (extrspParse text).isSome = true ↔
    (lexemes (cstr text)).length ≤ gsmExtrspMaxTokens ∧
      ∀ l ∈ lexemes (cstr text), l.Fits extrspBufSize := by
  have hiff := restIff_lexemes (show 1 ≤ extrspBufSize by decide) (cstr text) .init rfl
    (by decide)
  rw [RestIff, ExtrspParser.init, List.length_nil, Nat.zero_add] at hiff
  rw [← hiff, extrspParse]
  split_ifs with hnil
  · rw [hnil]
    exact iff_of_true rfl rfl
  · rw [Option.isSome_map]
    rfl

theorem csvmText_length (number : Bytes) (type : ℤ) :
    (csvmText number type).length = 13 + number.length + (printInt type).length := by
  have hhead : (ascii "AT+CSVM=1,\"").length = 11 := rfl
  have htail : (ascii "\",").length = 2 := rfl
  rw [csvmText, List.length_append, List.length_append, List.length_append, hhead, htail]
  omega

theorem cpmbTokens_five (h : fiveTokens er = some (number, type)) :
    Yields (cpmbTokens testAtcb world rc atcmdBuf er) (number.length + (printInt type).length ≤ 6)
      (· = gsmdSimplecmd testAtcb world (csvmText number type)) := by
  have hprint : Yields (sprint cpmbBufSize [] (csvmText number type))
      ((csvmText number type).length < cpmbBufSize) (· = csvmText number type) := by
    rw [← Nat.zero_add (csvmText number type).length]
    exact yields_ite fun _ => rfl
  have hlen := csvmText_length number type
  rw [cpmbTokens, h]
  change Yields ((sprint cpmbBufSize [] (csvmText number type)).bind fun t =>
    if (t.length : ℤ) ≠ 0 then some (gsmdSimplecmd testAtcb world t)
    else some ⟨t.length, world, []⟩) _ _
  have hnonzero : ((csvmText number type).length : ℤ) ≠ 0 := by omega
  have hsend : Yields (if ((csvmText number type).length : ℤ) ≠ 0 then
      some (gsmdSimplecmd testAtcb world (csvmText number type))
      else some ⟨(csvmText number type).length, world, []⟩) True
      (· = gsmdSimplecmd testAtcb world (csvmText number type)) := by
    rw [if_pos hnonzero]
    exact yields_some rfl
  apply (hprint.next hsend).iff
  rw [and_true, hlen, cpmbBufSize]
  omega

theorem cpmbTokens_others (h : fiveTokens er = none) :
    cpmbTokens testAtcb world rc atcmdBuf er =
      if rc ≠ 0 then (atcmdBuf.string? 0 cpmbBufSize).map (gsmdSimplecmd testAtcb world)
      else some ⟨rc, world, []⟩ := by
  rw [cpmbTokens, h]
  dsimp only
  split_ifs
  · cases atcmdBuf.string? 0 cpmbBufSize <;> rfl
  · rfl

theorem cpmbDetectCb_eq : cpmbDetectCb testAtcb world rc atcmdBuf (ascii "%CPMB: " ++ text) =
    (extrspParse text).bind fun parsed => parsed.elim (some ⟨-ENOMEM, world, []⟩)
      (cpmbTokens testAtcb world rc atcmdBuf) := by
  have hpfx : strncmp (ascii "%CPMB: " ++ text) (ascii "%CPMB: ") 7 := by
    rw [strncmp, cstr_append (no_nul_of_all (by decide))]
    rfl
  have hdrop : (ascii "%CPMB: " ++ text).drop 7 = text := rfl
  rw [cpmbDetectCb, if_neg (not_not.mpr hpfx), hdrop]
  cases extrspParse text with
  | none => rfl
  | some parsed => cases parsed <;> rfl

theorem provisions_five (hparse : extrspParse text = some (some er))
    (h : fiveTokens er = some (number, type)) :
    Provisions testAtcb text (gsmdSimplecmd testAtcb world (csvmText number type)) := by
  refine ⟨le_rfl, fun cmd => List.mem_singleton.trans ⟨fun hcmd => ?_, ?_⟩⟩
  · exact ⟨er, number, type, hparse, h, hcmd⟩
  · rintro ⟨er', number', type', hparse', h', rfl⟩
    rw [hparse] at hparse'
    obtain rfl := Option.some.inj (Option.some.inj hparse')
    rw [h] at h'
    cases h'
    rfl

theorem provisions_others (hparse : extrspParse text = some (some er)) (h : fiveTokens er = none)
    (r : Reaction κ ω) : Provisions testAtcb text r ↔ r.submits = [] := by
  have hnot (cmd : FilledAtcmd κ) : ¬ ∃ er number type, extrspParse text = some (some er) ∧
      fiveTokens er = some (number, type) ∧
        cmd = filledText (csvmText number type) (some testAtcb) := by
    rintro ⟨er', number, type, hparse', h', -⟩
    rw [hparse] at hparse'
    obtain rfl := Option.some.inj (Option.some.inj hparse')
    rw [h] at h'
    cases h'
  constructor
  · intro hprov
    apply List.eq_nil_iff_forall_not_mem.mpr
    exact fun cmd hcmd => hnot cmd ((hprov.command cmd).mp hcmd)
  · intro hnil
    refine ⟨by rw [hnil]; exact Nat.zero_le _, fun cmd => iff_of_false ?_ (hnot cmd)⟩
    rw [hnil]
    exact List.not_mem_nil

theorem cpmbFits_iff (hparse : extrspParse text = some (some er)) : CpmbFits rc text ↔
    (∀ number type, fiveTokens er = some (number, type) →
      number.length + (printInt type).length ≤ 6) ∧ (fiveTokens er = none → rc = 0) := by
  have hsame {er' : GsmExtrsp} (h : extrspParse text = some (some er')) : er' = er := by
    rw [hparse] at h
    exact (Option.some.inj (Option.some.inj h)).symm
  constructor
  · intro h
    exact ⟨fun number type => h.five er number type hparse, h.others er hparse⟩
  · rintro ⟨hfive, hothers⟩
    obtain ⟨htokens, hroom⟩ := (extrspParse_isSome text).mp (by rw [hparse]; rfl)
    refine ⟨htokens, hroom, fun er' number type h => ?_, fun er' h => ?_⟩
    · rw [hsame h]
      exact hfive number type
    · rw [hsame h]
      exact hothers

theorem provisions_tokens (hparse : extrspParse text = some (some er)) :
    (∃ r, cpmbTokens testAtcb world rc atcmdBuf er = some r ∧ Provisions testAtcb text r) ↔
      CpmbFits rc text := by
  rw [cpmbFits_iff hparse]
  cases hfive : fiveTokens er with
  | some numberType =>
    obtain ⟨number, type⟩ := numberType
    have hyields := @cpmbTokens_five κ ω testAtcb world rc atcmdBuf number type er hfive
    constructor
    · rintro ⟨r, hr, -⟩
      refine ⟨fun number' type' h => ?_, fun h => by cases h⟩
      cases h
      exact (hyields.of_some hr).1
    · rintro ⟨h, -⟩
      obtain ⟨r, hr, rfl⟩ := hyields.result (h number type rfl)
      exact ⟨_, hr, provisions_five hparse hfive⟩
  | none =>
    rw [cpmbTokens_others hfive]
    constructor
    · rintro ⟨r, hr, hprov⟩
      refine ⟨fun number type h => (by cases h), fun _ => ?_⟩
      apply Classical.byContradiction
      intro hrc
      rw [if_pos hrc] at hr
      obtain ⟨garbage, -, rfl⟩ := Option.map_eq_some_iff.mp hr
      cases (provisions_others hparse hfive _).mp hprov
    · rintro ⟨-, h⟩
      rw [if_neg (not_not.mpr (h rfl))]
      exact ⟨_, rfl, (provisions_others hparse hfive _).mpr rfl⟩

theorem provisions_iff : (∃ r, cpmbDetectCb testAtcb world rc atcmdBuf (ascii "%CPMB: " ++ text) =
    some r ∧ Provisions testAtcb text r) ↔ CpmbFits rc text := by
  rw [cpmbDetectCb_eq]
  cases hparse : extrspParse text with
  | none =>
    constructor
    · rintro ⟨r, hr, -⟩
      cases hr
    · intro h
      have hsome := (extrspParse_isSome text).mpr ⟨h.tokens, h.room⟩
      rw [hparse] at hsome
      cases hsome
  | some parsed =>
    cases parsed with
    | none =>
      have hnot (er : GsmExtrsp) : extrspParse text ≠ some (some er) := by
        rw [hparse]
        rintro ⟨⟩
      obtain ⟨htokens, hroom⟩ := (extrspParse_isSome text).mp (by rw [hparse]; rfl)
      refine iff_of_true ⟨_, rfl, Nat.zero_le _, fun cmd => iff_of_false ?_ ?_⟩
        ⟨htokens, hroom, fun er _ _ h => absurd h (hnot er), fun er h => absurd h (hnot er)⟩
      · exact List.not_mem_nil
      · exact fun ⟨er, _, _, h, _⟩ => hnot er h
    | some er => exact provisions_tokens hparse

/-- `1,0,"+4912345",145,"x"` -/
theorem provisions_long : ¬ ∀ (testAtcb : ℕ) (world : Unit) (rc : ℤ) (atcmdBuf : Memory)
    (text : Bytes), ∃ r, cpmbDetectCb testAtcb world rc atcmdBuf (ascii "%CPMB: " ++ text) = some r ∧
      Provisions testAtcb text r := by
  intro h
  obtain ⟨r, hr, -⟩ := h 0 () 0 Memory.zero (ascii "1,0,\"+4912345\",145,\"x\"")
  have hnone : cpmbDetectCb 0 () 0 Memory.zero
      (ascii "%CPMB: " ++ ascii "1,0,\"+4912345\",145,\"x\"") = none := by decide
  rw [hnone] at hr
  cases hr

end SystemTestSuite.GsmDaemon
