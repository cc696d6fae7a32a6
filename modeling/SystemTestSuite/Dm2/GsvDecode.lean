import SystemTestSuite.Dm2.GsvBounds

namespace SystemTestSuite.Dm2

open Library GsmDaemon

structure Satellite where
  prn : Bytes
  el : Bytes
  az : Bytes
  sn : Bytes

def Satellite.fields (g : Satellite) : List Bytes := [g.prn, g.el, g.az, g.sn]

def Satellite.InTable (g : Satellite) : Prop := Taken (atoi g.prn, atoi g.sn)

structure GsvSentence where
  sentence : Bytes
  nose : Bytes
  sn : Bytes
  nosa : Bytes
  satellites : List Satellite
  checksum : Bytes
  satellites_length : satellites.length ≤ 4
  checksum_ne_nil : checksum ≠ []
  plain : ∀ text ∈ [sentence, nose, sn, nosa] ++ satellites.flatMap Satellite.fields ++ [checksum],
    Plain text

namespace GsvSentence

def text (s : GsvSentence) : Bytes :=
  sentenceText ([s.sentence, s.nose, s.sn, s.nosa] ++ s.satellites.flatMap Satellite.fields) s.checksum

def Decoded (s : GsvSentence) (gsv : Memory) (table : ℕ → ℤ) : Prop :=
  ∃ r, gpgsv s.text gsv table = some r ∧ intAt r.2.gsv NmeaGsv.n = s.satellites.length ∧
    Shows r.2.gsv NmeaGsv.checksum s.checksum ∧
      (∀ g ∈ s.satellites, g.InTable → r.2.table (atoi g.prn).toNat = atoi g.sn) ∧
        ∀ p, (∀ g ∈ s.satellites, g.InTable → (atoi g.prn).toNat ≠ p) → r.2.table p = table p

/-- The structure held `n` and, with less than four satellites, the checksum before. -/
def HeldBefore (s : GsvSentence) (gsv : Memory) : Prop :=
  intAt gsv NmeaGsv.n = s.satellites.length ∧
    (s.satellites.length < 4 → Shows gsv NmeaGsv.checksum s.checksum)

end GsvSentence

variable {s t : GsvState} {gsv : Memory} {texts : List Bytes} {n : ℕ}

structure Behind (gsv : Memory) (n : ℕ) (s : GsvState) : Prop where
  i : s.i = 4
  going : s.checksum = false
  position : 4 * s.j + s.k ≤ n
  same : ∀ i, 20 + 4 * n ≤ i → s.gsv i = gsv i

theorem Behind.field (h : Behind gsv n s) {text : Bytes} (ht : gsvField s text 0 = some t) :
    Behind gsv (n + 1) t := by
  have hpos := h.position
  have hcopied : ∀ i, 20 + 4 * (n + 1) ≤ i → (s.copied text).gsv i = gsv i := by
    intro i hi
    rw [← h.same i (by omega)]
    apply copyTo_outside
    right
    simp only [NmeaGsv.sate]
    omega
  rw [gsvField_sate h.i] at ht
  rcases copied_or_taken h.going ht with rfl | ⟨hthree, sat, rfl⟩
  · refine ⟨h.i, h.going, ?_, hcopied⟩
    simp only [GsvState.copied]
    omega
  · refine ⟨h.i, h.going, ?_, hcopied⟩
    simp only [GsvState.taken, GsvState.copied]
    omega

theorem Behind.fields (h : Behind gsv n s)
    (ht : texts.foldlM (fun s text => gsvField s text 0) s = some t) :
    Behind gsv (n + texts.length) t := by
  induction texts generalizing n s with
  | nil =>
    obtain rfl := Option.some.inj ht
    exact h
  | cons text texts ih =>
    rw [List.foldlM_cons, Option.bind_eq_bind, Option.bind_eq_some_iff] at ht
    obtain ⟨next, hnext, hrest⟩ := ht
    rw [List.length_cons, Nat.add_comm texts.length, ← Nat.add_assoc]
    exact ih (h.field hnext) hrest

theorem behind_headed (gsv : Memory) (table : ℕ → ℤ) (a b c d : Bytes) :
    Behind gsv 0 (headed gsv table a b c d) where
  i := rfl
  going := rfl
  position := Nat.le_refl 0
  same := by
    intro i hi
    exact ((headed_counts gsv table a b c d).image i hi).trans (congrFun (Memory.store_nil gsv _) i)

theorem fields_length (satellites : List Satellite) :
    (satellites.flatMap Satellite.fields).length = 4 * satellites.length := by
  induction satellites with
  | nil => rfl
  | cons g satellites ih =>
    rw [List.flatMap_cons, List.length_append, ih, List.length_cons]
    simp only [Satellite.fields, List.length_cons, List.length_nil]
    omega

theorem gpgsv_behind (s : GsvSentence) (table : ℕ → ℤ) {r : Bytes × GsvState}
    (h : gpgsv s.text gsv table = some r) : Behind gsv (4 * s.satellites.length + 1) r.2 := by
  obtain ⟨split, hgpgsv⟩ := gpgsv_eq s.text gsv table
  have hne : [s.sentence, s.nose, s.sn, s.nosa] ++ s.satellites.flatMap Satellite.fields ≠ [] :=
    List.cons_ne_nil _ _
  rw [GsvSentence.text, sentenceText_fields hne s.plain] at hgpgsv
  obtain ⟨t, ht, rfl⟩ := Option.map_eq_some_iff.mp (hgpgsv.symm.trans h)
  have hfields : ((s.satellites.flatMap Satellite.fields) ++ [s.checksum]).foldlM
      (fun s text => gsvField s text 0) (headed gsv table s.sentence s.nose s.sn s.nosa) = some t := ht
  have hbehind := (behind_headed gsv table _ _ _ _).fields hfields
  rwa [List.length_append, fields_length, List.length_singleton, Nat.zero_add] at hbehind

theorem heldBefore_of_decoded (s : GsvSentence) {table : ℕ → ℤ} (h : s.Decoded gsv table) :
    s.HeldBefore gsv := by
  obtain ⟨r, hr, hn, hchecksum, -⟩ := h
  have hbehind := gpgsv_behind s table hr
  have hlen := s.satellites_length
  constructor
  · rw [← hn]
    apply intAt_congr
    intro i hi _
    exact (hbehind.same i (by unfold NmeaGsv.n at hi; omega)).symm
  · intro hless
    have hsame : r.2.gsv.string? NmeaGsv.checksum.off NmeaGsv.checksum.size =
        gsv.string? NmeaGsv.checksum.off NmeaGsv.checksum.size := by
      apply Memory.string?_congr
      intro i hi _
      have hoff : NmeaGsv.checksum.off = 84 := rfl
      exact hbehind.same i (by omega)
    rwa [Shows, hsame] at hchecksum

theorem zero_held : intAt Memory.zero NmeaGsv.n = 0 := by
  have huint : uintAt Memory.zero NmeaGsv.n = 0 := by
    simp [uintAt, Memory.zero]
  have hzero : Int.bmod (0 : ℕ) (2 ^ 32) = 0 := by decide
  unfold intAt
  rw [huint]
  exact hzero

theorem gsv_never_decoded (s : GsvSentence) :
    (∀ table, ¬s.Decoded Memory.zero table) ∧ ∀ gsv table, s.Decoded gsv table → s.HeldBefore gsv := by
  refine ⟨fun table h => ?_, fun gsv table h => heldBefore_of_decoded s h⟩
  obtain ⟨hn, hchecksum⟩ := heldBefore_of_decoded s h
  rw [zero_held] at hn
  have hnone : s.satellites.length < 4 := by omega
  have hempty : Memory.zero.string? NmeaGsv.checksum.off NmeaGsv.checksum.size = some [] := rfl
  have htake := Option.some.inj (hempty.symm.trans (hchecksum hnone))
  exact s.checksum_ne_nil ((List.take_eq_nil_iff.mp htake.symm).resolve_left (by decide))

def gsvSample : GsvSentence where
  sentence := ascii "$GPGSV"
  nose := ascii "1"
  sn := ascii "1"
  nosa := ascii "01"
  satellites := [⟨ascii "03", ascii "40", ascii "111", ascii "42"⟩]
  checksum := ascii "4C"
  satellites_length := by decide
  checksum_ne_nil := List.cons_ne_nil _ _
  plain := plain_texts rfl

theorem gsvSample_lost : ¬∀ (s : GsvSentence) gsv table, s.Decoded gsv table := by
  intro h
  have hheld := (heldBefore_of_decoded gsvSample (h gsvSample Memory.zero fun _ => 0)).1
  rw [zero_held] at hheld
  cases hheld

end SystemTestSuite.Dm2
