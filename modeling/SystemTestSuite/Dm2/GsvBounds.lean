import SystemTestSuite.Dm2.NmeaFields

namespace SystemTestSuite.Dm2

open Library GsmDaemon

def GsvWrite.Inside : GsvWrite → Prop
  | sate j k => j < 4 ∧ k < 4
  | member _ => True
  | table prn => prn < 32

/-- Nothing is read behind the string or behind the structure either. -/
def GsvInside (str : Bytes) (gsv : Memory) (table : ℕ → ℤ) : Prop :=
  ∃ r, gpgsv str gsv table = some r ∧ ∀ w ∈ r.2.writes, w.Inside

def sateFields (str : Bytes) : List Bytes := ((cstr str).splitOnP isDelim).drop 4

def sateImage (gsv : Memory) (texts : List Bytes) : Memory :=
  gsv.store (NmeaGsv.sate 0 0).off (texts.flatMap fun text => strncpy text 4)

/-- `prn` and `SN0`, when all four numbers of the satellite end in the structure. -/
def satelliteAt (gsv : Memory) (j : ℕ) : Option (ℤ × ℤ) := do
  let prn ← atoiIn gsv (NmeaGsv.sate j 0).off sizeofGsv
  let _el ← atoiIn gsv (NmeaGsv.sate j 1).off sizeofGsv
  let _az ← atoiIn gsv (NmeaGsv.sate j 2).off sizeofGsv
  let SN0 ← atoiIn gsv (NmeaGsv.sate j 3).off sizeofGsv
  some (prn, SN0)

def Taken (sat : ℤ × ℤ) : Prop := 1 ≤ sat.1 ∧ sat.1 ≤ 32 ∧ sat.2 < 3120

instance (sat : ℤ × ℤ) : Decidable (Taken sat) := inferInstanceAs (Decidable (_ ∧ _))

/-- The numbers of the satellite end in the structure, it is taken if a field follows, and taken it has
not the number 32. -/
def SatelliteFits (gsv : Memory) (texts : List Bytes) (j : ℕ) : Prop :=
  ∃ sat ∈ satelliteAt (sateImage gsv (texts.take (4 * j + 4))) j,
    (4 * j + 4 < texts.length → Taken sat) ∧ (Taken sat → sat.1 ≠ 32)

def SateFits (gsv : Memory) (texts : List Bytes) : Prop :=
  texts.length ≤ 16 ∧ ∀ j, 4 * j + 4 ≤ texts.length → SatelliteFits gsv texts j

variable {s t : GsvState} {gsv : Memory} {table : ℕ → ℤ} {text : Bytes} {texts done rest : List Bytes}

namespace GsvState

def copied (s : GsvState) (text : Bytes) : GsvState :=
  { s with
    gsv := copyTo s.gsv (NmeaGsv.sate s.j s.k) text
    k := s.k + 1
    writes := s.writes ++ [.sate s.j s.k] }

def taken (s : GsvState) (sat : ℤ × ℤ) : GsvState :=
  { s with
    table := fun p => if p = sat.1.toNat then sat.2 else s.table p
    writes := s.writes ++ [.table sat.1.toNat]
    k := 0
    j := s.j + 1 }

theorem endList_going (h : s.checksum = false) : s.endList = s := by
  rw [endList, h]
  rfl

theorem sate_eq (h : s.checksum = false) (text : Bytes) :
    s.sate text = if s.k + 1 < 4 then some (s.copied text)
      else (satelliteAt (s.copied text).gsv s.j).map fun sat =>
        if Taken sat then (s.copied text).taken sat else s.copied text := by
  have hcopied : (s.copied text).checksum = false := h
  by_cases hk : s.k + 1 < 4
  · rw [if_pos hk, ← endList_going hcopied]
    exact if_neg (Nat.not_le.mpr hk)
  · rw [if_neg hk]
    refine (if_pos (Nat.le_of_not_lt hk)).trans ?_
    change (do
      let prn ← (s.copied text).sateNumber 0
      let _el ← (s.copied text).sateNumber 1
      let _az ← (s.copied text).sateNumber 2
      let SN0 ← (s.copied text).sateNumber 3
      if prn < 1 then some (s.copied text)
      else if prn > 32 then some (s.copied text)
      else if SN0 ≥ 3120 then some (s.copied text)
      else some ((s.copied text).taken (prn, SN0)).endList) = (do
      let prn ← (s.copied text).sateNumber 0
      let _el ← (s.copied text).sateNumber 1
      let _az ← (s.copied text).sateNumber 2
      let SN0 ← (s.copied text).sateNumber 3
      some (prn, SN0) : Option (ℤ × ℤ)).map _
    cases (s.copied text).sateNumber 0 with
    | none => rfl
    | some prn =>
      cases (s.copied text).sateNumber 1 with
      | none => rfl
      | some el =>
        cases (s.copied text).sateNumber 2 with
        | none => rfl
        | some az =>
          cases (s.copied text).sateNumber 3 with
          | none => rfl
          | some SN0 =>
            simp only [Option.bind_eq_bind, Option.bind_some, Option.map_some]
            rw [endList_going (s := (s.copied text).taken (prn, SN0)) h]
            by_cases htaken : Taken (prn, SN0)
            · rw [if_pos htaken, if_neg (by have := htaken.1; omega), if_neg (by have := htaken.2.1; omega),
                if_neg (by have := htaken.2.2; omega)]
            · rw [if_neg htaken]
              unfold Taken at htaken
              split_ifs <;> first | rfl | omega

def Safe (s : GsvState) (texts : List Bytes) : Prop :=
  ∃ t, texts.foldlM (fun s text => gsvField s text 0) s = some t ∧ ∀ w ∈ t.writes, w.Inside

theorem safe_cons : s.Safe (text :: rest) ↔ ∃ t, gsvField s text 0 = some t ∧ t.Safe rest := by
  unfold Safe
  rw [List.foldlM_cons]
  cases gsvField s text 0 with
  | none => simp
  | some t => simp

end GsvState

theorem gsvField_sate (h : s.i = 4) (text : Bytes) : gsvField s text 0 = s.sate text := by
  unfold gsvField
  rw [if_neg (by decide)]
  dsimp only
  rw [h]
  rfl

theorem copied_or_taken (hc : s.checksum = false) (h : s.sate text = some t) :
    t = s.copied text ∨ 3 ≤ s.k ∧ ∃ sat, t = (s.copied text).taken sat := by
  rw [GsvState.sate_eq hc] at h
  split at h
  · exact Or.inl (Option.some.inj h).symm
  · obtain ⟨sat, -, rfl⟩ := Option.map_eq_some_iff.mp h
    split
    · exact Or.inr ⟨by omega, sat, rfl⟩
    · exact Or.inl rfl

theorem gsvField_adds (hc : s.checksum = false) (h : gsvField s text 0 = some t) :
    t.checksum = false ∧ ∀ w ∈ s.writes, w ∈ t.writes := by
  have hcopy (member : Member) : (s.copy member text).checksum = false ∧
      ∀ w ∈ s.writes, w ∈ (s.copy member text).writes :=
    ⟨hc, fun w hw => List.mem_append_left _ hw⟩
  unfold gsvField at h
  rw [if_neg (by decide)] at h
  dsimp only at h
  split at h
  iterate 5
    obtain rfl := Option.some.inj h
    exact hcopy _
  · rcases copied_or_taken hc h with rfl | ⟨-, sat, rfl⟩
    · exact ⟨hc, fun w hw => List.mem_append_left _ hw⟩
    · exact ⟨hc, fun w hw => List.mem_append_left _ (List.mem_append_left _ hw)⟩
  · obtain rfl := Option.some.inj h
    exact ⟨hc, fun w hw => hw⟩

theorem not_safe_of_outside (hc : s.checksum = false) {w : GsvWrite} (hw : w ∈ s.writes)
    (hout : ¬w.Inside) (texts : List Bytes) : ¬s.Safe texts := by
  induction texts generalizing s with
  | nil =>
    rintro ⟨t, ht, hall⟩
    obtain rfl := Option.some.inj ht
    exact hout (hall w hw)
  | cons text texts ih =>
    intro hsafe
    obtain ⟨t, ht, hrest⟩ := GsvState.safe_cons.mp hsafe
    obtain ⟨hgoing, hadds⟩ := gsvField_adds hc ht
    exact ih hgoing (hadds w hw) hrest

theorem not_safe_of_copied (hi : s.i = 4) (hc : s.checksum = false) (hout : ¬(s.j < 4 ∧ s.k < 4)) :
    ¬s.Safe (text :: rest) := by
  intro hsafe
  obtain ⟨t, ht, hrest⟩ := GsvState.safe_cons.mp hsafe
  obtain ⟨hgoing, -⟩ := gsvField_adds hc ht
  have hwrite : .sate s.j s.k ∈ t.writes := by
    rw [gsvField_sate hi] at ht
    rcases copied_or_taken hc ht with rfl | ⟨-, sat, rfl⟩
    · simp [GsvState.copied]
    · simp [GsvState.taken, GsvState.copied]
  exact not_safe_of_outside hgoing hwrite hout rest hrest

theorem sateImage_next (gsv : Memory) (done : List Bytes) (text : Bytes) :
    sateImage gsv (done ++ [text]) =
      copyTo (sateImage gsv done) ⟨20 + 4 * done.length, 4⟩ text := by
  have hlen : (done.flatMap fun text => strncpy text 4).length = 4 * done.length := by
    induction done with
    | nil => rfl
    | cons text done ih =>
      rw [List.flatMap_cons, List.length_append, ih, strncpy_length, List.length_cons]
      omega
  rw [sateImage, List.flatMap_append, Memory.store_append, hlen, List.flatMap_singleton]
  rfl

theorem satelliteAt_congr {m m' : Memory} (h : ∀ i, (NmeaGsv.sate 0 0).off ≤ i → m i = m' i) (j : ℕ) :
    satelliteAt m j = satelliteAt m' j := by
  have hnumber (k : ℕ) : atoiIn m (NmeaGsv.sate j k).off sizeofGsv =
      atoiIn m' (NmeaGsv.sate j k).off sizeofGsv := by
    have hslice : m.slice (NmeaGsv.sate j k).off (sizeofGsv - (NmeaGsv.sate j k).off) =
        m'.slice (NmeaGsv.sate j k).off (sizeofGsv - (NmeaGsv.sate j k).off) := by
      apply Memory.slice_congr
      intro i hi _
      have hoff : (NmeaGsv.sate j k).off = (NmeaGsv.sate 0 0).off + 16 * j + 4 * k := rfl
      exact h i (by omega)
    rw [atoiIn, atoiIn, hslice]
  rw [satelliteAt, satelliteAt, hnumber, hnumber, hnumber, hnumber]

structure Counts (gsv : Memory) (done : List Bytes) (s : GsvState) : Prop where
  i : s.i = 4
  position : 4 * s.j + s.k = done.length
  k : s.k < 4
  going : s.checksum = false
  image : ∀ i, (NmeaGsv.sate 0 0).off ≤ i → s.gsv i = sateImage gsv done i
  inside : ∀ w ∈ s.writes, w.Inside

theorem Counts.copied (h : Counts gsv done s) (text : Bytes) :
    ∀ i, (NmeaGsv.sate 0 0).off ≤ i → (s.copied text).gsv i = sateImage gsv (done ++ [text]) i := by
  intro i hi
  have hmember : NmeaGsv.sate s.j s.k = ⟨20 + 4 * done.length, 4⟩ := by
    rw [NmeaGsv.sate, Member.mk.injEq, ← h.position]
    omega
  rw [sateImage_next, GsvState.copied, hmember]
  exact Memory.store_congr _ (h.image i hi)

def FitsFrom (gsv : Memory) (texts : List Bytes) (n : ℕ) : Prop :=
  texts.length ≤ 16 ∧ ∀ j, n < 4 * j + 4 → 4 * j + 4 ≤ texts.length → SatelliteFits gsv texts j

theorem fitsFrom_next {n j k : ℕ} (hn : 4 * j + k = n) (hk : k < 3) :
    FitsFrom gsv texts n ↔ FitsFrom gsv texts (n + 1) := by
  apply and_congr_right
  intro _
  apply forall_congr'
  intro i
  have hsame : n < 4 * i + 4 ↔ n + 1 < 4 * i + 4 := by omega
  rw [hsame]

theorem fitsFrom_whole {n j : ℕ} (hn : 4 * j + 3 = n) (hlen : n < texts.length) :
    FitsFrom gsv texts n ↔ SatelliteFits gsv texts j ∧ FitsFrom gsv texts (n + 1) := by
  constructor
  · rintro ⟨hsmall, hfits⟩
    exact ⟨hfits j (by omega) (by omega), hsmall, fun i hi => hfits i (by omega)⟩
  · rintro ⟨hj, hsmall, hfits⟩
    refine ⟨hsmall, fun i hi hle => ?_⟩
    by_cases hij : i = j
    · rwa [hij]
    · exact hfits i (by omega) hle

theorem Counts.inside_copied (h : Counts gsv done s) (hj : s.j < 4) (text : Bytes) :
    ∀ w ∈ (s.copied text).writes, w.Inside := by
  intro w hw
  rcases List.mem_append.mp hw with hw | hw
  · exact h.inside w hw
  · obtain rfl := List.mem_singleton.mp hw
    exact ⟨hj, h.k⟩

theorem Counts.next (h : Counts gsv done s) (hk : s.k + 1 < 4) (hj : s.j < 4) (text : Bytes) :
    Counts gsv (done ++ [text]) (s.copied text) where
  i := h.i
  position := by
    have hpos := h.position
    rw [List.length_append, List.length_singleton, ← hpos]
    rfl
  k := hk
  going := h.going
  image := h.copied text
  inside := h.inside_copied hj text

theorem Counts.taken (h : Counts gsv done s) (hk : s.k = 3) (hj : s.j < 4) (text : Bytes) {sat : ℤ × ℤ}
    (hsat : sat.1.toNat < 32) : Counts gsv (done ++ [text]) ((s.copied text).taken sat) where
  i := h.i
  position := by
    have hpos := h.position
    rw [List.length_append, List.length_singleton, ← hpos, hk]
    simp only [GsvState.taken, GsvState.copied]
    omega
  k := Nat.zero_lt_succ 3
  going := h.going
  image := h.copied text
  inside := by
    intro w hw
    rcases List.mem_append.mp hw with hw | hw
    · exact h.inside_copied hj text w hw
    · obtain rfl := List.mem_singleton.mp hw
      exact hsat

/-- The number 32 is one behind the last entry of the table. -/
theorem Counts.not_safe_of_lost (h : Counts gsv done s) (text : Bytes) {sat : ℤ × ℤ} (hlost : sat.1 = 32)
    (rest : List Bytes) : ¬((s.copied text).taken sat).Safe rest := by
  have hwrite : .table 32 ∈ ((s.copied text).taken sat).writes := by
    rw [GsvState.taken, hlost]
    exact List.mem_append_right _ List.mem_cons_self
  have hgoing : ((s.copied text).taken sat).checksum = false := h.going
  exact not_safe_of_outside hgoing hwrite (Nat.lt_irrefl 32) rest

theorem Counts.safe_untaken (h : Counts gsv done s) (hk : s.k = 3) (hj : s.j < 4) (text : Bytes)
    (rest : List Bytes) : (s.copied text).Safe rest ↔ rest = [] := by
  cases rest with
  | nil => exact iff_of_true ⟨_, rfl, h.inside_copied hj text⟩ rfl
  | cons next rest =>
    have hfour : ¬((s.copied text).j < 4 ∧ (s.copied text).k < 4) := by
      rintro ⟨-, hlt⟩
      have hlt : s.k + 1 < 4 := hlt
      omega
    have hi : (s.copied text).i = 4 := h.i
    have hgoing : (s.copied text).checksum = false := h.going
    exact iff_of_false (not_safe_of_copied hi hgoing hfour) (List.cons_ne_nil next rest)

theorem fitsFrom_end (hlen : texts.length ≤ 16) : FitsFrom gsv texts texts.length :=
  ⟨hlen, fun _ hlow hhigh => absurd hhigh (Nat.not_le.mpr hlow)⟩

theorem Counts.safe_iff (h : Counts gsv done s) (rest : List Bytes) (hdone : done.length ≤ 16) :
    s.Safe rest ↔ FitsFrom gsv (done ++ rest) done.length := by
  induction rest generalizing done s with
  | nil =>
    rw [List.append_nil]
    exact iff_of_true ⟨s, rfl, h.inside⟩ (fitsFrom_end hdone)
  | cons text rest ih =>
    have hpos := h.position
    have hlen : (done ++ text :: rest).length = done.length + 1 + rest.length := by
      rw [List.length_append, List.length_cons]
      omega
    have hsplit : done ++ text :: rest = (done ++ [text]) ++ rest := by
      rw [List.append_assoc, List.singleton_append]
    have hlast : (done ++ [text]).length = done.length + 1 := by
      rw [List.length_append, List.length_singleton]
    by_cases hj : s.j < 4
    · rw [GsvState.safe_cons, gsvField_sate h.i, GsvState.sate_eq h.going]
      by_cases hk : s.k + 1 < 4
      · have hnext := ih (h.next hk hj text) (by rw [hlast]; omega)
        rw [if_pos hk, fitsFrom_next hpos (by omega), hsplit, ← hlast, ← hnext]
        simp only [Option.some.injEq, exists_eq_left']
      · have hthree : s.k = 3 := by
          have hlt := h.k
          omega
        have hwhole : 4 * s.j + 3 = done.length := by omega
        have htake : (done ++ text :: rest).take (4 * s.j + 4) = done ++ [text] := by
          rw [hsplit, List.take_left' (by omega)]
        have hsat : satelliteAt (s.copied text).gsv s.j =
            satelliteAt (sateImage gsv (done ++ [text])) s.j := satelliteAt_congr (h.copied text) s.j
        rw [if_neg hk, fitsFrom_whole hwhole (by omega), SatelliteFits, htake, hsat]
        cases satelliteAt (sateImage gsv (done ++ [text])) s.j with
        | none => simp
        | some sat =>
          simp only [Option.map_some, Option.some.injEq, exists_eq_left', Option.mem_def]
          by_cases htaken : Taken sat
          · rw [if_pos htaken]
            by_cases hlost : sat.1 = 32
            · exact iff_of_false (h.not_safe_of_lost text hlost rest) fun hfits => hfits.1.2 htaken hlost
            · have hsmall : sat.1.toNat < 32 := by
                have hle := htaken.2.1
                omega
              rw [ih (h.taken hthree hj text hsmall) (by rw [hlast]; omega), ← hsplit, hlast, and_iff_right]
              exact ⟨fun _ => htaken, fun _ => hlost⟩
          · rw [if_neg htaken, h.safe_untaken hthree hj text rest]
            constructor
            · rintro rfl
              rw [List.length_nil] at hlen
              refine ⟨⟨fun hlt => ?_, fun htaken' => absurd htaken' htaken⟩, ?_⟩
              · omega
              · rw [← hlen]
                exact fitsFrom_end (by omega)
            · intro hfits
              by_contra hne
              have hpos := List.length_pos_iff.mpr hne
              exact htaken (hfits.1.1 (by omega))
    · refine iff_of_false (not_safe_of_copied h.i h.going fun hin => hj hin.1) fun hfits => ?_
      have hsmall := hfits.1
      omega

theorem gsvField_ended (s : GsvState) {text : Bytes} (h : ∀ b ∈ text, b ≠ 0) (rest : Bytes) (ended : UInt8) :
    gsvField s (text ++ 0 :: rest) ended = gsvField s text ended := by
  unfold gsvField GsvState.copy GsvState.sate
  simp only [copyTo_ended _ _ h]

theorem gsvVisit_eq (s : GsvState) (pre text rest : Bytes) (h : ∀ b ∈ text, b ≠ 0) :
    (pre ++ text ++ 0 :: rest)[pre.length + text.length]?.bind
      (gsvField s ((pre ++ text ++ 0 :: rest).drop pre.length)) = gsvField s text 0 := by
  have hended : (pre ++ text ++ 0 :: rest)[pre.length + text.length]? = some 0 := by
    rw [← List.length_append, List.getElem?_append_right (Nat.le_refl _), Nat.sub_self]
    rfl
  rw [hended, Option.bind_some, List.append_assoc, List.drop_left, gsvField_ended s h]

theorem gpgsv_eq (str : Bytes) (gsv : Memory) (table : ℕ → ℤ) : ∃ split, gpgsv str gsv table =
    (((cstr str).splitOnP isDelim).foldlM (fun s text => gsvField s text 0)
      ⟨gsv, table, 0, 0, 0, false, []⟩).map fun s => (split, s) :=
  ⟨_, splitFields_eq rfl gsvVisit_eq str _⟩

theorem inside_iff_safe (str : Bytes) (gsv : Memory) (table : ℕ → ℤ) : GsvInside str gsv table ↔
    (⟨gsv, table, 0, 0, 0, false, []⟩ : GsvState).Safe ((cstr str).splitOnP isDelim) := by
  obtain ⟨split, hgpgsv⟩ := gpgsv_eq str gsv table
  rw [GsvInside, hgpgsv, GsvState.Safe]
  constructor
  · rintro ⟨r, hr, hall⟩
    obtain ⟨t, ht, rfl⟩ := Option.map_eq_some_iff.mp hr
    exact ⟨t, ht, hall⟩
  · rintro ⟨t, ht, hall⟩
    exact ⟨(split, t), by rw [ht]; rfl, hall⟩

def headed (gsv : Memory) (table : ℕ → ℤ) (a b c d : Bytes) : GsvState :=
  ((((⟨gsv, table, 0, 0, 0, false, []⟩ : GsvState).copy NmeaGsv.sentence a).copy NmeaGsv.nose b).copy
    NmeaGsv.sn c).copy NmeaGsv.nosa d

theorem headed_counts (gsv : Memory) (table : ℕ → ℤ) (a b c d : Bytes) :
    Counts gsv [] (headed gsv table a b c d) where
  i := rfl
  position := rfl
  k := Nat.zero_lt_succ 3
  going := rfl
  image := by
    intro i hi
    have hhead (m : Memory) (member : Member) (text : Bytes) (hend : member.off + member.size ≤ 20) :
        copyTo m member text i = m i := copyTo_outside m member text (Or.inr (hend.trans hi))
    simp only [headed, GsvState.copy]
    rw [hhead _ _ _ (by decide), hhead _ _ _ (by decide), hhead _ _ _ (by decide), hhead _ _ _ (by decide)]
    exact (congrFun (Memory.store_nil gsv _) i).symm
  inside := by
    simp [headed, GsvState.copy, GsvWrite.Inside]

theorem short_safe (gsv : Memory) (table : ℕ → ℤ) {texts : List Bytes} (h : texts.length < 4) :
    (⟨gsv, table, 0, 0, 0, false, []⟩ : GsvState).Safe texts := by
  match texts, h with
  | [], _ => exact ⟨_, rfl, by simp⟩
  | [a], _ => exact ⟨_, rfl, by simp [GsvState.copy, GsvWrite.Inside]⟩
  | [a, b], _ => exact ⟨_, rfl, by simp [GsvState.copy, GsvWrite.Inside]⟩
  | [a, b, c], _ => exact ⟨_, rfl, by simp [GsvState.copy, GsvWrite.Inside]⟩

theorem start_safe_iff (gsv : Memory) (table : ℕ → ℤ) (texts : List Bytes) :
    (⟨gsv, table, 0, 0, 0, false, []⟩ : GsvState).Safe texts ↔ SateFits gsv (texts.drop 4) := by
  match texts with
  | a :: b :: c :: d :: rest =>
    have hhead : (⟨gsv, table, 0, 0, 0, false, []⟩ : GsvState).Safe (a :: b :: c :: d :: rest) ↔
        (headed gsv table a b c d).Safe rest := Iff.rfl
    have hrest := (headed_counts gsv table a b c d).safe_iff rest (Nat.zero_le 16)
    rw [hhead, hrest, List.nil_append]
    exact and_congr_right fun _ => forall_congr' fun j => by simp
  | [] | [_] | [_, _] | [_, _, _] =>
    have hnone : SateFits gsv [] := ⟨Nat.zero_le 16, fun j hj => absurd hj (Nat.not_succ_le_zero _)⟩
    exact iff_of_true (short_safe gsv table (by simp)) hnone

theorem gsvInside_iff (str : Bytes) (gsv : Memory) (table : ℕ → ℤ) :
    GsvInside str gsv table ↔ SateFits gsv (sateFields str) := by
  rw [inside_iff_safe, start_safe_iff, sateFields]

theorem gsvInside_four : ¬∀ str gsv table, GsvInside str gsv table := by
  intro h
  obtain ⟨str, hstr⟩ : ∃ str, str =
    ascii "$GPGSV,3,1,11,03,03,111,00,04,15,270,00,06,01,010,00,13,06,292,00*74" := ⟨_, rfl⟩
  have hsafe := (inside_iff_safe str Memory.zero fun _ => -1).mp (h _ _ _)
  have hfields : (((cstr str).splitOnP isDelim).drop 4).length = 17 := by
    rw [hstr]
    rfl
  have hfits := ((start_safe_iff _ _ _).mp hsafe).1
  omega

end SystemTestSuite.Dm2
