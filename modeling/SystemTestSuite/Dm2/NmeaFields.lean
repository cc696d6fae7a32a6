import SystemTestSuite.Dm2.Nmea
import SystemTestSuite.Library.CheckedArray

namespace SystemTestSuite.Dm2

open Library GsmDaemon

def Plain (text : Bytes) : Prop := ∀ b ∈ text, b ≠ 0 ∧ isDelim b = false

def sentenceText (fields : List Bytes) (checksum : Bytes) : Bytes :=
  [44].intercalate fields ++ 42 :: checksum

def Shows (m : Memory) (member : Member) (text : Bytes) : Prop :=
  m.string? member.off member.size = some (text.take (member.size - 1))

structure GgaSentence where
  fields : List Bytes
  checksum : Bytes
  fields_length : fields.length = 15
  plain : ∀ text ∈ fields ++ [checksum], Plain text

structure GsaSentence where
  sentence : Bytes
  am : Bytes
  mode : Bytes
  ids : List Bytes
  pdop : Bytes
  hdop : Bytes
  vdop : Bytes
  checksum : Bytes
  ids_length : ids.length = 12
  plain : ∀ text ∈ [sentence, am, mode] ++ ids ++ [pdop, hdop, vdop] ++ [checksum], Plain text

namespace GgaSentence

def text (s : GgaSentence) : Bytes := sentenceText s.fields s.checksum

def Decoded (s : GgaSentence) (gga : Memory) : Prop :=
  ∃ r, gpgga s.text gga = some r ∧
    List.Forall₂ (Shows r.2.gga) NmeaGga.members (s.fields ++ [s.checksum])

def Fits (s : GgaSentence) : Prop :=
  List.Forall₂ (fun member text => text.length < member.size) NmeaGga.members (s.fields ++ [s.checksum])

end GgaSentence

namespace GsaSentence

def text (s : GsaSentence) : Bytes :=
  sentenceText ([s.sentence, s.am, s.mode] ++ s.ids ++ [s.pdop, s.hdop, s.vdop]) s.checksum

def front (s : GsaSentence) : List (Member × Bytes) :=
  [(NmeaGsa.sentence, s.sentence), (NmeaGsa.am, s.am), (NmeaGsa.mode, s.mode)] ++
    s.ids.zipIdx.map fun t => (NmeaGsa.id t.2, t.1)

def Decoded (s : GsaSentence) (gsa : Memory) : Prop :=
  ∃ r, gpgsa s.text gsa = some r ∧ (∀ w ∈ s.front, Shows r.2 w.1 w.2) ∧ Shows r.2 NmeaGsa.pdop s.pdop ∧
    Shows r.2 NmeaGsa.hdop s.hdop ∧ Shows r.2 NmeaGsa.vdop s.vdop ∧ Shows r.2 NmeaGsa.checksum s.checksum

/-- Each field in front of PDOP leaves room for its NUL; the three DOPs and the checksum are the same
text, which the `checksum` of the structure shows already. -/
def Alike (s : GsaSentence) (gsa : Memory) : Prop :=
  (∀ w ∈ s.front, w.2.length < w.1.size) ∧ s.pdop.take 7 = s.checksum ∧ s.hdop = s.checksum ∧
    s.vdop = s.checksum ∧ Shows gsa NmeaGsa.checksum s.checksum

end GsaSentence

theorem plain_texts {texts : List Bytes}
    (h : (texts.all fun text => text.all fun b => b ≠ 0 ∧ isDelim b = false) = true) :
    ∀ text ∈ texts, Plain text := by
  intro text ht b hb
  exact of_decide_eq_true (List.all_eq_true.mp (List.all_eq_true.mp h text ht) b hb)

theorem sentenceText_fields {fields : List Bytes} (hne : fields ≠ []) {checksum : Bytes}
    (h : ∀ text ∈ fields ++ [checksum], Plain text) :
    (cstr (sentenceText fields checksum)).splitOnP isDelim = fields ++ [checksum] := by
  have hfields : ∀ text ∈ fields, Plain text := fun text ht => h text (List.mem_append_left _ ht)
  have hchecksum : Plain checksum := h checksum (by simp)
  have hjoined : ∀ b ∈ [(44 : UInt8)].intercalate fields, b ≠ 0 :=
    joined_ne_zero (by decide) fun text ht b hb => (hfields text ht b hb).1
  have hsplit : ([(44 : UInt8)].intercalate fields).splitOnP isDelim = fields :=
    splitOnP_intercalate rfl hne fun text ht b hb => (hfields text ht b hb).2
  rw [sentenceText, cstr_append hjoined, cstr_cons (by decide),
    cstr_of_no_nul fun b hb => (hchecksum b hb).1, List.splitOnP_append_cons _ _ rfl, hsplit,
    List.splitOnP_eq_singleton fun b hb => (hchecksum b hb).2]

def stored (m : Memory) (ws : List (Member × Bytes)) : Memory :=
  ws.foldl (fun m w => copyTo m w.1 w.2) m

variable {m : Memory} {ws : List (Member × Bytes)}

theorem copyTo_ended (m : Memory) (member : Member) {text : Bytes} (h : ∀ b ∈ text, b ≠ 0) (rest : Bytes) :
    copyTo m member (text ++ 0 :: rest) = copyTo m member text := by
  rw [copyTo, copyTo, strncpy, strncpy, cstr_ended h, cstr_of_no_nul h]

theorem copyTo_outside (m : Memory) (member : Member) (text : Bytes) {i : ℕ}
    (h : i < member.off ∨ member.off + member.size ≤ i) : copyTo m member text i = m i := by
  rcases h with h | h
  · exact Memory.store_before m _ h
  · apply Memory.store_behind
    rwa [strncpy_length]

theorem stored_outside {i : ℕ} (h : ∀ w ∈ ws, i < w.1.off ∨ w.1.off + w.1.size ≤ i) :
    stored m ws i = m i := by
  induction ws generalizing m with
  | nil => rfl
  | cons w ws ih =>
    rw [← copyTo_outside m w.1 w.2 (h w List.mem_cons_self)]
    exact ih fun v hv => h v (List.mem_cons_of_mem w hv)

theorem copyTo_string (m : Memory) (member : Member) {text : Bytes} (h : ∀ b ∈ text, b ≠ 0) :
    (copyTo m member text).string? member.off member.size =
      if text.length < member.size then some text else none := by
  have hcstr := cstr_of_no_nul h
  by_cases hshort : text.length < member.size
  · have hlen : (cstr text).length < member.size := by rwa [hcstr]
    rw [if_pos hshort, copyTo, string?_strncpy hlen hlen, hcstr]
  · have hlen : member.size ≤ (cstr text).length := by
      rw [hcstr]
      exact Nat.le_of_not_lt hshort
    rw [if_neg hshort, copyTo, string?_strncpy_cut hlen (Nat.le_refl _), Nat.sub_self]
    rfl

theorem stored_string (hsorted : ws.Pairwise fun v w => v.1.off + v.1.size ≤ w.1.off)
    (hplain : ∀ w ∈ ws, Plain w.2) {w : Member × Bytes} (hw : w ∈ ws) :
    (stored m ws).string? w.1.off w.1.size = if w.2.length < w.1.size then some w.2 else none := by
  induction ws generalizing m with
  | nil => cases hw
  | cons v ws ih =>
    obtain ⟨hbehind, hsorted⟩ := List.pairwise_cons.mp hsorted
    rcases List.mem_cons.mp hw with rfl | hw
    · rw [← copyTo_string m w.1 fun b hb => (hplain w List.mem_cons_self b hb).1]
      apply Memory.string?_congr
      intro i _ hi
      exact stored_outside fun v hv => Or.inl (hi.trans_le (hbehind v hv))
    · exact ih hsorted (fun w hw => hplain w (List.mem_cons_of_mem v hw)) hw

theorem stored_shows (hsorted : ws.Pairwise fun v w => v.1.off + v.1.size ≤ w.1.off)
    (hplain : ∀ w ∈ ws, Plain w.2) {w : Member × Bytes} (hw : w ∈ ws) (text : Bytes) :
    Shows (stored m ws) w.1 text ↔ w.2.length < w.1.size ∧ w.2 = text.take (w.1.size - 1) := by
  rw [Shows, stored_string hsorted hplain hw]
  by_cases hshort : w.2.length < w.1.size
  · rw [if_pos hshort, Option.some.injEq, and_iff_right hshort]
  · rw [if_neg hshort]
    exact iff_of_false (fun h => by cases h) fun h => hshort h.1

theorem stored_own (hsorted : ws.Pairwise fun v w => v.1.off + v.1.size ≤ w.1.off)
    (hplain : ∀ w ∈ ws, Plain w.2) {w : Member × Bytes} (hw : w ∈ ws) :
    Shows (stored m ws) w.1 w.2 ↔ w.2.length < w.1.size := by
  rw [stored_shows hsorted hplain hw, and_iff_left_iff_imp]
  intro hshort
  rw [List.take_of_length_le (Nat.le_sub_one_of_lt hshort)]

theorem ggaField_ended (s : GgaState) {text : Bytes} (h : ∀ b ∈ text, b ≠ 0) (rest : Bytes) :
    ggaField s (text ++ 0 :: rest) = ggaField s text := by
  unfold ggaField
  simp only [copyTo_ended _ _ h]

theorem ggaVisit_eq (s : GgaState) (pre text rest : Bytes) (h : ∀ b ∈ text, b ≠ 0) :
    ggaField s ((pre ++ text ++ 0 :: rest).drop pre.length) = ggaField s text := by
  rw [List.append_assoc, List.drop_left, ggaField_ended s h]

theorem gpgga_eq (str : Bytes) (gga : Memory) : ∃ split, gpgga str gga =
    some (split, ((cstr str).splitOnP isDelim).foldl ggaField ⟨gga, 0⟩) :=
  ⟨_, splitFields_foldl rfl (fun s pre text rest h => congrArg some (ggaVisit_eq s pre text rest h)) str _⟩

theorem ggaField_fields {texts : List Bytes} {i : ℕ} (h : i + texts.length ≤ NmeaGga.members.length) :
    texts.foldl ggaField ⟨m, i⟩ = ⟨stored m ((NmeaGga.members.drop i).zip texts), i + texts.length⟩ := by
  induction texts generalizing m i with
  | nil =>
    rw [List.zip_nil_right]
    rfl
  | cons text texts ih =>
    rw [List.length_cons] at h
    have hlt : i < NmeaGga.members.length := by omega
    have hfield : ggaField ⟨m, i⟩ text = ⟨copyTo m NmeaGga.members[i] text, i + 1⟩ := by
      unfold ggaField
      dsimp only
      rw [List.getElem?_eq_getElem hlt]
    rw [List.foldl_cons, hfield, ih (by omega), List.drop_eq_getElem_cons hlt, List.zip_cons_cons,
      List.length_cons, Nat.add_right_comm, Nat.add_assoc]
    rfl

theorem ggaDecoded_iff (s : GgaSentence) (gga : Memory) : s.Decoded gga ↔ s.Fits := by
  obtain ⟨split, hgga⟩ := gpgga_eq s.text gga
  have hlen : (s.fields ++ [s.checksum]).length = NmeaGga.members.length := by
    rw [List.length_append, s.fields_length]
    rfl
  have hne : s.fields ≠ [] := by
    intro hnil
    have hfifteen := s.fields_length
    rw [hnil] at hfifteen
    cases hfifteen
  have hfinal : ((cstr s.text).splitOnP isDelim).foldl ggaField ⟨gga, 0⟩ =
      ⟨stored gga (NmeaGga.members.zip (s.fields ++ [s.checksum])), 0 + (s.fields ++ [s.checksum]).length⟩ := by
    rw [GgaSentence.text, sentenceText_fields hne s.plain, ggaField_fields (by rw [Nat.zero_add, hlen])]
    rfl
  have hsorted : (NmeaGga.members.zip (s.fields ++ [s.checksum])).Pairwise
      fun v w => v.1.off + v.1.size ≤ w.1.off := by
    have hmembers : NmeaGga.members.Pairwise fun v w => v.off + v.size ≤ w.off := by decide
    rw [← List.map_fst_zip hlen.ge] at hmembers
    exact List.pairwise_map.mp hmembers
  have hplain : ∀ w ∈ NmeaGga.members.zip (s.fields ++ [s.checksum]), Plain w.2 := fun w hw =>
    s.plain w.2 (List.of_mem_zip hw).2
  have hiff : List.Forall₂ (Shows (stored gga (NmeaGga.members.zip (s.fields ++ [s.checksum]))))
      NmeaGga.members (s.fields ++ [s.checksum]) ↔ s.Fits := by
    rw [GgaSentence.Fits, List.forall₂_iff_zip, List.forall₂_iff_zip]
    apply and_congr_right
    intro _
    exact ⟨fun h _ _ hw => (stored_own hsorted hplain hw).mp (h hw),
      fun h _ _ hw => (stored_own hsorted hplain hw).mpr (h hw)⟩
  constructor
  · rintro ⟨r, hr, hshows⟩
    rw [hgga, hfinal] at hr
    obtain rfl := Option.some.inj hr
    exact hiff.mp hshows
  · intro hfits
    exact ⟨_, hgga.trans (by rw [hfinal]), hiff.mpr hfits⟩

theorem gsaField_ended (s : GsaState) {text : Bytes} (h : ∀ b ∈ text, b ≠ 0) (rest : Bytes) :
    gsaField s (text ++ 0 :: rest) = gsaField s text := by
  unfold gsaField GsaState.copy
  simp only [copyTo_ended _ _ h]

theorem gsaVisit_eq (s : GsaState) (pre text rest : Bytes) (h : ∀ b ∈ text, b ≠ 0) :
    gsaField s ((pre ++ text ++ 0 :: rest).drop pre.length) = gsaField s text := by
  rw [List.append_assoc, List.drop_left, gsaField_ended s h]

theorem gpgsa_eq (str : Bytes) (gsa : Memory) : ∃ split n, gpgsa str gsa =
    some (split, ((((cstr str).splitOnP isDelim).foldl gsaField ⟨gsa, 0, 0⟩).gsa.store NmeaGsa.n n)) := by
  have hsplit : splitFields isDelim (fun s str pptr _ => some (gsaField s (str.drop pptr))) str
      ⟨gsa, 0, 0⟩ = some ((cstr str).map (fun c => if isDelim c then 0 else c) ++ [0],
        ((cstr str).splitOnP isDelim).foldl gsaField ⟨gsa, 0, 0⟩) :=
    splitFields_foldl rfl (fun s pre text rest h => congrArg some (gsaVisit_eq s pre text rest h)) str _
  rw [gpgsa, hsplit]
  exact ⟨_, _, rfl⟩

def GsaSentence.copies (s : GsaSentence) : List (Member × Bytes) :=
  s.front ++ [(NmeaGsa.pdop, s.hdop), (NmeaGsa.hdop, s.vdop), (NmeaGsa.vdop, s.checksum)]

theorem gsaField_ids {ids : List Bytes} {j : ℕ} (h : j + ids.length ≤ 12) :
    ids.foldl gsaField ⟨m, 3, j⟩ =
      ⟨stored m ((ids.zipIdx j).map fun t => (NmeaGsa.id t.2, t.1)), 3, j + ids.length⟩ := by
  induction ids generalizing m j with
  | nil => rfl
  | cons text ids ih =>
    rw [List.length_cons] at h
    have hfield : gsaField ⟨m, 3, j⟩ text = ⟨copyTo m (NmeaGsa.id j) text, 3, j + 1⟩ :=
      if_pos (by omega : j < 12)
    rw [List.foldl_cons, hfield, ih (by omega), List.zipIdx_cons, List.map_cons, List.length_cons,
      Nat.add_right_comm, Nat.add_assoc]
    rfl

theorem gsaField_fields (s : GsaSentence) (gsa : Memory) :
    ([s.sentence, s.am, s.mode] ++ s.ids ++ [s.pdop, s.hdop, s.vdop] ++ [s.checksum]).foldl gsaField
      ⟨gsa, 0, 0⟩ = ⟨stored gsa s.copies, 7, 12⟩ := by
  have hfirst : [s.sentence, s.am, s.mode].foldl gsaField ⟨gsa, 0, 0⟩ =
      ⟨stored gsa [(NmeaGsa.sentence, s.sentence), (NmeaGsa.am, s.am), (NmeaGsa.mode, s.mode)], 3, 0⟩ :=
    rfl
  have hlen : 0 + s.ids.length ≤ 12 := by rw [s.ids_length]
  rw [List.foldl_append, List.foldl_append, List.foldl_append, hfirst, gsaField_ids hlen, s.ids_length,
    GsaSentence.copies,
    GsaSentence.front, stored, stored, stored, List.foldl_append, List.foldl_append]
  rfl

def gsaCopied : List Member :=
  [NmeaGsa.sentence, NmeaGsa.am, NmeaGsa.mode] ++ (List.range 12).map NmeaGsa.id ++
    [NmeaGsa.pdop, NmeaGsa.hdop, NmeaGsa.vdop]

theorem gsaCopies_members (s : GsaSentence) : s.copies.map Prod.fst = gsaCopied := by
  have hids : (s.ids.zipIdx.map fun t => (NmeaGsa.id t.2, t.1)).map Prod.fst =
      (List.range 12).map NmeaGsa.id := by
    rw [← s.ids_length, List.range_eq_range', ← List.zipIdx_map_snd, List.map_map, List.map_map]
    rfl
  rw [GsaSentence.copies, GsaSentence.front, List.map_append, List.map_append, hids]
  rfl

theorem gsaCopies_sorted (s : GsaSentence) :
    s.copies.Pairwise fun v w => v.1.off + v.1.size ≤ w.1.off := by
  have hmembers : gsaCopied.Pairwise fun v w => v.off + v.size ≤ w.off := by decide
  rw [← gsaCopies_members s] at hmembers
  exact List.pairwise_map.mp hmembers

theorem gsaCopies_plain (s : GsaSentence) : ∀ w ∈ s.copies, Plain w.2 := by
  have htexts : s.copies.map Prod.snd =
      [s.sentence, s.am, s.mode] ++ s.ids ++ [s.hdop, s.vdop, s.checksum] := by
    have hids : (s.ids.zipIdx.map fun t => (NmeaGsa.id t.2, t.1)).map Prod.snd = s.ids := by
      rw [List.map_map]
      exact List.zipIdx_map_fst _ _
    rw [GsaSentence.copies, GsaSentence.front, List.map_append, List.map_append, hids]
    rfl
  intro w hw
  have hmem : w.2 ∈ s.copies.map Prod.snd := List.mem_map_of_mem hw
  rw [htexts] at hmem
  apply s.plain
  simp only [List.mem_append, List.mem_cons, List.not_mem_nil, or_false] at hmem ⊢
  tauto

theorem shows_congr {m m' : Memory} {member : Member} (h : ∀ i < member.off + member.size, m i = m' i)
    (text : Bytes) : Shows m member text ↔ Shows m' member text := by
  rw [Shows, Shows, Memory.string?_congr fun i _ hi => h i hi]

theorem gpgsa_copies (s : GsaSentence) (gsa : Memory) : ∃ split n,
    gpgsa s.text gsa = some (split, (stored gsa s.copies).store NmeaGsa.n n) := by
  obtain ⟨split, n, hgsa⟩ := gpgsa_eq s.text gsa
  have hne : [s.sentence, s.am, s.mode] ++ s.ids ++ [s.pdop, s.hdop, s.vdop] ≠ [] := List.cons_ne_nil _ _
  rw [GsaSentence.text, sentenceText_fields hne s.plain, gsaField_fields] at hgsa
  exact ⟨split, n, hgsa⟩

theorem gsaCopies_end (s : GsaSentence) :
    ∀ w ∈ s.copies, w.1.off + w.1.size ≤ NmeaGsa.checksum.off := by
  have hfst := gsaCopies_members s
  intro w hw
  have hmem : w.1 ∈ s.copies.map Prod.fst := List.mem_map_of_mem hw
  have hall : (gsaCopied.all fun member => member.off + member.size ≤ NmeaGsa.checksum.off) = true := rfl
  rw [hfst] at hmem
  exact of_decide_eq_true (List.all_eq_true.mp hall _ hmem)

theorem gsaShows_iff (s : GsaSentence) (gsa : Memory) (n : Bytes) {w : Member × Bytes} (hw : w ∈ s.copies)
    (text : Bytes) : Shows ((stored gsa s.copies).store NmeaGsa.n n) w.1 text ↔
      w.2.length < w.1.size ∧ w.2 = text.take (w.1.size - 1) := by
  have hend := (gsaCopies_end s w hw).trans (by decide : NmeaGsa.checksum.off ≤ NmeaGsa.n)
  rw [shows_congr fun i hi => Memory.store_before _ n (hi.trans_le hend)]
  exact stored_shows (gsaCopies_sorted s) (gsaCopies_plain s) hw text

theorem gsaChecksum_iff (s : GsaSentence) (gsa : Memory) (n text : Bytes) :
    Shows ((stored gsa s.copies).store NmeaGsa.n n) NmeaGsa.checksum text ↔
      Shows gsa NmeaGsa.checksum text := by
  have hsame : ((stored gsa s.copies).store NmeaGsa.n n).string? NmeaGsa.checksum.off
      NmeaGsa.checksum.size = gsa.string? NmeaGsa.checksum.off NmeaGsa.checksum.size := by
    apply Memory.string?_congr
    intro i hlow hhigh
    have hbefore : i < NmeaGsa.n := hhigh
    rw [Memory.store_before _ _ hbefore, stored_outside]
    exact fun w hw => Or.inr ((gsaCopies_end s w hw).trans hlow)
  rw [Shows, Shows, hsame]

theorem gsaFront_iff (s : GsaSentence) (gsa : Memory) (n : Bytes) :
    (∀ w ∈ s.front, Shows ((stored gsa s.copies).store NmeaGsa.n n) w.1 w.2) ↔
      ∀ w ∈ s.front, w.2.length < w.1.size := by
  apply forall₂_congr
  intro w hw
  rw [gsaShows_iff s gsa n (List.mem_append_left _ hw), and_iff_left_iff_imp]
  intro hshort
  rw [List.take_of_length_le (Nat.le_sub_one_of_lt hshort)]

theorem gsaDecoded_iff (s : GsaSentence) (gsa : Memory) : s.Decoded gsa ↔ s.Alike gsa := by
  obtain ⟨split, n, hgsa⟩ := gpgsa_copies s gsa
  have hmem (w : Member × Bytes) (hw : w ∈ [(NmeaGsa.pdop, s.hdop), (NmeaGsa.hdop, s.vdop),
      (NmeaGsa.vdop, s.checksum)]) : w ∈ s.copies := List.mem_append_right _ hw
  have hpdop : Shows ((stored gsa s.copies).store NmeaGsa.n n) NmeaGsa.pdop s.pdop ↔
      s.hdop.length < 8 ∧ s.hdop = s.pdop.take 7 :=
    gsaShows_iff s gsa n (hmem (NmeaGsa.pdop, s.hdop) (by simp)) s.pdop
  have hhdop : Shows ((stored gsa s.copies).store NmeaGsa.n n) NmeaGsa.hdop s.hdop ↔
      s.vdop.length < 8 ∧ s.vdop = s.hdop.take 7 :=
    gsaShows_iff s gsa n (hmem (NmeaGsa.hdop, s.vdop) (by simp)) s.hdop
  have hvdop : Shows ((stored gsa s.copies).store NmeaGsa.n n) NmeaGsa.vdop s.vdop ↔
      s.checksum.length < 8 ∧ s.checksum = s.vdop.take 7 :=
    gsaShows_iff s gsa n (hmem (NmeaGsa.vdop, s.checksum) (by simp)) s.vdop
  have hwhole {text : Bytes} (h : text.length < 8) : text.take 7 = text :=
    List.take_of_length_le (Nat.le_of_lt_succ h)
  constructor
  · rintro ⟨r, hr, hfront, hp, hh, hv, hc⟩
    obtain rfl := Option.some.inj (hgsa.symm.trans hr)
    obtain ⟨hhlen, hheq⟩ := hpdop.mp hp
    obtain ⟨hvlen, hveq⟩ := hhdop.mp hh
    obtain ⟨-, hceq⟩ := hvdop.mp hv
    rw [hwhole hhlen] at hveq
    rw [hwhole hvlen, hveq] at hceq
    refine ⟨(gsaFront_iff s gsa n).mp hfront, ?_, hceq.symm, hveq.trans hceq.symm,
      (gsaChecksum_iff s gsa n _).mp hc⟩
    rw [← hheq, hceq]
  · rintro ⟨hfront, hp, hh, hv, hc⟩
    have hlen : s.checksum.length < 8 := by
      rw [← hp]
      exact (List.length_take_le _ _).trans_lt (by decide)
    refine ⟨_, hgsa, (gsaFront_iff s gsa n).mpr hfront, hpdop.mpr ?_, hhdop.mpr ?_, hvdop.mpr ?_,
      (gsaChecksum_iff s gsa n _).mpr hc⟩
    · rw [hh]
      exact ⟨hlen, hp.symm⟩
    · rw [hh, hv]
      exact ⟨hlen, (hwhole hlen).symm⟩
    · rw [hv]
      exact ⟨hlen, (hwhole hlen).symm⟩

inductive NmeaSentence
  | gga (s : GgaSentence)
  | gsa (s : GsaSentence)

def NmeaSentence.Decoded : NmeaSentence → Memory → Prop
  | gga s, m => s.Decoded m
  | gsa s, m => s.Decoded m

def NmeaSentence.InPlace : NmeaSentence → Memory → Prop
  | gga s, _ => s.Fits
  | gsa s, m => s.Alike m

theorem members_shown_iff (s : NmeaSentence) (m : Memory) : s.Decoded m ↔ s.InPlace m := by
  cases s with
  | gga s => exact ggaDecoded_iff s m
  | gsa s => exact gsaDecoded_iff s m

def gsaSample : GsaSentence where
  sentence := ascii "$GPGSA"
  am := ascii "A"
  mode := ascii "3"
  ids := [ascii "10", ascii "07", ascii "05", ascii "02", ascii "29", ascii "04", ascii "08", ascii "13",
    [], [], [], []]
  pdop := ascii "1.72"
  hdop := ascii "1.03"
  vdop := ascii "1.38"
  checksum := ascii "0A"
  ids_length := rfl
  plain := plain_texts rfl

theorem members_shifted : ¬∀ (s : NmeaSentence) (m : Memory), s.Decoded m := by
  intro h
  obtain ⟨r, hr, -, hpdop, -⟩ := h (.gsa gsaSample) Memory.zero
  obtain ⟨split, n, hgsa⟩ := gpgsa_copies gsaSample Memory.zero
  obtain rfl := Option.some.inj (hgsa.symm.trans hr)
  have hcopied : (NmeaGsa.pdop, gsaSample.hdop) ∈ gsaSample.copies :=
    List.mem_append_right _ List.mem_cons_self
  have hsame := ((gsaShows_iff gsaSample Memory.zero n hcopied _).mp hpdop).2
  exact absurd hsame (by decide)

end SystemTestSuite.Dm2
