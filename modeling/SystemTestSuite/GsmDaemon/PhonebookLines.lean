import SystemTestSuite.GsmDaemon.PhonebookEntry

namespace SystemTestSuite.GsmDaemon

open Library

def gsmdPbNumbMaxlen : ℕ := 44
def gsmdPbTextMaxlen : ℕ := 14

namespace PbEntry

structure Bounded (e : PbEntry) : Prop where
  number : e.number.length ≤ gsmdPbNumbMaxlen
  text : e.text.length ≤ gsmdPbTextMaxlen

structure Exactly (e : PbEntry) (m : Memory) : Prop where
  index : (m 0).toNat = e.index
  number : m.string? pbNumb (pbType - pbNumb) = some e.number
  type : (m pbType).toNat = e.type
  text : m.string? pbText (sizeofPhonebook - pbText) = some e.text

structure Clear (e : PbEntry) : Prop where
  index : e.index < 256
  type : e.type < 256
  comma : ∀ c ∈ e.text, c ≠ 44

def lines (name : PbKind) (es : List PbEntry) : Bytes := [LF].intercalate (es.map (line name))

end PbEntry

def PbKind.callback : PbKind → Unset → Bytes → Option CbOutcome
  | readrg => phonebookReadrgCb
  | find => phonebookFindCb

def ReadsEntry (e : PbEntry) : Prop :=
  ∀ (u : Unset) (more : Bytes), ∃ o ucmd,
    phonebookReadCb u (e.line .readrg ++ 0 :: more) = some o ∧ o.reply = some ucmd ∧
      ucmd.hdr = ⟨gsmdProtoVersion, gsmdMsgPhonebook, gsmdPhonebookRead, u.ucmd.hdr.pad, 0,
        UInt16.ofNat sizeofPhonebook⟩ ∧ e.Exactly ucmd.buf

def ListsEntries (kind name : PbKind) (es : List PbEntry) : Prop :=
  ∀ (u : Unset) (more : Bytes), ∃ o,
    kind.callback u (PbEntry.lines name es ++ 0 :: more) = some o ∧
      List.Forall₂ PbEntry.Exactly es (kind.entries o)

variable {kind name : PbKind} {e : PbEntry} {m : Memory}

theorem exists_last {c : UInt8} {s : Bytes} (h : c ∈ s) :
    ∃ pre post, s = pre ++ c :: post ∧ ∀ b ∈ post, b ≠ c := by
  obtain ⟨post, pre, hsplit, hnone⟩ := List.eq_append_cons_of_mem (List.mem_reverse.mpr h)
  refine ⟨pre.reverse, post.reverse, ?_, fun b hb heq => hnone (heq ▸ List.mem_reverse.mp hb)⟩
  rw [← List.reverse_reverse s, hsplit]
  simp

namespace PbEntry

theorem line_cut {pre post : Bytes} (htext : e.text = pre ++ 44 :: post)
    (hpost : ∀ b ∈ post, b ≠ 44) (name : PbKind) (more : Bytes) :
    ∃ comma, strrchr (e.line name ++ 0 :: more) 44 = some comma ∧
      (quoted (e.line name ++ 0 :: more) (comma + 1)).map Prod.snd =
        if post = [] then none else some (post.tail ++ [0]) := by
  obtain ⟨front, hfront⟩ : ∃ front, front = e.middle name ++ 44 :: 34 :: pre := ⟨_, rfl⟩
  have hsplit : e.line name ++ 0 :: more = front ++ 44 :: ((post ++ [34]) ++ 0 :: more) := by
    rw [e.line_text name, htext, hfront]
    simp
  have hplain : ∀ b ∈ post, b ≠ 0 ∧ b ≠ 34 ∧ b ≠ LF := by
    intro b hb
    apply e.text_quotable b
    rw [htext]
    exact List.mem_append_right _ (List.mem_cons_of_mem _ hb)
  have hbefore : ∀ b ∈ front, b ≠ 0 := by
    intro b hb
    apply (e.line_plain name b _).1
    rw [e.line_text name, htext]
    rw [hfront] at hb
    simp only [List.mem_append, List.mem_cons] at hb ⊢
    tauto
  have hbehind : ∀ b ∈ post ++ [34], b ≠ 0 ∧ b ≠ 44 := by
    rw [List.forall_mem_append, List.forall_mem_singleton]
    exact ⟨fun b hb => ⟨(hplain b hb).1, hpost b hb⟩, by decide⟩
  refine ⟨front.length, ?_, ?_⟩
  · rw [hsplit]
    exact strrchr_at hbefore hbehind (by decide)
  · have hdrop : (e.line name ++ 0 :: more).drop (front.length + 1 + 1) =
        ((post ++ [34]) ++ 0 :: more).tail := by
      rw [hsplit, Nat.add_assoc, List.drop_append, List.drop_of_length_le (Nat.le_add_right _ _)]
      simp
    rw [quoted, hdrop]
    cases post with
    | nil => rfl
    | cons b post =>
      have hend : strchr (post ++ 34 :: (0 :: more)) 34 = some post.length := by
        apply strchr_at (fun c hc => ?_) (by decide)
        have hc := hplain c (List.mem_cons_of_mem _ hc)
        exact ⟨hc.1, hc.2.1⟩
      have htail : ((b :: post ++ [34]) ++ 0 :: more).tail = post ++ 34 :: (0 :: more) := by simp
      rw [htail, hend]
      simp

theorem exactly_stored (h : e.Bounded) (hclear : e.Clear) (name : PbKind) (m : Memory)
    (more : Bytes) : ∃ m', pbEntry m (e.line name ++ 0 :: more) = some m' ∧ e.Exactly m' := by
  have hfits : e.Fits := ⟨hclear.index, Nat.lt_succ_of_le h.number, hclear.type,
    Nat.lt_succ_of_le h.text, hclear.comma⟩
  have hstored := recordAt_stored hfits m 0
  simp only [Nat.zero_add] at hstored
  have hbyte : ∀ n < 256, (UInt8.ofNat n).toNat = n := fun n hn => UInt8.toNat_ofNat_of_lt' hn
  refine ⟨_, pbEntry_line hfits name m more, ?_, hstored.number, ?_, hstored.text⟩
  · exact (congrArg UInt8.toNat hstored.index).trans (hbyte _ hclear.index)
  · exact (congrArg UInt8.toNat hstored.type).trans (hbyte _ hclear.type)

theorem exactly_iff (h : e.Bounded) (name : PbKind) (m : Memory) (more : Bytes) :
    (∃ m', pbEntry m (e.line name ++ 0 :: more) = some m' ∧ e.Exactly m') ↔ e.Clear := by
  refine ⟨?_, fun hclear => exactly_stored h hclear name m more⟩
  rintro ⟨m', hentry, hexactly⟩
  have hindex := (m' 0).toNat_lt
  have htype := (m' pbType).toNat_lt
  rw [hexactly.index] at hindex
  rw [hexactly.type] at htype
  refine ⟨hindex, htype, fun c hc hcomma => ?_⟩
  obtain ⟨pre, post, htext, hpost⟩ := exists_last (hcomma ▸ hc)
  obtain ⟨comma, hlast, hcut⟩ := line_cut htext hpost name more
  obtain ⟨index, type, -, -, hall⟩ := e.pbEntry_text name m more
  rw [hall, hlast, Option.bind_some] at hentry
  obtain ⟨cut, hquoted, hstore⟩ := Option.bind_eq_some_iff.mp hentry
  rw [hquoted, Option.map_some] at hcut
  split_ifs at hcut with hnil
  have hlen : post.tail.length < e.text.length := by
    rw [htext, List.length_append, List.length_cons, List.length_tail]
    omega
  have hread : m'.string? pbText (sizeofPhonebook - pbText) = some post.tail := by
    rw [← Option.some.inj hstore, Option.some.inj hcut]
    apply Memory.string?_stored _ (fun b hb => ?_) (hlen.trans_le (h.text.trans (by decide)))
    apply (e.text_quotable b _).1
    rw [htext]
    exact List.mem_append_right _ (List.mem_cons_of_mem _ (List.mem_of_mem_tail hb))
  rw [hexactly.text] at hread
  rw [Option.some.inj hread] at hlen
  exact absurd hlen (Nat.lt_irrefl _)

end PbEntry

theorem readsEntry_iff (h : e.Bounded) : ReadsEntry e ↔ e.Clear := by
  have hcpbr (more : Bytes) : strncmp (e.line .readrg ++ 0 :: more) (ascii "+CPBR") 5 := by
    have hcstr := cstr_ended (fun b hb => (e.line_plain .readrg b hb).1) more
    rw [strncmp, hcstr]
    rfl
  have hread (u : Unset) (more : Bytes) :
      phonebookReadCb u (e.line .readrg ++ 0 :: more) =
        (pbEntry u.ucmd.buf (e.line .readrg ++ 0 :: more)).map fun buf =>
          { reply := some { gsmdUcmdFill u.ucmd sizeofPhonebook gsmdMsgPhonebook gsmdPhonebookRead 0
            with buf := buf } } := by
    rw [phonebookReadCb]
    simp only [if_pos (hcpbr more)]
    change (pbEntry u.ucmd.buf (e.line .readrg ++ 0 :: more)).bind _ = _
    cases pbEntry u.ucmd.buf (e.line .readrg ++ 0 :: more) <;> rfl
  constructor
  · intro hreads
    obtain ⟨o, ucmd, hcb, hreply, -, hexactly⟩ := hreads zeroed []
    rw [hread] at hcb
    obtain ⟨buf, hentry, rfl⟩ := Option.map_eq_some_iff.mp hcb
    obtain rfl := Option.some.inj hreply
    exact (PbEntry.exactly_iff h .readrg _ _).mp ⟨buf, hentry, hexactly⟩
  · intro hclear u more
    obtain ⟨buf, hentry, hexactly⟩ := PbEntry.exactly_stored h hclear .readrg u.ucmd.buf more
    have hcb := hread u more
    rw [hentry, Option.map_some] at hcb
    exact ⟨_, _, hcb, rfl, rfl, hexactly⟩

theorem entries_exactly {es : List PbEntry} {tokens : List Bytes}
    (htokens : List.Forall₂ (fun line token => ∃ behind, token = line ++ 0 :: behind)
      (es.map (PbEntry.line name)) tokens) (hbounded : ∀ e ∈ es, e.Bounded) (blocks : ℕ → Memory)
    (k : ℕ) : (∃ ms, ((tokens.zipIdx k).mapM fun l => pbEntry (blocks l.2) l.1) = some ms ∧
      List.Forall₂ PbEntry.Exactly es ms) ↔ ∀ e ∈ es, e.Clear := by
  induction es generalizing tokens k with
  | nil =>
    rw [List.map_nil] at htokens
    cases htokens
    exact iff_of_true ⟨[], rfl, .nil⟩ (List.forall_mem_nil _)
  | cons e es ih =>
    rw [List.map_cons] at htokens
    cases htokens with
    | cons hfirst hrest =>
      obtain ⟨behind, rfl⟩ := hfirst
      have hone := PbEntry.exactly_iff (hbounded e List.mem_cons_self) name (blocks k) behind
      have hih := ih hrest (fun x hx => hbounded x (List.mem_cons_of_mem _ hx)) (k + 1)
      rw [List.forall_mem_cons, ← hone, ← hih]
      simp only [List.zipIdx_cons, List.mapM_cons, Option.bind_eq_bind, Option.bind_eq_some_iff]
      constructor
      · rintro ⟨ms, ⟨m, hm, ms', hms, heq⟩, hall⟩
        obtain rfl := Option.some.inj heq
        rw [List.forall₂_cons] at hall
        exact ⟨⟨m, hm, hall.1⟩, ms', hms, hall.2⟩
      · rintro ⟨⟨m, hm, hexactly⟩, ms, hms, hall⟩
        exact ⟨m :: ms, ⟨m, hm, ms, hms, rfl⟩, .cons hexactly hall⟩

theorem listsEntries_iff {es : List PbEntry} (h : ∀ e ∈ es, e.Bounded) :
    ListsEntries kind name es ↔ ∀ e ∈ es, e.Clear := by
  have hlines : ∀ line ∈ es.map (PbEntry.line name), line ≠ [] ∧ ∀ b ∈ line, b ≠ 0 ∧ b ≠ LF := by
    intro line hline
    obtain ⟨e, -, rfl⟩ := List.mem_map.mp hline
    exact ⟨line_ne_nil name e, e.line_plain name⟩
  have htokens (more : Bytes) := strtokAll_lines (by decide : LF ≠ 0) hlines more
  have hcb (u : Unset) (resp : Bytes) (ms : List Memory) :
      (∃ o, kind.callback u resp = some o ∧ kind.entries o = ms) ↔
        ((strtokAll LF resp).zipIdx.mapM fun l => pbEntry (u.entries l.2) l.1) = some ms := by
    have hcallback : kind.callback u resp =
        (pbEntries u resp kind.subtype).map fun r => kind.outcome r.1 r.2 := by
      cases kind <;> rfl
    have hentries (r : GsmdUcmd) (ms : List Memory) : kind.entries (kind.outcome r ms) = ms := by
      cases kind <;> rfl
    rw [hcallback, pbEntries]
    change (∃ o, Option.map _ (Option.bind (((strtokAll LF resp).zipIdx).mapM _) _) = some o ∧ _) ↔ _
    cases ((strtokAll LF resp).zipIdx).mapM fun l => pbEntry (u.entries l.2) l.1 with
    | none => simp
    | some ms' => simp [hentries]
  constructor
  · intro hlists
    obtain ⟨o, ho, hexactly⟩ := hlists zeroed []
    exact (entries_exactly (htokens []) h zeroed.entries 0).mp
      ⟨_, (hcb zeroed _ _).mp ⟨o, ho, rfl⟩, hexactly⟩
  · intro hclear u more
    obtain ⟨ms, hms, hexactly⟩ := (entries_exactly (htokens more) h u.entries 0).mpr hclear
    obtain ⟨o, ho, rfl⟩ := (hcb u _ ms).mpr hms
    exact ⟨o, ho, hexactly⟩

theorem phonebookLines_iff {es : List PbEntry} (h : ∀ e ∈ es, e.Bounded) :
    (∀ e ∈ es, (ReadsEntry e ↔ e.Clear)) ∧
      ∀ kind name, (ListsEntries kind name es ↔ ∀ e ∈ es, e.Clear) :=
  ⟨fun _ he => readsEntry_iff (h _ he), fun _ _ => listsEntries_iff h⟩

def surnameLast : PbEntry :=
  ⟨3, ascii "+4912345", 145, ascii "John Doe", by decide, by decide⟩

theorem phonebookLines_surnameLast :
    ReadsEntry surnameLast ∧ ListsEntries .find .find [surnameLast, surnameLast] := by
  have hbounded : ∀ e ∈ [surnameLast, surnameLast], e.Bounded := by
    intro e he
    obtain rfl : e = surnameLast := by simpa using he
    exact ⟨by decide, by decide⟩
  have hclear : surnameLast.Clear := by
    refine ⟨by decide, by decide, ?_⟩
    have hall : (surnameLast.text.all fun c => c ≠ 44) = true := rfl
    simpa using hall
  have hiff := phonebookLines_iff hbounded
  refine ⟨(hiff.1 _ List.mem_cons_self).mpr hclear, (hiff.2 .find .find).mpr ?_⟩
  intro e he
  obtain rfl : e = surnameLast := by simpa using he
  exact hclear

def surnameFirst : PbEntry :=
  ⟨3, ascii "+4912345", 145, ascii "Doe,John", by decide, by decide⟩

theorem readsEntry_surnameFirst :
    surnameFirst.Bounded ∧ ¬ ReadsEntry surnameFirst ∧
      ∀ kind name, ¬ ListsEntries kind name [surnameFirst] := by
  have hbounded : surnameFirst.Bounded := ⟨by decide, by decide⟩
  have hclear : ¬ surnameFirst.Clear := fun h => h.comma 44 (by decide) rfl
  refine ⟨hbounded, ?_, fun kind name => ?_⟩
  · rw [readsEntry_iff hbounded]
    exact hclear
  · rw [listsEntries_iff (List.forall_mem_singleton.mpr hbounded), List.forall_mem_singleton]
    exact hclear

end SystemTestSuite.GsmDaemon
