import SystemTestSuite.GsmDaemon.ListEntry
import SystemTestSuite.GsmDaemon.PhonebookLists

namespace SystemTestSuite.GsmDaemon

open Library

namespace PbKind

def name : PbKind → Bytes
  | readrg => ascii "+CPBR"
  | find => ascii "+CPBF"

def subtype : PbKind → UInt8
  | readrg => gsmdPhonebookReadrg
  | find => gsmdPhonebookFind

end PbKind

def Quotable (s : Bytes) : Prop := ∀ c ∈ s, c ≠ 0 ∧ c ≠ 34 ∧ c ≠ LF

instance (s : Bytes) : Decidable (Quotable s) :=
  List.decidableBAll (fun c => c ≠ 0 ∧ c ≠ 34 ∧ c ≠ LF) s

structure PbEntry where
  index : ℕ
  number : Bytes
  type : ℕ
  text : Bytes
  number_quotable : Quotable number
  text_quotable : Quotable text

namespace PbEntry

def line (kind : PbKind) (e : PbEntry) : Bytes :=
  kind.name ++ (ascii ": " ++ (decimal e.index ++ (ascii ",\"" ++ (e.number ++ (ascii "\"," ++
    (decimal e.type ++ (ascii ",\"" ++ (e.text ++ ascii "\""))))))))

/-- The entry has room in a `struct gsmd_phonebook`, and the last comma stands in front of its text. -/
structure Fits (e : PbEntry) : Prop where
  index : e.index < 256
  number : e.number.length < pbType - pbNumb
  type : e.type < 256
  text : e.text.length < sizeofPhonebook - pbText
  comma : ∀ c ∈ e.text, c ≠ 44

structure StoredIn (e : PbEntry) (m : Memory) : Prop where
  index : m 0 = UInt8.ofNat e.index
  number : m.string? pbNumb (pbType - pbNumb) = some e.number
  type : m pbType = UInt8.ofNat e.type
  text : m.string? pbText (sizeofPhonebook - pbText) = some e.text

end PbEntry

variable {kind : PbKind} {e : PbEntry} {m : Memory}

theorem quoted_at {pre text rest : Bytes} (htext : Quotable text) {n : ℕ} (hn : n = pre.length) :
    quoted (pre ++ 34 :: (text ++ 34 :: rest)) n = some (n + 1 + text.length, text ++ [0]) := by
  have hdrop : (pre ++ 34 :: (text ++ 34 :: rest)).drop (n + 1) = text ++ 34 :: rest := by
    rw [hn, List.drop_append, List.drop_of_length_le (by omega)]
    simp
  have hend : strchr (text ++ 34 :: rest) 34 = some text.length :=
    strchr_at (fun b hb => ⟨(htext b hb).1, (htext b hb).2.1⟩) (by decide)
  rw [quoted, hdrop, hend]
  simp

theorem PbKind.name_plain (kind : PbKind) :
    ∀ b ∈ kind.name, b ≠ 0 ∧ b ≠ 32 ∧ b ≠ 34 ∧ b ≠ LF := by
  have hall : (kind.name.all fun b => b ≠ 0 && b ≠ 32 && b ≠ 34 && b ≠ LF) = true := by
    cases kind <;> rfl
  simpa [and_assoc] using hall

namespace PbEntry

def front (kind : PbKind) (e : PbEntry) : Bytes :=
  kind.name ++ (ascii ": " ++ (decimal e.index ++ [44]))

def middle (kind : PbKind) (e : PbEntry) : Bytes :=
  e.front kind ++ 34 :: (e.number ++ 34 :: 44 :: decimal e.type)

theorem line_index (kind : PbKind) (e : PbEntry) : ∃ rest,
    e.line kind = (kind.name ++ [58]) ++ 32 :: (decimal e.index ++ 44 :: rest) := by
  refine ⟨34 :: (e.number ++ (ascii "\"," ++ (decimal e.type ++ (ascii ",\"" ++ (e.text ++
    ascii "\""))))), ?_⟩
  rw [line, List.append_assoc]
  rfl

theorem line_number (kind : PbKind) (e : PbEntry) : ∃ rest,
    e.line kind = e.front kind ++ 34 :: (e.number ++ 34 :: (44 :: (decimal e.type ++ 44 :: rest))) := by
  refine ⟨34 :: (e.text ++ [34]), ?_⟩
  simp only [line, front, List.append_assoc]
  rfl

theorem line_text (kind : PbKind) (e : PbEntry) :
    e.line kind = e.middle kind ++ 44 :: (34 :: (e.text ++ [34])) := by
  simp only [line, middle, front, List.append_assoc, List.cons_append]
  rfl

theorem front_plain (kind : PbKind) (e : PbEntry) : ∀ b ∈ e.front kind, b ≠ 0 ∧ b ≠ 34 ∧ b ≠ LF := by
  have hcolon : ∀ b ∈ ascii ": ", b ≠ 0 ∧ b ≠ 34 ∧ b ≠ LF := by
    have hall : ((ascii ": ").all fun b => b ≠ 0 && b ≠ 34 && b ≠ LF) = true := rfl
    simpa [and_assoc] using hall
  have hname (b : UInt8) (hb : b ∈ kind.name) : b ≠ 0 ∧ b ≠ 34 ∧ b ≠ LF :=
    ⟨(kind.name_plain b hb).1, (kind.name_plain b hb).2.2⟩
  have hdigit (b : UInt8) (hb : b ∈ decimal e.index) : b ≠ 0 ∧ b ≠ 34 ∧ b ≠ LF :=
    ⟨decimal_ne rfl _ b hb, decimal_ne rfl _ b hb, decimal_ne rfl _ b hb⟩
  simp only [front, List.forall_mem_append, List.forall_mem_singleton]
  exact ⟨hname, hcolon, hdigit, by decide⟩

theorem line_plain (kind : PbKind) (e : PbEntry) : ∀ b ∈ e.line kind, b ≠ 0 ∧ b ≠ LF := by
  have hfront (b : UInt8) (hb : b ∈ e.front kind) : b ≠ 0 ∧ b ≠ LF :=
    ⟨(e.front_plain kind b hb).1, (e.front_plain kind b hb).2.2⟩
  have hnumber (b : UInt8) (hb : b ∈ e.number) : b ≠ 0 ∧ b ≠ LF :=
    ⟨(e.number_quotable b hb).1, (e.number_quotable b hb).2.2⟩
  have htext (b : UInt8) (hb : b ∈ e.text) : b ≠ 0 ∧ b ≠ LF :=
    ⟨(e.text_quotable b hb).1, (e.text_quotable b hb).2.2⟩
  have hdigit (b : UInt8) (hb : b ∈ decimal e.type) : b ≠ 0 ∧ b ≠ LF :=
    ⟨decimal_ne rfl _ b hb, decimal_ne rfl _ b hb⟩
  have hquote : (34 : UInt8) ≠ 0 ∧ (34 : UInt8) ≠ LF := by decide
  have hcomma : (44 : UInt8) ≠ 0 ∧ (44 : UInt8) ≠ LF := by decide
  rw [line_text]
  simp only [middle, List.forall_mem_append, List.forall_mem_cons]
  exact ⟨⟨hfront, hquote, hnumber, hquote, hcomma, hdigit⟩, hcomma, hquote, htext, hquote,
    List.forall_mem_nil _⟩

theorem atoi_at {s : Bytes} (pre rest : Bytes) {n k : ℕ} (hs : s = pre ++ (decimal k ++ 44 :: rest))
    (hn : n = pre.length) (hk : k < 256) : intByte (atoi (s.drop n)) = UInt8.ofNat k := by
  have hatoi : atoi (s.drop n) = k := by
    rw [hs, hn, List.drop_left]
    apply atoi_decimal (by omega)
    intro b hb
    obtain rfl := Option.some.inj hb
    rfl
  rw [hatoi, intByte]
  congr 1
  omega

theorem pbEntry_text (e : PbEntry) (kind : PbKind) (m : Memory) (more : Bytes) :
    ∃ index type : UInt8, (e.index < 256 → index = UInt8.ofNat e.index) ∧
      (e.type < 256 → type = UInt8.ofNat e.type) ∧
      pbEntry m (e.line kind ++ 0 :: more) =
        (strrchr (e.line kind ++ 0 :: more) 44).bind fun comma =>
          (quoted (e.line kind ++ 0 :: more) (comma + 1)).bind fun text =>
            some ((((m.store 0 [index]).store pbNumb (e.number ++ [0])).store pbType [type]).store
              pbText text.2) := by
  obtain ⟨s, hs⟩ : ∃ s, s = e.line kind ++ 0 :: more := ⟨_, rfl⟩
  obtain ⟨rest, hindex⟩ := e.line_index kind
  obtain ⟨rest', hnumber⟩ := e.line_number kind
  have hindex' : s = (kind.name ++ [58]) ++ 32 :: (decimal e.index ++ 44 :: (rest ++ 0 :: more)) := by
    rw [hs, hindex]
    simp
  have hnumber' : s = e.front kind ++ 34 :: (e.number ++ 34 ::
      (44 :: (decimal e.type ++ 44 :: (rest' ++ 0 :: more)))) := by
    rw [hs, hnumber]
    simp
  have hspace : strchr s 32 = some (kind.name ++ [58]).length := by
    have hstart : ∀ b ∈ kind.name ++ [58], b ≠ 0 ∧ b ≠ 32 := by
      rw [List.forall_mem_append]
      exact ⟨fun b hb => ⟨(kind.name_plain b hb).1, (kind.name_plain b hb).2.1⟩, by simp⟩
    rw [hindex']
    exact strchr_at hstart (by decide)
  have hquote : strchr s 34 = some (e.front kind).length := by
    rw [hnumber']
    apply strchr_at (fun b hb => ?_) (by decide)
    exact ⟨(e.front_plain kind b hb).1, (e.front_plain kind b hb).2.1⟩
  have hnumb : quoted s (e.front kind).length =
      some ((e.front kind).length + 1 + e.number.length, e.number ++ [0]) := by
    rw [hnumber']
    exact quoted_at e.number_quotable rfl
  refine ⟨intByte (atoi (s.drop ((kind.name ++ [58]).length + 1))),
    intByte (atoi (s.drop ((e.front kind).length + 1 + e.number.length + 2))),
    fun hfits => ?_, fun hfits => ?_, ?_⟩
  · apply atoi_at ((kind.name ++ [58]) ++ [32]) (rest ++ 0 :: more) _ _ hfits
    · rw [hindex']
      simp
    · simp
  · apply atoi_at (e.front kind ++ 34 :: (e.number ++ [34, 44])) (rest' ++ 0 :: more) _ _ hfits
    · rw [hnumber']
      simp
    · simp
      omega
  · rw [← hs, pbEntry, hspace, hquote]
    change (quoted s (e.front kind).length).bind _ = _
    rw [hnumb]
    rfl

theorem line_comma (h : ∀ c ∈ e.text, c ≠ 44) (kind : PbKind) (more : Bytes) :
    strrchr (e.line kind ++ 0 :: more) 44 = some (e.middle kind).length ∧
      quoted (e.line kind ++ 0 :: more) ((e.middle kind).length + 1) =
        some ((e.middle kind).length + 1 + 1 + e.text.length, e.text ++ [0]) := by
  have hsplit : e.line kind ++ 0 :: more =
      e.middle kind ++ 44 :: (34 :: (e.text ++ [34]) ++ 0 :: more) := by
    rw [e.line_text kind]
    simp
  have hsplit' : e.line kind ++ 0 :: more =
      (e.middle kind ++ [44]) ++ 34 :: (e.text ++ 34 :: (0 :: more)) := by
    rw [hsplit]
    simp
  constructor
  · have hbehind : ∀ b ∈ 34 :: (e.text ++ [34]), b ≠ 0 ∧ b ≠ 44 := by
      simp only [List.forall_mem_cons, List.forall_mem_append]
      have hquote : (34 : UInt8) ≠ 0 ∧ (34 : UInt8) ≠ 44 := by decide
      exact ⟨hquote, fun b hb => ⟨(e.text_quotable b hb).1, h b hb⟩, hquote,
        List.forall_mem_nil _⟩
    rw [hsplit]
    apply strrchr_at (fun b hb => ?_) hbehind (by decide)
    apply (e.line_plain kind b _).1
    rw [e.line_text kind]
    exact List.mem_append_left _ hb
  · rw [hsplit']
    exact quoted_at e.text_quotable (by rw [List.length_append, List.length_singleton])

theorem pbEntry_line (h : e.Fits) (kind : PbKind) (m : Memory) (more : Bytes) :
    pbEntry m (e.line kind ++ 0 :: more) =
      some ((((m.store 0 [UInt8.ofNat e.index]).store pbNumb (e.number ++ [0])).store pbType
        [UInt8.ofNat e.type]).store pbText (e.text ++ [0])) := by
  obtain ⟨index, type, hindex, htype, hentry⟩ := e.pbEntry_text kind m more
  obtain ⟨hcomma, htext⟩ := line_comma h.comma kind more
  rw [hentry, hcomma, Option.bind_some, htext, Option.bind_some, hindex h.index, htype h.type]

end PbEntry

def recordAt (m : Memory) (base : ℕ) (e : PbEntry) : Memory :=
  (((m.store base [UInt8.ofNat e.index]).store (base + pbNumb) (e.number ++ [0])).store
    (base + pbType) [UInt8.ofNat e.type]).store (base + pbText) (e.text ++ [0])

theorem recordAt_stored (h : e.Fits) (m : Memory) (base : ℕ) :
    e.StoredIn fun i => recordAt m base e (base + i) := by
  have hnumber := h.number
  have htext := h.text
  unfold pbType pbNumb at hnumber
  unfold sizeofPhonebook pbText at htext
  have hlen (s : Bytes) : (s ++ [(0 : UInt8)]).length = s.length + 1 := List.length_append
  have hbefore (m : Memory) (s : Bytes) {i off : ℕ} (hi : i < off) : m.store off s i = m i :=
    Memory.store_before m s hi
  refine ⟨?_, ?_, ?_, ?_⟩
  · change recordAt m base e base = _
    unfold recordAt pbNumb pbType pbText
    rw [hbefore _ _ (by omega), hbefore _ _ (by omega), hbefore _ _ (by omega)]
    exact Memory.store_inside m base [UInt8.ofNat e.index] (j := 0) Nat.zero_lt_one
  · apply (Memory.string?_shift _ base pbNumb).mpr
    apply Memory.string?_later (Memory.string?_stored (m.store base [UInt8.ofNat e.index])
      (fun c hc => (e.number_quotable c hc).1) h.number)
    intro i _ hi
    unfold pbNumb at hi
    unfold recordAt pbNumb pbType pbText
    rw [hbefore _ _ (by omega), hbefore _ _ (by omega)]
  · unfold recordAt pbText
    rw [hbefore _ _ (by unfold pbType; omega)]
    exact Memory.store_inside _ (base + pbType) [UInt8.ofNat e.type] (j := 0) Nat.zero_lt_one
  · apply (Memory.string?_shift _ base pbText).mpr
    exact Memory.string?_stored _ (fun c hc => (e.text_quotable c hc).1) h.text

structure Counts (kind : PbKind) (n : ℕ) (ucmd : GsmdUcmd) : Prop where
  msgType : ucmd.hdr.msgType = gsmdMsgPhonebook
  msgSubtype : ucmd.hdr.msgSubtype = kind.subtype
  count : intAt ucmd.buf 0 = n

structure Returns (kind : PbKind) (es : List PbEntry) (ucmd : GsmdUcmd) : Prop where
  msgType : ucmd.hdr.msgType = gsmdMsgPhonebook
  msgSubtype : ucmd.hdr.msgSubtype = kind.retrieve
  len : ucmd.hdr.len = UInt16.ofNat (sizeofPhonebook * es.length)
  entries : ∀ (i : ℕ) (e : PbEntry), es[i]? = some e →
    e.StoredIn fun j => ucmd.buf (sizeofPhonebook * i + j)

theorem line_ne_nil (kind : PbKind) (e : PbEntry) : e.line kind ≠ [] := by
  rw [e.line_text kind]
  exact List.append_ne_nil_of_right_ne_nil _ (List.cons_ne_nil _ _)

theorem pbEntries_line (h : e.Fits) (kind : PbKind) (u : Unset) (more : Bytes) (subtype : UInt8) :
    pbEntries u (e.line kind ++ 0 :: more) subtype =
      some ((gsmdUcmdFill u.ucmd 4 gsmdMsgPhonebook subtype 0).store 0 (intBytes 1),
        [recordAt (u.entries 0) 0 e]) := by
  have htoken : strtokAll 10 (e.line kind ++ 0 :: more) = [e.line kind ++ 0 :: more] :=
    strtokAll_one (by decide) (line_ne_nil kind e) (e.line_plain kind) more
  have hentry := PbEntry.pbEntry_line h kind (u.entries 0) more
  rw [pbEntries, htoken]
  change ((pbEntry (u.entries 0) (e.line kind ++ 0 :: more)).bind fun m => some [m]).bind _ = _
  rw [hentry]
  rfl

theorem counts_one (kind : PbKind) (block : GsmdUcmd) :
    Counts kind 1 ((gsmdUcmdFill block 4 gsmdMsgPhonebook kind.subtype 0).store 0 (intBytes 1)) :=
  ⟨rfl, rfl, intAt_flag _ _ (Or.inr rfl)⟩

variable {κ ω : Type} {own : Own κ ω} {cmd : GsmdAtcmd (DaemonCb κ)}

def PbKind.outcome (kind : PbKind) (r : GsmdUcmd) (ms : List Memory) : CbOutcome :=
  match kind with
  | readrg => { reply := some r, ranged := ms }
  | find => { reply := some r, found := ms }

theorem outcome_reply (kind : PbKind) (r : GsmdUcmd) (ms : List Memory) :
    (kind.outcome r ms).reply = some r := by
  cases kind <;> rfl

theorem outcome_entries (kind kind' : PbKind) (r : GsmdUcmd) (ms : List Memory) :
    kind'.entries (kind.outcome r ms) = if kind' = kind then ms else [] := by
  cases kind <;> cases kind' <;> rfl

theorem runCb_range (kind : PbKind) (u : Unset) (cmd : GsmdAtcmd κ) (resp : Bytes) :
    runCb kind.cb u cmd resp =
      (pbEntries u resp kind.subtype).map fun r => kind.outcome r.1 r.2 := by
  cases kind <;> rfl

theorem range_outcome (h : e.Fits) (kind : PbKind) (cmd : GsmdAtcmd (DaemonCb κ)) (steps : ℕ) :
    ∃ r m, outcome own kind.cb cmd steps (some (e.line kind)) = some (kind.outcome r [m]) ∧
      Counts kind 1 r ∧ e.StoredIn m := by
  have hentries := pbEntries_line h kind (own.unset steps) (own.behind steps) kind.subtype
  have hstored := recordAt_stored h ((own.unset steps).entries 0) 0
  simp only [Nat.zero_add] at hstored
  refine ⟨_, _, ?_, counts_one kind (own.unset steps).ucmd, hstored⟩
  change runCb kind.cb (own.unset steps) cmd (e.line kind ++ 0 :: own.behind steps) = _
  rw [runCb_range, hentries]
  rfl

end SystemTestSuite.GsmDaemon
