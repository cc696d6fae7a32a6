import SystemTestSuite.GsmDaemon.TimerAlarms

namespace SystemTestSuite.GsmDaemon

open Library GsmdTimers

structure Registration where
  delay : Delay
  since : Clock
  now : Clock

namespace GsmdTimers

def registerAll (s : GsmdTimers) (rs : List Registration) : GsmdTimers :=
  rs.foldl (fun s r => s.gsmdTimerRegister r.delay r.since r.now) s

def callback (cb : GsmdTimer → List Registration) (s : GsmdTimers) : GsmdTimers :=
  match s.loop, s.ran.getLast? with
  | some ⟨_, _, true⟩, some t => s.registerAll (cb t)
  | _, _ => s

def checkLoop (cb : GsmdTimer → List Registration) : ℕ → GsmdTimers → Option GsmdTimers
  | 0, _ => none
  | fuel + 1, s =>
    match s.loop with
    | none => none
    | some l =>
      match l.next with
      | none => some s
      | some n => checkLoop cb fuel ((s.checkVisit l n).callback cb)

def gsmdTimerCheckNRun (cb : GsmdTimer → List Registration) (fuel : ℕ) (s : GsmdTimers)
    (now later : Clock) : Option GsmdTimers :=
  (checkLoop cb fuel (s.checkBegin now)).map fun s => s.checkEnd later

end GsmdTimers

def newTimers (serial : ℕ) : List Registration → List GsmdTimer
  | [] => []
  | r :: rs => ⟨serial, r.since, r.delay⟩ :: newTimers (serial + 1) rs

def GsmdTimer.Due (t : GsmdTimer) (now : Clock) : Prop := t.expiry ≤ now.micros

instance (t : GsmdTimer) (now : Clock) : Decidable (t.Due now) := inferInstanceAs (Decidable (_ ≤ _))

def FoundDue (now since : Clock) (delay : Delay) : Prop :=
  tvLater now.toTimeval (expiresAt since delay) = true

instance (now since : Clock) (delay : Delay) : Decidable (FoundDue now since delay) :=
  inferInstanceAs (Decidable (_ = _))

/-- The seconds do not leave 32 bits, and the call is not in the second that the microseconds of the
sum would have carried into, before that time. -/
def GsmdTimer.Fits (t : GsmdTimer) (now : Clock) : Prop :=
  t.delay.sec + t.since.sec < 2 ^ 31 ∧
    ¬ (now.sec = t.delay.sec + t.since.sec + 1 ∧
      now.usec + 1000000 < t.delay.usec + t.since.usec)

variable {s s' : GsmdTimers} {now : Clock} {t : GsmdTimer}

theorem foundDue_of_due (h : t.Due now) : FoundDue now t.since t.delay := by
  have := now.usec_nonneg
  have := now.usec_lt
  have := now.sec_nonneg
  have := now.sec_lt
  have := t.since.usec_nonneg
  have := t.delay.usec_nonneg
  have := t.since.sec_lt
  have := t.delay.sec_lt
  unfold GsmdTimer.Due GsmdTimer.expiry Timeval.micros at h
  unfold FoundDue
  rw [tvLater_iff, expires_sec, expires_usec]
  split_ifs <;> omega

theorem foundDue_iff : (FoundDue now t.since t.delay ↔ t.Due now) ↔ t.Fits now := by
  have := now.usec_nonneg
  have := now.usec_lt
  have := now.sec_lt
  have := now.sec_nonneg
  have := t.since.usec_nonneg
  have := t.delay.usec_nonneg
  have := t.since.usec_lt
  have := t.delay.usec_lt
  have := t.since.sec_nonneg
  have := t.since.sec_lt
  have := t.delay.sec_ge
  have := t.delay.sec_lt
  unfold FoundDue GsmdTimer.Due GsmdTimer.Fits GsmdTimer.expiry Timeval.micros
  rw [tvLater_iff, expires_sec, expires_usec]
  split_ifs <;> omega

theorem newTimers_append (serial : ℕ) (rs more : List Registration) :
    newTimers serial (rs ++ more) = newTimers serial rs ++ newTimers (serial + rs.length) more := by
  induction rs generalizing serial with
  | nil => rfl
  | cons r rs ih =>
    have hserial : serial + (rs.length + 1) = serial + 1 + rs.length := by omega
    rw [List.cons_append, newTimers, newTimers, ih, List.cons_append, List.length_cons, hserial]

theorem exists_mem_newTimers (serial : ℕ) {rs : List Registration} {r : Registration} (hr : r ∈ rs) :
    ∃ t ∈ newTimers serial rs, t.since = r.since ∧ t.delay = r.delay := by
  induction rs generalizing serial with
  | nil => cases hr
  | cons r' rs ih =>
    rcases List.mem_cons.mp hr with rfl | hr
    · exact ⟨_, List.mem_cons_self, rfl, rfl⟩
    · obtain ⟨t, ht, heq⟩ := ih (serial + 1) hr
      exact ⟨t, List.mem_cons_of_mem _ ht, heq⟩

theorem of_mem_newTimers {serial : ℕ} {rs : List Registration} (ht : t ∈ newTimers serial rs) :
    ∃ r ∈ rs, t.since = r.since ∧ t.delay = r.delay := by
  induction rs generalizing serial with
  | nil => cases ht
  | cons r rs ih =>
    rcases List.mem_cons.mp ht with rfl | ht
    · exact ⟨r, List.mem_cons_self, rfl, rfl⟩
    · obtain ⟨r', hr', heq⟩ := ih ht
      exact ⟨r', List.mem_cons_of_mem _ hr', heq⟩

theorem registerAll_frame (rs : List Registration) (s : GsmdTimers) (h : s.Numbered) :
    ∃ asked alarm,
      s.registerAll rs =
        { s with
          timers := s.timers ++ newTimers s.serial rs
          serial := s.serial + rs.length
          asked := asked
          alarm := alarm } ∧
      (s.registerAll rs).Numbered := by
  induction rs generalizing s with
  | nil =>
    refine ⟨s.asked, s.alarm, ?_, h⟩
    rw [newTimers, List.append_nil]
    rfl
  | cons r rs ih =>
    obtain ⟨asked, alarm, hfirst⟩ := register_frame s r.delay r.since r.now
    have hnumbered : (s.gsmdTimerRegister r.delay r.since r.now).Numbered := by
      rw [hfirst]
      exact h.register rfl rfl
    obtain ⟨asked', alarm', hrest, hlast⟩ := ih _ hnumbered
    change (s.registerAll (r :: rs)) = _ at hrest
    refine ⟨asked', alarm', ?_, hlast⟩
    have hserial : s.serial + 1 + rs.length = s.serial + (rs.length + 1) := by omega
    rw [hrest, hfirst]
    simp only [newTimers, List.append_assoc, List.singleton_append, List.length_cons, hserial]

variable {cb : GsmdTimer → List Registration} {kept todo more : List GsmdTimer} {fuel : ℕ}

structure Going (s : GsmdTimers) (now : Clock) (kept todo : List GsmdTimer) : Prop
    extends s.Numbered where
  timers : s.timers = kept ++ todo
  loop : ∃ inCallback, s.loop = some ⟨now, todo.head?.map (·.serial), inCallback⟩

def Ends (cb : GsmdTimer → List Registration) (s s' : GsmdTimers) : Prop :=
  ∃ fuel, checkLoop cb fuel s = some s'

theorem ends_done (h : Going s now kept []) : Ends cb s s' ↔ s' = s := by
  obtain ⟨inCallback, hloop⟩ := h.loop
  have hone (fuel : ℕ) : checkLoop cb (fuel + 1) s = some s := by
    rw [checkLoop, hloop]
    rfl
  constructor
  · rintro ⟨fuel, hfuel⟩
    cases fuel with
    | zero => cases hfuel
    | succ fuel => exact (Option.some.inj ((hone fuel).symm.trans hfuel)).symm
  · rintro rfl
    exact ⟨1, hone 0⟩

theorem ends_turn {inCallback : Bool} {n : ℕ} (hloop : s.loop = some ⟨now, some n, inCallback⟩) :
    Ends cb s s' ↔ Ends cb ((s.checkVisit ⟨now, some n, inCallback⟩ n).callback cb) s' := by
  have hturn (fuel : ℕ) : checkLoop cb (fuel + 1) s =
      checkLoop cb fuel ((s.checkVisit ⟨now, some n, inCallback⟩ n).callback cb) := by
    rw [checkLoop, hloop]
  constructor
  · rintro ⟨fuel, hfuel⟩
    cases fuel with
    | zero => cases hfuel
    | succ fuel => exact ⟨fuel, (hturn fuel).symm.trans hfuel⟩
  · rintro ⟨fuel, hfuel⟩
    exact ⟨fuel + 1, (hturn fuel).trans hfuel⟩

theorem going_skip (cb : GsmdTimer → List Registration) (h : Going s now kept (t :: more))
    (hdue : ¬ FoundDue now t.since t.delay) :
    ∃ s₁, Going s₁ now (kept ++ [t]) more ∧ s₁.ran = s.ran ∧ s₁.serial = s.serial ∧
      ∀ s', Ends cb s s' ↔ Ends cb s₁ s' := by
  obtain ⟨inCallback, hloop⟩ := h.loop
  replace hloop : s.loop = some ⟨now, some t.serial, inCallback⟩ := hloop
  have hvisit := checkVisit_eq h.toNumbered h.timers ⟨now, some t.serial, inCallback⟩
  rw [if_neg (show ¬ tvLater now.toTimeval t.expires = true from hdue)] at hvisit
  refine ⟨{ s with loop := some ⟨now, more.head?.map (·.serial), false⟩ },
    ⟨h.sublist (List.Sublist.refl _) rfl, ?_, false, rfl⟩, rfl, rfl, fun s' => ?_⟩
  · rw [h.timers, List.append_assoc, List.singleton_append]
  · rw [ends_turn hloop, hvisit]
    rfl

theorem going_run (cb : GsmdTimer → List Registration) (h : Going s now kept (t :: more))
    (hdue : FoundDue now t.since t.delay) :
    ∃ s₁, s₁.Numbered ∧ s₁.timers = kept ++ more ++ newTimers s.serial (cb t) ∧
      s₁.loop = some ⟨now, more.head?.map (·.serial), true⟩ ∧ s₁.ran = s.ran ++ [t] ∧
      s₁.serial = s.serial + (cb t).length ∧ ∀ s', Ends cb s s' ↔ Ends cb s₁ s' := by
  obtain ⟨inCallback, hloop⟩ := h.loop
  replace hloop : s.loop = some ⟨now, some t.serial, inCallback⟩ := hloop
  have hvisit := checkVisit_eq h.toNumbered h.timers ⟨now, some t.serial, inCallback⟩
  rw [if_pos (show tvLater now.toTimeval t.expires = true from hdue)] at hvisit
  have hsub : (kept ++ more).Sublist s.timers := by
    rw [h.timers]
    exact List.Sublist.append_left (List.sublist_cons_self t more) kept
  have hnumbered : (s.checkVisit ⟨now, some t.serial, inCallback⟩ t.serial).Numbered := by
    rw [hvisit]
    exact h.sublist hsub rfl
  obtain ⟨asked, alarm, hcalled, hlast⟩ := registerAll_frame (cb t) _ hnumbered
  have hcallback : (s.checkVisit ⟨now, some t.serial, inCallback⟩ t.serial).callback cb =
      (s.checkVisit ⟨now, some t.serial, inCallback⟩ t.serial).registerAll (cb t) := by
    rw [callback, hvisit]
    dsimp only
    rw [List.getLast?_concat]
  rw [hvisit] at hcalled
  refine ⟨_, hlast, ?_, ?_, ?_, ?_, fun s' => ?_⟩
  · rw [hvisit, hcalled]
  · rw [hvisit, hcalled]
  · rw [hvisit, hcalled]
  · rw [hvisit, hcalled]
  · rw [ends_turn hloop, hcallback]

theorem registerAll_ran (rs : List Registration) (s : GsmdTimers) : (s.registerAll rs).ran = s.ran := by
  induction rs generalizing s with
  | nil => rfl
  | cons r rs ih =>
    obtain ⟨asked, alarm, hfirst⟩ := register_frame s r.delay r.since r.now
    have hrest := ih (s.gsmdTimerRegister r.delay r.since r.now)
    rw [hfirst] at hrest
    rw [registerAll, List.foldl_cons, hfirst]
    exact hrest

theorem callback_ran (s : GsmdTimers) : (s.callback cb).ran = s.ran := by
  unfold callback
  split
  · exact registerAll_ran _ s
  · rfl

theorem checkVisit_ran (s : GsmdTimers) (l : CheckLoop) (n : ℕ) :
    s.ran <+: (s.checkVisit l n).ran := by
  unfold checkVisit
  split
  · exact List.prefix_refl _
  · split_ifs
    · exact List.prefix_append _ _
    · exact List.prefix_refl _

theorem ends_ran (h : Ends cb s s') : s.ran <+: s'.ran := by
  obtain ⟨fuel, hfuel⟩ := h
  induction fuel generalizing s with
  | zero => cases hfuel
  | succ fuel ih =>
    rw [checkLoop] at hfuel
    split at hfuel
    · cases hfuel
    · rename_i l hl
      split at hfuel
      · obtain rfl := Option.some.inj hfuel
        exact List.prefix_refl _
      · rename_i n hn
        have hcallback := ih hfuel
        rw [callback_ran] at hcallback
        exact (checkVisit_ran s l n).trans hcallback

theorem ends_quiet (h : Going s now kept todo) (hends : Ends cb s s') (hran : s'.ran = s.ran) :
    ∀ t ∈ todo, ¬ FoundDue now t.since t.delay := by
  induction todo generalizing s kept with
  | nil => exact fun t ht => by cases ht
  | cons t more ih =>
    by_cases hdue : FoundDue now t.since t.delay
    · obtain ⟨s₁, -, -, -, hran₁, -, hturn⟩ := going_run cb h hdue
      have hlonger := (ends_ran ((hturn s').mp hends)).length_le
      rw [hran, hran₁, List.length_append, List.length_singleton] at hlonger
      omega
    · obtain ⟨s₁, hgoing, hran₁, -, hturn⟩ := going_skip cb h hdue
      have hrest := ih hgoing ((hturn s').mp hends) (hran.trans hran₁.symm)
      exact List.forall_mem_cons.mpr ⟨hdue, hrest⟩

theorem quiet_ends (cb : GsmdTimer → List Registration) (h : Going s now kept todo)
    (hquiet : ∀ t ∈ todo, ¬ FoundDue now t.since t.delay) :
    ∃ s', Ends cb s s' ∧ s'.timers = kept ++ todo ∧ s'.ran = s.ran := by
  induction todo generalizing s kept with
  | nil => exact ⟨s, (ends_done h).mpr rfl, h.timers, rfl⟩
  | cons t more ih =>
    obtain ⟨hdue, hrest⟩ := List.forall_mem_cons.mp hquiet
    obtain ⟨s₁, hgoing, hran₁, -, hturn⟩ := going_skip cb h hdue
    obtain ⟨s', hends, htimers, hran⟩ := ih hgoing hrest
    refine ⟨s', (hturn s').mpr hends, ?_, hran.trans hran₁⟩
    rw [htimers, List.append_assoc, List.singleton_append]

/-- None of the timers that callbacks register is found due: `rs` are those registered so far, and the
loop comes to them unless it has ended with the timer that registers them. -/
def WalkQuiet (cb : GsmdTimer → List Registration) (now : Clock) :
    List GsmdTimer → List Registration → Prop
  | [], rs => ∀ r ∈ rs, ¬ FoundDue now r.since r.delay
  | t :: rest, rs =>
    if FoundDue now t.since t.delay then
      (rest = [] ∧ rs = []) ∨ WalkQuiet cb now rest (rs ++ cb t)
    else WalkQuiet cb now rest rs

theorem forall_newTimers {serial : ℕ} {rs : List Registration} :
    (∀ t ∈ newTimers serial rs, ¬ FoundDue now t.since t.delay) ↔
      ∀ r ∈ rs, ¬ FoundDue now r.since r.delay := by
  constructor
  · intro h r hr
    obtain ⟨t, ht, hsince, hdelay⟩ := exists_mem_newTimers serial hr
    rw [← hsince, ← hdelay]
    exact h t ht
  · intro h t ht
    obtain ⟨r, hr, hsince, hdelay⟩ := of_mem_newTimers ht
    rw [hsince, hdelay]
    exact h r hr

variable {rest : List GsmdTimer} {rs : List Registration} {serial : ℕ}

theorem going_walk (cb : GsmdTimer → List Registration)
    (h : Going s now kept (t :: (rest ++ newTimers serial rs)))
    (hserial : s.serial = serial + rs.length) (hdue : FoundDue now t.since t.delay)
    (hbehind : ¬ (rest = [] ∧ rs = [])) :
    ∃ s₁, Going s₁ now kept (rest ++ newTimers serial (rs ++ cb t)) ∧ s₁.ran = s.ran ++ [t] ∧
      s₁.serial = serial + (rs ++ cb t).length ∧ ∀ s', Ends cb s s' ↔ Ends cb s₁ s' := by
  obtain ⟨s₁, hnumbered, htimers, hloop, hran₁, hserial₁, hturn⟩ := going_run cb h hdue
  have hnews : rest ++ newTimers serial (rs ++ cb t) =
      (rest ++ newTimers serial rs) ++ newTimers s.serial (cb t) := by
    rw [newTimers_append, hserial, List.append_assoc]
  have hsome : rest ++ newTimers serial rs ≠ [] := by
    intro hnil
    obtain ⟨hrest, hnone⟩ := List.append_eq_nil_iff.mp hnil
    refine hbehind ⟨hrest, ?_⟩
    cases rs with
    | nil => rfl
    | cons r rs => cases hnone
  refine ⟨s₁, ⟨hnumbered, ?_, true, ?_⟩, hran₁, ?_, hturn⟩
  · rw [htimers, hnews, List.append_assoc]
  · rw [hloop, hnews, List.head?_append_of_ne_nil _ hsome]
  · rw [hserial₁, hserial, List.length_append, Nat.add_assoc]

theorem ends_walk (h : Going s now kept (rest ++ newTimers serial rs))
    (hserial : s.serial = serial + rs.length) (hends : Ends cb s s') :
    ∃ others, s'.ran = s.ran ++ rest.filter (fun t => FoundDue now t.since t.delay) ++ others ∧
      (others = [] → WalkQuiet cb now rest rs) := by
  induction rest generalizing s kept rs with
  | nil =>
    obtain ⟨others, hothers⟩ := ends_ran hends
    refine ⟨others, ?_, ?_⟩
    · rw [List.filter_nil, List.append_nil, hothers]
    · rintro rfl
      rw [List.append_nil] at hothers
      exact forall_newTimers.mp (ends_quiet h hends hothers.symm)
  | cons t rest ih =>
    by_cases hdue : FoundDue now t.since t.delay
    · rw [List.filter_cons_of_pos (by rwa [decide_eq_true_eq]), WalkQuiet, if_pos hdue]
      by_cases hlast : rest = [] ∧ rs = []
      · obtain ⟨s₁, -, -, -, hran₁, -, hturn⟩ := going_run cb h hdue
        obtain ⟨others, hothers⟩ := ends_ran ((hturn s').mp hends)
        obtain ⟨rfl, rfl⟩ := hlast
        refine ⟨others, ?_, fun _ => Or.inl ⟨rfl, rfl⟩⟩
        rw [← hothers, hran₁]
        rfl
      · obtain ⟨s₁, hgoing, hran₁, hserial₁, hturn⟩ := going_walk cb h hserial hdue hlast
        obtain ⟨others, hran, hquiet⟩ := ih hgoing hserial₁ ((hturn s').mp hends)
        refine ⟨others, ?_, fun hnone => Or.inr (hquiet hnone)⟩
        rw [hran, hran₁, List.append_assoc s.ran, List.singleton_append]
    · obtain ⟨s₁, hgoing, hran₁, hserial₁, hturn⟩ := going_skip cb h hdue
      rw [List.filter_cons_of_neg (by rwa [decide_eq_true_eq]), WalkQuiet, if_neg hdue, ← hran₁]
      exact ih hgoing (hserial₁.trans hserial) ((hturn s').mp hends)

theorem walk_ends (h : Going s now kept (rest ++ newTimers serial rs))
    (hserial : s.serial = serial + rs.length) (hquiet : WalkQuiet cb now rest rs) :
    ∃ s', Ends cb s s' ∧
      s'.ran = s.ran ++ rest.filter (fun t => FoundDue now t.since t.delay) ∧
      s'.timers = kept ++ rest.filter (fun t => ¬ FoundDue now t.since t.delay) ++ newTimers serial
        (rs ++ (rest.filter (fun t => FoundDue now t.since t.delay)).flatMap cb) := by
  induction rest generalizing s kept rs with
  | nil =>
    obtain ⟨s', hends, htimers, hran⟩ := quiet_ends cb h (forall_newTimers.mpr hquiet)
    refine ⟨s', hends, ?_, ?_⟩
    · rw [hran, List.filter_nil, List.append_nil]
    · simpa only [List.filter_nil, List.flatMap_nil, List.append_nil, List.nil_append] using htimers
  | cons t rest ih =>
    by_cases hdue : FoundDue now t.since t.delay
    · rw [WalkQuiet, if_pos hdue] at hquiet
      rw [List.filter_cons_of_pos (by rwa [decide_eq_true_eq]),
        List.filter_cons_of_neg (by rwa [decide_eq_true_eq, not_not]), List.flatMap_cons]
      by_cases hlast : rest = [] ∧ rs = []
      · obtain ⟨rfl, rfl⟩ := hlast
        obtain ⟨s₁, hnumbered, htimers, hloop, hran₁, -, hturn⟩ := going_run cb h hdue
        refine ⟨s₁, (hturn s₁).mpr ⟨1, ?_⟩, hran₁, ?_⟩
        · rw [checkLoop, hloop]
          rfl
        · rw [htimers, hserial]
          simp only [newTimers, List.append_nil, List.filter_nil, List.flatMap_nil, List.nil_append,
            List.length_nil, Nat.add_zero, List.append_eq]
      · obtain ⟨s₁, hgoing, hran₁, hserial₁, hturn⟩ := going_walk cb h hserial hdue hlast
        obtain ⟨s', hends, hran, htimers⟩ := ih hgoing hserial₁ (hquiet.resolve_left hlast)
        refine ⟨s', (hturn s').mpr hends, ?_, ?_⟩
        · rw [hran, hran₁, List.append_assoc, List.singleton_append]
        · rw [htimers, List.append_assoc rs]
    · obtain ⟨s₁, hgoing, hran₁, hserial₁, hturn⟩ := going_skip cb h hdue
      rw [WalkQuiet, if_neg hdue] at hquiet
      obtain ⟨s', hends, hran, htimers⟩ := ih hgoing (hserial₁.trans hserial) hquiet
      rw [List.filter_cons_of_neg (by rwa [decide_eq_true_eq]),
        List.filter_cons_of_pos (by rwa [decide_eq_true_eq])]
      refine ⟨s', (hturn s').mpr hends, ?_, ?_⟩
      · rw [hran, hran₁]
      · rw [htimers, List.append_assoc kept, List.singleton_append]

/-- No timer that a callback registers is found due, or the only callback that registers any is that of
the timer at the end of the list. -/
def CallbacksQuiet (cb : GsmdTimer → List Registration) (now : Clock) (timers : List GsmdTimer) : Prop :=
  (timers.dropLast.filter (·.Due now)).flatMap cb = [] ∨
    ∀ r ∈ (timers.filter (·.Due now)).flatMap cb, ¬ FoundDue now r.since r.delay

/-- `gsmd_timer_check_n_run` returns, has called the callbacks of the timers that are due, and leaves the
others and those that these callbacks registered. -/
def RunsDue (cb : GsmdTimer → List Registration) (s : GsmdTimers) (now later : Clock) : Prop :=
  ∃ fuel s', gsmdTimerCheckNRun cb fuel s now later = some s' ∧
    s'.ran = s.ran ++ s.timers.filter (·.Due now) ∧
    s'.timers = s.timers.filter (fun t => ¬ t.Due now) ++
      newTimers s.serial ((s.timers.filter (·.Due now)).flatMap cb)

theorem walkQuiet_behind (h : rs ≠ []) : WalkQuiet cb now rest rs ↔
    ∀ r ∈ rs ++ (rest.filter (fun t => FoundDue now t.since t.delay)).flatMap cb,
      ¬ FoundDue now r.since r.delay := by
  induction rest generalizing rs with
  | nil => rw [List.filter_nil, List.flatMap_nil, List.append_nil, WalkQuiet]
  | cons t rest ih =>
    rw [WalkQuiet]
    by_cases hdue : FoundDue now t.since t.delay
    · have hmore : rs ++ cb t ≠ [] := fun hnil => h (List.append_eq_nil_iff.mp hnil).1
      rw [if_pos hdue, List.filter_cons_of_pos (by rwa [decide_eq_true_eq]), List.flatMap_cons,
        ih hmore, List.append_assoc]
      exact or_iff_right fun hlast => h hlast.2
    · rw [if_neg hdue, List.filter_cons_of_neg (by rwa [decide_eq_true_eq]), ih h]

theorem walkQuiet_iff (hdue : ∀ t ∈ rest, FoundDue now t.since t.delay ↔ t.Due now) :
    WalkQuiet cb now rest [] ↔ CallbacksQuiet cb now rest := by
  induction rest with
  | nil =>
    refine iff_of_true (fun r hr => ?_) (Or.inl rfl)
    cases hr
  | cons t rest ih =>
    obtain ⟨hfirst, hrest⟩ := List.forall_mem_cons.mp hdue
    have hsame : rest.filter (fun t => FoundDue now t.since t.delay) = rest.filter (·.Due now) :=
      List.filter_congr fun u hu => decide_eq_decide.mpr (hrest u hu)
    cases rest with
    | nil =>
      refine iff_of_true ?_ (Or.inl rfl)
      rw [WalkQuiet]
      split_ifs
      · exact Or.inl ⟨rfl, rfl⟩
      · exact fun r hr => by cases hr
    | cons u rest =>
      rw [WalkQuiet, CallbacksQuiet, List.dropLast_cons_cons]
      by_cases hfound : FoundDue now t.since t.delay
      · have hpos (timers : List GsmdTimer) : (t :: timers).filter (·.Due now) =
            t :: timers.filter (·.Due now) :=
          List.filter_cons_of_pos (decide_eq_true (hfirst.mp hfound))
        rw [if_pos hfound, hpos, hpos, List.flatMap_cons, List.flatMap_cons, List.nil_append,
          or_iff_right fun hlast => List.cons_ne_nil _ _ hlast.1]
        by_cases hnone : cb t = []
        · rw [hnone, List.nil_append, List.nil_append, ih hrest, CallbacksQuiet]
        · rw [walkQuiet_behind hnone, hsame]
          exact (or_iff_right fun hnil => hnone (List.append_eq_nil_iff.mp hnil).1).symm
      · have hneg (timers : List GsmdTimer) : (t :: timers).filter (·.Due now) =
            timers.filter (·.Due now) := by
          apply List.filter_cons_of_neg
          rw [decide_eq_true_eq]
          exact fun ht => hfound (hfirst.mpr ht)
        rw [if_neg hfound, hneg, hneg, ih hrest, CallbacksQuiet]

theorem going_begin (h : s.Numbered) (now : Clock) : Going (s.checkBegin now) now [] s.timers :=
  ⟨h.sublist (List.Sublist.refl _) rfl, rfl, false, rfl⟩

theorem checkEnd_frame (s : GsmdTimers) (later : Clock) :
    (s.checkEnd later).ran = s.ran ∧ (s.checkEnd later).timers = s.timers := by
  obtain ⟨asked, alarm, hcalc⟩ := calcNextExpiration_frame { s with loop := none } later
  rw [checkEnd, hcalc]
  exact ⟨rfl, rfl⟩

theorem runsDue_ends {later : Clock} : RunsDue cb s now later ↔ ∃ s', Ends cb (s.checkBegin now) s' ∧
    s'.ran = s.ran ++ s.timers.filter (·.Due now) ∧
    s'.timers = s.timers.filter (fun t => ¬ t.Due now) ++
      newTimers s.serial ((s.timers.filter (·.Due now)).flatMap cb) := by
  constructor
  · rintro ⟨fuel, s', hcheck, hran, htimers⟩
    obtain ⟨s₁, hloop, rfl⟩ := Option.map_eq_some_iff.mp hcheck
    obtain ⟨hsame, hlist⟩ := checkEnd_frame s₁ later
    exact ⟨s₁, ⟨fuel, hloop⟩, hsame.symm.trans hran, hlist.symm.trans htimers⟩
  · rintro ⟨s₁, ⟨fuel, hloop⟩, hran, htimers⟩
    obtain ⟨hsame, hlist⟩ := checkEnd_frame s₁ later
    refine ⟨fuel, s₁.checkEnd later, ?_, hsame.trans hran, hlist.trans htimers⟩
    rw [gsmdTimerCheckNRun, hloop]
    rfl

theorem runsDue_numbered (h : s.Numbered) (cb : GsmdTimer → List Registration) (now later : Clock) :
    RunsDue cb s now later ↔ (∀ t ∈ s.timers, t.Fits now) ∧ CallbacksQuiet cb now s.timers := by
  have hgoing : Going (s.checkBegin now) now [] (s.timers ++ newTimers s.serial []) := by
    rw [newTimers, List.append_nil]
    exact going_begin h now
  rw [runsDue_ends]
  constructor
  · rintro ⟨s', hends, hran, -⟩
    obtain ⟨others, hwalk, hquiet⟩ := ends_walk hgoing rfl hends
    -- the loop finds due whatever is due, so it runs nothing else
    have hrun : s.timers.filter (·.Due now) =
        s.timers.filter (fun t => FoundDue now t.since t.delay) ++ others := by
      apply (List.append_right_inj s.ran).mp
      rw [← hran, hwalk, List.append_assoc]
      rfl
    have hmore : (s.timers.filter (·.Due now)).length ≤
        (s.timers.filter (fun t => FoundDue now t.since t.delay)).length := by
      apply List.Sublist.length_le
      apply List.monotone_filter_right
      intro t ht
      exact decide_eq_true (foundDue_of_due (of_decide_eq_true ht))
    obtain rfl : others = [] := by
      rw [hrun, List.length_append] at hmore
      exact List.length_eq_zero_iff.mp (by omega)
    rw [List.append_nil] at hrun
    have hsame (t : GsmdTimer) (ht : t ∈ s.timers) : FoundDue now t.since t.delay ↔ t.Due now := by
      refine ⟨fun hfound => ?_, foundDue_of_due⟩
      have hmem : t ∈ s.timers.filter (·.Due now) := by
        rw [hrun]
        exact List.mem_filter.mpr ⟨ht, decide_eq_true hfound⟩
      exact of_decide_eq_true (List.mem_filter.mp hmem).2
    exact ⟨fun t ht => foundDue_iff.mp (hsame t ht), (walkQuiet_iff hsame).mp (hquiet rfl)⟩
  · rintro ⟨hfits, hquiet⟩
    have hsame (t : GsmdTimer) (ht : t ∈ s.timers) : FoundDue now t.since t.delay ↔ t.Due now :=
      foundDue_iff.mpr (hfits t ht)
    obtain ⟨s', hends, hran, htimers⟩ := walk_ends hgoing rfl ((walkQuiet_iff hsame).mpr hquiet)
    have hdue : s.timers.filter (fun t => FoundDue now t.since t.delay) =
        s.timers.filter (·.Due now) :=
      List.filter_congr fun t ht => decide_eq_decide.mpr (hsame t ht)
    have hnot : s.timers.filter (fun t => ¬ FoundDue now t.since t.delay) =
        s.timers.filter (fun t => ¬ t.Due now) :=
      List.filter_congr fun t ht => decide_eq_decide.mpr (not_congr (hsame t ht))
    rw [hdue] at hran htimers
    rw [hnot] at htimers
    exact ⟨s', hends, hran, htimers⟩

theorem numbered_visit (h : s.Numbered) (l : CheckLoop) (n : ℕ) : (s.checkVisit l n).Numbered := by
  unfold checkVisit
  split
  · exact h.sublist (List.Sublist.refl _) rfl
  · split_ifs
    · exact h.sublist List.filter_sublist rfl
    · exact h.sublist (List.Sublist.refl _) rfl

theorem numbered_calc (s' : GsmdTimers) (h : s'.Numbered) (now : Clock) :
    (s'.calcNextExpiration now).Numbered := by
  obtain ⟨asked, alarm, hcalc⟩ := calcNextExpiration_frame s' now
  rw [hcalc]
  exact h.sublist (List.Sublist.refl _) rfl

theorem numbered_next {r : TimerRun} (h : r.s.Numbered) (e : TimerEvent) :
    (r.next e).s.Numbered := by
  cases e with
  | register delay since now =>
    exact numbered_calc { r.s with timers := _, serial := _ } (h.register rfl rfl) now
  | unregister serial now =>
    exact numbered_calc { r.s with timers := _ } (h.sublist List.filter_sublist rfl) now
  | checkBegin now => exact h.sublist (List.Sublist.refl _) rfl
  | checkVisit =>
    rw [TimerRun.next]
    split
    · exact numbered_visit h _ _
    · exact h
  | checkEnd now =>
    exact numbered_calc { r.s with loop := none } (h.sublist (List.Sublist.refl _) rfl) now

theorem runsDue_iff {start r : TimerRun} {es : List TimerEvent} (hs : timerMachine.start start)
    (hr : timerMachine.Run start es r) (cb : GsmdTimer → List Registration) (now later : Clock) :
    RunsDue cb r.s now later ↔ (∀ t ∈ r.s.timers, t.Fits now) ∧ CallbacksQuiet cb now r.s.timers := by
  obtain rfl : start = _ := hs
  apply runsDue_numbered
  apply hr.invariant (I := fun r => r.s.Numbered) _ sound_start.toNumbered
  exact fun r e h _ _ => numbered_next h e

theorem runsDue_again : RunsDue (fun _ => [⟨oneSecond, lateClock, lateClock⟩])
    (noTimers.next (.register oneSecond firstClock firstClock)).s lateClock lateClock := by
  have hcalls : noTimers.Calls := fun l hl => by cases hl
  have hrun : timerMachine.Run noTimers [.register oneSecond firstClock firstClock] _ :=
    Machine.RunWhile.single hcalls trivial
  obtain ⟨asked, alarm, hfirst⟩ := register_frame noTimers.s oneSecond firstClock firstClock
  apply (runsDue_iff rfl hrun _ _ _).mpr
  change (∀ t ∈ (noTimers.s.gsmdTimerRegister oneSecond firstClock firstClock).timers,
    t.Fits lateClock) ∧ CallbacksQuiet _ lateClock
      (noTimers.s.gsmdTimerRegister oneSecond firstClock firstClock).timers
  rw [hfirst]
  refine ⟨fun t ht => ?_, Or.inl rfl⟩
  rw [List.mem_singleton.mp ht]
  exact ⟨by decide, by decide⟩

theorem six_tenths_lt : (600000 : ℤ) < 1000000 := by decide

theorem one_tenth_lt : (100000 : ℤ) < 1000000 := by decide

def sixTenths : Delay :=
  ⟨⟨0, 600000⟩, seconds_ge 0, seconds_lt (Nat.two_pow_pos 31), Int.natCast_nonneg 600000, six_tenths_lt⟩

def sixTenthsClock : Clock :=
  ⟨⟨100, 600000⟩, Int.natCast_nonneg 100, seconds_lt hundred_lt_seconds, Int.natCast_nonneg 600000,
    six_tenths_lt⟩

theorem early_lt_seconds : 101 < 2 ^ 31 := by decide

def earlyClock : Clock :=
  ⟨⟨101, 100000⟩, Int.natCast_nonneg 101, seconds_lt early_lt_seconds, Int.natCast_nonneg 100000, one_tenth_lt⟩

/-- Registered at 100.6 s for 0.6 s, and run at 101.1 s. -/
theorem runsDue_early : ¬ ∀ (start r : TimerRun) (es : List TimerEvent), timerMachine.start start →
    timerMachine.Run start es r →
    ∀ (cb : GsmdTimer → List Registration) (now later : Clock), RunsDue cb r.s now later := by
  intro h
  have hcalls : noTimers.Calls := fun l hl => by cases hl
  have hrun : timerMachine.Run noTimers [.register sixTenths sixTenthsClock sixTenthsClock] _ :=
    Machine.RunWhile.single hcalls trivial
  have hdue := h _ _ _ rfl hrun (fun _ => []) earlyClock earlyClock
  obtain ⟨asked, alarm, hfirst⟩ := register_frame noTimers.s sixTenths sixTenthsClock sixTenthsClock
  have hnumbered := numbered_next sound_start.toNumbered (r := noTimers)
    (.register sixTenths sixTenthsClock sixTenthsClock)
  have hfits := ((runsDue_numbered hnumbered _ _ _).mp hdue).1
  change ∀ t ∈ (noTimers.s.gsmdTimerRegister sixTenths sixTenthsClock sixTenthsClock).timers,
    t.Fits earlyClock at hfits
  rw [hfirst] at hfits
  exact (hfits _ List.mem_cons_self).2 ⟨rfl, by decide⟩

end SystemTestSuite.GsmDaemon
