import SystemTestSuite.GsmDaemon.Timers
import SystemTestSuite.Library.Machine
import Mathlib.Data.List.Nodup

namespace SystemTestSuite.GsmDaemon

open Library GsmdTimers

variable {s s' : GsmdTimers} {now : Clock} {timers : List GsmdTimer} {first t : GsmdTimer}
  {m : Timeval}

/-- The alarm can be set for a timer of the list: it is first in the order of `tv_later` and first to
fire, its time fits into `expires` and comes after the clock, and its microseconds are not a second
or more above those of the clock. -/
structure CalcFits (timers : List GsmdTimer) (now : Clock) (first : GsmdTimer) : Prop where
  mem : first ∈ timers
  least : ∀ t ∈ timers, tvLater t.expires first.expires = true
  earliest : ∀ t ∈ timers, first.expiry ≤ t.expiry
  stored : first.expires.micros = first.expiry
  later : now.micros < first.expiry
  carry : first.expires.usec < now.usec + 1000000

theorem minExpires_least (timers : List GsmdTimer) (m : Timeval) :
    tvLater m (minExpires m timers) = true ∧
      ∀ t ∈ timers, tvLater t.expires (minExpires m timers) = true := by
  induction timers generalizing m with
  | nil => exact ⟨tvLater_refl m, fun t ht => by cases ht⟩
  | cons t timers ih =>
    change tvLater m (minExpires (if tvSmaller t.expires m then t.expires else m) timers) = true ∧ _
    obtain ⟨hfirst, hrest⟩ := ih (if tvSmaller t.expires m then t.expires else m)
    have hmin : tvLater m (if tvSmaller t.expires m then t.expires else m) = true ∧
        tvLater t.expires (if tvSmaller t.expires m then t.expires else m) = true := by
      split_ifs with h
      · exact ⟨h, tvLater_refl _⟩
      · exact ⟨tvLater_refl m, (tvLater_total _ _).resolve_left h⟩
    refine ⟨tvLater_trans hmin.1 hfirst, fun u hu => ?_⟩
    rcases List.mem_cons.mp hu with rfl | hu
    · exact tvLater_trans hmin.2 hfirst
    · exact hrest u hu

theorem minExpires_mem (timers : List GsmdTimer) (m : Timeval) :
    minExpires m timers = m ∨ ∃ t ∈ timers, minExpires m timers = t.expires := by
  induction timers generalizing m with
  | nil => exact Or.inl rfl
  | cons t timers ih =>
    change minExpires (if tvSmaller t.expires m then t.expires else m) timers = m ∨
      ∃ u ∈ t :: timers,
        minExpires (if tvSmaller t.expires m then t.expires else m) timers = u.expires
    rcases ih (if tvSmaller t.expires m then t.expires else m) with heq | ⟨u, hu, heq⟩
    · rw [heq]
      split_ifs
      · exact Or.inr ⟨t, List.mem_cons_self, rfl⟩
      · exact Or.inl rfl
    · exact Or.inr ⟨u, List.mem_cons_of_mem t hu, heq⟩

theorem CalcFits.minExpires_eq (h : CalcFits timers now first) (ht : t ∈ timers) :
    minExpires t.expires timers = first.expires := by
  apply tvLater_antisymm
  · rcases minExpires_mem timers t.expires with heq | ⟨u, hu, heq⟩
    · rw [heq]
      exact h.least t ht
    · rw [heq]
      exact h.least u hu
  · exact (minExpires_least timers t.expires).2 first h.mem

structure Timeval.Positive (v : Timeval) : Prop where
  sec_nonneg : 0 ≤ v.sec
  usec_nonneg : 0 ≤ v.usec
  pos : 0 < v.micros

theorem tvSub_range {e : Timeval} (husec : 0 ≤ e.usec) (hsec : e.sec < 2 ^ 31)
    (hlater : now.micros < e.micros) (hcarry : e.usec < now.usec + 1000000) :
    tvSub e now.toTimeval = if e.usec < now.usec then
      ⟨e.sec - now.sec - 1, e.usec - now.usec + 1000000⟩ else ⟨e.sec - now.sec, e.usec - now.usec⟩ := by
  have := now.sec_nonneg
  have := now.usec_nonneg
  have := now.usec_lt
  unfold Timeval.micros at hlater
  have hdiff : wrap32 (e.sec - now.sec) = e.sec - now.sec := wrap32_of_range (by omega) (by omega)
  have hudiff : wrap32 (e.usec - now.usec) = e.usec - now.usec :=
    wrap32_of_range (by omega) (by omega)
  rw [tvSub, hdiff, hudiff, borrow]
  dsimp only
  split_ifs with hneg hless hless
  · have hless' : wrap32 (e.sec - now.sec - 1) = e.sec - now.sec - 1 :=
      wrap32_of_range (by omega) (by omega)
    rw [borrow, if_neg (by dsimp only; omega), hless']
  · omega
  · omega
  · rfl

theorem CalcFits.tvSub_eq (h : CalcFits timers now first) :
    (tvSub first.expires now.toTimeval).Positive ∧
      (tvSub first.expires now.toTimeval).usec < 1000000 ∧
      now.micros + (tvSub first.expires now.toTimeval).micros = first.expiry := by
  have := now.usec_nonneg
  have := now.usec_lt
  have husec := expires_usec first.since first.delay
  have hsec := expires_sec first.since first.delay
  have := first.since.usec_nonneg
  have := first.delay.usec_nonneg
  have hlater := h.later
  have hcarry := h.carry
  have hexpiry := h.stored
  change first.expires.usec = _ at husec
  change first.expires.sec = _ at hsec
  have hhigh : first.expires.sec < 2 ^ 31 := by
    rw [hsec]
    have := first.since.sec_lt
    have := first.delay.sec_lt
    split_ifs <;> omega
  rw [← hexpiry] at hlater ⊢
  rw [tvSub_range (by omega) hhigh hlater hcarry]
  unfold Timeval.micros at *
  split_ifs with hless
  · refine ⟨⟨?_, ?_, ?_⟩, ?_, ?_⟩ <;> dsimp only [Timeval.micros] <;> omega
  · refine ⟨⟨?_, ?_, ?_⟩, ?_, ?_⟩ <;> dsimp only [Timeval.micros] <;> omega

def Alarm.InTime (a : Alarm) (timers : List GsmdTimer) : Prop :=
  a.value.Positive ∧ ((∀ t ∈ timers, a.since.micros + a.value.micros ≤ t.expiry) ∨
    (∃ t ∈ timers, t.expiry ≤ a.since.micros) ∧ a.value.micros = 1)

theorem calcNextExpiration_fits (h : CalcFits s.timers now first) : ∃ value : Timeval,
    s.calcNextExpiration now =
      { s with asked := s.asked ++ [value], alarm := some ⟨value, now⟩ } ∧
    value.Positive ∧ Alarm.InTime ⟨value, now⟩ s.timers := by
  obtain ⟨hpos, hlt, hsum⟩ := h.tvSub_eq
  refine ⟨tvSub first.expires now.toTimeval, ?_, hpos, hpos, Or.inl fun t ht => ?_⟩
  · cases htimers : s.timers with
    | nil =>
      have hmem := h.mem
      rw [htimers] at hmem
      cases hmem
    | cons t timers =>
      have hmin := h.minExpires_eq (t := t) (by rw [htimers]; exact List.mem_cons_self)
      rw [calcNextExpiration_cons htimers, hmin, setitimer,
        if_pos ⟨hpos.sec_nonneg, hpos.usec_nonneg, hlt⟩, htimers]
  · rw [hsum]
    exact h.earliest t ht

inductive TimerEvent where
  | register (delay : Delay) (since now : Clock)
  | unregister (serial : ℕ) (now : Clock)
  | checkBegin (now : Clock)
  | checkVisit
  | checkEnd (now : Clock)

structure TimerRun where
  s : GsmdTimers
  settled : Bool

namespace TimerRun

/-- The code that calls is not suspended in `gsmd_timer_check_n_run`, other than in a callback. -/
def Calls (r : TimerRun) : Prop := ∀ l, r.s.loop = some l → l.inCallback = true

def Enabled (r : TimerRun) : TimerEvent → Prop
  | .register _ _ _ => r.Calls
  | .unregister serial _ => r.Calls ∧ serial ∈ r.s.timers.map (·.serial)
  | .checkBegin _ => r.s.loop = none
  | .checkVisit => ∃ l n, r.s.loop = some l ∧ l.next = some n
  | .checkEnd _ => ∃ l, r.s.loop = some l ∧ l.next = none

def next (r : TimerRun) : TimerEvent → TimerRun
  | .register delay since now => ⟨r.s.gsmdTimerRegister delay since now, true⟩
  | .unregister serial now => ⟨r.s.gsmdTimerUnregister serial now, true⟩
  | .checkBegin now => ⟨r.s.checkBegin now, false⟩
  | .checkVisit =>
    match r.s.loop with
    | some ⟨now, some n, inCallback⟩ => ⟨r.s.checkVisit ⟨now, some n, inCallback⟩ n, false⟩
    | _ => r
  | .checkEnd now => ⟨r.s.checkEnd now, true⟩

def AlarmFits (timers : List GsmdTimer) (now : Clock) : Prop :=
  timers = [] ∨ ∃ first, CalcFits timers now first

/-- Whenever the alarm is computed it can be set, and no callback takes off the timer that the loop goes
on with. -/
def Fits (r : TimerRun) : TimerEvent → Prop
  | .register delay since now => AlarmFits (r.s.timers ++ [⟨r.s.serial, since, delay⟩]) now
  | .unregister serial now => AlarmFits (r.s.timers.filter (·.serial ≠ serial)) now ∧
      ∀ l, r.s.loop = some l → l.next ≠ some serial
  | .checkBegin _ => True
  | .checkVisit => True
  | .checkEnd now => AlarmFits r.s.timers now

/-- No zero or negative value was asked for, and after a call that leaves timers the alarm is set. -/
structure Alarmed (r : TimerRun) : Prop where
  asked : ∀ v ∈ r.s.asked, v.Positive
  found : r.s.lost = false
  alarm : r.settled = true → r.s.timers ≠ [] → ∃ a, r.s.alarm = some a ∧ a.InTime r.s.timers

end TimerRun

def timerMachine : Machine TimerRun TimerEvent where
  start r := r = ⟨⟨[], none, false, 0, [], [], none⟩, true⟩
  enabled := TimerRun.Enabled
  next := TimerRun.next

structure GsmdTimers.Numbered (s : GsmdTimers) : Prop where
  unique : (s.timers.map (·.serial)).Nodup
  fresh : ∀ t ∈ s.timers, t.serial < s.serial

structure GsmdTimers.Sound (s : GsmdTimers) : Prop extends s.Numbered where
  asked : ∀ v ∈ s.asked, v.Positive
  found : s.lost = false
  onList : ∀ l n, s.loop = some l → l.next = some n → n ∈ s.timers.map (·.serial)

open TimerRun

variable {r : TimerRun} {e : TimerEvent} {l : CheckLoop} {n : ℕ}

theorem GsmdTimers.Numbered.sublist (h : s.Numbered) (htimers : s'.timers.Sublist s.timers)
    (hserial : s'.serial = s.serial) : s'.Numbered := by
  refine ⟨h.unique.sublist (htimers.map _), fun t ht => ?_⟩
  rw [hserial]
  exact h.fresh t (htimers.subset ht)

theorem GsmdTimers.Numbered.register (h : s.Numbered) {since : Clock} {delay : Delay}
    (htimers : s'.timers = s.timers ++ [⟨s.serial, since, delay⟩])
    (hserial : s'.serial = s.serial + 1) : s'.Numbered := by
  constructor
  · rw [htimers, List.map_append, List.map_singleton]
    apply List.Nodup.append h.unique (List.nodup_singleton _)
    intro k hk hlast
    obtain ⟨t, ht, rfl⟩ := List.mem_map.mp hk
    have hlt := h.fresh t ht
    rw [List.mem_singleton.mp hlast] at hlt
    exact Nat.lt_irrefl _ hlt
  · intro t ht
    rw [htimers] at ht
    rw [hserial]
    rcases List.mem_append.mp ht with ht | ht
    · exact Nat.lt_succ_of_lt (h.fresh t ht)
    · rw [List.mem_singleton.mp ht]
      exact Nat.lt_succ_self _

theorem GsmdTimers.Sound.calc (h : s.Sound) (hfits : AlarmFits s.timers now) :
    (s.calcNextExpiration now).Sound ∧ Alarmed ⟨s.calcNextExpiration now, true⟩ := by
  rcases hfits with hnil | ⟨first, hfits⟩
  · rw [calcNextExpiration_nil hnil]
    exact ⟨h, h.asked, h.found, fun _ hne => absurd hnil hne⟩
  · obtain ⟨value, hcalc, hpos, htime⟩ := calcNextExpiration_fits hfits
    have hasked : ∀ v ∈ s.asked ++ [value], v.Positive :=
      List.forall_mem_append.mpr ⟨h.asked, List.forall_mem_singleton.mpr hpos⟩
    rw [hcalc]
    exact ⟨⟨h.sublist (List.Sublist.refl _) rfl, hasked, h.found, h.onList⟩, hasked, h.found,
      fun _ _ => ⟨_, rfl, htime⟩⟩

theorem sound_register (h : s.Sound) (delay : Delay) (since : Clock) :
    GsmdTimers.Sound
      { s with timers := s.timers ++ [⟨s.serial, since, delay⟩], serial := s.serial + 1 } := by
  refine ⟨h.register rfl rfl, h.asked, h.found, ?_⟩
  intro l n hl hn
  dsimp only
  rw [List.map_append]
  exact List.mem_append_left _ (h.onList l n hl hn)

theorem sound_filter (h : s.Sound) (n : ℕ) (hnext : ∀ l, s.loop = some l → l.next ≠ some n) :
    GsmdTimers.Sound { s with timers := s.timers.filter (·.serial ≠ n) } := by
  refine ⟨h.sublist List.filter_sublist rfl, h.asked, h.found, ?_⟩
  intro l k hl hk
  obtain ⟨t, ht, rfl⟩ := List.mem_map.mp (h.onList l k hl hk)
  apply List.mem_map_of_mem
  apply List.mem_filter.mpr
  refine ⟨ht, ?_⟩
  rw [decide_eq_true_eq]
  rintro rfl
  exact hnext l hl hk

theorem sound_begin (h : s.Sound) (now : Clock) : (s.checkBegin now).Sound := by
  refine ⟨h.sublist (List.Sublist.refl _) rfl, h.asked, h.found, ?_⟩
  intro l n hl hn
  obtain rfl := Option.some.inj hl
  obtain ⟨t, ht, rfl⟩ := Option.map_eq_some_iff.mp hn
  exact List.mem_map_of_mem (List.mem_of_mem_head? ht)

theorem checkVisit_eq (h : s.Numbered) {kept more : List GsmdTimer}
    {cur : GsmdTimer} (htimers : s.timers = kept ++ cur :: more) (l : CheckLoop) :
    s.checkVisit l cur.serial =
      if tvLater l.now.toTimeval cur.expires then
        { s with
          timers := kept ++ more
          ran := s.ran ++ [cur]
          loop := some ⟨l.now, more.head?.map (·.serial), true⟩ }
      else { s with loop := some ⟨l.now, more.head?.map (·.serial), false⟩ } := by
  have hunique := h.unique
  rw [htimers, List.map_append, List.map_cons] at hunique
  obtain ⟨-, hmore, hdisjoint⟩ := List.nodup_append.mp hunique
  have hkept : ∀ t ∈ kept, (decide (t.serial ≠ cur.serial)) = true := by
    intro t ht
    rw [decide_eq_true_eq]
    exact hdisjoint _ (List.mem_map_of_mem ht) _ List.mem_cons_self
  have hbehind : ∀ t ∈ more, (decide (t.serial ≠ cur.serial)) = true := by
    intro t ht
    rw [decide_eq_true_eq]
    intro heq
    exact (List.nodup_cons.mp hmore).1 (heq ▸ List.mem_map_of_mem ht)
  have hdrop : s.timers.dropWhile (·.serial ≠ cur.serial) = cur :: more := by
    rw [htimers, List.dropWhile_append_of_pos hkept, List.dropWhile_cons_of_neg (by simp)]
  have hfilter : s.timers.filter (·.serial ≠ cur.serial) = kept ++ more := by
    rw [htimers, List.filter_append, List.filter_eq_self.mpr hkept,
      List.filter_cons_of_neg (by simp), List.filter_eq_self.mpr hbehind]
  rw [checkVisit, hdrop, hfilter]

theorem sound_visit (h : s.Sound) (hl : s.loop = some l) (hn : l.next = some n) :
    (s.checkVisit l n).Sound := by
  obtain ⟨cur, hcur, rfl⟩ := List.mem_map.mp (h.onList l n hl hn)
  obtain ⟨kept, more, htimers⟩ := List.append_of_mem hcur
  have honward (k : ℕ) (hk : more.head?.map (·.serial) = some k) : k ∈ more.map (·.serial) := by
    obtain ⟨t, ht, rfl⟩ := Option.map_eq_some_iff.mp hk
    exact List.mem_map_of_mem (List.mem_of_mem_head? ht)
  rw [checkVisit_eq h.toNumbered htimers]
  split_ifs
  · have hsub : (kept ++ more).Sublist s.timers := by
      rw [htimers]
      exact List.Sublist.append_left (List.sublist_cons_self cur more) kept
    refine ⟨h.sublist hsub rfl, h.asked, h.found, ?_⟩
    intro l' k hl' hk
    obtain rfl := Option.some.inj hl'
    dsimp only
    rw [List.map_append]
    exact List.mem_append_right _ (honward k hk)
  · refine ⟨h.sublist (List.Sublist.refl _) rfl, h.asked, h.found, ?_⟩
    intro l' k hl' hk
    obtain rfl := Option.some.inj hl'
    dsimp only
    rw [htimers, List.map_append]
    exact List.mem_append_right _ (List.mem_cons_of_mem _ (honward k hk))

theorem sound_next (h : r.s.Sound) (he : r.Enabled e) (hfits : r.Fits e) :
    (r.next e).s.Sound ∧ Alarmed (r.next e) := by
  cases e with
  | register delay since now => exact (sound_register h delay since).calc hfits
  | unregister serial now => exact (sound_filter h serial hfits.2).calc hfits.1
  | checkBegin now =>
    have hbegin := sound_begin h now
    exact ⟨hbegin, hbegin.asked, hbegin.found, fun hsettled => by cases hsettled⟩
  | checkVisit =>
    obtain ⟨l, n, hl, hn⟩ := he
    have hvisit := sound_visit h hl hn
    have hnext : r.next .checkVisit = ⟨r.s.checkVisit l n, false⟩ := by
      obtain ⟨now, next, inCallback⟩ := l
      obtain rfl : next = some n := hn
      rw [TimerRun.next, hl]
    rw [hnext]
    exact ⟨hvisit, hvisit.asked, hvisit.found, fun hsettled => by cases hsettled⟩
  | checkEnd now =>
    have hclosed : GsmdTimers.Sound { r.s with loop := none } :=
      ⟨h.sublist (List.Sublist.refl _) rfl, h.asked, h.found, fun l n hl => by cases hl⟩
    exact hclosed.calc hfits

theorem sound_start : GsmdTimers.Sound ⟨[], none, false, 0, [], [], none⟩ := by
  refine ⟨⟨List.nodup_nil, ?_⟩, ?_, rfl, ?_⟩
  · exact fun t ht => by cases ht
  · exact fun v hv => by cases hv
  · exact fun l n hl => by cases hl

/-- While every alarm can be set when it is computed, the alarm is set after every call. -/
theorem alarmed_throughout {start : TimerRun} {es : List TimerEvent} (hs : timerMachine.start start)
    (hr : timerMachine.RunWhile TimerRun.Fits start es r) :
    timerMachine.Throughout Alarmed start es := by
  have hstep (r : TimerRun) (e : TimerEvent) (h : r.s.Sound ∧ Alarmed r)
      (he : timerMachine.enabled r e) (hfits : r.Fits e) :
      (timerMachine.next r e).s.Sound ∧ Alarmed (timerMachine.next r e) := sound_next h.1 he hfits
  apply hr.throughout hstep (fun _ h => h.2)
  obtain rfl : start = _ := hs
  exact ⟨sound_start, sound_start.asked, sound_start.found, fun _ hne => absurd rfl hne⟩

theorem register_frame (s : GsmdTimers) (delay : Delay) (since now : Clock) : ∃ asked alarm,
    s.gsmdTimerRegister delay since now =
      { s with
        timers := s.timers ++ [⟨s.serial, since, delay⟩]
        serial := s.serial + 1
        asked := asked
        alarm := alarm } :=
  calcNextExpiration_frame
    { s with timers := s.timers ++ [⟨s.serial, since, delay⟩], serial := s.serial + 1 } now

theorem seconds_lt {n : ℕ} (h : n < 2 ^ 31) : (n : ℤ) < 2 ^ 31 := by omega

theorem seconds_ge (n : ℕ) : -2 ^ 31 ≤ (n : ℤ) := by omega

theorem zero_lt_million : (0 : ℤ) < 1000000 := by decide

def secondsClock (n : ℕ) (h : n < 2 ^ 31) : Clock :=
  ⟨⟨n, 0⟩, Int.natCast_nonneg n, seconds_lt h, Int.le_refl 0, zero_lt_million⟩

def secondsDelay (n : ℕ) (h : n < 2 ^ 31) : Delay :=
  ⟨⟨n, 0⟩, seconds_ge n, seconds_lt h, Int.le_refl 0, zero_lt_million⟩

theorem one_lt_seconds : 1 < 2 ^ 31 := by decide

theorem hundred_lt_seconds : 100 < 2 ^ 31 := by decide

theorem late_lt_seconds : 102 < 2 ^ 31 := by decide

def oneSecond : Delay := secondsDelay 1 one_lt_seconds

def firstClock : Clock := secondsClock 100 hundred_lt_seconds

def lateClock : Clock := secondsClock 102 late_lt_seconds

def noTimers : TimerRun := ⟨⟨[], none, false, 0, [], [], none⟩, true⟩

theorem three_lt_seconds : 3 < 2 ^ 31 := by decide

def threeSeconds : Delay := secondsDelay 3 three_lt_seconds

def dueTimer : GsmdTimer := ⟨0, firstClock, oneSecond⟩

def laterTimer : GsmdTimer := ⟨1, firstClock, threeSeconds⟩

theorem calcFits_single (hstored : t.expires.micros = t.expiry) (hlater : now.micros < t.expiry)
    (hcarry : t.expires.usec < now.usec + 1000000) : CalcFits [t] now t := by
  refine ⟨List.mem_cons_self, ?_, ?_, hstored, hlater, hcarry⟩
  · intro u hu
    obtain rfl := List.mem_singleton.mp hu
    exact tvLater_refl _
  · intro u hu
    obtain rfl := List.mem_singleton.mp hu
    exact Int.le_refl _

theorem dueTimer_fits : CalcFits [dueTimer] firstClock dueTimer :=
  calcFits_single (by decide) (by decide) (by decide)

theorem dueTimer_first : CalcFits [dueTimer, laterTimer] firstClock dueTimer := by
  refine ⟨List.mem_cons_self, ?_, ?_, by decide, by decide, by decide⟩
  · intro t ht
    rcases List.mem_cons.mp ht with rfl | ht
    · exact tvLater_refl _
    · rw [List.mem_singleton.mp ht]
      decide
  · intro t ht
    rcases List.mem_cons.mp ht with rfl | ht
    · exact Int.le_refl _
    · rw [List.mem_singleton.mp ht]
      decide

theorem laterTimer_fits : CalcFits [laterTimer] lateClock laterTimer :=
  calcFits_single (by decide) (by decide) (by decide)

def oneRegistered (asked : List Timeval) (alarm : Option Alarm) : TimerRun :=
  ⟨⟨[dueTimer], none, false, 1, [], asked, alarm⟩, true⟩

def bothRegistered (asked : List Timeval) (alarm : Option Alarm) : TimerRun :=
  ⟨⟨[dueTimer, laterTimer], none, false, 2, [], asked, alarm⟩, true⟩

theorem alarmed_register : timerMachine.Throughout Alarmed noTimers
    [.register oneSecond firstClock firstClock, .register threeSeconds firstClock firstClock,
      .checkBegin lateClock, .checkVisit, .checkVisit, .checkEnd lateClock] := by
  obtain ⟨asked, alarm, hone⟩ := register_frame noTimers.s oneSecond firstClock firstClock
  obtain ⟨asked', alarm', htwo⟩ :=
    register_frame (oneRegistered asked alarm).s threeSeconds firstClock firstClock
  have hfirst : timerMachine.next noTimers (.register oneSecond firstClock firstClock) =
      oneRegistered asked alarm := congrArg (TimerRun.mk · true) hone
  have hsecond : timerMachine.next (oneRegistered asked alarm)
      (.register threeSeconds firstClock firstClock) = bothRegistered asked' alarm' :=
    congrArg (TimerRun.mk · true) htwo
  have hcheck : timerMachine.RunWhile TimerRun.Fits (bothRegistered asked' alarm')
      [.checkBegin lateClock, .checkVisit, .checkVisit, .checkEnd lateClock] _ :=
    Machine.Checks.runWhile ⟨⟨rfl, trivial⟩, ⟨⟨_, _, rfl, rfl⟩, trivial⟩, ⟨⟨_, _, rfl, rfl⟩, trivial⟩,
      ⟨⟨_, rfl, rfl⟩, Or.inr ⟨_, laterTimer_fits⟩⟩, trivial⟩
  have hcalls : timerMachine.enabled noTimers (.register oneSecond firstClock firstClock) :=
    fun l hl => by cases hl
  have hcalls' : timerMachine.enabled (oneRegistered asked alarm)
      (.register threeSeconds firstClock firstClock) := fun l hl => by cases hl
  have hfits : noTimers.Fits (.register oneSecond firstClock firstClock) :=
    Or.inr ⟨_, dueTimer_fits⟩
  have hfits' : (oneRegistered asked alarm).Fits (.register threeSeconds firstClock firstClock) :=
    Or.inr ⟨_, dueTimer_first⟩
  rw [← hsecond] at hcheck
  have hboth := Machine.RunWhile.cons hcalls' hfits' hcheck
  rw [← hfirst] at hboth
  exact alarmed_throughout rfl (Machine.RunWhile.cons hcalls hfits hboth)

theorem register_asked (h : s.timers = t :: timers) (delay : Delay) (since now : Clock) :
    tvSub (minExpires t.expires (t :: (timers ++ [⟨s.serial, since, delay⟩]))) now.toTimeval ∈
      (s.gsmdTimerRegister delay since now).asked := by
  have htimers : s.timers ++ [⟨s.serial, since, delay⟩] =
      t :: (timers ++ [⟨s.serial, since, delay⟩]) := by rw [h]; rfl
  obtain ⟨alarm, hset⟩ := setitimer_asked
    { s with timers := s.timers ++ [⟨s.serial, since, delay⟩], serial := s.serial + 1 }
    (tvSub (minExpires t.expires (s.timers ++ [⟨s.serial, since, delay⟩])) now.toTimeval) now
  rw [gsmdTimerRegister, calcNextExpiration_cons (t := t) htimers, hset, ← htimers]
  exact List.mem_append_right _ (List.mem_singleton.mpr rfl)

theorem alarmed_late : ¬ ∀ (start r : TimerRun) (es : List TimerEvent), timerMachine.start start →
    timerMachine.Run start es r → timerMachine.Throughout Alarmed start es := by
  intro h
  have hcalls : noTimers.Calls := fun l hl => by cases hl
  have hone : timerMachine.Run noTimers [.register oneSecond firstClock firstClock] _ :=
    Machine.RunWhile.single hcalls trivial
  obtain ⟨asked, alarm, hfirst⟩ := register_frame noTimers.s oneSecond firstClock firstClock
  have henabled : timerMachine.enabled
      (timerMachine.next noTimers (.register oneSecond firstClock firstClock))
      (.register oneSecond lateClock lateClock) := by
    change TimerRun.Calls ⟨noTimers.s.gsmdTimerRegister oneSecond firstClock firstClock, true⟩
    rw [hfirst]
    exact hcalls
  have hasked := (h _ _ _ rfl (hone.snoc henabled trivial) _ (List.prefix_refl _)).asked
  have hlast := register_asked (s := noTimers.s.gsmdTimerRegister oneSecond firstClock firstClock)
    (t := ⟨0, firstClock, oneSecond⟩) (by rw [hfirst]; rfl) oneSecond lateClock lateClock
  have hvalue : tvSub ⟨101, 0⟩ ⟨102, 0⟩ = ⟨-1, 0⟩ := by
    rw [tvSub, borrow]
    rfl
  have hpos := hasked _ hlast
  change (tvSub ⟨101, 0⟩ ⟨102, 0⟩).Positive at hpos
  rw [hvalue] at hpos
  exact absurd hpos.sec_nonneg (by decide)

end SystemTestSuite.GsmDaemon
