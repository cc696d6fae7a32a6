import Mathlib.Data.List.Perm.Basic
import SystemTestSuite.GsmDaemon.LinuxList

/-!
The main loop of the daemon, `gsmd/select.c`. A `struct gsmd_fd` is an address, `gsmdFds` that of
the head of the list.
-/

namespace SystemTestSuite.GsmDaemon

open Library

structure FdFlags where
  read : Bool
  write : Bool
  except : Bool
  deriving DecidableEq, Repr

namespace FdFlags

def none : FdFlags := ⟨false, false, false⟩

def or (x y : FdFlags) : FdFlags := ⟨x.read || y.read, x.write || y.write, x.except || y.except⟩

def and (x y : FdFlags) : FdFlags := ⟨x.read && y.read, x.write && y.write, x.except && y.except⟩

end FdFlags

structure GsmdFd where
  fd : ℤ
  when : FdFlags
  deriving DecidableEq, Repr

structure SelectState where
  links : Links ℕ
  gfd : ℕ → GsmdFd
  maxfd : ℤ
  calls : List (ℕ × FdFlags)

structure NewUser where
  ptr : ℕ
  gfd : GsmdFd
  fcntl : Bool
  deriving DecidableEq, Repr

inductive CallbackKind
  | stays
  | leaves
  | accepts (newuser : NewUser)

/-- What a callback does to the descriptors: it may change what any of them waits for, and it may
unregister its own or register a new one. -/
structure CallbackEffect where
  kind : CallbackKind
  when : ℕ → FdFlags → FdFlags

def gsmdRegisterFd (gsmdFds : ℕ) (s : SelectState) (fd : ℕ) (fcntl : Bool) : ℤ × SelectState :=
  if fcntl then
    (0, { s with
      maxfd := if (s.gfd fd).fd > s.maxfd then (s.gfd fd).fd else s.maxfd
      links := llistAddTail s.links fd gsmdFds })
  else (-1, s)

def gsmdUnregisterFd (s : SelectState) (fd : ℕ) : SelectState :=
  { s with links := llistDel s.links fd }

def requested (gfd : ℕ → GsmdFd) (fds : List ℕ) (fd : ℤ) : FdFlags :=
  fds.foldl (fun set ufd => if (gfd ufd).fd = fd then set.or (gfd ufd).when else set) FdFlags.none

/-- `select`: of the sets stays what the kernel finds ready, below `nfds`. -/
def selectSets (nfds : ℤ) (sets kernel : ℤ → FdFlags) (fd : ℤ) : FdFlags :=
  if 0 ≤ fd ∧ fd < nfds then (sets fd).and (kernel fd) else FdFlags.none

def runCallback (gsmdFds : ℕ) (cb : ℕ → FdFlags → CallbackEffect) (ufd : ℕ) (flags : FdFlags)
    (s : SelectState) : SelectState :=
  let e := cb ufd flags
  let s := { s with
    calls := s.calls ++ [(ufd, flags)]
    gfd := fun a => ⟨(s.gfd a).fd, e.when a (s.gfd a).when⟩ }
  match e.kind with
  | .stays => s
  | .leaves => gsmdUnregisterFd s ufd
  | .accepts u =>
    (gsmdRegisterFd gsmdFds { s with gfd := Function.update s.gfd u.ptr u.gfd } u.ptr u.fcntl).2

def selectBody (gsmdFds : ℕ) (cb : ℕ → FdFlags → CallbackEffect) (sets : ℤ → FdFlags) (ufd : ℕ)
    (s : SelectState) : SelectState :=
  let flags := sets (s.gfd ufd).fd
  if flags ≠ FdFlags.none then runCallback gsmdFds cb ufd flags s else s

/-- One call, where `i` is what `select` returns; at most so many rounds in a loop. -/
def gsmdSelectMain (gsmdFds : ℕ) (cb : ℕ → FdFlags → CallbackEffect) (kernel : ℤ → FdFlags) (i : ℤ)
    (rounds : ℕ) (s : SelectState) : Option SelectState := do
  let fds ← llistForEach s.links gsmdFds rounds (s.links.next gsmdFds)
  let sets := selectSets (s.maxfd + 1) (requested s.gfd fds) kernel
  if i > 0 then
    let first := s.links.next gsmdFds
    llistForEachSafe SelectState.links (selectBody gsmdFds cb sets) gsmdFds rounds first
      (first.bind s.links.next) s
  else some s

structure Registered (gsmdFds : ℕ) (s : SelectState) (fds : List ℕ) : Prop where
  list : HoldsList s.links gsmdFds fds
  distinct : (fds.map (fun a => (s.gfd a).fd)).Nodup
  watched : ∀ a ∈ fds, 0 ≤ (s.gfd a).fd ∧ (s.gfd a).fd ≤ s.maxfd

section

variable (cb : ℕ → FdFlags → CallbackEffect) (sets : ℤ → FdFlags) (gfd : ℕ → GsmdFd)

def readyCalls (fds : List ℕ) : List (ℕ × FdFlags) :=
  (fds.map (fun a => (a, sets (gfd a).fd))).filter (fun c => c.2 ≠ FdFlags.none)

def attempt (c : ℕ × FdFlags) : Option NewUser :=
  match (cb c.1 c.2).kind with
  | .accepts u => some u
  | _ => none

def attempts (fds : List ℕ) : List NewUser := (readyCalls sets gfd fds).filterMap (attempt cb)

def newUsers (fds : List ℕ) : List NewUser := (attempts cb sets gfd fds).filter (·.fcntl)

def leavesList (a : ℕ) : Bool :=
  match (cb a (sets (gfd a).fd)).kind with
  | .leaves => sets (gfd a).fd ≠ FdFlags.none
  | _ => false

def keptFds (fds : List ℕ) : List ℕ := fds.filter (fun a => ¬ leavesList cb sets gfd a)

end

/-- New records and descriptors are none of those in use. `accept` comes before any `close` of a
round, for the socket that listens is registered before the clients. -/
structure FreshUsers (gsmdFds : ℕ) (gfd : ℕ → GsmdFd) (fds : List ℕ) (users : List NewUser) :
    Prop where
  ptr : ∀ u ∈ users, u.ptr ∉ gsmdFds :: fds
  ptrs : (users.map (·.ptr)).Nodup
  fd : ∀ u ∈ users, u.fcntl = true → 0 ≤ u.gfd.fd ∧ u.gfd.fd ∉ fds.map (fun a => (gfd a).fd)
  fds : ((users.filter (·.fcntl)).map (·.gfd.fd)).Nodup

section

variable {gsmdFds : ℕ} {cb : ℕ → FdFlags → CallbackEffect} {sets kernel : ℤ → FdFlags}
  {gfd : ℕ → GsmdFd} {fds : List ℕ} {s s₀ : SelectState} {a : ℕ}

theorem readyCalls_concat : readyCalls sets gfd (fds ++ [a]) = readyCalls sets gfd fds ++
    if sets (gfd a).fd ≠ FdFlags.none then [(a, sets (gfd a).fd)] else [] := by
  rw [readyCalls, List.map_append, List.filter_append]
  congr 1
  by_cases h : sets (gfd a).fd = FdFlags.none <;> simp [h]

theorem requested_fold {fd : ℤ} (h : fd ∉ fds.map (fun a => (gfd a).fd)) (set : FdFlags) :
    fds.foldl (fun set ufd => if (gfd ufd).fd = fd then set.or (gfd ufd).when else set) set =
      set := by
  induction fds with
  | nil => rfl
  | cons b fds ih =>
    rw [List.map_cons, List.mem_cons, not_or] at h
    rw [List.foldl_cons, if_neg (Ne.symm h.1), ih h.2]

theorem requested_mem (hdistinct : (fds.map (fun a => (gfd a).fd)).Nodup) (ha : a ∈ fds) :
    requested gfd fds (gfd a).fd = (gfd a).when := by
  obtain ⟨l₁, l₂, rfl⟩ := List.append_of_mem ha
  rw [List.map_append, List.map_cons, List.nodup_append, List.nodup_cons] at hdistinct
  obtain ⟨-, ⟨hback, -⟩, hfront⟩ := hdistinct
  have hstart : (gfd a).fd ∉ l₁.map (fun a => (gfd a).fd) :=
    fun hm => hfront _ hm _ (by simp) rfl
  rw [requested, List.foldl_append, requested_fold hstart, List.foldl_cons, if_pos rfl,
    requested_fold hback]
  simp [FdFlags.or, FdFlags.none]

theorem selectSets_not_mem {nfds fd : ℤ} (h : fd ∉ fds.map (fun a => (gfd a).fd)) :
    selectSets nfds (requested gfd fds) kernel fd = FdFlags.none := by
  rw [selectSets, requested, requested_fold h]
  split_ifs <;> rfl

theorem Registered.ready (h : Registered gsmdFds s fds) (ha : a ∈ fds) :
    selectSets (s.maxfd + 1) (requested s.gfd fds) kernel (s.gfd a).fd =
      (s.gfd a).when.and (kernel (s.gfd a).fd) := by
  have hrange := h.watched a ha
  rw [selectSets, if_pos ⟨hrange.1, by omega⟩, requested_mem h.distinct ha]

variable (gsmdFds cb sets fds s₀)

/-- The second loop after the descriptors `before`, with `after` and the new ones to come. New ones
in `past` are not visited, or were. -/
structure SelectTurn (done todo : List ℕ) (s : SelectState) (before after : List ℕ)
    (past coming : List NewUser) : Prop where
  split : fds = before ++ after
  users : newUsers cb sets s₀.gfd before = past ++ coming
  todo : todo = after ++ coming.map (·.ptr)
  past : after ≠ [] → past = []
  done : done.length + coming.length ≤
    before.length + (newUsers cb sets s₀.gfd before).length
  calls : s.calls = s₀.calls ++ readyCalls sets s₀.gfd before
  list : HoldsList s.links gsmdFds (keptFds cb sets s₀.gfd before ++ after ++
    (newUsers cb sets s₀.gfd before).map (·.ptr))
  gfd : ∀ a ∈ fds, (s.gfd a).fd = (s₀.gfd a).fd
  newGfd : ∀ u ∈ newUsers cb sets s₀.gfd before, (s.gfd u.ptr).fd = u.gfd.fd
  maxfd : s₀.maxfd ≤ s.maxfd
  newWatched : ∀ u ∈ newUsers cb sets s₀.gfd before, u.gfd.fd ≤ s.maxfd

variable {gsmdFds cb sets fds s₀} {before after : List ℕ} {past coming : List NewUser}
  {done todo : List ℕ} {u : NewUser}

theorem attempts_concat : attempts cb sets gfd (fds ++ [a]) = attempts cb sets gfd fds ++
    if sets (gfd a).fd ≠ FdFlags.none then (attempt cb (a, sets (gfd a).fd)).toList else [] := by
  rw [attempts, readyCalls_concat, List.filterMap_append]
  by_cases h : sets (gfd a).fd = FdFlags.none
  · simp [h, attempts]
  · rw [if_pos h, if_pos h, attempts]
    cases hc : attempt cb (a, sets (gfd a).fd) <;> simp [hc]

theorem attempts_append (fds' : List ℕ) : attempts cb sets gfd (fds ++ fds') =
    attempts cb sets gfd fds ++ attempts cb sets gfd fds' := by
  simp [attempts, readyCalls]

theorem newUsers_concat : newUsers cb sets gfd (fds ++ [a]) = newUsers cb sets gfd fds ++
    newUsers cb sets gfd [a] := by
  rw [newUsers, attempts_append, List.filter_append]
  rfl

theorem newUsers_singleton_none (h : sets (gfd a).fd = FdFlags.none ∨
    ∀ u, (cb a (sets (gfd a).fd)).kind = .accepts u → u.fcntl = false) :
    newUsers cb sets gfd [a] = [] := by
  rw [newUsers, ← List.nil_append [a], attempts_concat, List.filter_eq_nil_iff]
  intro u hu
  split_ifs at hu with hne
  · have hkind : (cb a (sets (gfd a).fd)).kind = .accepts u := by
      simp only [attempts, readyCalls, List.map_nil, List.filter_nil, List.filterMap_nil,
        List.nil_append, Option.mem_toList, attempt] at hu
      split at hu
      · rename_i hk
        rw [hk, Option.some.inj hu]
      · simp at hu
    rcases h with h | h
    · exact absurd h hne
    · simp [h u hkind]
  · simp [attempts, readyCalls] at hu

theorem newUsers_singleton (h : sets (gfd a).fd ≠ FdFlags.none)
    (hkind : (cb a (sets (gfd a).fd)).kind = .accepts u) (hu : u.fcntl = true) :
    newUsers cb sets gfd [a] = [u] := by
  simp [newUsers, attempts, readyCalls, attempt, h, hkind, hu]

theorem keptFds_concat : keptFds cb sets gfd (fds ++ [a]) =
    keptFds cb sets gfd fds ++ if leavesList cb sets gfd a then [] else [a] := by
  rw [keptFds, List.filter_append]
  cases h : leavesList cb sets gfd a <;> simp [h, keptFds]

theorem newUsers_length (fds : List ℕ) : (newUsers cb sets gfd fds).length ≤ fds.length := by
  calc (newUsers cb sets gfd fds).length ≤ (attempts cb sets gfd fds).length :=
        List.length_filter_le ..
    _ ≤ (readyCalls sets gfd fds).length := List.length_filterMap_le ..
    _ ≤ (fds.map (fun a => (a, sets (gfd a).fd))).length := List.length_filter_le ..
    _ = fds.length := List.length_map ..

theorem SelectTurn.visit_new
    (h : SelectTurn gsmdFds cb sets fds s₀ done (u.ptr :: todo) s before [] past (u :: coming))
    (hfresh : FreshUsers gsmdFds s₀.gfd fds (attempts cb sets s₀.gfd fds))
    (hsets : ∀ fd ∉ fds.map (fun a => (s₀.gfd a).fd), sets fd = FdFlags.none) :
    selectBody gsmdFds cb sets u.ptr s = s ∧
      SelectTurn gsmdFds cb sets fds s₀ (done ++ [u.ptr]) todo s before [] (past ++ [u])
        coming := by
  have hmem : u ∈ newUsers cb sets s₀.gfd before := by rw [h.users]; simp
  have hsplit := h.split
  rw [List.append_nil] at hsplit
  have hnone : sets (s.gfd u.ptr).fd = FdFlags.none := by
    rw [h.newGfd u hmem]
    rw [← hsplit] at hmem
    obtain ⟨hmem, hfcntl⟩ := List.mem_filter.mp hmem
    exact hsets _ (hfresh.fd u hmem hfcntl).2
  constructor
  · rw [selectBody]
    exact if_neg (by simpa using hnone)
  · have htodo := h.todo
    simp only [List.nil_append, List.map_cons, List.cons.injEq, true_and] at htodo
    have hdone := h.done
    rw [List.length_cons] at hdone
    exact
      { h with
        users := by rw [h.users, List.append_assoc]; rfl
        todo := by rw [htodo, List.nil_append]
        past := fun hne => absurd rfl hne
        done := by rw [List.length_append, List.length_singleton]; omega }

theorem runCallback_stays {flags : FdFlags} (hkind : (cb a flags).kind = .stays) :
    (runCallback gsmdFds cb a flags s).links = s.links ∧
      (runCallback gsmdFds cb a flags s).maxfd = s.maxfd ∧
      (runCallback gsmdFds cb a flags s).calls = s.calls ++ [(a, flags)] ∧
      ∀ b, ((runCallback gsmdFds cb a flags s).gfd b).fd = (s.gfd b).fd := by
  rw [runCallback, hkind]
  exact ⟨rfl, rfl, rfl, fun b => rfl⟩

theorem runCallback_leaves {flags : FdFlags} (hkind : (cb a flags).kind = .leaves) :
    (runCallback gsmdFds cb a flags s).links = llistDel s.links a ∧
      (runCallback gsmdFds cb a flags s).maxfd = s.maxfd ∧
      (runCallback gsmdFds cb a flags s).calls = s.calls ++ [(a, flags)] ∧
      ∀ b, ((runCallback gsmdFds cb a flags s).gfd b).fd = (s.gfd b).fd := by
  rw [runCallback, hkind]
  exact ⟨rfl, rfl, rfl, fun b => rfl⟩

theorem runCallback_accepts {flags : FdFlags} (hkind : (cb a flags).kind = .accepts u) :
    (runCallback gsmdFds cb a flags s).links =
        (if u.fcntl then llistAddTail s.links u.ptr gsmdFds else s.links) ∧
      (runCallback gsmdFds cb a flags s).maxfd =
        (if u.fcntl then max s.maxfd u.gfd.fd else s.maxfd) ∧
      (runCallback gsmdFds cb a flags s).calls = s.calls ++ [(a, flags)] ∧
      ((runCallback gsmdFds cb a flags s).gfd u.ptr).fd = u.gfd.fd ∧
      ∀ b ≠ u.ptr, ((runCallback gsmdFds cb a flags s).gfd b).fd = (s.gfd b).fd := by
  rw [runCallback, hkind]
  simp only [gsmdRegisterFd]
  cases u.fcntl with
  | false =>
    refine ⟨rfl, rfl, rfl, ?_, ?_⟩
    · simp
    · intro b hb
      simp [Function.update_of_ne hb]
  | true =>
    refine ⟨rfl, ?_, rfl, ?_, ?_⟩
    · simp only [if_true, Function.update_self]
      rw [max_def]
      split_ifs <;> omega
    · simp
    · intro b hb
      simp [Function.update_of_ne hb]

theorem mem_attempts_singleton (h : sets (gfd a).fd ≠ FdFlags.none)
    (hkind : (cb a (sets (gfd a).fd)).kind = .accepts u) :
    attempts cb sets gfd [a] = [u] := by
  simp [attempts, readyCalls, attempt, h, hkind]

theorem FreshUsers.not_mem (hfresh : FreshUsers gsmdFds gfd fds (attempts cb sets gfd fds))
    (hsplit : fds = before ++ a :: after) (ha : attempts cb sets gfd [a] = [u]) :
    u ∈ attempts cb sets gfd fds ∧ ∀ w ∈ newUsers cb sets gfd before, w.ptr ≠ u.ptr := by
  have hall : attempts cb sets gfd fds =
      attempts cb sets gfd before ++ (u :: attempts cb sets gfd after) := by
    rw [hsplit, attempts_append, ← List.singleton_append (x := a), attempts_append, ha]
    rfl
  have hptrs := hfresh.ptrs
  rw [hall, List.map_append, List.nodup_append] at hptrs
  refine ⟨by rw [hall]; simp, fun w hw => ?_⟩
  exact hptrs.2.2 w.ptr (List.mem_map_of_mem (List.mem_filter.mp hw).1) u.ptr (by simp)

theorem SelectTurn.next
    (h : SelectTurn gsmdFds cb sets fds s₀ done (a :: todo) s before (a :: after) past coming)
    {s' : SelectState} (hnew : newUsers cb sets s₀.gfd [a] = [])
    (hcalls : s'.calls = s.calls ++ readyCalls sets s₀.gfd [a])
    (hlist : HoldsList s'.links gsmdFds (keptFds cb sets s₀.gfd (before ++ [a]) ++ after ++
      (newUsers cb sets s₀.gfd before).map (·.ptr)))
    (hgfd : ∀ b ∈ fds, (s'.gfd b).fd = (s.gfd b).fd)
    (hnewGfd : ∀ w ∈ newUsers cb sets s₀.gfd before, (s'.gfd w.ptr).fd = (s.gfd w.ptr).fd)
    (hmaxfd : s'.maxfd = s.maxfd) :
    SelectTurn gsmdFds cb sets fds s₀ (done ++ [a]) todo s' (before ++ [a]) after past coming := by
  have hsame : newUsers cb sets s₀.gfd (before ++ [a]) = newUsers cb sets s₀.gfd before := by
    rw [newUsers_concat, hnew, List.append_nil]
  have hpast := h.past (List.cons_ne_nil a after)
  exact
    { split := by rw [h.split, List.append_assoc]; rfl
      users := hsame.trans h.users
      todo := by simpa using h.todo
      past := fun _ => hpast
      done := by
        have := h.done
        rw [hsame, List.length_append, List.length_append, List.length_singleton]
        omega
      calls := by
        rw [hcalls, h.calls, List.append_assoc]
        simp [readyCalls]
      list := by rw [hsame]; exact hlist
      gfd := fun b hb => (hgfd b hb).trans (h.gfd b hb)
      newGfd := by
        rw [hsame]
        exact fun w hw => (hnewGfd w hw).trans (h.newGfd w hw)
      maxfd := by rw [hmaxfd]; exact h.maxfd
      newWatched := by rw [hsame, hmaxfd]; exact h.newWatched }

theorem SelectTurn.next_new
    (h : SelectTurn gsmdFds cb sets fds s₀ done (a :: todo) s before (a :: after) past coming)
    {s' : SelectState} (hnew : newUsers cb sets s₀.gfd [a] = [u])
    (hcalls : s'.calls = s.calls ++ readyCalls sets s₀.gfd [a])
    (hlist : HoldsList s'.links gsmdFds (keptFds cb sets s₀.gfd (before ++ [a]) ++ after ++
      (newUsers cb sets s₀.gfd before).map (·.ptr) ++ [u.ptr]))
    (hgfd : ∀ b ∈ fds, (s'.gfd b).fd = (s.gfd b).fd)
    (hnewGfd : ∀ w ∈ newUsers cb sets s₀.gfd before, (s'.gfd w.ptr).fd = (s.gfd w.ptr).fd)
    (hself : (s'.gfd u.ptr).fd = u.gfd.fd) (hmaxfd : s'.maxfd = max s.maxfd u.gfd.fd) :
    ∃ new, (todo = [] → new = []) ∧ ∃ past' coming',
      SelectTurn gsmdFds cb sets fds s₀ (done ++ [a]) (todo ++ new) s' (before ++ [a]) after past'
        coming' := by
  have husers :
      newUsers cb sets s₀.gfd (before ++ [a]) = newUsers cb sets s₀.gfd before ++ [u] := by
    rw [newUsers_concat, hnew]
  have hpast := h.past (List.cons_ne_nil a after)
  have hbefore := h.users
  rw [hpast, List.nil_append] at hbefore
  have htodo : todo = after ++ coming.map (·.ptr) := by simpa using h.todo
  have hcommon (new past' coming') (hsplit : past' ++ coming' = coming ++ [u])
      (htodo' : todo ++ new = after ++ coming'.map (·.ptr)) (hpast' : after ≠ [] → past' = [])
      (hlen : coming'.length ≤ coming.length + 1) :
      SelectTurn gsmdFds cb sets fds s₀ (done ++ [a]) (todo ++ new) s' (before ++ [a]) after past'
        coming' :=
    { split := by rw [h.split, List.append_assoc]; rfl
      users := by rw [husers, hbefore, hsplit]
      todo := htodo'
      past := hpast'
      done := by
        have := h.done
        simp only [husers, List.length_append, List.length_singleton]
        omega
      calls := by
        rw [hcalls, h.calls, List.append_assoc]
        simp [readyCalls]
      list := by rw [husers, List.map_append, ← List.append_assoc]; exact hlist
      gfd := fun b hb => (hgfd b hb).trans (h.gfd b hb)
      newGfd := by
        intro w hw
        rw [husers, List.mem_append, List.mem_singleton] at hw
        rcases hw with hw | rfl
        · exact (hnewGfd w hw).trans (h.newGfd w hw)
        · exact hself
      maxfd := by
        rw [hmaxfd]
        exact h.maxfd.trans (le_max_left ..)
      newWatched := by
        intro w hw
        rw [husers, List.mem_append, List.mem_singleton] at hw
        rw [hmaxfd]
        rcases hw with hw | rfl
        · exact (h.newWatched w hw).trans (le_max_left ..)
        · exact le_max_right .. }
  by_cases hempty : todo = []
  · -- the loop was told to end before the new descriptor came
    have hnil : after = [] ∧ coming = [] := by simpa [hempty] using htodo.symm
    refine ⟨[], fun _ => rfl, [u], [], hcommon [] [u] [] ?_ ?_ ?_ ?_⟩
    · simp [hnil.2]
    · simp [hempty, hnil.1]
    · exact fun hne => absurd hnil.1 hne
    · simp
  · refine ⟨[u.ptr], fun he => absurd he hempty, [], coming ++ [u],
      hcommon [u.ptr] [] (coming ++ [u]) rfl ?_ (fun _ => rfl) (by simp)⟩
    rw [htodo, List.map_append, List.append_assoc]
    rfl

theorem SelectTurn.visit
    (h : SelectTurn gsmdFds cb sets fds s₀ done (a :: todo) s before (a :: after) past coming)
    (hfresh : FreshUsers gsmdFds s₀.gfd fds (attempts cb sets s₀.gfd fds)) :
    ∃ new, (todo = [] → new = []) ∧ ∃ past' coming',
      SelectTurn gsmdFds cb sets fds s₀ (done ++ [a]) (todo ++ new) (selectBody gsmdFds cb sets a s)
        (before ++ [a]) after past' coming' := by
  have hmem : a ∈ fds := by rw [h.split]; simp
  have hlist := h.list
  have hstays (hleaves : leavesList cb sets s₀.gfd a = false) :
      keptFds cb sets s₀.gfd (before ++ [a]) ++ after = keptFds cb sets s₀.gfd before ++
        a :: after := by
    rw [keptFds_concat, hleaves]
    simp
  rw [selectBody, h.gfd a hmem]
  by_cases hready : sets (s₀.gfd a).fd = FdFlags.none
  · have hleaves : leavesList cb sets s₀.gfd a = false := by
      rw [leavesList]
      split <;> simp [hready]
    refine ⟨[], fun _ => rfl, past, coming, ?_⟩
    rw [List.append_nil, if_neg (by simpa using hready)]
    apply h.next (newUsers_singleton_none (.inl hready))
    · simp [readyCalls, hready]
    · rwa [hstays hleaves]
    · exact fun _ _ => rfl
    · exact fun _ _ => rfl
    · rfl
  · have hcall : readyCalls sets s₀.gfd [a] = [(a, sets (s₀.gfd a).fd)] := by
      simp [readyCalls, hready]
    rw [if_pos hready]
    cases hkind : (cb a (sets (s₀.gfd a).fd)).kind with
    | stays =>
      obtain ⟨hlinks, hmaxfd, hcalls, hgfd⟩ :=
        @runCallback_stays gsmdFds cb s _ _ hkind
      have hleaves : leavesList cb sets s₀.gfd a = false := by simp [leavesList, hkind]
      refine ⟨[], fun _ => rfl, past, coming, ?_⟩
      rw [List.append_nil]
      apply h.next (newUsers_singleton_none (.inr (by simp [hkind])))
      · rw [hcalls, hcall]
      · rw [hlinks, hstays hleaves]
        exact hlist
      · exact fun b _ => hgfd b
      · exact fun w _ => hgfd w.ptr
      · exact hmaxfd
    | leaves =>
      obtain ⟨hlinks, hmaxfd, hcalls, hgfd⟩ :=
        @runCallback_leaves gsmdFds cb s _ _ hkind
      have hleaves : leavesList cb sets s₀.gfd a = true := by simp [leavesList, hkind, hready]
      have herase : (keptFds cb sets s₀.gfd before ++ a :: after ++
          (newUsers cb sets s₀.gfd before).map (·.ptr)).erase a =
          keptFds cb sets s₀.gfd (before ++ [a]) ++ after ++
            (newUsers cb sets s₀.gfd before).map (·.ptr) := by
        have hnodup := (List.nodup_cons.mp hlist.2).2
        rw [List.append_assoc, List.nodup_append] at hnodup
        have hnot : a ∉ keptFds cb sets s₀.gfd before :=
          fun hm => hnodup.2.2 a hm a (by simp) rfl
        rw [List.append_assoc, List.erase_append_right _ hnot, List.cons_append,
          List.erase_cons_head, keptFds_concat, hleaves]
        simp
      refine ⟨[], fun _ => rfl, past, coming, ?_⟩
      rw [List.append_nil]
      apply h.next (newUsers_singleton_none (.inr (by simp [hkind])))
      · rw [hcalls, hcall]
      · rw [hlinks, ← herase]
        exact hlist.del (by simp)
      · exact fun b _ => hgfd b
      · exact fun w _ => hgfd w.ptr
      · exact hmaxfd
    | accepts u =>
      obtain ⟨hlinks, hmaxfd, hcalls, hself, hgfd⟩ :=
        @runCallback_accepts gsmdFds cb s _ _ _ hkind
      have hleaves : leavesList cb sets s₀.gfd a = false := by simp [leavesList, hkind]
      obtain ⟨hu, hother⟩ := hfresh.not_mem h.split (mem_attempts_singleton hready hkind)
      have hout := hfresh.ptr u hu
      rw [List.mem_cons, not_or] at hout
      have hgfd' : ∀ b ∈ fds, ((runCallback gsmdFds cb a (sets (s₀.gfd a).fd) s).gfd b).fd =
          (s.gfd b).fd := fun b hb => hgfd b (ne_of_mem_of_not_mem hb hout.2)
      have hnewGfd : ∀ w ∈ newUsers cb sets s₀.gfd before,
          ((runCallback gsmdFds cb a (sets (s₀.gfd a).fd) s).gfd w.ptr).fd = (s.gfd w.ptr).fd :=
        fun w hw => hgfd w.ptr (hother w hw)
      cases hfcntl : u.fcntl with
      | false =>
        rw [hfcntl] at hlinks hmaxfd
        refine ⟨[], fun _ => rfl, past, coming, ?_⟩
        rw [List.append_nil]
        apply h.next (newUsers_singleton_none (.inr _)) _ _ hgfd' hnewGfd hmaxfd
        · rw [hkind]
          rintro _ ⟨⟩
          exact hfcntl
        · rw [hcalls, hcall]
        · rw [hlinks, hstays hleaves]
          exact hlist
      | true =>
        rw [hfcntl] at hlinks hmaxfd
        apply h.next_new (newUsers_singleton hready hkind hfcntl) _ _ hgfd' hnewGfd hself hmaxfd
        · rw [hcalls, hcall]
        · rw [hlinks, hstays hleaves]
          apply hlist.addTail
          simp only [List.mem_cons, List.mem_append, not_or]
          refine ⟨hout.1, ⟨?_, ?_⟩, ?_⟩
          · intro hm
            exact hout.2 (by rw [h.split]; simp [List.mem_of_mem_filter hm])
          · have hnot := hout.2
            rw [h.split] at hnot
            simp only [List.mem_append, List.mem_cons, not_or] at hnot
            exact hnot.2
          · intro hm
            obtain ⟨w, hw, he⟩ := List.mem_map.mp hm
            exact hother w hw he

def roundFds (cb : ℕ → FdFlags → CallbackEffect) (sets : ℤ → FdFlags) (gfd : ℕ → GsmdFd)
    (fds : List ℕ) : List ℕ :=
  keptFds cb sets gfd fds ++ (newUsers cb sets gfd fds).map (·.ptr)

theorem SelectTurn.start (h : Registered gsmdFds s fds) :
    SelectTurn gsmdFds cb sets fds s [] fds s [] fds [] [] where
  split := rfl
  users := rfl
  todo := by simp
  past := fun _ => rfl
  done := by simp
  calls := by simp [readyCalls]
  list := by simpa [keptFds, newUsers, attempts, readyCalls] using h.list
  gfd := fun _ _ => rfl
  newGfd := by simp [newUsers, attempts, readyCalls]
  maxfd := le_refl _
  newWatched := by simp [newUsers, attempts, readyCalls]

theorem SelectTurn.next_todo
    (h : SelectTurn gsmdFds cb sets fds s₀ done todo s before after past coming) :
    gsmdFds ∉ todo ∧
      ∀ a rest, todo = a :: rest → s.links.next a = rest.head?.or (some gsmdFds) := by
  have hlist := h.list
  rw [h.users] at hlist
  constructor
  · intro hm
    apply (List.nodup_cons.mp hlist.2).1
    rw [h.todo] at hm
    simp only [List.mem_append, List.map_append] at hm ⊢
    tauto
  · intro a rest hrest
    have hall : keptFds cb sets s₀.gfd before ++ after ++ (past ++ coming).map (·.ptr) =
        (keptFds cb sets s₀.gfd before ++ past.map (·.ptr)) ++ a :: rest := by
      rw [← hrest, h.todo]
      cases after with
      | nil => simp
      | cons b after => simp [h.past (List.cons_ne_nil b after)]
    rw [hall] at hlist
    exact hlist.next

theorem SelectTurn.bound
    (h : SelectTurn gsmdFds cb sets fds s₀ done todo s before after past coming) :
    done.length + todo.length ≤ 2 * fds.length := by
  have hdone := h.done
  have husers := @newUsers_length cb sets s₀.gfd before
  have hlen : fds.length = before.length + after.length := by
    rw [h.split, List.length_append]
  rw [h.todo, List.length_append, List.length_map]
  omega

theorem SelectTurn.finish (h : SelectTurn gsmdFds cb sets fds s₀ done [] s fds [] past [])
    (hreg : Registered gsmdFds s₀ fds)
    (hfresh : FreshUsers gsmdFds s₀.gfd fds (attempts cb sets s₀.gfd fds)) :
    Registered gsmdFds s (roundFds cb sets s₀.gfd fds) := by
  have hlist := h.list
  rw [List.append_nil] at hlist
  have hkept : ∀ a ∈ keptFds cb sets s₀.gfd fds, a ∈ fds := fun a ha => List.mem_of_mem_filter ha
  have hnew : ∀ u ∈ newUsers cb sets s₀.gfd fds, 0 ≤ u.gfd.fd ∧
      u.gfd.fd ∉ fds.map (fun a => (s₀.gfd a).fd) := fun u hu =>
    hfresh.fd u (List.mem_filter.mp hu).1 (List.mem_filter.mp hu).2
  constructor
  · exact hlist
  · have holdFds : (keptFds cb sets s₀.gfd fds).map (fun a => (s.gfd a).fd) =
        (keptFds cb sets s₀.gfd fds).map (fun a => (s₀.gfd a).fd) :=
      List.map_congr_left (fun a ha => h.gfd a (hkept a ha))
    have hnewFds : (newUsers cb sets s₀.gfd fds).map ((fun a => (s.gfd a).fd) ∘ (·.ptr)) =
        (newUsers cb sets s₀.gfd fds).map (·.gfd.fd) :=
      List.map_congr_left (fun u hu => h.newGfd u hu)
    rw [roundFds, List.map_append, List.map_map, holdFds, hnewFds]
    apply List.nodup_append.mpr
    refine ⟨hreg.distinct.sublist (List.filter_sublist.map _), hfresh.fds, ?_⟩
    intro x hx y hy he
    obtain ⟨a, ha, rfl⟩ := List.mem_map.mp hx
    obtain ⟨u, hu, rfl⟩ := List.mem_map.mp hy
    exact (hnew u hu).2 (he ▸ List.mem_map_of_mem (hkept a ha))
  · intro a ha
    rcases List.mem_append.mp ha with ha | ha
    · rw [h.gfd a (hkept a ha)]
      have hold := hreg.watched a (hkept a ha)
      exact ⟨hold.1, hold.2.trans h.maxfd⟩
    · obtain ⟨u, hu, rfl⟩ := List.mem_map.mp ha
      rw [h.newGfd u hu]
      exact ⟨(hnew u hu).1, h.newWatched u hu⟩

theorem selectLoop_calls (h : Registered gsmdFds s fds)
    (hfresh : FreshUsers gsmdFds s.gfd fds (attempts cb sets s.gfd fds))
    (hsets : ∀ fd ∉ fds.map (fun a => (s.gfd a).fd), sets fd = FdFlags.none) {rounds : ℕ}
    (hrounds : 2 * fds.length < rounds) :
    ∃ s', llistForEachSafe SelectState.links (selectBody gsmdFds cb sets) gsmdFds rounds
        (s.links.next gsmdFds) ((s.links.next gsmdFds).bind s.links.next) s = some s' ∧
      s'.calls = s.calls ++ readyCalls sets s.gfd fds ∧
      Registered gsmdFds s' (roundFds cb sets s.gfd fds) := by
  let Inv (done todo : List ℕ) (t : SelectState) := ∃ before after past coming,
    SelectTurn gsmdFds cb sets fds s done todo t before after past coming
  have hbody : ∀ done a todo t, Inv done (a :: todo) t → ∃ new, (todo = [] → new = []) ∧
      Inv (done ++ [a]) (todo ++ new) (selectBody gsmdFds cb sets a t) := by
    rintro done a todo t ⟨before, after, past, coming, ht⟩
    have htodo := ht.todo
    cases after with
    | cons b after =>
      obtain rfl : a = b := (List.cons.inj htodo).1
      obtain ⟨new, hnew, past', coming', ht'⟩ := ht.visit hfresh
      exact ⟨new, hnew, before ++ [a], after, past', coming', ht'⟩
    | nil =>
      cases coming with
      | nil => simp at htodo
      | cons u coming =>
        obtain rfl : a = u.ptr := (List.cons.inj htodo).1
        obtain ⟨hsame, ht'⟩ := ht.visit_new hfresh hsets
        refine ⟨[], fun _ => rfl, before, [], past ++ [u], coming, ?_⟩
        rw [hsame, List.append_nil]
        exact ht'
  have hfirst := h.list.first
  rw [hfirst]
  obtain ⟨done, s', hresult, before, after, past, coming, hturn⟩ :=
    llistForEachSafe_rule SelectState.links (selectBody gsmdFds cb sets) gsmdFds Inv
      (2 * fds.length) (fun done todo t ⟨_, _, _, _, ht⟩ => ht.next_todo)
      (fun done todo t ⟨_, _, _, _, ht⟩ => ht.bound) hbody ⟨[], fds, [], [], SelectTurn.start h⟩
      rounds ((fds.head?.or (some gsmdFds)).bind s.links.next)
      (by simpa using hrounds) (by
        rintro a rest rfl
        exact @HoldsList.next _ _ _ [] _ h.list)
  obtain ⟨rfl, rfl⟩ : after = [] ∧ coming = [] := by simpa using hturn.todo.symm
  obtain rfl : fds = before := by simpa using hturn.split
  exact ⟨s', hresult, hturn.calls, hturn.finish h hfresh⟩

def selectCalls (kernel : ℤ → FdFlags) (i : ℤ) (gfd : ℕ → GsmdFd) (fds : List ℕ) :
    List (ℕ × FdFlags) :=
  if i > 0 then
    (fds.map (fun a => (a, (gfd a).when.and (kernel (gfd a).fd)))).filter
      (fun c => c.2 ≠ FdFlags.none)
  else []

def selected (s : SelectState) (fds : List ℕ) (kernel : ℤ → FdFlags) : ℤ → FdFlags :=
  selectSets (s.maxfd + 1) (requested s.gfd fds) kernel

theorem gsmdSelectMain_calls (h : Registered gsmdFds s fds) (i : ℤ)
    (hfresh : FreshUsers gsmdFds s.gfd fds (attempts cb (selected s fds kernel) s.gfd fds))
    {rounds : ℕ} (hrounds : 2 * fds.length < rounds) :
    ∃ s', gsmdSelectMain gsmdFds cb kernel i rounds s = some s' ∧
      s'.calls = s.calls ++ selectCalls kernel i s.gfd fds ∧
      Registered gsmdFds s'
        (if i > 0 then roundFds cb (selected s fds kernel) s.gfd fds else fds) := by
  have hfds : llistForEach s.links gsmdFds rounds (s.links.next gsmdFds) = some fds :=
    h.list.forEach (by omega)
  rw [gsmdSelectMain, hfds, Option.bind_eq_bind, Option.bind_some]
  by_cases hi : i > 0
  · obtain ⟨s', hresult, hcalls, hreg⟩ := @selectLoop_calls _ cb _ _ _ h hfresh
      (fun fd hfd => selectSets_not_mem hfd) _ hrounds
    refine ⟨s', ?_, ?_, ?_⟩
    · rw [if_pos hi]
      exact hresult
    · rw [hcalls, selectCalls, if_pos hi, readyCalls]
      congr 2
      exact List.map_congr_left (fun a ha => by rw [selected, h.ready ha])
    · rw [if_pos hi]
      exact hreg
  · refine ⟨s, ?_, ?_, ?_⟩
    · rw [if_neg hi]
    · rw [selectCalls, if_neg hi, List.append_nil]
    · rw [if_neg hi]
      exact h

/-- Registrations from outside the loop and calls of `gsmd_select_main`, in any order. -/
inductive SelectRun (gsmdFds : ℕ) : SelectState → List ℕ → SelectState → List ℕ → Prop
  | refl (s : SelectState) (fds : List ℕ) : SelectRun gsmdFds s fds s fds
  | register {s t : SelectState} {fds fds' : List ℕ} {u : NewUser} :
      SelectRun gsmdFds s fds t fds' →
      FreshUsers gsmdFds t.gfd fds' [u] → u.fcntl = true →
      SelectRun gsmdFds s fds
        (gsmdRegisterFd gsmdFds { t with gfd := Function.update t.gfd u.ptr u.gfd } u.ptr true).2
        (fds' ++ [u.ptr])
  | round {s t t' : SelectState} {fds fds' : List ℕ} {cb : ℕ → FdFlags → CallbackEffect}
      {kernel : ℤ → FdFlags} {i : ℤ} {rounds : ℕ} : SelectRun gsmdFds s fds t fds' →
      FreshUsers gsmdFds t.gfd fds' (attempts cb (selected t fds' kernel) t.gfd fds') →
      2 * fds'.length < rounds → gsmdSelectMain gsmdFds cb kernel i rounds t = some t' →
      SelectRun gsmdFds s fds t'
        (if i > 0 then roundFds cb (selected t fds' kernel) t.gfd fds' else fds')

theorem Registered.register (h : Registered gsmdFds s fds) (hu : FreshUsers gsmdFds s.gfd fds [u])
    (hfcntl : u.fcntl = true) : Registered gsmdFds
      (gsmdRegisterFd gsmdFds { s with gfd := Function.update s.gfd u.ptr u.gfd } u.ptr true).2
      (fds ++ [u.ptr]) := by
  have hout := hu.ptr u (by simp)
  have hfd := hu.fd u (by simp) hfcntl
  rw [List.mem_cons, not_or] at hout
  have hold (a : ℕ) (ha : a ∈ fds) : Function.update s.gfd u.ptr u.gfd a = s.gfd a :=
    Function.update_of_ne (ne_of_mem_of_not_mem ha hout.2) ..
  constructor
  · exact h.list.addTail (by simpa using hout)
  · rw [List.map_append]
    change (fds.map (fun a => (Function.update s.gfd u.ptr u.gfd a).fd) ++
      [(Function.update s.gfd u.ptr u.gfd u.ptr).fd]).Nodup
    rw [Function.update_self, List.map_congr_left (fun a ha => by rw [hold a ha])]
    exact (List.perm_append_singleton ..).nodup_iff.mpr (List.nodup_cons.mpr ⟨hfd.2, h.distinct⟩)
  · intro a ha
    change 0 ≤ (Function.update s.gfd u.ptr u.gfd a).fd ∧ (Function.update s.gfd u.ptr u.gfd a).fd ≤
      if (Function.update s.gfd u.ptr u.gfd u.ptr).fd > s.maxfd then
        (Function.update s.gfd u.ptr u.gfd u.ptr).fd else s.maxfd
    rw [Function.update_self]
    rcases List.mem_append.mp ha with ha | ha
    · rw [hold a ha]
      have := h.watched a ha
      split_ifs <;> omega
    · obtain rfl := List.mem_singleton.mp ha
      rw [Function.update_self]
      split_ifs <;> omega

theorem SelectRun.registered {s' : SelectState} {fds' : List ℕ}
    (hr : SelectRun gsmdFds s fds s' fds') (h : Registered gsmdFds s fds) : Registered gsmdFds s' fds' := by
  induction hr with
  | refl => exact h
  | register _ hu hfcntl ih => exact (ih h).register hu hfcntl
  | round _ hfresh hrounds hmain ih =>
    obtain ⟨t', hmain', -, hreg⟩ := gsmdSelectMain_calls (ih h) _ hfresh hrounds
    rw [hmain] at hmain'
    exact Option.some.inj hmain' ▸ hreg

/-- In every round of every run each registered descriptor that is ready gets its callback once, in
the order of registration, with the flags it waits for; no other callback runs. -/
theorem select_rounds {s' : SelectState} {fds' : List ℕ} (hr : SelectRun gsmdFds s fds s' fds')
    (h : Registered gsmdFds s fds) (i : ℤ)
    (hfresh : FreshUsers gsmdFds s'.gfd fds' (attempts cb (selected s' fds' kernel) s'.gfd fds'))
    {rounds : ℕ} (hrounds : 2 * fds'.length < rounds) :
    ∃ t, gsmdSelectMain gsmdFds cb kernel i rounds s' = some t ∧
      t.calls = s'.calls ++ selectCalls kernel i s'.gfd fds' ∧
      Registered gsmdFds t
        (if i > 0 then roundFds cb (selected s' fds' kernel) s'.gfd fds' else fds') :=
  gsmdSelectMain_calls (hr.registered h) i hfresh hrounds

end

def listener : NewUser := ⟨1, ⟨3, ⟨true, false, true⟩⟩, true⟩
def firstClient : NewUser := ⟨2, ⟨4, ⟨true, false, false⟩⟩, true⟩
def secondClient : NewUser := ⟨3, ⟨5, ⟨true, false, false⟩⟩, true⟩

def noFds : SelectState where
  links := initLlistHead ⟨fun _ => none, fun _ => none⟩ 0
  gfd := fun _ => ⟨-1, FdFlags.none⟩
  maxfd := 0
  calls := []

def SelectState.registered (s : SelectState) (u : NewUser) : SelectState :=
  (gsmdRegisterFd 0 { s with gfd := Function.update s.gfd u.ptr u.gfd } u.ptr true).2

def acceptAndLeave (ufd : ℕ) (_ : FdFlags) : CallbackEffect :=
  ⟨if ufd = 1 then .accepts secondClient else .leaves, fun _ when => when⟩

def bothReady (_ : ℤ) : FdFlags := ⟨true, true, false⟩

theorem noFds_registered : Registered 0 noFds [] where
  list := ⟨initLlistHead_circular _ 0, List.nodup_singleton 0⟩
  distinct := List.nodup_nil
  watched := by simp

theorem listener_fresh : FreshUsers 0 noFds.gfd [] [listener] :=
  ⟨by decide, by decide, by decide, by decide⟩

theorem firstClient_fresh : FreshUsers 0 (noFds.registered listener).gfd [1] [firstClient] :=
  ⟨by decide, by decide, by decide, by decide⟩

theorem acceptAndLeave_fresh :
    FreshUsers 0 ((noFds.registered listener).registered firstClient).gfd [1, 2]
      (attempts acceptAndLeave
        (selected ((noFds.registered listener).registered firstClient) [1, 2] bothReady)
        ((noFds.registered listener).registered firstClient).gfd [1, 2]) :=
  ⟨by decide, by decide, by decide, by decide⟩

theorem select_rounds_accept :
    ∃ t, gsmdSelectMain 0 acceptAndLeave bothReady 2 5
        ((noFds.registered listener).registered firstClient) = some t ∧
      t.calls = [(1, ⟨true, false, false⟩), (2, ⟨true, false, false⟩)] ∧ Registered 0 t [1, 3] :=
  select_rounds (((SelectRun.refl noFds []).register listener_fresh rfl).register
    firstClient_fresh rfl) noFds_registered 2 acceptAndLeave_fresh (by decide)

end SystemTestSuite.GsmDaemon
