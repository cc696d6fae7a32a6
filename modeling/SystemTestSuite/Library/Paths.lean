import SystemTestSuite.Library.Memory
import Mathlib.Data.List.Induction
import Mathlib.Data.List.TakeDrop

/-!
Paths in a tree of directories, none of which is a link. A directory is the list of the names that lead
to it from the root, and the root is its own parent.
-/

namespace SystemTestSuite.Library

section Walks

variable {α : Type}

/-- `none` goes to the parent. -/
def enter (dir : List α) : Option α → List α
  | none => dir.dropLast
  | some name => dir ++ [name]

/-- What is left of a path when each name is cancelled by the parent that follows it: the steps up
come first. -/
structure Climb (α : Type) where
  ups : ℕ
  names : List α

def Climb.step (w : Climb α) : Option α → Climb α
  | none => if w.names = [] then ⟨w.ups + 1, []⟩ else ⟨w.ups, w.names.dropLast⟩
  | some name => ⟨w.ups, w.names ++ [name]⟩

def climb (path : List (Option α)) : Climb α := path.foldl Climb.step ⟨0, []⟩

def LeadsBack (dir : List α) (path : List (Option α)) : Prop :=
  dir.drop (dir.length - (climb path).ups) <+: (climb path).names

instance [DecidableEq α] (dir : List α) (path : List (Option α)) : Decidable (LeadsBack dir path) :=
  inferInstanceAs (Decidable (_ <+: _))

@[simp] theorem climb_nil : climb ([] : List (Option α)) = ⟨0, []⟩ := rfl

theorem climb_snoc (path : List (Option α)) (c : Option α) : climb (path ++ [c]) = (climb path).step c := by
  rw [climb, climb, List.foldl_append]
  rfl

theorem foldl_enter (dir : List α) (path : List (Option α)) :
    path.foldl enter dir = dir.take (dir.length - (climb path).ups) ++ (climb path).names := by
  induction path using List.reverseRecOn with
  | nil => simp
  | append_singleton path c ih =>
    rw [List.foldl_append, List.foldl_cons, List.foldl_nil, ih, climb_snoc]
    cases c with
    | some name => exact List.append_assoc _ _ _
    | none =>
      by_cases hnames : (climb path).names = []
      · have hstep : (climb path).step none = ⟨(climb path).ups + 1, []⟩ := if_pos hnames
        have hcount : min (min (dir.length - (climb path).ups) dir.length - 1)
            (dir.length - (climb path).ups) = dir.length - ((climb path).ups + 1) := by omega
        rw [hstep, hnames, List.append_nil, List.append_nil, enter, List.dropLast_eq_take, List.length_take,
          List.take_take, hcount]
      · have hstep : (climb path).step none = ⟨(climb path).ups, (climb path).names.dropLast⟩ :=
          if_neg hnames
        rw [hstep]
        exact List.dropLast_append_of_ne_nil hnames

theorem below_iff (dir : List α) (path : List (Option α)) :
    dir <+: path.foldl enter dir ↔ LeadsBack dir path := by
  rw [foldl_enter, LeadsBack]
  nth_rewrite 1 [← List.take_append_drop (dir.length - (climb path).ups) dir]
  exact List.prefix_append_right_inj _

end Walks

section Components

/-- An empty component and `.` stay where they are. -/
def component (c : Bytes) : Option (Option Bytes) :=
  if c = [] ∨ c = [46] then none else if c = [46, 46] then some none else some (some c)

def components (path : Bytes) : List (Option Bytes) := (path.splitOn 47).filterMap component

def resolvePath (cwd : List Bytes) (path : Bytes) : List Bytes :=
  (components path).foldl enter (if path.head? = some 47 then [] else cwd)

theorem components_slash (dir path : Bytes) :
    components (dir ++ 47 :: path) = components dir ++ components path := by
  rw [components, List.splitOn_append_cons_self, List.filterMap_append]
  rfl

@[simp] theorem components_nil : components [] = [] := rfl

theorem resolvePath_slash (cwd : List Bytes) (dir path : Bytes) :
    resolvePath cwd (dir ++ 47 :: path) = (components path).foldl enter (resolvePath cwd (dir ++ [47])) := by
  have hhead : (dir ++ 47 :: path).head? = (dir ++ [47]).head? := by
    cases dir with
    | nil => rfl
    | cons b dir => rfl
  rw [resolvePath, resolvePath, components_slash, components_slash, components_nil, List.append_nil, hhead,
    List.foldl_append]

end Components

end SystemTestSuite.Library
