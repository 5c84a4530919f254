/-
  FuzzyPath — steps between directories.

  Directories are the nodes of a tree: a chain of names leads to each from the
  root.  From one directory to another the way goes up to the last directory that
  both chains have in common, and down again.

  * `IsShared` says which chain leads to that directory;
  * `exists_isShared`: the distance is the length of the way over it;
  * `directoryDistance_metric`: that is a metric.
-/
import FuzzyPath.Path.Components

namespace FuzzyPath

/-- The longest chain that two chains begin with. -/
def IsShared {α : Type} (shared a b : List α) : Prop :=
  shared <+: a ∧ shared <+: b ∧ ∀ other, other <+: a → other <+: b → other <+: shared

namespace IsShared

variable {α : Type} {shared shared' a b c : List α}

theorem nil_left (b : List α) : IsShared [] [] b :=
  ⟨List.nil_prefix, List.nil_prefix, fun _ h _ => h⟩

theorem nil_right (a : List α) : IsShared [] a [] :=
  ⟨List.nil_prefix, List.nil_prefix, fun _ _ h => h⟩

theorem cons (h : IsShared shared a b) (x : α) : IsShared (x :: shared) (x :: a) (x :: b) := by
  obtain ⟨ha, hb, hlongest⟩ := h
  refine ⟨List.cons_prefix_cons.2 ⟨rfl, ha⟩, List.cons_prefix_cons.2 ⟨rfl, hb⟩, ?_⟩
  intro other hother hother'
  cases other with
  | nil => exact List.nil_prefix
  | cons y other =>
    obtain ⟨rfl, htail⟩ := List.cons_prefix_cons.1 hother
    obtain ⟨-, htail'⟩ := List.cons_prefix_cons.1 hother'
    exact List.cons_prefix_cons.2 ⟨rfl, hlongest other htail htail'⟩

/-- Chains with different first names have nothing in common. -/
theorem of_ne {x y : α} (h : x ≠ y) (a b : List α) : IsShared [] (x :: a) (y :: b) := by
  refine ⟨List.nil_prefix, List.nil_prefix, fun other hother hother' => ?_⟩
  cases other with
  | nil => exact List.nil_prefix
  | cons z other =>
    obtain ⟨rfl, -⟩ := List.cons_prefix_cons.1 hother
    exact absurd (List.cons_prefix_cons.1 hother').1 h

theorem symm (h : IsShared shared a b) : IsShared shared b a :=
  ⟨h.2.1, h.1, fun other hb ha => h.2.2 other ha hb⟩

theorem unique (h : IsShared shared a b) (h' : IsShared shared' a b) : shared = shared' := by
  have hle := h.2.2 shared' h'.1 h'.2.1
  have hge := h'.2.2 shared h.1 h.2.1
  exact hge.eq_of_length (Nat.le_antisymm hge.length_le hle.length_le)

theorem length_le_left (h : IsShared shared a b) : shared.length ≤ a.length := h.1.length_le

theorem length_le_right (h : IsShared shared a b) : shared.length ≤ b.length := h.2.1.length_le

/-- Of what a middle chain has in common with each of two others, the shorter part
    is common to all three. -/
theorem min_length_le {first last outer : List α} (hfirst : IsShared first a b)
    (hlast : IsShared last b c) (houter : IsShared outer a c) :
    min first.length last.length ≤ outer.length := by
  rcases Nat.le_total first.length last.length with hle | hle
  · have hfront : first <+: last := List.prefix_of_prefix_length_le hfirst.2.1 hlast.1 hle
    rw [Nat.min_eq_left hle]
    exact (houter.2.2 first hfirst.1 (hfront.trans hlast.2.1)).length_le
  · have hfront : last <+: first := List.prefix_of_prefix_length_le hlast.1 hfirst.2.1 hle
    rw [Nat.min_eq_right hle]
    exact (houter.2.2 last (hfront.trans hfirst.1) hlast.2.1).length_le

end IsShared

/-- All names that two chains do not have in common are steps between them. -/
theorem exists_isShared : ∀ a b : List String, ∃ shared, IsShared shared a b ∧
    directoryDistance a b + 2 * shared.length = a.length + b.length
  | [], b => ⟨[], .nil_left b, by cases b <;> rfl⟩
  | x :: a, [] => ⟨[], .nil_right _, rfl⟩
  | x :: a, y :: b => by
    by_cases hxy : x = y
    · subst hxy
      obtain ⟨shared, hshared, hdistance⟩ := exists_isShared a b
      refine ⟨x :: shared, hshared.cons x, ?_⟩
      rw [directoryDistance, if_pos (beq_self_eq_true x)]
      simp only [List.length_cons]
      omega
    · refine ⟨[], .of_ne hxy a b, ?_⟩
      rw [directoryDistance, if_neg (by simpa using hxy)]
      rfl

theorem directoryDistance_eq_zero_iff {a b : List String} :
    directoryDistance a b = 0 ↔ a = b := by
  obtain ⟨shared, hshared, hdistance⟩ := exists_isShared a b
  have hleft := hshared.length_le_left
  have hright := hshared.length_le_right
  constructor
  · intro hzero
    have ha : shared = a := hshared.1.eq_of_length (by omega)
    have hb : shared = b := hshared.2.1.eq_of_length (by omega)
    exact ha.symm.trans hb
  · rintro rfl
    have hall := (hshared.2.2 a (List.prefix_refl a) (List.prefix_refl a)).length_le
    omega

theorem directoryDistance_self (names : List String) : directoryDistance names names = 0 :=
  directoryDistance_eq_zero_iff.2 rfl

theorem directoryDistance_comm (a b : List String) :
    directoryDistance a b = directoryDistance b a := by
  obtain ⟨shared, hshared, hdistance⟩ := exists_isShared a b
  obtain ⟨shared', hshared', hdistance'⟩ := exists_isShared b a
  obtain rfl := hshared.unique hshared'.symm
  omega

theorem directoryDistance_triangle (a b c : List String) :
    directoryDistance a c ≤ directoryDistance a b + directoryDistance b c := by
  obtain ⟨first, hfirst, hab⟩ := exists_isShared a b
  obtain ⟨last, hlast, hbc⟩ := exists_isShared b c
  obtain ⟨outer, houter, hac⟩ := exists_isShared a c
  have hmin := hfirst.min_length_le hlast houter
  have hfirstb := hfirst.length_le_right
  have hlastb := hlast.length_le_left
  -- what is not common to all three chains is at most the middle one
  have hmax : max first.length last.length ≤ b.length := Nat.max_le.2 ⟨hfirstb, hlastb⟩
  omega

/-- The distance of two directories is the number of names that their chains do not
    have in common, and a metric. -/
theorem directoryDistance_metric (a b c : List String) :
    (∃ shared, IsShared shared a b ∧
      directoryDistance a b = a.length + b.length - 2 * shared.length ∧
      2 * shared.length ≤ a.length + b.length) ∧
    (directoryDistance a b = 0 ↔ a = b) ∧
    directoryDistance a b = directoryDistance b a ∧
    directoryDistance a c ≤ directoryDistance a b + directoryDistance b c := by
  refine ⟨?_, directoryDistance_eq_zero_iff, directoryDistance_comm a b,
    directoryDistance_triangle a b c⟩
  obtain ⟨shared, hshared, hdistance⟩ := exists_isShared a b
  exact ⟨shared, hshared, by omega, by omega⟩

/-- From `src/a/x` up to `src`, and down to `src/b`. -/
example : directoryDistance ["src", "a", "x"] ["src", "b"] = 3 := by decide

end FuzzyPath
