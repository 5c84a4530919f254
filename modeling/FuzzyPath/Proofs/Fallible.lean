/-
  FuzzyPath — steps that can fail.

  * `bind_eq_ok` and `map_eq_ok`: a result comes from results of the steps;
  * `cases_of_map_eq`: what equal outcomes come from;
  * `mapM_eq_ok` and `exists_mapM_eq_ok`: of steps for the elements of a list
    there are the results of all, if none fails;
  * `mapM_congr`: equal steps have equal results;
  * `mapM_map_comp`: steps can be followed by others that do not fail;
  * `exists_mapM_eq_error`: if one fails, there is none;
  * `exists_of_mem_mapM`: each of several results is that of some element.
-/
import Mathlib.Data.List.Basic
import Mathlib.Data.List.Forall2

namespace FuzzyPath

variable {ε α β γ : Type} {f : α → Except ε β}

theorem bind_eq_ok {x : Except ε α} {b : β} (h : x.bind f = .ok b) :
    ∃ a, x = .ok a ∧ f a = .ok b := by
  cases x with
  | error e => cases h
  | ok a => exact ⟨a, rfl, h⟩

theorem map_eq_ok {x : Except ε α} {g : α → β} {b : β} (h : x.map g = .ok b) :
    ∃ a, x = .ok a ∧ g a = b := by
  cases x with
  | error e => cases h
  | ok a => exact ⟨a, rfl, Except.ok.inj h⟩

/-- Steps with the same outcome fail together, or else have both a result. -/
theorem cases_of_map_eq {x : Except ε α} {y : Except ε β} {g : α → γ} {k : β → γ}
    (h : x.map g = y.map k) : (∃ e, x = .error e ∧ y = .error e) ∨
      ∃ a b, x = .ok a ∧ y = .ok b ∧ g a = k b := by
  cases x with
  | error e =>
    cases y with
    | error e' => exact .inl ⟨e, rfl, by rw [Except.error.inj h]⟩
    | ok b => cases h
  | ok a =>
    cases y with
    | error e => cases h
    | ok b => exact .inr ⟨a, b, rfl, rfl, Except.ok.inj h⟩

theorem mapM_eq_ok {g : α → β} : ∀ {l : List α}, (∀ a ∈ l, f a = .ok (g a)) →
    l.mapM f = .ok (l.map g)
  | [], _ => rfl
  | a :: l, h => by
    obtain ⟨ha, hl⟩ := List.forall_mem_cons.1 h
    rw [List.mapM_cons, ha, mapM_eq_ok hl]
    rfl

theorem mapM_congr {g : α → Except ε β} : ∀ {l : List α}, (∀ a ∈ l, f a = g a) →
    l.mapM f = l.mapM g
  | [], _ => rfl
  | a :: l, h => by
    obtain ⟨ha, hl⟩ := List.forall_mem_cons.1 h
    rw [List.mapM_cons, List.mapM_cons, ha, mapM_congr hl]

/-- What is done with each result can be done with all of them in the end. -/
theorem mapM_map_comp {g : β → γ} : ∀ l : List α,
    l.mapM (fun a => (f a).map g) = (l.mapM f).map (List.map g)
  | [] => rfl
  | a :: l => by
    rw [List.mapM_cons, List.mapM_cons, mapM_map_comp l]
    cases f a with
    | error e => rfl
    | ok b => cases l.mapM f <;> rfl

/-- If each step has a result in a relation, there are the results of all. -/
theorem exists_mapM_eq_ok {R : β → γ → Prop} {g : α → γ} : ∀ {l : List α},
    (∀ a ∈ l, ∃ b, f a = .ok b ∧ R b (g a)) → ∃ bs, l.mapM f = .ok bs ∧ bs.Forall₂ R (l.map g)
  | [], _ => ⟨[], rfl, .nil⟩
  | a :: l, h => by
    obtain ⟨⟨b, hb, hR⟩, hl⟩ := List.forall_mem_cons.1 h
    obtain ⟨bs, hbs, hRs⟩ := exists_mapM_eq_ok hl
    refine ⟨b :: bs, ?_, .cons hR hRs⟩
    rw [List.mapM_cons, hb, hbs]
    rfl

theorem exists_mapM_eq_error {a : α} {e : ε} (hf : f a = .error e) : ∀ {l : List α}, a ∈ l →
    ∃ e', l.mapM f = .error e'
  | b :: l, h => by
    rw [List.mapM_cons]
    cases hb : f b with
    | error e' => exact ⟨e', rfl⟩
    | ok y =>
      rcases List.mem_cons.1 h with rfl | h
      · cases hf.symm.trans hb
      · obtain ⟨e', hl⟩ := exists_mapM_eq_error hf h
        exact ⟨e', by rw [hl]; rfl⟩

theorem exists_of_mem_mapM {b : β} : ∀ {l : List α} {bs : List β}, l.mapM f = .ok bs → b ∈ bs →
    ∃ a ∈ l, f a = .ok b
  | [], bs, h, hb => by
    obtain rfl := Except.ok.inj h
    cases hb
  | a :: l, bs, h, hb => by
    rw [List.mapM_cons] at h
    obtain ⟨first, hfirst, h⟩ := bind_eq_ok h
    obtain ⟨rest, hrest, h⟩ := bind_eq_ok h
    obtain rfl := Except.ok.inj h
    rcases List.mem_cons.1 hb with rfl | hb
    · exact ⟨a, List.mem_cons_self, hfirst⟩
    · obtain ⟨a', ha', heq⟩ := exists_of_mem_mapM hrest hb
      exact ⟨a', List.mem_cons_of_mem a ha', heq⟩

end FuzzyPath
