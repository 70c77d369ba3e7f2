import Mathlib.Data.Fintype.Card
import Mathlib.Logic.Relation

/-! # Descents of a graph

A descent goes from a vertex on to its successors, and stops at a vertex that lies
on the path that it has taken. Among finitely many vertices, a descent meets no
vertex of its path precisely if no vertex that it can reach lies on a cycle.
-/

namespace Descent

open Relation

variable {α : Type*} {next : α → α → Prop} {path : List α} {x y : α}

/-- No way from the vertex comes back to the path that has been taken, nor to itself. -/
inductive Clear (next : α → α → Prop) : List α → α → Prop where
  | intro {path : List α} {x : α} : x ∉ path → (∀ y, next x y → Clear next (path ++ [x]) y) →
      Clear next path x

theorem clear_step : Clear next path x ↔
    x ∉ path ∧ ∀ y, next x y → Clear next (path ++ [x]) y := by
  constructor
  · rintro ⟨hx, h⟩
    exact ⟨hx, h⟩
  · rintro ⟨hx, h⟩
    exact .intro hx h

section Acyclic

theorem Clear.acc (h : Clear next path x) : Acc (fun b a => next a b) x := by
  induction h with
  | intro _ _ ih => exact .intro _ ih

theorem Clear.not_mem (h : Clear next path x) (hxy : ReflTransGen next x y) : y ∉ path := by
  induction hxy using ReflTransGen.head_induction_on generalizing path with
  | refl =>
    cases h with
    | intro hx _ => exact hx
  | head hstep _ ih =>
    cases h with
    | intro _ h =>
      intro hy
      exact ih (h _ hstep) (List.mem_append_left _ hy)

theorem acc_irrefl (h : Acc (fun b a => next a b) x) : ¬ TransGen next x x := by
  induction h with
  | intro x _ ih =>
    intro hcycle
    obtain ⟨y, hxy, hyx⟩ := TransGen.head'_iff.mp hcycle
    exact ih y hxy (TransGen.tail' hyx hxy)

theorem acc_of_reach (h : Acc (fun b a => next a b) x) (hxy : ReflTransGen next x y) :
    Acc (fun b a => next a b) y := by
  induction hxy with
  | refl => exact h
  | tail _ hstep ih => exact ih.inv hstep

theorem clear_of_acc (h : Acc (fun b a => next a b) x)
    (hpath : ∀ y, ReflTransGen next x y → y ∉ path) : Clear next path x := by
  induction h generalizing path with
  | intro x hacc ih =>
    refine .intro (hpath x .refl) fun y hxy => ih y hxy fun z hyz hz => ?_
    rcases List.mem_append.mp hz with hz | hz
    · exact hpath z (.head hxy hyz) hz
    · obtain rfl := List.mem_singleton.mp hz
      exact acc_irrefl (.intro z hacc) (TransGen.head' hxy hyz)

theorem acc_of_acyclic [Finite α] (h : ∀ y, ReflTransGen next x y → ¬ TransGen next y y) :
    Acc (fun b a => next a b) x := by
  let below (b a : α) : Prop := ReflTransGen next x a ∧ TransGen next a b
  have : IsTrans α below := ⟨fun c b a hcb hba => ⟨hba.1, hba.2.trans hcb.2⟩⟩
  have : Std.Irrefl below := ⟨fun a ha => h a ha.1 ha.2⟩
  have hwf : WellFounded below := Finite.wellFounded_of_trans_of_irrefl below
  suffices hreach : ∀ y, ReflTransGen next x y → Acc (fun b a => next a b) y from hreach x .refl
  intro y
  induction y using hwf.induction with
  | _ y ih =>
    intro hy
    exact .intro y fun z hyz => ih z ⟨hy, .single hyz⟩ (hy.tail hyz)

/-- A descent that starts from a vertex comes back to its path precisely where a cycle lies
ahead. -/
theorem clear_nil_iff [Finite α] :
    Clear next [] x ↔ ∀ y, ReflTransGen next x y → ¬ TransGen next y y := by
  constructor
  · intro h y hxy
    exact acc_irrefl (acc_of_reach h.acc hxy)
  · intro h
    exact clear_of_acc (acc_of_acyclic h) fun y _ => List.not_mem_nil

end Acyclic

section Everywhere

variable {P : α → Prop}

/-- A property holds wherever a vertex reaches if it holds there and wherever its successors
reach. -/
theorem forall_reach_iff : (∀ y, ReflTransGen next x y → P y) ↔
    P x ∧ ∀ y, next x y → ∀ z, ReflTransGen next y z → P z := by
  constructor
  · intro h
    exact ⟨h x .refl, fun y hxy z hyz => h z (.head hxy hyz)⟩
  · rintro ⟨hx, h⟩ y hxy
    rcases ReflTransGen.cases_head hxy with rfl | ⟨z, hxz, hzy⟩
    · exact hx
    · exact h z hxz y hzy

end Everywhere

end Descent
