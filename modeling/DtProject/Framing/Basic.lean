import Mathlib.Data.List.Basic

/-! # Framings of a stream

A framing cuts one item off the front of a stream when the stream begins with a
whole one, and more input never changes that cut. Draining a stream cuts off all
whole items and keeps the rest, so a stream that arrives in pieces yields the
same items however it is divided.
-/

universe u v

/-- How to cut one item off a stream. -/
structure Framing (α : Type u) (β : Type v) where
  next : List α → Option (β × List α)
  shrinks : ∀ {xs b ys}, next xs = some (b, ys) → ys.length < xs.length
  stable : ∀ {xs b ys} zs, next xs = some (b, ys) → next (xs ++ zs) = some (b, ys ++ zs)

namespace Framing

variable {α : Type u} {β : Type v} (F : Framing α β)

/-- All whole items of a stream, and what is left. -/
def drain (xs : List α) : List β × List α :=
  match h : F.next xs with
  | none => ([], xs)
  | some (b, ys) =>
    have := F.shrinks h
    let r := drain ys
    (b :: r.1, r.2)
termination_by xs.length

def feed (rest piece : List α) : List β × List α := F.drain (rest ++ piece)

def feedAll : List α → List (List α) → List β × List α
  | rest, [] => ([], rest)
  | rest, piece :: pieces =>
    let r := F.feed rest piece
    let t := feedAll r.2 pieces
    (r.1 ++ t.1, t.2)

variable {F} {xs ys : List α} {b : β}

theorem drain_none (h : F.next xs = none) : F.drain xs = ([], xs) := by
  rw [drain]
  split
  · rfl
  · rename_i h'
    cases h.symm.trans h'

theorem drain_some (h : F.next xs = some (b, ys)) :
    F.drain xs = (b :: (F.drain ys).1, (F.drain ys).2) := by
  rw [drain]
  split
  · rename_i h'
    cases h.symm.trans h'
  · rename_i h'
    cases h.symm.trans h'
    rfl

theorem next_drain (xs : List α) : F.next (F.drain xs).2 = none := by
  induction hn : xs.length using Nat.strongRecOn generalizing xs with
  | ind n ih =>
    subst hn
    cases h : F.next xs with
    | none => rwa [drain_none h]
    | some p =>
      rw [drain_some h]
      exact ih _ (F.shrinks h) _ rfl

/-- Draining in two goes yields what draining at once does. -/
theorem drain_append (xs zs : List α) :
    F.drain (xs ++ zs) =
      ((F.drain xs).1 ++ (F.drain ((F.drain xs).2 ++ zs)).1, (F.drain ((F.drain xs).2 ++ zs)).2) := by
  induction hn : xs.length using Nat.strongRecOn generalizing xs with
  | ind n ih =>
    subst hn
    cases h : F.next xs with
    | none => rw [drain_none h]; rfl
    | some p =>
      rw [drain_some (F.stable zs h), drain_some h, ih _ (F.shrinks h) _ rfl]
      rfl

/-- However a stream is divided into pieces, it yields the same items. -/
theorem feedAll_eq (rest : List α) (h : F.next rest = none) (pieces : List (List α)) :
    F.feedAll rest pieces = F.drain (rest ++ pieces.flatten) := by
  induction pieces generalizing rest with
  | nil => rw [feedAll, List.flatten_nil, List.append_nil, drain_none h]
  | cons piece pieces ih =>
    rw [List.flatten_cons, ← List.append_assoc, drain_append]
    simp only [feedAll, feed, ih _ (next_drain _)]

theorem next_nil : F.next [] = none := by
  cases h : F.next [] with
  | none => rfl
  | some p => exact absurd (F.shrinks h) (Nat.not_lt_zero _)

theorem drain_flatMap {encode : β → List α} {bs : List β}
    (h : ∀ b ∈ bs, F.next (encode b) = some (b, [])) :
    F.drain (bs.flatMap encode) = (bs, []) := by
  induction bs with
  | nil => rw [List.flatMap_nil, drain_none next_nil]
  | cons b bs ih =>
    have hb := F.stable (bs.flatMap encode) (h b List.mem_cons_self)
    rw [List.flatMap_cons, drain_some hb, List.nil_append,
      ih fun b hb => h b (List.mem_cons_of_mem _ hb)]

theorem drain_eq_singleton_iff : F.drain xs = ([b], []) ↔ F.next xs = some (b, []) := by
  constructor
  · intro h
    cases hx : F.next xs with
    | none => rw [drain_none hx] at h; cases h
    | some p =>
      obtain ⟨c, zs⟩ := p
      rw [drain_some hx] at h
      obtain ⟨hb, hr⟩ := Prod.mk.inj h
      obtain ⟨rfl, hnone⟩ := List.cons.inj hb
      cases hz : F.next zs with
      | none =>
        rw [drain_none hz] at hr
        obtain rfl : zs = [] := hr
        rfl
      | some q => rw [drain_some hz] at hnone; cases hnone
  · intro h
    rw [drain_some h, drain_none next_nil]

end Framing
