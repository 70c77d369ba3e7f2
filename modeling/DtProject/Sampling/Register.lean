import Mathlib.Logic.Function.Basic
import DtProject.Reactive.Run

/-! # Sampled registers

Parties share one register. A write replaces the value before it, and a party
that samples the register takes its value unless it knows of it already, as the
writer does. Parties may overlook values, but what each takes are values of other
parties, in the order of the writes and each at most once.
-/

namespace Sampling

open Reactive

open scoped List

variable {ι M : Type*}

/-- The writes, newest first; how many of the newest each party does not know of; and the values
each has taken, newest first. -/
structure State (ι M : Type*) where
  written : List (ι × M)
  unseen : ι → ℕ
  received : ι → List M

def start : State ι M := ⟨[], fun _ => 0, fun _ => []⟩

inductive Act (ι M : Type*) where
  | write (p : ι) (m : M)
  | sample (p : ι)

variable [DecidableEq ι]

def step (s : State ι M) : Act ι M → Option (State ι M)
  | .write p m =>
    some ⟨(p, m) :: s.written, Function.update (fun q => s.unseen q + 1) p 0, s.received⟩
  | .sample p =>
    match s.written with
    | [] => none
    | (_, m) :: _ =>
      if s.unseen p = 0 then none
      else some ⟨s.written, Function.update s.unseen p 0,
        Function.update s.received p (m :: s.received p)⟩

variable {s t : State ι M} {p q : ι} {m : M} {d : Act ι M} {xs : List (ι × M)}

end Sampling
