import DtProject.SharedMemory.Delivery

/-! # What processes hand on

Where every process holds a packet rule that delivers whole packets, each packet
that a process copies out becomes one body. So the bodies that a process hands on
are bodies sent by others, in the order they were sent and each at most once.
-/

namespace DtProject

open Reactive

open scoped List

namespace SharedMemory

variable {ι σ : Type*} [DecidableEq ι] {R : DuplexRule σ} {Idle : σ → Prop}
  {Carried : List UInt8 → Prop} {arrives : List UInt8 → List UInt8} {w w' : SharedMemory ι σ}
  {e : Event ι} {i j : ι} {body packet : List UInt8}

/-- Some idle sender makes the packet of a body that it carries. -/
def PacketOf (R : DuplexRule σ) (Idle : σ → Prop) (Carried : List UInt8 → Prop)
    (body packet : List UInt8) : Prop :=
  Carried body ∧ ∃ sender, Idle sender ∧ packet = R.makeSendPacket sender body

/-- All rules are idle, packets are those of their bodies, and each packet copied out has been
handed on as one body. -/
structure Orderly (R : DuplexRule σ) (Idle : σ → Prop) (Carried : List UInt8 → Prop)
    (arrives : List UInt8 → List UInt8) (w : SharedMemory ι σ) : Prop where
  idle : ∀ i, Idle (w.process i).packetRule
  written : ∀ x ∈ w.written, PacketOf R Idle Carried x.body x.packet
  bodies : ∀ i, List.Forall₂
    (fun body packet => ∃ sent, PacketOf R Idle Carried sent packet ∧ body = arrives sent)
    (w.process i).bodies (w.process i).packets

variable {size : ι → ℕ} {int32 : ∀ i, size i < 2 ^ 31} {n : ℕ} {rule : ι → σ}

omit [DecidableEq ι] in
theorem Orderly.kept (h : Orderly R Idle Carried arrives w)
    (hkept : ∀ j, Kept (w.process j) (w'.process j))
    (hwritten : ∀ x ∈ w'.written, PacketOf R Idle Carried x.body x.packet) :
    Orderly R Idle Carried arrives w' where
  idle j := by rw [(hkept j).packetRule]; exact h.idle j
  written := hwritten
  bodies j := by rw [(hkept j).packets, (hkept j).bodies]; exact h.bodies j

end SharedMemory

end DtProject
