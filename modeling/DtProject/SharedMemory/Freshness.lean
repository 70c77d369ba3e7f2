import Mathlib.Data.Nat.ModEq
import Mathlib.Logic.Function.Iterate
import DtProject.SharedMemory.Delivery

/-! # Which packets a poll overlooks

Counters run through 1 to 255 and a poll compares for equality only, so a process
overlooks the newest packet when the counters have met again. Between two
processes whose counters agreed, this happens exactly when both have since written
equally many packets modulo 255. In particular a receiver overlooks the newest of
255 packets, and two processes that send at once overlook each other.
-/

namespace DtProject

open Reactive

section Counter

variable {c : UInt8} {m n : ℕ}

theorem nextCounter_toNat : (nextCounter c).toNat = c.toNat % 255 + 1 := by
  have hc := c.toNat_lt
  have hadd : (c + 1).toNat = (c.toNat + 1) % 256 := UInt8.toNat_add c 1
  unfold nextCounter
  split_ifs with h
  · have hzero : (c + 1).toNat = 0 := by rw [h]; rfl
    have : c.toNat = 255 := by omega
    rw [this]
    rfl
  · have hne : (c + 1).toNat ≠ 0 := fun hz => h (UInt8.toNat_inj.mp hz)
    omega

theorem iterate_nextCounter_toNat (hn : 0 < n) :
    (nextCounter^[n] c).toNat = (c.toNat + 254 + n) % 255 + 1 := by
  induction n, hn using Nat.le_induction with
  | base =>
    rw [Function.iterate_one, nextCounter_toNat]
    omega
  | succ n _ ih =>
    rw [Function.iterate_succ_apply', nextCounter_toNat, ih]
    omega

/-- Where two counters meet that have been advanced from the same value. -/
theorem iterate_nextCounter_eq_iff (hn : 0 < n) :
    nextCounter^[m] c = nextCounter^[n] c ↔ m ≡ n [MOD 255] ∧ (c = 0 → 0 < m) := by
  have hc := c.toNat_lt
  rw [← UInt8.toNat_inj, iterate_nextCounter_toNat hn, Nat.ModEq]
  rcases Nat.eq_zero_or_pos m with rfl | hm
  · have hzero : c = 0 ↔ c.toNat = 0 := UInt8.toNat_inj.symm
    rw [Function.iterate_zero_apply, hzero]
    omega
  · rw [iterate_nextCounter_toNat hm]
    omega

end Counter

namespace SharedMemory

variable {ι σ : Type*} [DecidableEq ι] {R : DuplexRule σ} {w w' : SharedMemory ι σ}
  {e : Event ι} {es : List (Event ι)} {p q : ι}

/-- No process starts, and neither of two processes polls. -/
def Undisturbed (p q : ι) : Contract (SharedMemory ι σ) (Event ι)
  | _, .start .. => False
  | _, .poll i => i ≠ p ∧ i ≠ q
  | _, _ => True

def writes (i : ι) (xs : List (Written ι)) : ℕ := xs.countP fun x => x.process = i

/-- The counter of a process has been advanced once for each packet that it wrote since. -/
def Advanced (w v : SharedMemory ι σ) (i : ι) (new : List (Written ι)) : Prop :=
  (v.process i).nowCounter = nextCounter^[writes i new] (w.process i).nowCounter

/-- What the packets written since some state have left in the memory. -/
structure Since (p q : ι) (w v : SharedMemory ι σ) (new : List (Written ι)) : Prop where
  written : v.written = new ++ w.written
  size : v.sharedMemorySize = w.sharedMemorySize
  left : Advanced w v p new
  right : Advanced w v q new
  newest : ∀ x xs, new = x :: xs → Holds v.data x.packet ∧
    (v.process x.process).nowCounter = counterOf v.data

variable {v v' : SharedMemory ι σ} {new : List (Written ι)} {i : ι} {body packet : List UInt8}

theorem advanced_requestSend (h : Advanced w v p new) (ha : v.accepts i packet = true) :
    Advanced w (v.requestSend i body packet) p (⟨i, body, packet⟩ :: new) := by
  rw [Advanced] at h ⊢
  rcases eq_or_ne p i with rfl | hne
  · rw [requestSend_self ha, writes, List.countP_cons_of_pos (by simp),
      Function.iterate_succ_apply',
      ← writes, ← h]
  · rw [requestSend_ne ha hne, writes, List.countP_cons_of_neg (by simpa using hne.symm), ← writes,
      h]

theorem since_requestSend (h : Since p q w v new) (ha : v.accepts i packet = true) :
    Since p q w (v.requestSend i body packet) (⟨i, body, packet⟩ :: new) := by
  obtain ⟨hfits, hlen⟩ := v.accepts_fits ha
  have hsize := v.int32 i
  refine ⟨?_, ?_, advanced_requestSend h.left ha, advanced_requestSend h.right ha, ?_⟩
  · rw [requestSend_written ha, h.written, List.cons_append]
  · rw [requestSend_size ha, h.size]
  · intro x xs hx
    obtain ⟨rfl, rfl⟩ := List.cons.inj hx
    rw [requestSend_data ha]
    refine ⟨holds_writePacket (by omega) (by omega), ?_⟩
    rw [requestSend_self ha, counterOf_writePacket (by omega)]

theorem since_poll (h : Since p q w v new) (hp : i ≠ p) (hq : i ≠ q) :
    Since p q w (v.receivedData R i) new := by
  refine ⟨?_, ?_, ?_, ?_, ?_⟩
  · rw [receivedData_written, h.written]
  · rw [receivedData_size, h.size]
  · rw [Advanced, receivedData_ne hp.symm]
    exact h.left
  · rw [Advanced, receivedData_ne hq.symm]
    exact h.right
  · intro x xs hx
    obtain ⟨hholds, hcounter⟩ := h.newest x xs hx
    rw [receivedData_data]
    refine ⟨hholds, ?_⟩
    rcases eq_or_ne x.process i with hi | hne
    · cases hopen : (v.process i).isOpen with
      | false => rwa [receivedData_closed hopen]
      | true => rw [hi, receivedData_nowCounter hopen]
    · rw [receivedData_ne hne, hcounter]

theorem since_close (h : Since p q w v new) : Since p q w (v.close i) new where
  written := by rw [close_written, h.written]
  size := by rw [close_size, h.size]
  left := by rw [Advanced, close_kept.2]; exact h.left
  right := by rw [Advanced, close_kept.2]; exact h.right
  newest x xs hx := by
    rw [close_data, close_kept.2]
    exact h.newest x xs hx

theorem since_run (h : Run (step R) (Undisturbed p q) w es w') : ∃ new, Since p q w w' new := by
  refine h.invariant (I := fun v => ∃ new, Since p q w v new)
    ⟨[], rfl, rfl, rfl, rfl, by rintro x xs ⟨⟩⟩ ?_
  rintro v e v' ⟨new, hs⟩ hc hst
  cases e with
  | start => exact hc.elim
  | close i => cases hst; exact ⟨new, since_close hs⟩
  | send i body =>
    cases hst
    rcases send_cases R v i body with hsame | ⟨packet, -, ha, hsend⟩
    · rw [hsame]
      exact ⟨new, hs⟩
    · rw [hsend]
      exact ⟨_, since_requestSend hs ha⟩
  | poll i => cases hst; exact ⟨new, since_poll hs hc.1 hc.2⟩

/-- A process that has not polled since its counter was that of `q` polls after a packet of `q`. It
copies that packet out unless both have written equally many packets modulo 255. -/
theorem poll_copies_iff {x : Written ι} {xs : List (Written ι)}
    (h : Run (step R) (Undisturbed p q) w es w')
    (hsync : (w.process q).nowCounter = (w.process p).nowCounter)
    (hnew : w'.written = x :: xs ++ w.written) (hx : x.process = q) (hne : x.packet ≠ [])
    (hsize : x.packet.length ≤ w.sharedMemorySize p) (hopen : (w'.process p).isOpen = true) :
    ((w'.receivedData R p).process p).packets = x.packet :: (w'.process p).packets ↔
      ¬ (writes p (x :: xs) ≡ writes q (x :: xs) [MOD 255] ∧
        ((w.process p).nowCounter = 0 → 0 < writes p (x :: xs))) := by
  obtain ⟨new, hs⟩ := since_run h
  obtain rfl : new = x :: xs := List.append_cancel_right (hs.written.symm.trans hnew)
  obtain ⟨hholds, hcounter⟩ := hs.newest x xs rfl
  have hpos : 0 < writes q (x :: xs) := by
    rw [writes, List.countP_cons_of_pos (by simpa using hx)]
    exact Nat.succ_pos _
  have hleft := hs.left
  have hright := hs.right
  rw [Advanced] at hleft hright
  rw [← iterate_nextCounter_eq_iff hpos, ← hleft, ← hsync, ← hright, ← hx, hcounter]
  have hfit : ¬ w'.sharedMemorySize p < x.packet.length := by
    rw [hs.size]
    exact not_lt.mpr hsize
  have hcopied : w'.copied p = if counterOf w'.data = (w'.process p).nowCounter then [] else
      x.packet := by
    rw [copied_eq hholds]
    simp only [hfit, or_false]
  by_cases hmeet : counterOf w'.data = (w'.process p).nowCounter
  · rw [if_pos hmeet] at hcopied
    rw [receivedData_none hopen hcopied]
    exact iff_of_false (fun heq => List.cons_ne_self _ _ heq.symm) (fun hn => hn hmeet.symm)
  · rw [if_neg hmeet] at hcopied
    have hsome : w'.copied p ≠ [] := by rwa [hcopied]
    rw [receivedData_some hopen hsome, hcopied]
    exact iff_of_true rfl fun heq => hmeet heq.symm

def twoStarted : SharedMemory Bool Unit :=
  ((initial (fun _ => 8) (fun _ => by decide) 16 fun _ => ()).start false true).start true true

/-- Both send at once, and the first overlooks the packet of the second. -/
theorem poll_copies_iff_sentAtOnce : ∃ w' : SharedMemory Bool Unit,
    Run (step packetRuleNodivision) (Undisturbed false true) twoStarted
      [.send false [1], .send true [2]] w' ∧
    ((w'.receivedData packetRuleNodivision false).process false).packets ≠
      [2] :: (w'.process false).packets := by
  have hrun : Run (step packetRuleNodivision) (Undisturbed false true) twoStarted
      [.send false [1], .send true [2]] _ := .cons trivial rfl (.cons trivial rfl (.nil _))
  refine ⟨_, hrun, fun heq => ?_⟩
  have hiff :=
    @poll_copies_iff _ _ _ _ _ _ _ _ _ ⟨true, [2], [2]⟩ [⟨false, [1], [1]⟩] hrun rfl rfl rfl
    (List.cons_ne_nil 2 []) (by decide) rfl
  exact hiff.mp heq ⟨rfl, fun _ => Nat.one_pos⟩

end SharedMemory

end DtProject
