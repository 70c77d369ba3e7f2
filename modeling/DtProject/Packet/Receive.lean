import Mathlib.Data.Int.Init
import Mathlib.Data.List.Basic
import Mathlib.Tactic.SplitIfs

/-! # Receiving through a packet rule

The sockets of ObjectDeliverer hand a packet rule as many bytes as it wants, or
all they have when it wants none in particular, until fewer are left than it
wants. The UDP and TLS sockets keep these for the next data. The plain TCP socket
reads the next data over them.
-/

namespace DtProject

/-- The receiving side of `UPacketRule`: how many bytes it wants, and the bodies it hands on for
the bytes it is given, with the rule after it. Where a rule reads bytes by their index, the engine
checks that they are there. -/
structure PacketRule (σ : Type*) where
  getWantSize : σ → ℤ
  notifyReceiveData : σ → List UInt8 → List (List UInt8) × σ
  inBounds : σ → List UInt8 → Bool := fun _ _ => true

namespace PacketRule

variable {σ : Type*} (R : PacketRule σ)

/-- The receive loop: the bodies handed on, the rule after it, and the bytes left. It is `none`
where a negative size is wanted and the engine's check fails. -/
def receiveLoop (rule : σ) (buffer : List UInt8) :
    Option (List (List UInt8) × σ × List UInt8) :=
  if _hbuffer : buffer = [] then some ([], rule, [])
  else
    let wantSize := R.getWantSize rule
    if 0 < wantSize ∧ buffer.length < wantSize then some ([], rule, buffer)
    else if _hneg : wantSize < 0 then none
    else
      let receiveSize := if wantSize = 0 then buffer.length else wantSize.toNat
      let r := R.notifyReceiveData rule (buffer.take receiveSize)
      (receiveLoop r.2 (buffer.drop receiveSize)).map fun t => (r.1 ++ t.1, t.2)
termination_by buffer.length
decreasing_by
  have hpos := List.length_pos_iff.mpr _hbuffer
  rw [List.length_drop]
  split_ifs <;> omega

/-- `NotifyReceived` of the UDP socket, and the data callback of the TLS socket: the bytes left
are kept before the next data. -/
def receiveKept : σ → List UInt8 → List (List UInt8) →
    Option (List (List UInt8) × σ × List UInt8)
  | rule, buffer, [] => some ([], rule, buffer)
  | rule, buffer, data :: datas =>
    (R.receiveLoop rule (buffer ++ data)).bind fun r =>
      (receiveKept r.2.1 r.2.2 datas).map fun t => (r.1 ++ t.1, t.2)

/-- `ReceivedData` of the TCP socket: the next data is read over the bytes left. -/
def receiveOver : σ → List (List UInt8) → Option (List (List UInt8) × σ)
  | rule, [] => some ([], rule)
  | rule, data :: datas =>
    (R.receiveLoop rule data).bind fun r =>
      (receiveOver r.2.1 datas).map fun t => (r.1 ++ t.1, t.2)

variable {R} {rule : σ} {buffer data : List UInt8} {n : ℕ}

@[simp] theorem receiveLoop_nil : R.receiveLoop rule [] = some ([], rule, []) := by
  rw [receiveLoop, dif_pos rfl]

theorem receiveLoop_short (h : (buffer.length : ℤ) < R.getWantSize rule) :
    R.receiveLoop rule buffer = some ([], rule, buffer) := by
  by_cases hnil : buffer = []
  · rw [hnil, receiveLoop_nil]
  · rw [receiveLoop, dif_neg hnil]
    exact if_pos ⟨by omega, h⟩

theorem receiveLoop_want (hn : 0 < n) (hwant : R.getWantSize rule = n)
    (hlen : n ≤ buffer.length) :
    R.receiveLoop rule buffer =
      (R.receiveLoop (R.notifyReceiveData rule (buffer.take n)).2 (buffer.drop n)).map
        fun t => ((R.notifyReceiveData rule (buffer.take n)).1 ++ t.1, t.2) := by
  have hbuffer : buffer ≠ [] := List.length_pos_iff.mp (by omega)
  rw [receiveLoop, dif_neg hbuffer]
  simp only [hwant]
  rw [if_neg (by omega), dif_neg (by omega), if_neg (by omega), Int.toNat_natCast]

theorem receiveLoop_all (hbuffer : buffer ≠ []) (hwant : R.getWantSize rule = 0) :
    R.receiveLoop rule buffer =
      some ((R.notifyReceiveData rule buffer).1, (R.notifyReceiveData rule buffer).2, []) := by
  rw [receiveLoop, dif_neg hbuffer]
  simp [hwant]

theorem receiveLoop_neg (hbuffer : buffer ≠ []) (hwant : R.getWantSize rule < 0) :
    R.receiveLoop rule buffer = none := by
  rw [receiveLoop, dif_neg hbuffer]
  simp only
  rw [if_neg (by omega), dif_pos hwant]

def receiveSize (R : PacketRule σ) (rule : σ) (buffer : List UInt8) : ℕ :=
  if R.getWantSize rule = 0 then buffer.length else (R.getWantSize rule).toNat

theorem receiveSize_pos (hbuffer : buffer ≠ []) (hwant : 0 ≤ R.getWantSize rule) :
    0 < R.receiveSize rule buffer := by
  have hpos := List.length_pos_iff.mpr hbuffer
  unfold receiveSize
  split_ifs <;> omega

theorem receiveSize_le (hlen : R.getWantSize rule ≤ buffer.length) :
    R.receiveSize rule buffer ≤ buffer.length := by
  unfold receiveSize
  split_ifs <;> omega

theorem receiveLoop_round (hbuffer : buffer ≠ []) (hwant : 0 ≤ R.getWantSize rule)
    (hlen : R.getWantSize rule ≤ buffer.length) :
    R.receiveLoop rule buffer =
      let r := R.notifyReceiveData rule (buffer.take (R.receiveSize rule buffer))
      (R.receiveLoop r.2 (buffer.drop (R.receiveSize rule buffer))).map
        fun t => (r.1 ++ t.1, t.2) := by
  rw [receiveLoop, dif_neg hbuffer]
  simp only
  rw [if_neg (by omega), dif_neg (by omega)]
  rfl

theorem receiveLoop_keeps {I : σ → Prop} {rule' : σ} {bodies : List (List UInt8)}
    {rest : List UInt8} (hI : ∀ rule data, I rule → I (R.notifyReceiveData rule data).2)
    (hrule : I rule) (h : R.receiveLoop rule buffer = some (bodies, rule', rest)) : I rule' := by
  induction hn : buffer.length using Nat.strongRecOn generalizing rule buffer bodies with
  | ind m ih =>
    subst hn
    rcases eq_or_ne buffer [] with rfl | hne
    · rw [receiveLoop_nil] at h
      cases h
      exact hrule
    · by_cases hlt : (buffer.length : ℤ) < R.getWantSize rule
      · rw [receiveLoop_short hlt] at h
        cases h
        exact hrule
      · by_cases hneg : R.getWantSize rule < 0
        · rw [receiveLoop_neg hne hneg] at h
          cases h
        · have hpos := receiveSize_pos hne (Int.not_lt.mp hneg)
          rw [receiveLoop_round hne (Int.not_lt.mp hneg) (Int.not_lt.mp hlt)] at h
          obtain ⟨⟨bodies₁, t⟩, ht, heq⟩ := Option.map_eq_some_iff.mp h
          cases heq
          have hdrop := List.length_pos_iff.mpr hne
          exact ih _ (by rw [List.length_drop]; omega) (hI rule _ hrule) ht rfl

theorem receiveLoop_rest {rule' : σ} {bodies : List (List UInt8)} {rest : List UInt8}
    (h : R.receiveLoop rule buffer = some (bodies, rule', rest)) :
    rest = [] ∨ (rest.length : ℤ) < R.getWantSize rule' := by
  induction hn : buffer.length using Nat.strongRecOn generalizing rule buffer bodies with
  | ind m ih =>
    subst hn
    rcases eq_or_ne buffer [] with rfl | hne
    · rw [receiveLoop_nil] at h
      cases h
      exact .inl rfl
    · by_cases hlt : (buffer.length : ℤ) < R.getWantSize rule
      · rw [receiveLoop_short hlt] at h
        cases h
        exact .inr hlt
      · by_cases hneg : R.getWantSize rule < 0
        · rw [receiveLoop_neg hne hneg] at h
          cases h
        · have hpos := receiveSize_pos hne (Int.not_lt.mp hneg)
          rw [receiveLoop_round hne (Int.not_lt.mp hneg) (Int.not_lt.mp hlt)] at h
          obtain ⟨⟨bodies₁, t⟩, ht, heq⟩ := Option.map_eq_some_iff.mp h
          cases heq
          have hdrop := List.length_pos_iff.mpr hne
          exact ih _ (by rw [List.length_drop]; omega) ht rfl

theorem receiveOver_append {datas : List (List UInt8)} :
    R.receiveOver rule (datas ++ [data]) = (R.receiveOver rule datas).bind fun t =>
      (R.receiveLoop t.2 data).map fun r => (t.1 ++ r.1, r.2.1) := by
  induction datas generalizing rule with
  | nil =>
    simp only [List.nil_append, receiveOver, Option.bind_some]
    cases R.receiveLoop rule data with
    | none => rfl
    | some r => simp
  | cons first datas ih =>
    rw [List.cons_append, receiveOver, receiveOver]
    cases R.receiveLoop rule first with
    | none => rfl
    | some r =>
      rw [Option.bind_some, Option.bind_some, ih]
      cases R.receiveOver r.2.1 datas with
      | none => rfl
      | some t => simp [Option.map_map, Function.comp_def]

theorem receiveOver_short {datas : List (List UInt8)}
    (h : ∀ data ∈ datas, (data.length : ℤ) < R.getWantSize rule) :
    R.receiveOver rule datas = some ([], rule) := by
  induction datas with
  | nil => rfl
  | cons data datas ih =>
    rw [receiveOver, receiveLoop_short (h data List.mem_cons_self), Option.bind_some,
      ih fun d hd => h d (List.mem_cons_of_mem _ hd)]
    rfl

end PacketRule

end DtProject
