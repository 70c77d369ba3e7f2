import DtProject.GrowBuffer.Basic
import DtProject.Packet.Rules

/-! # The receive loops over the growing buffer

The UDP and TLS sockets append to the buffer and the plain TCP socket reads over
it, before the same loop. Over the content of the buffer these are the receive
loops over lists, and the array never grows past what the longest content needs.
-/

namespace DtProject

namespace PacketRule

variable {σ : Type*} (R : PacketRule σ)

/-- The receive loop of the sockets over their buffer. It is `none` where the engine's check on a
size fails. -/
def drain (rule : σ) (b : ODGrowBuffer) : Option (List (List UInt8) × σ × ODGrowBuffer) :=
  if _hempty : b.getLength = 0 then some ([], rule, b)
  else
    let wantSize := R.getWantSize rule
    if 0 < wantSize ∧ b.getLength < wantSize then some ([], rule, b)
    else if _hneg : wantSize < 0 then none
    else
      let receiveSize := if wantSize = 0 then b.getLength else wantSize.toNat
      let r := R.notifyReceiveData rule (b.asSpan 0 receiveSize)
      match _hremove : b.removeRangeFromStart 0 receiveSize with
      | none => none
      | some b' => (drain r.2 b').map fun t => (r.1 ++ t.1, t.2)
termination_by b.getLength
decreasing_by
  have hlen := ODGrowBuffer.getLength_removeRange _hremove
  have hpos : 0 < receiveSize := by
    dsimp only [receiveSize]
    split_ifs <;> omega
  omega

/-- What the UDP and TLS sockets do with the data that they read: `NotifyReceived` of the UDP
socket on each. -/
def feedKept : σ → ODGrowBuffer → List (List UInt8) →
    Option (List (List UInt8) × σ × ODGrowBuffer)
  | rule, b, [] => some ([], rule, b)
  | rule, b, data :: datas =>
    (R.drain rule (b.add data)).bind fun r =>
      (feedKept r.2.1 r.2.2 datas).map fun t => (r.1 ++ t.1, t.2)

/-- What the plain TCP socket does with what it reads: the next data is read over the bytes left. -/
def feedOver : σ → ODGrowBuffer → List SocketRead →
    Option (List (List UInt8) × σ × ODGrowBuffer)
  | rule, b, [] => some ([], rule, b)
  | rule, b, r :: rs =>
    (R.drain rule (b.receive r)).bind fun t =>
      (feedOver t.2.1 t.2.2 rs).map fun t' => (t.1 ++ t'.1, t'.2)

variable {R} {rule : σ} {b : ODGrowBuffer} {datas : List (List UInt8)}

/-- On the content of the buffer the loop is the receive loop, and the array stays as large. -/
theorem drain_eq (rule : σ) (b : ODGrowBuffer) :
    (R.drain rule b).map (fun t => (t.1, t.2.1, t.2.2.content)) =
      R.receiveLoop rule b.content ∧
    ∀ t ∈ R.drain rule b, t.2.2.SameArray b := by
  induction hn : b.getLength using Nat.strongRecOn generalizing rule b with
  | ind m ih =>
    subst hn
    have hlen : b.content.length = b.getLength := ODGrowBuffer.length_content
    rw [drain]
    by_cases hempty : b.getLength = 0
    · have hnil : b.content = [] := List.length_eq_zero_iff.mp (hlen.trans hempty)
      rw [dif_pos hempty, hnil, receiveLoop_nil]
      refine ⟨by rw [Option.map_some, hnil], ?_⟩
      rintro t ⟨⟩
      exact ⟨rfl, rfl⟩
    · have hne : b.content ≠ [] := List.length_pos_iff.mp (by omega)
      rw [dif_neg hempty]
      dsimp only
      by_cases hshort : 0 < R.getWantSize rule ∧ b.getLength < R.getWantSize rule
      · rw [if_pos hshort, receiveLoop_short (by rw [hlen]; exact hshort.2)]
        refine ⟨rfl, ?_⟩
        rintro t ⟨⟩
        exact ⟨rfl, rfl⟩
      · rw [if_neg hshort]
        by_cases hneg : R.getWantSize rule < 0
        · rw [dif_pos hneg, receiveLoop_neg hne hneg]
          exact ⟨rfl, by simp⟩
        · have hwant : R.getWantSize rule ≤ b.content.length := by omega
          have hsize : (if R.getWantSize rule = 0 then b.getLength
              else (R.getWantSize rule).toNat) = R.receiveSize rule b.content := by
            rw [receiveSize, hlen]
          have hle := receiveSize_le hwant
          have hpos := receiveSize_pos hne (Int.not_lt.mp hneg)
          rw [hlen] at hle
          obtain ⟨b', hremove, hcontent, hinner⟩ := ODGrowBuffer.content_removeRange hle
          have hless := ODGrowBuffer.getLength_removeRange hremove
          rw [dif_neg hneg, hsize, receiveLoop_round hne (Int.not_lt.mp hneg) hwant,
            ODGrowBuffer.asSpan_zero hle]
          obtain ⟨hloop, hinner'⟩ := ih b'.getLength (by omega) (R.notifyReceiveData rule
            (b.content.take (R.receiveSize rule b.content))).2 b' rfl
          split
          · rename_i hnone
            rw [hremove] at hnone
            cases hnone
          · rename_i b₁ hsome
            obtain rfl : b' = b₁ := Option.some.inj (hremove.symm.trans hsome)
            rw [hcontent] at hloop
            dsimp only
            rw [← hloop, Option.map_map, Option.map_map]
            refine ⟨rfl, fun t ht => ?_⟩
            obtain ⟨t', ht', rfl⟩ := Option.map_eq_some_iff.mp ht
            exact (hinner' t' ht').trans hinner

theorem feedKept_content (rule : σ) (b : ODGrowBuffer) (datas : List (List UInt8)) :
    (R.feedKept rule b datas).map (fun t => (t.1, t.2.1, t.2.2.content)) =
    R.receiveKept rule b.content datas := by
  induction datas generalizing rule b with
  | nil => rfl
  | cons data datas ih =>
    have hdrain := (drain_eq (R := R) rule (b.add data)).1
    rw [ODGrowBuffer.content_add] at hdrain
    rw [feedKept, receiveKept, ← hdrain]
    cases R.drain rule (b.add data) with
    | none => rfl
    | some r =>
      rw [Option.map_some, Option.bind_some, Option.bind_some, ← ih, Option.map_map, Option.map_map]
      rfl

/-- Of what the plain TCP socket reads, only the bytes of one read at a time are seen. -/
theorem feedOver_eq {rs : List SocketRead} :
    (R.feedOver rule b rs).map (fun t => (t.1, t.2.1)) =
      R.receiveOver rule (rs.map SocketRead.data) := by
  induction rs generalizing rule b with
  | nil => rfl
  | cons r rs ih =>
    have hdrain := (drain_eq (R := R) rule (b.receive r)).1
    rw [ODGrowBuffer.content_receive] at hdrain
    rw [feedOver, List.map_cons, receiveOver, ← hdrain]
    cases R.drain rule (b.receive r) with
    | none => rfl
    | some t =>
      rw [Option.map_some, Option.bind_some, Option.bind_some, ← ih, Option.map_map, Option.map_map]
      rfl

/-- Where the rule, which keeps `I`, then never wants more than `want` bytes and no data is longer
than `most`, the array never grows past both together and one packet more. -/
theorem feedKept_innerBuffer_le {I : σ → Prop} {want most c : ℕ}
    {t : List (List UInt8) × σ × ODGrowBuffer} (hrule : I rule)
    (hI : ∀ rule data, I rule → I (R.notifyReceiveData rule data).2)
    (hwant : ∀ rule, I rule → R.getWantSize rule ≤ want)
    (hdatas : ∀ data ∈ datas, data.length ≤ most)
    (hc : want + most + b.packetSize ≤ c) (hb : b.getInnerBufferSize ≤ c)
    (hlen : b.getLength ≤ want) (h : R.feedKept rule b datas = some t) :
    t.2.2.getInnerBufferSize ≤ c ∧ t.2.2.getLength ≤ want := by
  induction datas generalizing rule b t with
  | nil =>
    cases h
    exact ⟨hb, hlen⟩
  | cons data datas ih =>
    obtain ⟨hdata, hdatas⟩ := List.forall_mem_cons.mp hdatas
    rw [feedKept] at h
    obtain ⟨r, hr, ht⟩ := Option.bind_eq_some_iff.mp h
    obtain ⟨t', ht', rfl⟩ := Option.map_eq_some_iff.mp ht
    obtain ⟨hloop, hsame⟩ := drain_eq (R := R) rule (b.add data)
    have hadd := b.add_innerBuffer_le data hb (by omega)
    have hsame := hsame r hr
    rw [hr, Option.map_some] at hloop
    have hkept : I r.2.1 := receiveLoop_keeps hI hrule hloop.symm
    have hrest : r.2.2.getLength ≤ want := by
      rw [← ODGrowBuffer.length_content]
      rcases receiveLoop_rest hloop.symm with hnil | hlt
      · rw [hnil]
        exact Nat.zero_le _
      · have := hwant r.2.1 hkept
        omega
    exact ih (t := t') hkept hdatas (by rw [hsame.packetSize]; exact hc)
      (by rw [hsame.innerBuffer]; exact hadd) hrest ht'

/-- A rule of packets of three bytes, and datagrams of four that make the array grow. -/
theorem feedKept_innerBuffer_le_twoReads :
    ∃ t, feedKept PacketRuleFixedLength.duplex.toPacketRule ⟨3⟩ (.new 4 4)
        [[1, 2, 3, 4], [5, 6, 7, 8]] = some t ∧
      t.1 = [[1, 2, 3], [4, 5, 6]] ∧ t.2.2.content = [7, 8] ∧ 4 < t.2.2.getInnerBufferSize ∧
      t.2.2.getInnerBufferSize ≤ 11 ∧ t.2.2.getLength ≤ 3 := by
  let R := PacketRuleFixedLength.duplex.toPacketRule
  have hround : ∀ x y z : UInt8, ∀ rest : List UInt8, rest.length < 3 →
      R.receiveLoop ⟨3⟩ (x :: y :: z :: rest) = some ([[x, y, z]], ⟨3⟩, rest) := by
    intro x y z rest hrest
    have hshort : R.receiveLoop ⟨3⟩ rest = some ([], ⟨3⟩, rest) :=
      receiveLoop_short (Int.ofNat_lt.mpr hrest)
    rw [receiveLoop_want (n := 3) (by decide) rfl (by simp)]
    change (R.receiveLoop ⟨3⟩ rest).map _ = _
    rw [hshort]
    rfl
  have hfirst := drain_eq (R := R) ⟨3⟩ ((ODGrowBuffer.new 4 4).add [1, 2, 3, 4])
  have hnil : (ODGrowBuffer.new 4 4).content = [] := rfl
  rw [ODGrowBuffer.content_add, hnil, List.nil_append, hround 1 2 3 [4] (by decide)] at hfirst
  obtain ⟨⟨bodies₁, rule₁, b₁⟩, hr₁, heq₁⟩ := Option.map_eq_some_iff.mp hfirst.1
  simp only [Prod.mk.injEq] at heq₁
  obtain ⟨rfl, rfl, hcontent₁⟩ := heq₁
  have hsecond := drain_eq (R := R) ⟨3⟩ (b₁.add [5, 6, 7, 8])
  rw [ODGrowBuffer.content_add, hcontent₁, List.cons_append, List.nil_append,
    hround 4 5 6 [7, 8] (by decide)] at hsecond
  obtain ⟨⟨bodies₂, rule₂, b₂⟩, hr₂, heq₂⟩ := Option.map_eq_some_iff.mp hsecond.1
  simp only [Prod.mk.injEq] at heq₂
  obtain ⟨rfl, rfl, hcontent₂⟩ := heq₂
  have hfeed : R.feedKept ⟨3⟩ (.new 4 4) [[1, 2, 3, 4], [5, 6, 7, 8]] =
      some ([[1, 2, 3], [4, 5, 6]], ⟨3⟩, b₂) := by
    rw [feedKept, hr₁, Option.bind_some, feedKept, hr₂]
    rfl
  have hgrown : 4 < b₂.getInnerBufferSize := by
    have hfits := (b₁.add [5, 6, 7, 8]).fits
    have hlen₁ := congrArg List.length hcontent₁
    rw [ODGrowBuffer.length_content] at hlen₁
    change b₁.getLength + 4 ≤ (b₁.add [5, 6, 7, 8]).getInnerBufferSize at hfits
    rw [← (hsecond.2 _ hr₂).innerBuffer, hlen₁] at hfits
    exact hfits
  have hdatas : ∀ data ∈ ([[1, 2, 3, 4], [5, 6, 7, 8]] : List (List UInt8)), data.length ≤ 4 := by
    decide
  have hwant : ∀ rule : PacketRuleFixedLength, rule = ⟨3⟩ → R.getWantSize rule ≤ (3 : ℕ) := by
    rintro rule rfl
    exact le_rfl
  have hbound := feedKept_innerBuffer_le (I := (· = ⟨3⟩)) rfl (fun _ _ h => h) hwant hdatas le_rfl
    (by decide) (by decide) hfeed
  exact ⟨_, hfeed, rfl, hcontent₂, hgrown, hbound⟩

end PacketRule

end DtProject
