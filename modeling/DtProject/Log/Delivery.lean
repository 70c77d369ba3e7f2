import DtProject.Log.Replay

/-! # From the writer of a log to its reader

The file that a run of the writer leaves, cut off after any number of bytes, is
replayed. At every moment the reader has handed on the first of the whole records
that wait, each one when due. Once enough rounds have come late enough it has
handed on all of them, and has ended precisely where more bytes follow or the last
whole record was one that waited.
-/

namespace DtProject

open Reactive Numeric ProtocolLogReader

variable {σ : Type*} {clock : Clock} {R : DuplexRule σ} {Idle : σ → Prop}
  {Carried : List UInt8 → Prop} {arrives : List UInt8 → List UInt8} {sender rule : σ}
  {w : ProtocolLogWriter σ} {r : ProtocolLogReader σ}

/-- The entries whose records are whole in the first `k` bytes of the file. -/
def ProtocolLogWriter.wholeLog (R : DuplexRule σ) (w : ProtocolLogWriter σ) (k : ℕ) : List Entry :=
  let log := w.logged.reverse
  log.take (wholeRecords (R.makeSendPacket w.packetRule) log k)

/-- The file after a run of the writer, cut off anywhere, as a log and what is left of a record. -/
theorem cut_file (hw : Reachable (ProtocolLogWriter.step clock R)
      (ProtocolLogWriter.Sends R Carried) { packetRule := sender } w) (k : ℕ) :
    (∃ tail, w.file.take k = logFile (R.makeSendPacket sender) (w.wholeLog R k) ++ tail ∧
      Torn (R.makeSendPacket sender) tail) ∧
    ∀ e ∈ w.wholeLog R k, Carried e.2 ∧ (R.makeSendPacket sender e.2).length < 2 ^ 31 := by
  have h := ProtocolLogWriter.logs_reachable hw
  have hcarried : ∀ e ∈ w.logged.reverse,
      Carried e.2 ∧ (R.makeSendPacket sender e.2).length < 2 ^ 31 := fun e he =>
    h.carried e (List.mem_reverse.mp he)
  rw [ProtocolLogWriter.wholeLog, h.packetRule, h.file]
  exact ⟨take_logFile (fun e he => (hcarried e he).2) k,
    fun e he => hcarried e (List.mem_of_mem_take he)⟩

theorem exists_replay (whole : Whole R Idle Carried arrives) (hsender : Idle sender)
    (hrule : Idle rule) (hw : Reachable (ProtocolLogWriter.step clock R)
      (ProtocolLogWriter.Sends R Carried) { packetRule := sender } w) (k : ℕ)
    (cutFirstInterval : Bool) (now : ℤ) (nows : List ℤ) :
    ∃ r, Run (step clock R.toPacketRule) ⊤
      (start cutFirstInterval rule (w.file.take k) now) nows r := by
  obtain ⟨⟨tail, hfile, htorn⟩, hcarried⟩ := cut_file hw k
  rw [hfile]
  have hstart : ∃ done todo n, Playing clock (R.makeSendPacket sender) arrives Idle tail
      (replayStart clock cutFirstInterval now (w.wholeLog R k)) (w.wholeLog R k) done todo n
      (start cutFirstInterval rule
        (logFile (R.makeSendPacket sender) (w.wholeLog R k) ++ tail) now) :=
    ⟨[], _, _, playing_start hrule⟩
  generalize start cutFirstInterval rule
    (logFile (R.makeSendPacket sender) (w.wholeLog R k) ++ tail) now = s at hstart
  induction nows generalizing s with
  | nil => exact ⟨s, .nil s⟩
  | cons now' nows ih =>
    obtain ⟨done, todo, n, hs⟩ := hstart
    obtain ⟨s', hs', -, done', todo', m, -, h'⟩ := hs.step whole hsender hcarried htorn now'
    obtain ⟨r, hr⟩ := ih s' ⟨done', todo', m, h'⟩
    exact ⟨r, .cons trivial hs' hr⟩

/-- At every moment of a replay, the bodies handed on are the first of those that wait, and the
next round hands on nothing or the next one, when it is due. -/
theorem log_replayed_in_order (whole : Whole R Idle Carried arrives) (hsender : Idle sender)
    (hrule : Idle rule) (hw : Reachable (ProtocolLogWriter.step clock R)
      (ProtocolLogWriter.Sends R Carried) { packetRule := sender } w) (k : ℕ)
    (cutFirstInterval : Bool) (now : ℤ) (hr : Reachable (step clock R.toPacketRule) ⊤
      (start cutFirstInterval rule (w.file.take k) now) r) :
    r.bodies.reverse <+: (replayed (w.wholeLog R k)).map arrives ∧
    ∀ now', ∃ r', step clock R.toPacketRule r now' = some r' ∧
      HandsOn clock arrives (replayStart clock cutFirstInterval now (w.wholeLog R k))
        (w.wholeLog R k) r now' r' := by
  obtain ⟨⟨tail, hfile, htorn⟩, hcarried⟩ := cut_file hw k
  rw [hfile] at hr
  obtain ⟨done, todo, n, h⟩ := hr.invariant (I := fun r => ∃ done todo n, Playing clock
    (R.makeSendPacket sender) arrives Idle tail (replayStart clock cutFirstInterval now
      (w.wholeLog R k)) (w.wholeLog R k) done todo n r)
    ⟨[], _, _, playing_start hrule⟩ (by
      rintro s now' s' ⟨done, todo, n, hs⟩ - hst
      obtain ⟨r', hr', -, done', todo', m, -, h'⟩ := hs.step whole hsender hcarried htorn now'
      obtain rfl : r' = s' := Option.some.inj (hr'.symm.trans hst)
      exact ⟨done', todo', m, h'⟩)
  refine ⟨h.inOrder, fun now' => ?_⟩
  obtain ⟨r', hr', hands, -⟩ := h.step whole hsender hcarried htorn now'
  exact ⟨r', hr', hands⟩

/-- Once more rounds have come late enough than there are whole records, the replay is complete,
and the reader has ended precisely where it had something left to do after its last read. -/
theorem log_replayed_at_last (whole : Whole R Idle Carried arrives) (hsender : Idle sender)
    (hrule : Idle rule) (hw : Reachable (ProtocolLogWriter.step clock R)
      (ProtocolLogWriter.Sends R Carried) { packetRule := sender } w) (k : ℕ)
    (cutFirstInterval : Bool) (now : ℤ) {nows : List ℤ}
    (hr : Run (step clock R.toPacketRule) ⊤
      (start cutFirstInterval rule (w.file.take k) now) nows r)
    (hlate : (w.wholeLog R k).length < nows.countP (late clock
      (replayStart clock cutFirstInterval now (w.wholeLog R k)) (w.wholeLog R k))) :
    r.bodies.reverse = (replayed (w.wholeLog R k)).map arrives ∧
      (r.running = false ↔
        (logFile (R.makeSendPacket sender) (w.wholeLog R k)).length < (w.file.take k).length ∨
        ∃ e ∈ (w.wholeLog R k).getLast?, e.waits = true) := by
  obtain ⟨⟨tail, hfile, htorn⟩, hcarried⟩ := cut_file hw k
  rw [hfile] at hr ⊢
  obtain ⟨n, hn, done, todo, h⟩ := hr.ranked (I := fun n r => ∃ done todo, Playing clock
    (R.makeSendPacket sender) arrives Idle tail (replayStart clock cutFirstInterval now
      (w.wholeLog R k)) (w.wholeLog R k) done todo n r) (p := late clock
      (replayStart clock cutFirstInterval now (w.wholeLog R k)) (w.wholeLog R k))
    ⟨[], _, playing_start hrule⟩ (by
      rintro n s now' s' ⟨done, todo, hs⟩ - hst
      obtain ⟨r', hr', -, done', todo', m, hm, h'⟩ := hs.step whole hsender hcarried htorn now'
      obtain rfl : r' = s' := Option.some.inj (hr'.symm.trans hst)
      exact ⟨m, hm, done', todo', h'⟩)
  have hzero : n = 0 := by
    split_ifs at hn <;> omega
  subst hzero
  have htail : tail ≠ [] ↔ (logFile (R.makeSendPacket sender) (w.wholeLog R k)).length <
      (logFile (R.makeSendPacket sender) (w.wholeLog R k) ++ tail).length := by
    rw [List.length_append, Nat.lt_add_right_iff_pos, List.length_pos_iff]
  rw [← htail]
  exact h.finished

section Witness

/-- A clock read at a millisecond, and set back by two. -/
def sampleClock : Clock where
  totalMilliseconds ticks :=
    if ticks = 10000 then ⟨0x3FF0000000000000⟩ else if ticks = -10000 then .minusOne else .zero
  fromMilliseconds time := if time = ⟨0x3FF0000000000000⟩ then 10000 else 0

def sampleCalls : List ProtocolLogWriter.Event :=
  [.start 0 true, .send 10000 [1, 2], .send (-10000) [3], .send 10000 [4, 5]]

def sampleWriter : ProtocolLogWriter Unit :=
  ((((({ packetRule := () } : ProtocolLogWriter Unit).start 0 true).send sampleClock
    packetRuleNodivision 10000 [1, 2]).send sampleClock packetRuleNodivision (-10000) [3]).send
      sampleClock packetRuleNodivision 10000 [4, 5])

theorem sampleWriter_reachable : Reachable (ProtocolLogWriter.step sampleClock packetRuleNodivision)
    (ProtocolLogWriter.Sends packetRuleNodivision (· ≠ [])) { packetRule := () } sampleWriter :=
  ⟨sampleCalls, .cons trivial rfl (.cons ⟨by decide, by decide⟩ rfl
    (.cons ⟨by decide, by decide⟩ rfl (.cons ⟨by decide, by decide⟩ rfl (.nil _))))⟩

theorem sampleWriter_wholeLog : sampleWriter.wholeLog packetRuleNodivision 40 =
    [(⟨0x3FF0000000000000⟩, [1, 2]), (.minusOne, [3])] := by decide

theorem log_replayed_in_order_cutOff : ∃ r : ProtocolLogReader Unit,
    Reachable (step sampleClock packetRuleNodivision.toPacketRule) ⊤
      (start true () (sampleWriter.file.take 40) 0) r ∧ r.bodies.reverse <+: [[1, 2]] := by
  obtain ⟨r, hr⟩ := exists_replay packetRuleNodivision_whole trivial trivial
    sampleWriter_reachable 40 true 0 [0, 0]
  have h := log_replayed_in_order packetRuleNodivision_whole trivial trivial
    sampleWriter_reachable 40 true 0 ⟨_, hr⟩
  rw [sampleWriter_wholeLog] at h
  exact ⟨r, ⟨_, hr⟩, h.1⟩

/-- The third record is cut off in its body. -/
theorem log_replayed_at_last_cutOff : ∃ r : ProtocolLogReader Unit,
    Run (step sampleClock packetRuleNodivision.toPacketRule) ⊤
      (start false () (sampleWriter.file.take 40) 0) [0, 0, 10000, 10000, 10000] r ∧
    r.bodies.reverse = [[1, 2]] ∧ r.running = false := by
  obtain ⟨r, hr⟩ := exists_replay packetRuleNodivision_whole trivial trivial
    sampleWriter_reachable 40 false 0 [0, 0, 10000, 10000, 10000]
  have h := log_replayed_at_last packetRuleNodivision_whole trivial trivial sampleWriter_reachable
    40 false 0 hr (by rw [sampleWriter_wholeLog]; decide)
  rw [sampleWriter_wholeLog] at h
  exact ⟨r, hr, h.1, h.2.mpr (.inl (by decide))⟩

end Witness

end DtProject
