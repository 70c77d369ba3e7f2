import DtProject.Log.Basic

/-! # What a replayed log delivers

A log is replayed from its first bytes, as many as reached the file. Of the
records that are whole there, those with a time from zero on are handed on in
order, none before its time. When enough time has passed all of them have been,
and the thread has ended if bytes of a further record follow or the last whole
record was one that waited.
-/

namespace DtProject

open Reactive Numeric

/-- A time since the start of the writer, and the body logged then. -/
abbrev Entry := Bits64 × List UInt8

def logFile (packet : List UInt8 → List UInt8) (log : List Entry) : List UInt8 :=
  log.flatMap fun e => ProtocolLogWriter.record e.1 (packet e.2)

def wholeRecords (packet : List UInt8 → List UInt8) : List Entry → ℕ → ℕ
  | [], _ => 0
  | e :: log, k =>
    let length := (ProtocolLogWriter.record e.1 (packet e.2)).length
    if length ≤ k then wholeRecords packet log (k - length) + 1 else 0

/-- The record waits for its time. The reader skips the others, which a clock that was set back
leaves in a log. -/
def Entry.waits (e : Entry) : Bool := Bits64.zero.le e.1

/-- The bodies that a reader hands on. -/
def replayed (log : List Entry) : List (List UInt8) := (log.filter Entry.waits).map Prod.snd

/-- What is left of a record whose end is missing. -/
def Torn (packet : List UInt8 → List UInt8) (tail : List UInt8) : Prop :=
  tail = [] ∨ ∃ e : Entry, (packet e.2).length < 2 ^ 31 ∧
    tail.length < (ProtocolLogWriter.record e.1 (packet e.2)).length ∧
    tail <+: ProtocolLogWriter.record e.1 (packet e.2)

section LogFile

variable {packet : List UInt8 → List UInt8} {log : List Entry} {e : Entry} {k : ℕ}

@[simp] theorem logFile_nil : logFile packet [] = [] := rfl

@[simp] theorem logFile_cons :
    logFile packet (e :: log) = ProtocolLogWriter.record e.1 (packet e.2) ++ logFile packet log :=
  List.flatMap_cons

theorem logFile_append {log' : List Entry} :
    logFile packet (log ++ log') = logFile packet log ++ logFile packet log' :=
  List.flatMap_append

theorem length_record {time : Bits64} {dataBuffer : List UInt8} :
    (ProtocolLogWriter.record time dataBuffer).length = 8 + (4 + dataBuffer.length) := by
  rw [ProtocolLogWriter.record, List.length_append, List.length_append, Bytes.length_toLE,
    Bits64.length_toBytes]

theorem logFile_eq_nil_iff : logFile packet log = [] ↔ log = [] := by
  cases log with
  | nil => exact iff_of_true rfl rfl
  | cons e log =>
    refine iff_of_false (fun h => ?_) (List.cons_ne_nil e log)
    have hlen := congrArg List.length h
    rw [logFile_cons, List.length_append, length_record, List.length_nil] at hlen
    omega

/-- The first bytes of a log are its whole records and what is left of the next one. -/
theorem take_logFile (hlog : ∀ e ∈ log, (packet e.2).length < 2 ^ 31) (k : ℕ) :
    ∃ tail, (logFile packet log).take k =
      logFile packet (log.take (wholeRecords packet log k)) ++ tail ∧ Torn packet tail := by
  induction log generalizing k with
  | nil => exact ⟨[], by simp, .inl rfl⟩
  | cons e log ih =>
    obtain ⟨he, hlog⟩ := List.forall_mem_cons.mp hlog
    rw [logFile_cons, wholeRecords]
    split_ifs with hk
    · obtain ⟨tail, htake, htorn⟩ := ih hlog (k - _)
      refine ⟨tail, ?_, htorn⟩
      rw [List.take_append, List.take_of_length_le hk, htake, List.take_succ_cons, logFile_cons,
        List.append_assoc]
    · refine ⟨(ProtocolLogWriter.record e.1 (packet e.2)).take k, ?_, .inr ⟨e, he, ?_, ?_⟩⟩
      · rw [List.take_append_of_le_length (by omega), List.take_zero, logFile_nil, List.nil_append]
      · rw [List.length_take]
        omega
      · exact List.take_prefix k _

end LogFile

namespace ProtocolLogReader

variable {σ : Type*} {clock : Clock} {R : DuplexRule σ} {packet arrives : List UInt8 → List UInt8}
  {Idle : σ → Prop} {r r' : ProtocolLogReader σ}

section Reading

variable {time : Bits64} {dataBuffer tail : List UInt8}

def withRecord (clock : Clock) (r : ProtocolLogReader σ) (time : Bits64)
    (dataBuffer reader : List UInt8) : ProtocolLogReader σ :=
  { r with
    currentLogTime := time
    startTime :=
      if r.isFirst && r.cutFirstInterval then r.startTime - clock.fromMilliseconds time
      else r.startTime
    isFirst := false
    readBuffer := dataBuffer
    reader := reader }

theorem readInt32_toLE {n : ℕ} (hn : n < 2 ^ 31) : readInt32 (Bytes.toLE 4 n) = n := by
  have hbytes : Bytes.ofLE (Bytes.toLE 4 n) = n := Bytes.ofLE_toLE (by omega)
  unfold readInt32
  rw [hbytes]
  exact Int.bmod_eq_of_le (by omega) (by omega)

theorem readNext_record (hlen : dataBuffer.length < 2 ^ 31)
    (hreader : r.reader = ProtocolLogWriter.record time dataBuffer ++ tail) :
    r.readNext clock = some (r.withRecord clock time dataBuffer tail) := by
  have htime : time.toBytes.length = 8 := Bits64.length_toBytes time
  have hsize : (Bytes.toLE 4 dataBuffer.length).length = 4 := Bytes.length_toLE 4 _
  rw [ProtocolLogWriter.record, List.append_assoc, List.append_assoc] at hreader
  have hrest : ¬ (dataBuffer ++ tail).length < (dataBuffer.length : ℤ) := by
    rw [List.length_append]
    omega
  rw [readNext, if_neg (by rw [hreader, List.length_append, htime]; omega)]
  dsimp only
  rw [hreader, List.take_left' htime, List.drop_left' htime, List.take_left' hsize,
    List.drop_left' hsize, Bits64.ofBytes_toBytes, readInt32_toLE hlen,
    if_neg (by rw [List.length_append, hsize]; omega), if_neg hrest, if_neg (by omega),
    Int.toNat_natCast, List.take_left, List.drop_left]
  rfl

theorem readNext_torn (clock : Clock) (htorn : Torn packet r.reader) (hne : r.reader ≠ []) :
    ∃ r', r.readNext clock = some r' ∧ r'.running = false ∧ r'.bodies = r.bodies ∧
      r'.packetRule = r.packetRule := by
  obtain ⟨e, hlen, hshort, ⟨rest, hrest⟩⟩ := htorn.resolve_left hne
  have htime : e.1.toBytes.length = 8 := Bits64.length_toBytes e.1
  have hsize : (Bytes.toLE 4 (packet e.2).length).length = 4 := Bytes.length_toLE 4 _
  rw [length_record] at hshort
  rw [ProtocolLogWriter.record] at hrest
  rw [readNext]
  by_cases h8 : r.reader.length < 8
  · exact ⟨_, if_pos h8, rfl, rfl, rfl⟩
  · rw [if_neg h8]
    dsimp only
    by_cases h4 : (r.reader.drop 8).length < 4
    · exact ⟨_, if_pos h4, rfl, rfl, rfl⟩
    · rw [if_neg h4]
      have hbytes : (r.reader.drop 8).take 4 = Bytes.toLE 4 (packet e.2).length := by
        have hdrop := congrArg (fun bs => (bs.drop 8).take 4) hrest
        rw [List.length_drop] at h4
        simp only [List.drop_left' htime, List.take_left' hsize] at hdrop
        rw [← hdrop, List.drop_append_of_le_length (by omega),
          List.take_append_of_le_length (by rw [List.length_drop]; omega)]
      have hmissing : (((r.reader.drop 8).drop 4).length : ℤ) < (packet e.2).length := by
        rw [List.length_drop, List.length_drop]
        rw [List.length_drop] at h4
        omega
      rw [hbytes, readInt32_toLE hlen, if_pos hmissing]
      exact ⟨_, rfl, rfl, rfl, rfl⟩

theorem readNext_nil (hnil : r.reader = []) :
    r.readNext clock = some { r with running := false } := by
  rw [readNext, if_pos (by rw [hnil]; decide)]

end Reading

section Playing

def replayStart (clock : Clock) (cutFirstInterval : Bool) (now : ℤ) : List Entry → ℤ
  | [] => now
  | e :: _ => if cutFirstInterval then now - clock.fromMilliseconds e.1 else now

/-- Where the reader stands with the entries still to come, and how many rounds are left at most
once all of them are due. -/
inductive Phase (clock : Clock) (packet : List UInt8 → List UInt8) (tail : List UInt8)
    (begins : ℤ) : ProtocolLogReader σ → List Entry → ℕ → Prop where

  | reading {r : ProtocolLogReader σ} {todo : List Entry} : r.running = true →
      r.pending = false → r.reader = logFile packet todo ++ tail →
      (∀ e ∈ todo.head?, (r.withRecord clock e.1 [] []).startTime = begins) →
      Phase clock packet tail begins r todo
        (if todo = [] ∧ tail = [] then 0 else todo.length + 1)

  | waiting {r : ProtocolLogReader σ} {e : Entry} {todo : List Entry} : r.running = true →
      e.waits = true → r.currentLogTime = e.1 → r.readBuffer = packet e.2 →
      r.reader = logFile packet todo ++ tail → r.isFirst = false → r.startTime = begins →
      Phase clock packet tail begins r (e :: todo) (todo.length + 1)

  | ended {r : ProtocolLogReader σ} : r.running = false → Phase clock packet tail begins r [] 0

/-- The invariant of a replay: the entries up to some point have been replayed, and the others
are to come. -/
structure Playing (clock : Clock) (packet arrives : List UInt8 → List UInt8) (Idle : σ → Prop)
    (tail : List UInt8) (begins : ℤ) (log done todo : List Entry) (n : ℕ)
    (r : ProtocolLogReader σ) : Prop where

  split : log = done ++ todo

  bodies : r.bodies.reverse = (replayed done).map arrives

  idle : Idle r.packetRule
  phase : Phase clock packet tail begins r todo n

  last : r.running = false → tail ≠ [] ∨ ∃ e ∈ log.getLast?, e.waits = true

  skipped : r.running = true → r.pending = false → ∀ e ∈ done.getLast?, e.waits = false

variable {tail : List UInt8} {begins : ℤ} {log done todo : List Entry} {n : ℕ} {e : Entry}
  {sender : σ}

@[simp] theorem replayed_append {log' : List Entry} :
    replayed (log ++ log') = replayed log ++ replayed log' := by
  rw [replayed, List.filter_append, List.map_append]
  rfl

theorem replayed_singleton : replayed [e] = if e.waits then [e.2] else [] := by
  cases h : e.waits <;> simp [replayed, h]

theorem readNext_playing (hlen : ∀ e ∈ todo, (packet e.2).length < 2 ^ 31)
    (htorn : Torn packet tail) (hrun : r.running = true)
    (hreader : r.reader = logFile packet todo ++ tail) (hsplit : log = done ++ todo)
    (hbodies : r.bodies.reverse = (replayed done).map arrives) (hidle : Idle r.packetRule)
    (hbegins : ∀ e ∈ todo.head?, (r.withRecord clock e.1 [] []).startTime = begins)
    (hlast : todo = [] → tail = [] → ∃ e ∈ done.getLast?, e.waits = true) :
    ∃ r', r.readNext clock = some r' ∧ r'.bodies = r.bodies ∧ ∃ done' todo', ∃ m ≤ todo.length,
      Playing clock packet arrives Idle tail begins log done' todo' m r' := by
  cases todo with
  | nil =>
    rw [logFile_nil, List.nil_append] at hreader
    rw [List.append_nil] at hsplit
    rcases eq_or_ne tail [] with rfl | hne
    · refine ⟨_, readNext_nil hreader, rfl, done, [], 0, le_rfl, ?_⟩
      exact ⟨by rw [hsplit, List.append_nil], hbodies, hidle, .ended rfl,
        fun _ => .inr (hsplit ▸ hlast rfl rfl), fun h => absurd h Bool.false_ne_true⟩
    · obtain ⟨r', hr', hrun', hbodies', hrule'⟩ :=
        readNext_torn clock (hreader ▸ htorn) (hreader ▸ hne)
      refine ⟨r', hr', hbodies', done, [], 0, le_rfl, ?_⟩
      exact ⟨by rw [hsplit, List.append_nil], hbodies' ▸ hbodies, hrule' ▸ hidle, .ended hrun',
        fun _ => .inl hne, fun h => absurd (hrun'.symm.trans h) Bool.false_ne_true⟩
  | cons e todo =>
    have hbegin := hbegins e rfl
    rw [logFile_cons, List.append_assoc] at hreader
    refine ⟨_, readNext_record (hlen e List.mem_cons_self) hreader, rfl, ?_⟩
    cases hw : e.waits with
    | true =>
      refine ⟨done, e :: todo, _, le_rfl, hsplit, hbodies, hidle, ?_, ?_, ?_⟩
      · exact .waiting hrun hw rfl rfl rfl rfl hbegin
      · exact fun h => absurd (hrun.symm.trans h) (Bool.false_ne_true ·.symm)
      · exact fun _ h => absurd (hw.symm.trans h) (Bool.false_ne_true ·.symm)
    | false =>
      refine ⟨done ++ [e], todo, _, ?_, ?_, ?_, hidle, .reading hrun hw rfl fun _ _ => hbegin,
        ?_, ?_⟩
      · rw [List.length_cons]
        split_ifs <;> omega
      · rw [hsplit, List.append_assoc, List.singleton_append]
      · rw [replayed_append, replayed_singleton, if_neg (by rw [hw]; exact Bool.false_ne_true),
          List.append_nil]
        exact hbodies
      · exact fun h => absurd (hrun.symm.trans h) (Bool.false_ne_true ·.symm)
      · intro _ _ e' he'
        rw [List.getLast?_concat, Option.mem_def, Option.some.injEq] at he'
        exact he' ▸ hw

variable {Carried : List UInt8 → Prop} {now : ℤ}

def late (clock : Clock) (begins : ℤ) (log : List Entry) (now : ℤ) : Bool :=
  log.all fun e => !(clock.totalMilliseconds (now - begins)).lt e.1

theorem late.not_lt (h : late clock begins log now = true) (he : e ∈ log) :
    (clock.totalMilliseconds (now - begins)).lt e.1 = false := by
  simpa using List.all_eq_true.mp h e he

theorem step_due {rule' : σ} (hrun : r.running = true) (hpending : r.pending = true)
    (hdue : r.early clock now = false)
    (hloop : R.receiveLoop r.packetRule r.readBuffer = some ([arrives e.2], rule', [])) :
    step clock R.toPacketRule r now =
      readNext clock
        { r with
          packetRule := rule'
          bodies := arrives e.2 :: r.bodies
          currentLogTime := .minusOne } := by
  have henough : ¬ (0 < R.getWantSize r.packetRule ∧
      (r.readBuffer.length : ℤ) < R.getWantSize r.packetRule) := by
    rintro ⟨-, hlt⟩
    rw [PacketRule.receiveLoop_short hlt] at hloop
    cases hloop
  rw [step, if_pos hrun, readData, if_pos hpending, hdue, if_neg Bool.false_ne_true]
  dsimp only
  rw [if_neg henough, handOn, PacketRule.receiveRead_eq hloop]
  rfl

/-- A round hands on nothing, or the body of the next record that waits, when it is due. -/
def HandsOn (clock : Clock) (arrives : List UInt8 → List UInt8) (begins : ℤ) (log : List Entry)
    (r : ProtocolLogReader σ) (now : ℤ) (r' : ProtocolLogReader σ) : Prop :=
  r'.bodies = r.bodies ∨ ∃ e, (log.filter Entry.waits)[r.bodies.length]? = some e ∧
    r'.bodies = arrives e.2 :: r.bodies ∧
    (clock.totalMilliseconds (now - begins)).lt e.1 = false

theorem Playing.next (h : Playing clock packet arrives Idle tail begins log done (e :: todo) n r)
    (hw : e.waits = true) : (log.filter Entry.waits)[r.bodies.length]? = some e := by
  have hlen : r.bodies.length = (done.filter Entry.waits).length := by
    rw [← List.length_reverse, h.bodies, List.length_map, replayed, List.length_map]
  rw [h.split, List.filter_append, List.filter_cons_of_pos hw, hlen,
    List.getElem?_append_right le_rfl, Nat.sub_self, List.getElem?_cons_zero]

theorem Playing.due (h : Playing clock (R.makeSendPacket sender) arrives Idle tail begins log
      done (e :: todo) n r)
    (whole : Whole R Idle Carried arrives) (hsender : Idle sender) (he : Carried e.2)
    (hlen : ∀ e ∈ todo, (R.makeSendPacket sender e.2).length < 2 ^ 31)
    (htorn : Torn (R.makeSendPacket sender) tail) (hrun : r.running = true)
    (hw : e.waits = true) (htime : r.currentLogTime = e.1)
    (hbuffer : r.readBuffer = R.makeSendPacket sender e.2)
    (hreader : r.reader = logFile (R.makeSendPacket sender) todo ++ tail)
    (hfirst : r.isFirst = false) (hbegin : r.startTime = begins)
    (hdue : r.early clock now = false) :
    ∃ r', step clock R.toPacketRule r now = some r' ∧ r'.bodies = arrives e.2 :: r.bodies ∧
      ∃ done' todo', ∃ m ≤ todo.length,
        Playing clock (R.makeSendPacket sender) arrives Idle tail begins log done' todo' m r' := by
  obtain ⟨rule', hloop, hidle⟩ := whole.once h.idle hsender he
  rw [← hbuffer] at hloop
  rw [step_due hrun (by rw [pending, htime]; exact hw) hdue hloop]
  have hsplit : log = (done ++ [e]) ++ todo := by
    rw [h.split, List.append_assoc, List.singleton_append]
  have hreplayed :
      (arrives e.2 :: r.bodies).reverse = (replayed (done ++ [e])).map arrives := by
    rw [List.reverse_cons, h.bodies, replayed_append, replayed_singleton, if_pos hw,
      List.map_append]
    rfl
  exact readNext_playing (r := { r with
      packetRule := rule'
      bodies := arrives e.2 :: r.bodies
      currentLogTime := .minusOne })
    hlen htorn hrun hreader hsplit hreplayed hidle
    (fun e' _ => by simpa [withRecord, hfirst] using hbegin)
    (fun _ _ => ⟨e, by rw [List.getLast?_concat]; rfl, hw⟩)

/-- One round of the loop keeps the invariant, and a round at which all entries are due gets on. -/
theorem Playing.step (h : Playing clock (R.makeSendPacket sender) arrives Idle tail begins log
      done todo n r)
    (whole : Whole R Idle Carried arrives) (hsender : Idle sender)
    (hlog : ∀ e ∈ log, Carried e.2 ∧ (R.makeSendPacket sender e.2).length < 2 ^ 31)
    (htorn : Torn (R.makeSendPacket sender) tail) (now : ℤ) :
    ∃ r', step clock R.toPacketRule r now = some r' ∧
      HandsOn clock arrives begins log r now r' ∧
      ∃ done' todo', ∃ m ≤ n - (late clock begins log now).toNat,
        Playing clock (R.makeSendPacket sender) arrives Idle tail begins log done' todo' m r' := by
  have hlen : ∀ e ∈ todo, (R.makeSendPacket sender e.2).length < 2 ^ 31 := fun e he =>
    (hlog e (h.split ▸ List.mem_append_right _ he)).2
  have hlate : (late clock begins log now).toNat ≤ 1 := Bool.toNat_le _
  cases h.phase with
  | ended hrun =>
    exact ⟨r, if_neg (by rw [hrun]; exact Bool.false_ne_true), .inl rfl, done, [], 0,
      Nat.zero_le _, h⟩
  | reading hrun hpending hreader hbegins =>
    have hstep : ProtocolLogReader.step clock R.toPacketRule r now =
        if r.reader = [] then some r else r.readNext clock := by
      rw [ProtocolLogReader.step, if_pos hrun, readData, if_neg (by rw [hpending]; decide)]
    by_cases hnil : r.reader = []
    · obtain ⟨htodo, htail⟩ := List.append_eq_nil_iff.mp (hreader.symm.trans hnil)
      refine ⟨r, by rw [hstep, if_pos hnil], .inl rfl, done, todo, _, ?_, h⟩
      rw [if_pos ⟨logFile_eq_nil_iff.mp htodo, htail⟩]
      exact Nat.zero_le _
    · have hsome : ¬ (todo = [] ∧ tail = []) := by
        rintro ⟨rfl, rfl⟩
        exact hnil hreader
      obtain ⟨r', hr', hbodies, done', todo', m, hm, hplaying⟩ :=
        readNext_playing hlen htorn hrun hreader h.split h.bodies h.idle hbegins
          fun htodo htail => absurd ⟨htodo, htail⟩ hsome
      refine ⟨r', by rw [hstep, if_neg hnil, hr'], .inl hbodies, done', todo', m, ?_, hplaying⟩
      rw [if_neg hsome]
      omega
  | @waiting e todo hrun hw htime hbuffer hreader hfirst hbegin =>
    have he : e ∈ log := h.split ▸ List.mem_append_right _ List.mem_cons_self
    have hpending : r.pending = true := by rw [pending, htime]; exact hw
    have hearly : r.early clock now = (clock.totalMilliseconds (now - begins)).lt e.1 := by
      rw [early, htime, hbegin]
    cases hdue : r.early clock now with
    | true =>
      have hnot : late clock begins log now = false := by
        by_contra hl
        have := late.not_lt (Bool.eq_true_of_not_eq_false hl) he
        rw [← hearly, hdue] at this
        exact absurd this (Bool.false_ne_true ·.symm)
      refine ⟨r, ?_, .inl rfl, done, e :: todo, _, ?_, h⟩
      · rw [ProtocolLogReader.step, if_pos hrun, readData, if_pos hpending, if_pos hdue]
      · rw [hnot]
        exact le_rfl
    | false =>
      obtain ⟨r', hr', hbodies, done', todo', m, hm, hplaying⟩ :=
        h.due whole hsender (hlog e he).1 (fun e' he' => hlen e' (List.mem_cons_of_mem _ he'))
          htorn hrun hw htime hbuffer hreader hfirst hbegin hdue
      refine ⟨r', hr', .inr ⟨e, h.next hw, hbodies, ?_⟩, done', todo', m, by omega, hplaying⟩
      rw [← hearly, hdue]

theorem playing_start {rule : σ} {cutFirstInterval : Bool} (hrule : Idle rule) :
    Playing clock packet arrives Idle tail (replayStart clock cutFirstInterval now log) log [] log
      (if log = [] ∧ tail = [] then 0 else log.length + 1)
      (start cutFirstInterval rule (logFile packet log ++ tail) now) where
  split := rfl
  bodies := rfl
  idle := hrule
  phase := by
    refine .reading rfl Bits64.zero_le_minusOne rfl fun e he => ?_
    cases log with
    | nil => cases he
    | cons e' log => cases he; cases cutFirstInterval <;> rfl
  last h := absurd h.symm Bool.false_ne_true
  skipped _ _ _ h := by cases h

theorem Playing.inOrder (h : Playing clock packet arrives Idle tail begins log done todo n r) :
    r.bodies.reverse <+: (replayed log).map arrives := by
  rw [h.bodies, h.split, replayed_append, List.map_append]
  exact List.prefix_append _ _

theorem Playing.finished (h : Playing clock packet arrives Idle tail begins log done todo 0 r) :
    r.bodies.reverse = (replayed log).map arrives ∧
      (r.running = false ↔ tail ≠ [] ∨ ∃ e ∈ log.getLast?, e.waits = true) := by
  generalize hn : 0 = n at h
  cases h.phase with
  | waiting => cases hn
  | ended hrun =>
    have hdone : log = done := h.split.trans (List.append_nil done)
    exact ⟨hdone ▸ h.bodies, iff_of_true hrun (h.last hrun)⟩
  | reading hrun hpending =>
    have hnil : todo = [] ∧ tail = [] := by
      by_contra hsome
      rw [if_neg hsome] at hn
      cases hn
    obtain ⟨rfl, rfl⟩ := hnil
    have hdone : log = done := h.split.trans (List.append_nil done)
    refine ⟨hdone ▸ h.bodies, iff_of_false (fun h' => ?_) ?_⟩
    · exact absurd (hrun.symm.trans h') (Bool.false_ne_true ·.symm)
    · rintro (hne | ⟨e, he, hw⟩)
      · exact hne rfl
      · have := h.skipped hrun hpending e (hdone ▸ he)
        exact absurd (hw.symm.trans this) (Bool.false_ne_true ·.symm)

end Playing

end ProtocolLogReader

namespace ProtocolLogWriter

variable {σ : Type*} {clock : Clock} {R : DuplexRule σ} {Idle : σ → Prop}
  {Carried : List UInt8 → Prop} {sender : σ} {w : ProtocolLogWriter σ}

/-- Bodies are sent that the rule can carry, in packets whose size is an int32. -/
def Sends (R : DuplexRule σ) (Carried : List UInt8 → Prop) : Contract (ProtocolLogWriter σ) Event :=
  fun w event => match event with
    | .send _ body => Carried body ∧ (R.makeSendPacket w.packetRule body).length < 2 ^ 31
    | _ => True

/-- What has been written is the log of what has been sent. -/
structure Logs (R : DuplexRule σ) (Carried : List UInt8 → Prop) (sender : σ)
    (w : ProtocolLogWriter σ) : Prop where
  packetRule : w.packetRule = sender
  file : w.file = logFile (R.makeSendPacket sender) w.logged.reverse
  carried : ∀ e ∈ w.logged, Carried e.2 ∧ (R.makeSendPacket sender e.2).length < 2 ^ 31

theorem logs_reachable
    (hw : Reachable (step clock R) (Sends R Carried) { packetRule := sender } w) :
    Logs R Carried sender w := by
  refine hw.invariant ⟨rfl, rfl, by simp⟩ fun w event w' hI hC hstep => ?_
  cases event with
  | start now opened =>
    cases hstep
    cases opened with
    | true => exact ⟨hI.packetRule, rfl, by simp [start]⟩
    | false => exact ⟨hI.packetRule, hI.file, hI.carried⟩
  | close =>
    cases hstep
    exact ⟨hI.packetRule, hI.file, hI.carried⟩
  | send now body =>
    cases hstep
    rw [send, requestSend]
    split_ifs
    · refine ⟨hI.packetRule, ?_, ?_⟩
      · dsimp only
        rw [List.reverse_cons, logFile_append, hI.file, hI.packetRule, logFile_cons, logFile_nil,
          List.append_nil]
      · rintro e (_ | ⟨_, he⟩)
        · exact hI.packetRule ▸ hC
        · exact hI.carried e he
    · exact hI

end ProtocolLogWriter

end DtProject
