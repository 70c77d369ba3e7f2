import DtProject.Manager.Basic

/-! # What the manager broadcasts

Between two calls of `Start` the manager broadcasts in order what is posted to it,
and all of it unless it is closed. This begins with the tasks that were left over
from before: they are counted as connections of the new protocol. From `Close` to
the next `Start` nothing is broadcast or sent.
-/

namespace DtProject

open Reactive

namespace ObjectDelivererManager

variable {m m' : ObjectDelivererManager} {e : Event} {es : List Event} {d : Dispatched} {i : ℕ}

def Event.handled : Event → Option Dispatched
  | .handle d => some d
  | _ => none

def Event.posted : Event → Option Dispatched
  | .post d => some d
  | _ => none

def NoStart : Contract ObjectDelivererManager Event
  | _, .start protocol _ => protocol = none
  | _, _ => True

theorem filterMap_cons_toList {α β : Type*} (f : α → Option β) (a : α) (as : List α) :
    (a :: as).filterMap f = (f a).toList ++ as.filterMap f := by
  cases h : f a <;> simp [h]

section Steps

inductive Transition (m : ObjectDelivererManager) : Event → ObjectDelivererManager → Prop where
  | start (deliveryBox : Bool) : Transition m (.start none deliveryBox) m
  | close : Transition m .close m.close
  | handle (d : Dispatched) : Transition m (.handle d) (m.handle d)
  | post {d : Dispatched} : d ∈ m.passed → Transition m (.post d)
      { m with passed := m.passed.erase d, tasks := m.tasks ++ [d] }
  | notify (r : ℕ × List UInt8) : Transition m .runTask (m.notify r)
  | drop {d : Dispatched} {tasks : List Dispatched} : m.isDestorying = true → m.tasks = d :: tasks →
      Transition m .runTask { m with tasks := tasks }
  | broadcast {d : Dispatched} {tasks : List Dispatched} : m.isDestorying = false →
      m.tasks = d :: tasks → Transition m .runTask ({ m with tasks := tasks }.broadcast d)
  | send {e : Event} {sent : List (ℕ × List UInt8)} : e.handled = none → e.posted = none →
      (m.isDestorying = true → sent = m.sent) → Transition m e { m with sent := sent }

theorem sendTo_eq (dataBuffer : List UInt8) (target : Option ℕ) :
    ∃ sent, m.sendTo dataBuffer target = { m with sent := sent } ∧
      (m.isDestorying = true → sent = m.sent) := by
  unfold sendTo
  split
  · exact ⟨m.sent, rfl, fun _ => rfl⟩
  · rename_i hopen
    split
    · exact ⟨_, rfl, fun hd => absurd hd hopen⟩
    · exact ⟨m.sent, rfl, fun _ => rfl⟩

theorem requestSend_eq (buffer : List UInt8) (destination : Option ℕ) :
    ∃ sent, m.requestSend buffer destination = { m with sent := sent } ∧
      (m.isDestorying = true → sent = m.sent) := by
  unfold requestSend
  split
  · exact ⟨m.sent, rfl, fun _ => rfl⟩
  · exact sendTo_eq buffer _

theorem transition_of_post (hst : m.post d = some m') : Transition m (.post d) m' := by
  unfold post at hst
  split at hst
  · obtain rfl := Option.some.inj hst
    exact .post ‹_›
  · cases hst

theorem transition_of_runTask (hst : m.runTask = some m') : Transition m .runTask m' := by
  unfold runTask at hst
  split at hst
  · obtain rfl := Option.some.inj hst
    exact .notify _
  · cases hst
  · rename_i htasks
    obtain rfl := Option.some.inj hst
    dsimp only
    split_ifs with hd
    · exact .drop hd htasks
    · exact .broadcast (Bool.eq_false_iff.mpr hd) htasks

theorem transition_of_step (hC : NoStart m e) (hst : step m e = some m') : Transition m e m' := by
  cases e with
  | start protocol deliveryBox =>
    obtain rfl : protocol = none := hC
    obtain rfl := Option.some.inj hst
    exact .start deliveryBox
  | close =>
    obtain rfl := Option.some.inj hst
    exact .close
  | handle d =>
    obtain rfl := Option.some.inj hst
    exact .handle d
  | post d => exact transition_of_post hst
  | runTask => exact transition_of_runTask hst
  | send dataBuffer =>
    obtain ⟨sent, heq, hsent⟩ := sendTo_eq (m := m) dataBuffer m.currentProtocol
    obtain rfl := Option.some.inj (hst.symm.trans (congrArg some heq))
    exact .send rfl rfl hsent
  | sendTo dataBuffer target =>
    obtain ⟨sent, heq, hsent⟩ := sendTo_eq (m := m) dataBuffer target
    obtain rfl := Option.some.inj (hst.symm.trans (congrArg some heq))
    exact .send rfl rfl hsent
  | requestSend buffer destination =>
    obtain ⟨sent, heq, hsent⟩ := requestSend_eq (m := m) buffer destination
    obtain rfl := Option.some.inj (hst.symm.trans (congrArg some heq))
    exact .send rfl rfl hsent

end Steps

section Started

variable {old posted : List Dispatched}

/-- What has come of the tasks posted since a `Start`, with the broadcasts before it. -/
structure Since (old posted : List Dispatched) (m : ObjectDelivererManager)
    (new : List Dispatched) : Prop where

  broadcasts : m.broadcasts = new ++ old

  connectedList : m.connectedList = broadcastList new

  inOrder : (new.reverse ++ m.tasks).Sublist posted

  all : m.isDestorying = false → new.reverse ++ m.tasks = posted

theorem Since.transition {new : List Dispatched} (h : Since old posted m new)
    (hst : Transition m e m') :
    ∃ new', Since old (posted ++ e.posted.toList) m' new' := by
  have hquiet {m₁ : ObjectDelivererManager} (new₁ : List Dispatched)
      (h₁ : Since old posted m₁ new₁) :
      ∃ new', Since old (posted ++ (none : Option Dispatched).toList) m₁ new' := by
    refine ⟨new₁, ?_⟩
    rw [Option.toList_none, List.append_nil]
    exact h₁
  cases hst with
  | start deliveryBox => exact hquiet new h
  | close =>
    refine hquiet new ?_
    unfold close
    split_ifs
    · exact h
    · exact ⟨h.broadcasts, h.connectedList, h.inOrder, by simp⟩
  | handle d =>
    refine hquiet new ?_
    unfold handle
    split_ifs
    · exact h
    · exact ⟨h.broadcasts, h.connectedList, h.inOrder, h.all⟩
  | @post d _ =>
    refine ⟨new, h.broadcasts, h.connectedList, ?_, fun hd => ?_⟩
    · rw [← List.append_assoc]
      exact h.inOrder.append_right [d]
    · rw [← List.append_assoc, h.all hd]
      rfl
  | notify r => exact hquiet new ⟨h.broadcasts, h.connectedList, h.inOrder, h.all⟩
  | @drop d tasks hd htasks =>
    refine hquiet new ⟨h.broadcasts, h.connectedList, ?_, fun hopen => ?_⟩
    · refine List.Sublist.trans ?_ h.inOrder
      rw [htasks]
      exact (List.sublist_cons_self d tasks).append_left _
    · cases hd.symm.trans hopen
  | @broadcast d tasks hd htasks =>
    -- The event moves from the head of the tasks to the head of the broadcasts.
    have hmoved : (d :: new).reverse ++ tasks = new.reverse ++ m.tasks := by
      rw [htasks, List.reverse_cons, List.append_assoc, List.singleton_append]
    refine hquiet (d :: new) ⟨congrArg (d :: ·) h.broadcasts, ?_, ?_, fun _ => ?_⟩
    · rw [broadcastList, List.foldr_cons, ← broadcastList, ← h.connectedList]
      rfl
    · exact hmoved ▸ h.inOrder
    · exact hmoved.trans (h.all hd)
  | send _ hposted _ =>
    rw [hposted]
    exact hquiet new ⟨h.broadcasts, h.connectedList, h.inOrder, h.all⟩

theorem Since.run {new : List Dispatched} (h : Since old posted m new)
    (hr : Run step NoStart m es m') :
    ∃ new', Since old (posted ++ es.filterMap Event.posted) m' new' := by
  induction hr generalizing posted new with
  | nil m =>
    refine ⟨new, ?_⟩
    rw [List.filterMap_nil, List.append_nil]
    exact h
  | @cons m m₁ m' e es hC hst _ ih =>
    obtain ⟨new₁, h₁⟩ := h.transition (transition_of_step hC hst)
    rw [filterMap_cons_toList, ← List.append_assoc]
    exact ih h₁

/-- A started manager broadcasts in order the tasks that were left over and then those posted since,
loses none as long as it is not closed, and counts its connections by what it has broadcast. -/
theorem broadcasts_since_start {deliveryBox : Bool}
    (h : Run step NoStart (m.start (some i) deliveryBox) es m') :
    ∃ new, m'.broadcasts = new ++ m.broadcasts ∧
      m'.connectedList = broadcastList new ∧
      (new.reverse ++ m'.tasks).Sublist (m.tasks ++ es.filterMap Event.posted) ∧
      (m'.isDestorying = false →
        new.reverse ++ m'.tasks = m.tasks ++ es.filterMap Event.posted) := by
  have hstart : Since m.broadcasts m.tasks (m.start (some i) deliveryBox) [] :=
    ⟨rfl, rfl, List.Sublist.refl _, fun _ => rfl⟩
  obtain ⟨new, hnew⟩ := hstart.run h
  exact ⟨new, hnew.broadcasts, hnew.connectedList, hnew.inOrder, hnew.all⟩

def closedEarly : List Event :=
  [.start (some 0) false, .handle (.connected 1), .post (.connected 1), .close]

/-- The manager counts the connection of a protocol that it has closed before as one of the protocol
started then. -/
theorem broadcasts_since_start_leftOver : ∃ m m' : ObjectDelivererManager,
    Run step ⊤ {} closedEarly m ∧ Run step NoStart (m.start (some 2) false) [.runTask] m' ∧
      m'.isConnected = true ∧ m'.connectedList = [1] ∧
      ∃ new, m'.broadcasts = new ++ m.broadcasts ∧ new.reverse ++ m'.tasks = m.tasks := by
  let m : ObjectDelivererManager := { isDestorying := true, tasks := [.connected 1] }
  have hclosed : Run step ⊤ {} closedEarly m :=
    .cons trivial rfl (.cons trivial rfl (.cons trivial rfl (.cons trivial rfl (.nil _))))
  have hrun : Run step NoStart (m.start (some 2) false) [.runTask] _ :=
    .cons trivial rfl (.nil _)
  obtain ⟨new, hnew, -, -, hall⟩ := broadcasts_since_start hrun
  exact ⟨m, _, hclosed, hrun, rfl, rfl, new, hnew, hall rfl⟩

end Started

/-- Every event is posted at most as often as it was given to the manager. -/
theorem posted_of_handled (h : Run step NoStart m es m') (d : Dispatched) :
    (es.filterMap Event.posted).count d + m'.passed.count d ≤
      m.passed.count d + (es.filterMap Event.handled).count d := by
  induction h with
  | nil m => simp
  | @cons m m₁ m' e es hC hst _ ih =>
    have hstep : e.posted.toList.count d + m₁.passed.count d ≤
        m.passed.count d + e.handled.toList.count d := by
      cases transition_of_step hC hst with
      | start deliveryBox => exact (Nat.zero_add _).le
      | close =>
        unfold close
        split_ifs <;> exact (Nat.zero_add _).le
      | handle c =>
        unfold handle
        split_ifs
        · simp [Event.posted]
        · simp [Event.posted, Event.handled, List.count_cons]
      | @post c hmem =>
        have hpos : 0 < m.passed.count c := List.count_pos_iff.mpr hmem
        rcases eq_or_ne c d with rfl | hne
        · simp [Event.posted, Event.handled]
          omega
        · simp [Event.posted, Event.handled, List.count_erase_of_ne hne.symm, hne]
      | notify r | drop _ _ | broadcast _ _ => exact (Nat.zero_add _).le
      | send hhandled hposted _ =>
        rw [hhandled, hposted]
        exact (Nat.zero_add _).le
    rw [filterMap_cons_toList, filterMap_cons_toList, List.count_append, List.count_append]
    omega

section Closed

/-- Closed, as `m` was: nothing has been broadcast, given to the delivery box or sent since. -/
structure Silent (m m' : ObjectDelivererManager) : Prop where

  isDestorying : m'.isDestorying = true

  deliveryBox : m'.deliveryBox = false

  broadcasts : m'.broadcasts = m.broadcasts

  notified : m'.notified = m.notified

  sent : m'.sent = m.sent

theorem Silent.transition {m₁ : ObjectDelivererManager} (h : Silent m m₁)
    (hst : Transition m₁ e m') : Silent m m' := by
  cases hst with
  | start deliveryBox => exact h
  | close =>
    unfold close
    rw [if_pos h.isDestorying]
    exact h
  | handle d =>
    unfold handle
    rw [if_pos h.isDestorying]
    exact h
  | post _ => exact ⟨h.isDestorying, h.deliveryBox, h.broadcasts, h.notified, h.sent⟩
  | notify r =>
    refine ⟨h.isDestorying, h.deliveryBox, h.broadcasts, ?_, h.sent⟩
    rw [notify, h.deliveryBox]
    exact h.notified
  | drop _ _ => exact ⟨h.isDestorying, h.deliveryBox, h.broadcasts, h.notified, h.sent⟩
  | broadcast hopen _ =>
    rw [h.isDestorying] at hopen
    cases hopen
  | send _ _ hsent =>
    exact ⟨h.isDestorying, h.deliveryBox, h.broadcasts, h.notified,
      (hsent h.isDestorying).trans h.sent⟩

/-- From the `Close` of an open manager to the next `Start` it is not connected, and nothing is
broadcast, given to the delivery box or sent, whatever tasks are left. -/
theorem closed_manager_silent (hopen : m.isDestorying = false)
    (h : Run step NoStart m.close es m') :
    m'.isConnected = false ∧ m'.broadcasts = m.broadcasts ∧ m'.notified = m.notified ∧
      m'.sent = m.sent := by
  have hclose : Silent m m.close := by
    unfold close
    rw [if_neg (by simp [hopen])]
    exact ⟨rfl, rfl, rfl, rfl, rfl⟩
  have hsilent : Silent m m' :=
    h.invariant hclose fun _ _ _ hs hC hst => hs.transition (transition_of_step hC hst)
  exact ⟨by simp [isConnected, hsilent.isDestorying], hsilent.broadcasts, hsilent.notified,
    hsilent.sent⟩

def closedLate : List Event :=
  [.start (some 0) true, .handle (.receiveData 0 [7]), .post (.receiveData 0 [7])]

/-- The task is dropped, and a later body does not pass. -/
theorem closed_manager_silent_late : ∃ m m' : ObjectDelivererManager,
    Run step ⊤ {} closedLate m ∧
      Run step NoStart m.close [.handle (.receiveData 0 [8]), .runTask, .send [9]] m' ∧
      m'.tasks = [] ∧ m'.broadcasts = m.broadcasts ∧ m'.sent = m.sent := by
  let m : ObjectDelivererManager :=
    { currentProtocol := some 0, deliveryBox := true, tasks := [.receiveData 0 [7]] }
  have hopen : Run step ⊤ {} closedLate m :=
    .cons trivial rfl (.cons trivial rfl (.cons trivial rfl (.nil _)))
  have hrun : Run step NoStart m.close [.handle (.receiveData 0 [8]), .runTask, .send [9]] _ :=
    .cons trivial rfl (.cons trivial rfl (.cons trivial rfl (.nil _)))
  have hsilent := closed_manager_silent rfl hrun
  exact ⟨m, _, hopen, hrun, rfl, hsilent.2.1, hsilent.2.2.2⟩

end Closed

end ObjectDelivererManager

end DtProject
