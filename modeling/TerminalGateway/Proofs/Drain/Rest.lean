import Mathlib.Algebra.GroupWithZero.Nat
import TerminalGateway.Proofs.Drain.Registry

/-!
A coordinator at rest. Whatever happened, its tasks come to rest again within the steps that they
are given, and then it counts the sessions that are present.
-/

namespace TerminalGateway.Drain

namespace Task

/-- The session that has come and does not go. -/
def guest? : Task → Option SessionId
  | .session id .entered | .session id .present => some id
  | _ => none

/-- A countdown that is not behind by more than the second that has just passed. -/
def isPunctual (clock : Nat) : Task → Bool
  | .countdown (.waiting _ due _) | .countdown (.woken _ due) => clock < due + 1000
  | _ => true

/-- A bound on the steps that a task takes before it waits. Word of a departure costs three. -/
def effort (clock : Nat) : Task → Nat
  | .session _ .entered => 1
  | .session _ .leaving => 6
  | .session _ .removed => 5
  | .session _ .uncounted => 4
  | .session _ .present | .session _ .gone => 0
  | .signal .looking => 3
  | .signal (.concluding _ _) => 2
  | .signal (.exiting _) => 1
  | .signal (.handled _) => 0
  | .countdown .starting => 5
  | .countdown (.waiting _ due .unasked) => 4 + if due ≤ clock then 2 else 0
  | .countdown (.waiting _ due .asked) => 3 + if due ≤ clock then 2 else 0
  | .countdown (.waiting _ due .told) => 6 + if due ≤ clock then 2 else 0
  | .countdown (.woken _ due) => 5 + if due ≤ clock then 2 else 0
  | .countdown (.concluding _) => 2
  | .countdown .exiting => 1
  | .countdown .ended => 0

theorem effort_le (clock : Nat) (t : Task) : t.effort clock ≤ 8 := by
  unfold effort
  repeat' split
  all_goals omega

end Task

/-- Something that tasks do by themselves and without time. -/
def Action.isInternal : Action → Bool
  | .proceed _ | .notice _ | .tick _ => true
  | _ => false

namespace Board

variable (b : Board)

/-- What word of a departure costs that is kept for a countdown. -/
def owed : Nat := if b.departure then 3 else 0

@[simp] theorem owed_raise : b.raise.owed = b.owed := rfl

@[simp] theorem owed_lower : b.lower.owed = b.owed := rfl

@[simp] theorem owed_exit : b.exit.owed = b.owed := rfl

@[simp] theorem owed_remove (id : SessionId) : (b.remove id).owed = b.owed := rfl

@[simp] theorem owed_send (remaining : Nat) : (b.send remaining).owed = b.owed := rfl

@[simp] theorem owed_setReason (reason : ExitReason) : (b.setReason reason).owed = b.owed := rfl

@[simp] theorem owed_putWord : b.putWord.owed = 3 := rfl

@[simp] theorem owed_takeWord : b.takeWord.owed = 0 := rfl

theorem owed_le : b.owed ≤ 3 := by
  unfold owed
  split <;> omega

theorem owed_of_departure {b : Board} (h : b.departure = true) : b.owed = 3 := if_pos h

end Board

namespace Coordinator

variable {c d : Coordinator} {i : Nat} {t t' : Task} {b : Board} {word : Bool}

/-! ### What a task leaves as it is -/

def effort (c : Coordinator) : Nat := (c.tasks.map (Task.effort c.clock)).sum + c.board.owed

/-- The sessions that have come and do not go. -/
def guests (c : Coordinator) : List SessionId := c.tasks.filterMap Task.guest?

structure Tidy (c : Coordinator) : Prop where
  counted : c.board.live = c.tasks.countP Task.isCounted
  punctual : ∀ t ∈ c.tasks, t.isPunctual c.clock = true

/-- A coordinator whose tasks came nearer to their rest. -/
structure Nears (c d : Coordinator) : Prop where
  tidy : d.Tidy
  effort : d.effort < c.effort
  guests : d.guests = c.guests
  length : d.tasks.length = c.tasks.length

theorem Tidy.giveWord (h : c.Tidy) : c.giveWord.Tidy := by
  rcases c.giveWord_cases with heq | ⟨before, remaining, due, after, ht, heq⟩
  · rw [heq]
    exact ⟨h.counted, h.punctual⟩
  · have hc := h.counted
    have hp := h.punctual
    rw [ht] at hc hp
    rw [heq]
    refine ⟨by simpa [List.countP_cons, Task.isCounted] using hc, ?_⟩
    simpa [Task.isPunctual, or_imp, forall_and] using hp

theorem effort_giveWord (c : Coordinator) : c.giveWord.effort ≤ c.effort + 3 := by
  rcases c.giveWord_cases with heq | ⟨before, remaining, due, after, ht, heq⟩
  · simp only [heq, effort, Board.owed_putWord]
    omega
  · simp only [heq, effort, ht, List.map_append, List.map_cons, List.sum_append, List.sum_cons,
      Task.effort]
    omega

theorem guests_giveWord (c : Coordinator) : c.giveWord.guests = c.guests :=
  filterMap_giveWord (fun _ _ => rfl) c

/-- A task that goes on has less to do, and keeps what is counted and who is there. -/
structure Eases (c : Coordinator) (t t' : Task) (b : Board) (word : Bool) : Prop where
  counted : b.live + (if t.isCounted then 1 else 0) = c.board.live + if t'.isCounted then 1 else 0
  punctual : t'.isPunctual c.clock = true
  guest : t'.guest? = t.guest?
  effort : t'.effort c.clock + b.owed + (if word then 3 else 0) < t.effort c.clock + c.board.owed

theorem Passes.eases (h : c.Passes t t' b word) (hp : t.isPunctual c.clock = true)
    (hl : t.isCounted = true → 0 < c.board.live) : c.Eases t t' b word := by
  have hcount := h.counted hl
  cases h with
  | removed _ => exact ⟨hcount, rfl, rfl, by simp [Task.effort]⟩
  | entered _ | leaving _ | decided _ _ | handled _ | drainedAtOnce _ | graceless _ _ | concluded _
  | exited | idle _ =>
      exact ⟨rfl, rfl, rfl, by simp [Task.effort]⟩
  | draining _ => exact ⟨rfl, rfl, rfl, by simp [Task.effort]⟩
  | uncounted _ => exact ⟨rfl, rfl, rfl, by simp [Task.effort]; omega⟩
  | began _ _ =>
      have hlate : ¬ c.clock + 1000 ≤ c.clock := by omega
      exact ⟨rfl, by simp [Task.isPunctual]; omega, rfl, by simp [Task.effort, hlate]⟩
  | toldOf _ _ => exact ⟨rfl, hp, rfl, by simp [Task.effort]⟩
  | drained _ _ _ => exact ⟨rfl, rfl, rfl, by simp [Task.effort]; omega⟩
  | noticed _ _ attention _ =>
      refine ⟨rfl, rfl, rfl, ?_⟩
      cases attention <;>
        simp only [Task.effort, Attention.isTold, reduceCtorEq, decide_false, decide_true,
          Bool.false_eq_true, if_false, if_true] <;> omega
  | tookWord _ _ hd =>
      exact ⟨rfl, hp, rfl, by simp [Task.effort, Board.owed_of_departure hd]; omega⟩
  | foundNoWord _ _ _ | resumed _ _ _ => exact ⟨rfl, hp, rfl, by simp [Task.effort]⟩
  | elapsed _ _ attention hd _ =>
      refine ⟨rfl, rfl, rfl, ?_⟩
      cases attention <;> simp [Task.effort, Attention.isTold, hd]
      omega
  | ticked remaining due attention hd _ =>
      have hlt : c.clock < due + 1000 := by simpa [Task.isPunctual] using hp
      have hlate : ¬ due + 1000 ≤ c.clock := by omega
      refine ⟨rfl, by simp [Task.isPunctual]; omega, rfl, ?_⟩
      cases attention <;> simp [Task.effort, Attention.isTold, hd, hlate]
      omega

theorem Tidy.put (h : c.Tidy) (ht : c.tasks[i]? = some t) (he : c.Eases t t' b word) :
    (c.put i t' b).Tidy := by
  obtain ⟨before, after, hsplit, hput⟩ := put_of_task ht
  have hcount := h.counted
  have hall := h.punctual
  have hlive := he.counted
  rw [hsplit] at hcount hall
  rw [hput]
  refine ⟨?_, ?_⟩
  · simp only [List.countP_append, List.countP_cons] at hcount ⊢
    omega
  · simp only [List.forall_mem_append, List.forall_mem_cons] at hall ⊢
    exact ⟨hall.1, he.punctual, hall.2.2⟩

theorem effort_put (ht : c.tasks[i]? = some t) (he : c.Eases t t' b word) :
    (c.put i t' b).effort + (if word then 3 else 0) < c.effort := by
  obtain ⟨before, after, hsplit, hput⟩ := put_of_task ht
  have hless := he.effort
  simp only [hput, effort, hsplit, List.map_append, List.map_cons, List.sum_append, List.sum_cons]
  omega

theorem guests_put (ht : c.tasks[i]? = some t) (he : c.Eases t t' b word) :
    (c.put i t' b).guests = c.guests :=
  filterMap_put ht he.guest

theorem Tidy.pass (h : c.Tidy) (ht : c.tasks[i]? = some t) (hp : c.Passes t t' b word) :
    c.Nears (c.pass i t' b word) := by
  have he : c.Eases t t' b word := by
    have hmem := List.mem_of_getElem? ht
    refine hp.eases (h.punctual t hmem) fun hc => ?_
    rw [h.counted]
    exact List.countP_pos_iff.mpr ⟨t, hmem, hc⟩
  have hless := effort_put ht he
  have hlen : (c.put i t' b).tasks.length = c.tasks.length := List.length_set
  unfold Coordinator.pass
  cases word with
  | false => exact ⟨h.put ht he, by simpa using hless, guests_put ht he, hlen⟩
  | true =>
      have hword := effort_giveWord (c.put i t' b)
      simp only [if_true] at hless ⊢
      exact ⟨(h.put ht he).giveWord, by omega, (guests_giveWord _).trans (guests_put ht he),
        (length_giveWord _).trans hlen⟩

/-! ### Rest -/

/-- A coordinator at rest, which counts the sessions that are present. -/
structure Calm (c : Coordinator) : Prop where
  ready : c.ready? = none
  tidy : c.Tidy

theorem mem_zip_range {α : Type} {xs : List α} {i : Nat} {x : α} :
    (i, x) ∈ (List.range xs.length).zip xs ↔ xs[i]? = some x := by
  rw [List.mem_iff_getElem?]
  constructor
  · rintro ⟨j, hj⟩
    obtain ⟨hi, hx⟩ := List.getElem?_zip_eq_some.mp hj
    obtain ⟨_, heq⟩ := List.getElem?_eq_some_iff.mp hi
    obtain rfl : j = i := by simpa using heq
    exact hx
  · intro hx
    have hi : i < xs.length := (List.getElem?_eq_some_iff.mp hx).1
    exact ⟨i, List.getElem?_zip_eq_some.mpr ⟨List.getElem?_range hi, hx⟩⟩

theorem Tidy.ready (h : c.Tidy) {a : Action} (ha : c.ready? = some a) : c.Nears (c.step a) := by
  obtain ⟨⟨i, t⟩, hm, hn⟩ := List.exists_of_findSome?_eq_some ha
  have ht := mem_zip_range.mp hm
  obtain ⟨t', b, word, hp, hs⟩ := next?_passes ht hn
  rw [hs]
  exact h.pass ht hp

theorem ready_internal {a : Action} (h : c.ready? = some a) : a.isInternal = true := by
  obtain ⟨⟨i, t⟩, -, hn⟩ := List.exists_of_findSome?_eq_some h
  unfold Coordinator.next? at hn
  repeat' split at hn
  all_goals first | cases hn; rfl | cases hn

theorem restWithin_run (steps : Nat) (c : Coordinator) :
    ∃ more, (∀ a ∈ more, a.isInternal = true) ∧ c.restWithin steps = c.run more := by
  induction steps generalizing c with
  | zero => exact ⟨[], nofun, rfl⟩
  | succ steps ih =>
      unfold restWithin
      cases hr : c.ready? with
      | none => exact ⟨[], nofun, rfl⟩
      | some a =>
          obtain ⟨more, hm, heq⟩ := ih (c.step a)
          exact ⟨a :: more, List.forall_mem_cons.mpr ⟨ready_internal hr, hm⟩, heq⟩

theorem Tidy.restWithin (h : c.Tidy) {steps : Nat} (hs : c.effort ≤ steps) :
    (c.restWithin steps).Calm ∧ (c.restWithin steps).guests = c.guests := by
  induction steps generalizing c with
  | zero =>
      cases hr : c.ready? with
      | none => exact ⟨⟨hr, h⟩, rfl⟩
      | some a =>
          have hless := (h.ready hr).effort
          omega
  | succ steps ih =>
      unfold Coordinator.restWithin
      cases hr : c.ready? with
      | none => exact ⟨⟨hr, h⟩, rfl⟩
      | some a =>
          have hn := h.ready hr
          have hless := hn.effort
          obtain ⟨hc, hg⟩ := ih hn.tidy (by omega)
          exact ⟨hc, hg.trans hn.guests⟩

theorem effort_le (c : Coordinator) : c.effort ≤ 8 * (c.tasks.length + 1) := by
  have hsum : (c.tasks.map (Task.effort c.clock)).sum ≤ 8 * c.tasks.length := by
    induction c.tasks with
    | nil => simp
    | cons t ts ih =>
        have ht := t.effort_le c.clock
        simp only [List.map_cons, List.sum_cons, List.length_cons]
        omega
  have hb := c.board.owed_le
  unfold effort
  omega

theorem Tidy.rest (h : c.Tidy) : c.rest.Calm ∧ c.rest.guests = c.guests :=
  h.restWithin c.effort_le

theorem next?_of_ready (h : c.ready? = none) (ht : c.tasks[i]? = some t) : c.next? i t = none :=
  List.findSome?_eq_none_iff.mp h (i, t) (mem_zip_range.mpr ht)

theorem Calm.live (h : c.Calm) : c.board.live = c.guests.length := by
  rw [h.tidy.counted, guests, List.length_filterMap_eq_countP]
  refine List.countP_congr fun t hm => ?_
  obtain ⟨i, hi⟩ := List.mem_iff_getElem?.mp hm
  have hn := next?_of_ready h.ready hi
  cases t with
  | session id stay => cases stay <;> simp_all [Coordinator.next?, Task.isCounted, Task.guest?]
  | signal _ | countdown _ => simp [Task.isCounted, Task.guest?]

theorem restWithin_of_ready (h : c.ready? = none) (steps : Nat) : c.restWithin steps = c := by
  cases steps with
  | zero => rfl
  | succ steps => simp only [restWithin, h]

/-- At rest no session is on its way in or out. -/
theorem Calm.settled (h : c.Calm) : c.Settled := by
  intro id stay hm
  obtain ⟨i, hi⟩ := List.mem_iff_getElem?.mp hm
  have hn := next?_of_ready h.ready hi
  cases stay with
  | present => exact .inl rfl
  | gone => exact .inr rfl
  | entered | leaving | removed | uncounted => cases hn

/-- No session is on its way in. -/
def AllIn (c : Coordinator) : Prop := ∀ id, .session id .entered ∉ c.tasks

theorem Settled.allIn (h : c.Settled) : c.AllIn :=
  fun id hm => by simpa using h id .entered hm

theorem AllIn.step (h : c.AllIn) {a : Action} (ha : ∀ peer, a ≠ .enter peer) :
    (c.step a).AllIn := by
  intro id hm
  obtain ⟨i, hi⟩ := List.mem_iff_getElem?.mp hm
  have hturn := step_turns hi
  generalize ht : c.tasks[i]? = t at hturn
  cases hturn with
  | kept _ _ => exact h id (List.mem_of_getElem? ht)
  | passed _ hp => cases hp
  | came peer he => exact ha peer he

theorem AllIn.guests (h : c.AllIn) : c.guests = c.holders := by
  refine List.filterMap_congr fun t hm => ?_
  cases t with
  | session id stay =>
      cases stay with
      | entered => exact absurd hm (h id)
      | _ => rfl
  | _ => rfl

/-! ### What happens -/

/-- What happens to a coordinator at rest puts no countdown behind. -/
theorem Calm.punctual_step (h : c.Calm) (a : Action) :
    ∀ t ∈ (c.step a).tasks, t.isPunctual (c.step a).clock = true := by
  have hold := h.tidy.punctual
  generalize hd : c.step a = d
  cases hd ▸ c.step_happens a with
  | nothing _ | retargeted _ _ => exact hold
  | entered _ | signalled _ | signalledAgain _ | began =>
      exact List.forall_mem_append.mpr ⟨hold, by simp [Task.isPunctual]⟩
  | left ht =>
      intro t hm
      obtain ⟨j, hj⟩ := List.mem_iff_getElem?.mp hm
      rcases put_task ht hj with ⟨-, rfl⟩ | hj
      · rfl
      · exact hold t (List.mem_of_getElem? hj)
  | passed _ ht hp => exact (h.tidy.pass ht hp).tidy.punctual
  | elapsed =>
      intro t hm
      obtain ⟨i, hi⟩ := List.mem_iff_getElem?.mp hm
      have hn := next?_of_ready h.ready hi
      unfold Task.isPunctual
      split
      · rename_i remaining due attention
        have hlate : ¬ due ≤ c.clock := by
          intro hle
          simp only [Coordinator.next?, hle, if_true] at hn
          repeat' split at hn
          all_goals cases hn
        simp only [decide_eq_true_eq]
        omega
      · cases hn
      · rfl

theorem Calm.step_retarget (h : c.Calm) (id : SessionId) (target : String) :
    (c.step (.retarget id target)).Calm :=
  ⟨h.ready, h.tidy.counted, h.tidy.punctual⟩

theorem Calm.retarget (h : c.Calm) (id : SessionId) (target : String) :
    (c.updateTarget id target).Calm ∧ (c.updateTarget id target).guests = c.guests :=
  Tidy.rest (c := c.step (.retarget id target)) ⟨h.tidy.counted, h.tidy.punctual⟩

theorem Tidy.leave (h : c.Tidy) (id : SessionId) : (c.step (.leave id)).Tidy := by
  generalize hd : c.step (.leave id) = d
  cases hd ▸ leave_happens c id with
  | nothing _ => exact h
  | left ht =>
      obtain ⟨before, after, hsplit, hput⟩ := put_of_task ht
      have hc := h.counted
      have hp := h.punctual
      rw [hsplit] at hc hp
      rw [hput]
      refine ⟨by simpa [List.countP_cons, Task.isCounted] using hc, ?_⟩
      simpa [Task.isPunctual, or_imp, forall_and] using hp
  | passed _ ht hp => exact (h.pass ht hp).tidy

theorem Calm.deregister (h : c.Calm) {id : SessionId} (hid : id ∈ c.guests) :
    (c.deregister id).Calm ∧ c.guests.Perm (id :: (c.deregister id).guests) := by
  obtain ⟨hcalm, hguests⟩ := (h.tidy.leave id).rest
  refine ⟨hcalm, ?_⟩
  have hin := h.settled.allIn
  have hafter : (c.deregister id).guests = (c.step (.leave id)).holders :=
    hguests.trans (hin.step (by simp)).guests
  rw [hafter, hin.guests]
  exact holders_step_leave (hin.guests ▸ hid)

end Coordinator

end TerminalGateway.Drain
