import TerminalGateway.Drain.Coordinator

/-!
What one action makes of a coordinator, case by case. Every statement about its runs rests on these
cases and does not open the steps of its tasks again.
-/

namespace TerminalGateway.Drain

/-- A countdown that waits. -/
def Task.isWaiting : Task → Bool
  | .countdown (.waiting _ _ _) => true
  | _ => false

namespace Coordinator

variable {c : Coordinator} {i : Nat} {t : Task}

/-! ### How a task goes on -/

/-- How a task goes on: to where, with which board and with word for a countdown or without. -/
inductive Passes (c : Coordinator) : Task → Task → Board → Bool → Prop
  | entered (id : SessionId) :
      Passes c (.session id .entered) (.session id .present) c.board.raise false
  | leaving (id : SessionId) :
      Passes c (.session id .leaving) (.session id .removed) (c.board.remove id) false
  | removed (id : SessionId) :
      Passes c (.session id .removed) (.session id .uncounted) c.board.lower false
  | uncounted (id : SessionId) :
      Passes c (.session id .uncounted) (.session id .gone) c.board true
  | idle (h : c.board.live = 0) :
      Passes c (.signal .looking) (.signal (.concluding .exitNow .idle)) c.board false
  | draining (h : c.board.live ≠ 0) :
      Passes c (.signal .looking) (.signal (.handled .draining)) c.board false
  | decided (outcome : SignalOutcome) (reason : ExitReason) :
      Passes c (.signal (.concluding outcome reason)) (.signal (.exiting outcome))
        (c.board.setReason reason) false
  | handled (outcome : SignalOutcome) :
      Passes c (.signal (.exiting outcome)) (.signal (.handled outcome)) c.board.exit false
  | drainedAtOnce (h : c.board.live = 0) :
      Passes c (.countdown .starting) (.countdown (.concluding .drained)) c.board false
  | graceless (h : c.board.live ≠ 0) (hg : c.graceSeconds = 0) :
      Passes c (.countdown .starting) (.countdown (.concluding .graceElapsed)) c.board false
  | began (h : c.board.live ≠ 0) (hg : c.graceSeconds ≠ 0) :
      Passes c (.countdown .starting)
        (.countdown (.waiting c.graceSeconds (c.clock + 1000) .unasked))
        (c.board.send c.graceSeconds) false
  | tookWord (remaining due : Nat) (h : c.board.departure = true) :
      Passes c (.countdown (.waiting remaining due .unasked)) (.countdown (.woken remaining due))
        c.board.takeWord false
  | foundNoWord (remaining due : Nat) (h : c.board.departure = false) :
      Passes c (.countdown (.waiting remaining due .unasked))
        (.countdown (.waiting remaining due .asked)) c.board false
  | toldOf (remaining due : Nat) :
      Passes c (.countdown (.waiting remaining due .told)) (.countdown (.woken remaining due))
        c.board false
  | drained (remaining due : Nat) (h : c.board.live = 0) :
      Passes c (.countdown (.woken remaining due)) (.countdown (.concluding .drained)) c.board
        false
  | resumed (remaining due : Nat) (h : c.board.live ≠ 0) :
      Passes c (.countdown (.woken remaining due))
        (.countdown (.waiting remaining due .unasked)) c.board false
  | concluded (reason : ExitReason) :
      Passes c (.countdown (.concluding reason)) (.countdown .exiting)
        (c.board.setReason reason) false
  | exited : Passes c (.countdown .exiting) (.countdown .ended) c.board.exit false
  | noticed (remaining due : Nat) (attention : Attention) (h : c.board.exited = true) :
      Passes c (.countdown (.waiting remaining due attention)) (.countdown .ended) c.board
        attention.isTold
  | elapsed (remaining due : Nat) (attention : Attention) (hd : due ≤ c.clock)
      (h : remaining - 1 = 0) :
      Passes c (.countdown (.waiting remaining due attention))
        (.countdown (.concluding .graceElapsed)) c.board attention.isTold
  | ticked (remaining due : Nat) (attention : Attention) (hd : due ≤ c.clock)
      (h : remaining - 1 ≠ 0) :
      Passes c (.countdown (.waiting remaining due attention))
        (.countdown (.waiting (remaining - 1) (due + 1000) .unasked))
        (c.board.send (remaining - 1)) attention.isTold

/-- Task `i` comes to a new place, with the board and with word for a countdown. -/
def pass (c : Coordinator) (i : Nat) (t : Task) (b : Board) (word : Bool) : Coordinator :=
  if word then (c.put i t b).giveWord else c.put i t b

theorem session_passes {id : SessionId} {stay : Stay}
    (hp : stay ≠ .present) (hg : stay ≠ .gone) :
    ∃ t' b word, c.Passes (.session id stay) t' b word ∧
      c.proceedSession i id stay = c.pass i t' b word := by
  cases stay with
  | entered => exact ⟨_, _, _, .entered id, rfl⟩
  | leaving => exact ⟨_, _, _, .leaving id, rfl⟩
  | removed => exact ⟨_, _, _, .removed id, rfl⟩
  | uncounted => exact ⟨_, _, _, .uncounted id, rfl⟩
  | present => exact absurd rfl hp
  | gone => exact absurd rfl hg

theorem signal_passes {stage : SignalStage} (h : ∀ outcome, stage ≠ .handled outcome) :
    ∃ t' b word, c.Passes (.signal stage) t' b word ∧
      c.proceedSignal i stage = c.pass i t' b word := by
  cases stage with
  | looking =>
      by_cases hl : c.board.live = 0
      · exact ⟨_, _, _, .idle hl, by simp [proceedSignal, hl, pass]⟩
      · exact ⟨_, _, _, .draining hl, by simp [proceedSignal, hl, pass]⟩
  | concluding outcome reason => exact ⟨_, _, _, .decided outcome reason, rfl⟩
  | exiting outcome => exact ⟨_, _, _, .handled outcome, rfl⟩
  | handled outcome => exact absurd rfl (h outcome)

theorem countdown_passes {stage : CountdownStage} (h : stage ≠ .ended)
    (hw : ∀ remaining due, stage ≠ .waiting remaining due .asked) :
    ∃ t' b word, c.Passes (.countdown stage) t' b word ∧
      c.proceedCountdown i stage = c.pass i t' b word := by
  cases stage with
  | starting =>
      by_cases hl : c.board.live = 0
      · exact ⟨_, _, _, .drainedAtOnce hl, by simp [proceedCountdown, hl, pass]⟩
      by_cases hg : c.graceSeconds = 0
      · exact ⟨_, _, _, .graceless hl hg, by simp [proceedCountdown, hl, hg, pass]⟩
      · exact ⟨_, _, _, .began hl hg, by simp [proceedCountdown, hl, hg, pass]⟩
  | waiting remaining due attention =>
      cases attention with
      | unasked =>
          cases hd : c.board.departure with
          | true =>
              exact ⟨_, _, _, .tookWord remaining due hd, by simp [proceedCountdown, hd, pass]⟩
          | false =>
              exact ⟨_, _, _, .foundNoWord remaining due hd, by simp [proceedCountdown, hd, pass]⟩
      | asked => exact absurd rfl (hw remaining due)
      | told => exact ⟨_, _, _, .toldOf remaining due, rfl⟩
  | woken remaining due =>
      by_cases hl : c.board.live = 0
      · exact ⟨_, _, _, .drained remaining due hl, by simp [proceedCountdown, hl, pass]⟩
      · exact ⟨_, _, _, .resumed remaining due hl, by simp [proceedCountdown, hl, pass]⟩
  | concluding reason => exact ⟨_, _, _, .concluded reason, rfl⟩
  | exiting => exact ⟨_, _, _, .exited, rfl⟩
  | ended => exact absurd rfl h

theorem tick_passes {remaining due : Nat} {attention : Attention} (hd : due ≤ c.clock) :
    ∃ t' b word, c.Passes (.countdown (.waiting remaining due attention)) t' b word ∧
      c.tick i remaining due attention = c.pass i t' b word := by
  by_cases hr : remaining - 1 = 0
  · exact ⟨_, _, _, .elapsed remaining due attention hd hr, by simp [tick, hr, stopWaiting, pass]⟩
  · exact ⟨_, _, _, .ticked remaining due attention hd hr, by simp [tick, hr, stopWaiting, pass]⟩

/-! ### How a task goes on by itself -/

theorem next?_passes {a : Action} (ht : c.tasks[i]? = some t) (h : c.next? i t = some a) :
    ∃ t' b word, c.Passes t t' b word ∧ c.step a = c.pass i t' b word := by
  cases t with
  | session id stay =>
      have hs : a = .proceed i ∧ stay ≠ .present ∧ stay ≠ .gone := by
        cases stay <;> simp_all [next?]
      obtain ⟨rfl, hp, hg⟩ := hs
      simpa [step, ht] using session_passes hp hg
  | signal stage =>
      have hs : a = .proceed i ∧ ∀ outcome, stage ≠ .handled outcome := by
        cases stage <;> simp_all [next?]
      obtain ⟨rfl, ho⟩ := hs
      simpa [step, ht] using signal_passes ho
  | countdown stage =>
      cases stage with
      | waiting remaining due attention =>
          simp only [next?] at h
          split at h
          · rename_i hw
            obtain rfl := Option.some.inj h
            simpa [step, ht] using countdown_passes (by simp) (by simpa using hw)
          split at h
          · rename_i he
            obtain rfl := Option.some.inj h
            exact ⟨_, _, _, .noticed remaining due attention he,
              by simp [step, ht, he, stopWaiting, pass]⟩
          split at h
          · rename_i hd
            obtain rfl := Option.some.inj h
            simpa [step, ht, hd] using tick_passes hd
          · simp at h
      | ended => simp [next?] at h
      | starting | woken _ _ | concluding _ | exiting =>
          obtain rfl := Option.some.inj h
          simpa [step, ht] using countdown_passes (by simp) (by simp)

/-! ### What an action does -/

/-- What an action makes of a coordinator. -/
inductive Happens (c : Coordinator) : Action → Coordinator → Prop
  | nothing (a : Action) : Happens c a c
  | entered (peer : String) :
      Happens c (.enter peer)
        (c.spawn (.session c.board.nextId .entered) (c.board.insert peer))
  | left {i : Nat} {id : SessionId} (ht : c.tasks[i]? = some (.session id .present)) :
      Happens c (.leave id) (c.put i (.session id .leaving) c.board)
  | retargeted (id : SessionId) (target : String) :
      Happens c (.retarget id target) { c with board := c.board.retarget id target }
  | signalled (h : c.board.draining = false) :
      Happens c .signal (c.spawn (.signal .looking) c.board.drain)
  | signalledAgain (h : c.board.draining = true) :
      Happens c .signal (c.spawn (.signal (.concluding .forceExit .forced)) c.board)
  | began : Happens c .countdown (c.spawn (.countdown .starting) c.board)
  | passed {a : Action} {i : Nat} {t t' : Task} {b : Board} {word : Bool}
      (ha : a = .proceed i ∨ t.isWaiting = true ∧ (a = .notice i ∨ a = .tick i))
      (ht : c.tasks[i]? = some t) (hp : c.Passes t t' b word) :
      Happens c a (c.pass i t' b word)
  | elapsed : Happens c .elapse { c with clock := c.clock + 1 }

theorem leave_happens (c : Coordinator) (id : SessionId) :
    c.Happens (.leave id) (c.step (.leave id)) := by
  simp only [step]
  split
  · rename_i i hi
    obtain ⟨hlt, hp, -⟩ := List.findIdx?_eq_some_iff_getElem.mp hi
    exact .left (List.getElem?_eq_some_iff.mpr ⟨hlt, by simpa using hp⟩)
  · exact .nothing _

theorem proceed_happens (c : Coordinator) (i : Nat) :
    c.Happens (.proceed i) (c.step (.proceed i)) := by
  have hpass : ∀ {t d}, c.tasks[i]? = some t →
      (∃ t' b word, c.Passes t t' b word ∧ d = c.pass i t' b word) →
      c.Happens (.proceed i) d := by
    rintro t d ht ⟨t', b, word, hp, rfl⟩
    exact .passed (.inl rfl) ht hp
  simp only [step]
  split
  · rename_i id stay ht
    cases stay with
    | present | gone => exact .nothing _
    | entered | leaving | removed | uncounted =>
        exact hpass ht (session_passes (by simp) (by simp))
  · rename_i stage ht
    cases stage with
    | handled outcome => exact .nothing _
    | looking | concluding _ _ | exiting _ => exact hpass ht (signal_passes (by simp))
  · rename_i stage ht
    cases stage with
    | ended => exact .nothing _
    | waiting remaining due attention =>
        cases attention with
        | asked => exact .nothing _
        | unasked | told => exact hpass ht (countdown_passes (by simp) (by simp))
    | starting | woken _ _ | concluding _ | exiting =>
        exact hpass ht (countdown_passes (by simp) (by simp))
  · exact .nothing _

theorem notice_happens (c : Coordinator) (i : Nat) :
    c.Happens (.notice i) (c.step (.notice i)) := by
  simp only [step]
  split
  · rename_i remaining due attention ht
    split
    · rename_i he
      exact .passed (.inr ⟨rfl, .inl rfl⟩) ht (.noticed remaining due attention he)
    · exact .nothing _
  · exact .nothing _

theorem tick_happens (c : Coordinator) (i : Nat) : c.Happens (.tick i) (c.step (.tick i)) := by
  simp only [step]
  split
  · rename_i remaining due attention ht
    split
    · rename_i hd
      obtain ⟨t', b, word, hp, hs⟩ := tick_passes (c := c) (i := i) hd
      rw [hs]
      exact .passed (.inr ⟨rfl, .inr rfl⟩) ht hp
    · exact .nothing _
  · exact .nothing _

theorem step_happens (c : Coordinator) (a : Action) : c.Happens a (c.step a) := by
  cases a with
  | enter peer => exact .entered peer
  | leave id => exact leave_happens c id
  | retarget id target => exact .retargeted id target
  | signal =>
      cases hd : c.board.draining with
      | true => simpa [step, hd] using Happens.signalledAgain hd
      | false => simpa [step, hd] using Happens.signalled hd
  | countdown => exact .began
  | proceed i => exact proceed_happens c i
  | notice i => exact notice_happens c i
  | tick i => exact tick_happens c i
  | elapse => exact .elapsed

theorem pass_board (c : Coordinator) (i : Nat) (t : Task) (b : Board) (word : Bool) :
    (c.pass i t b word).board = b ∨ (c.pass i t b word).board = b.putWord := by
  unfold pass
  cases word with
  | false => exact .inl rfl
  | true =>
      simp only [if_true, giveWord]
      split
      · exact .inl rfl
      · exact .inr rfl

/-! ### Where the tasks are -/

/-- A task that comes to a new place, among the others. -/
theorem put_of_task (ht : c.tasks[i]? = some t) :
    ∃ before after, c.tasks = before ++ t :: after ∧
      ∀ t' b, c.put i t' b = { c with tasks := before ++ t' :: after, board := b } := by
  obtain ⟨hi, rfl⟩ := List.getElem?_eq_some_iff.mp ht
  refine ⟨c.tasks.take i, c.tasks.drop (i + 1), ?_, fun t' b => ?_⟩
  · rw [List.getElem_cons_drop, List.take_append_drop]
  · rw [put, List.set_eq_take_append_cons_drop, if_pos hi]

/-- Word is kept, or it goes to a countdown that stands in line. -/
theorem giveWord_cases (c : Coordinator) :
    c.giveWord = { c with board := c.board.putWord } ∨
      ∃ before remaining due after,
        c.tasks = before ++ .countdown (.waiting remaining due .asked) :: after ∧
        c.giveWord =
          { c with tasks := before ++ .countdown (.waiting remaining due .told) :: after } := by
  unfold giveWord
  split
  · rename_i i hi
    obtain ⟨hlt, ht, -⟩ := List.findIdx?_eq_some_iff_getElem.mp hi
    have hsplit : c.tasks = c.tasks.take i ++ c.tasks[i] :: c.tasks.drop (i + 1) := by
      rw [List.getElem_cons_drop, List.take_append_drop]
    have hmod := List.modify_eq_take_cons_drop (f := Task.told) hlt
    refine .inr ?_
    generalize c.tasks[i] = t at *
    unfold Task.awaitsWord at ht
    split at ht
    · rename_i remaining due
      exact ⟨_, remaining, due, _, hsplit, by rw [hmod]; rfl⟩
    · simp at ht
  · exact .inl rfl

section

variable {β : Type} {f : Task → Option β}

/-- What does not tell a countdown that was given word from one that stands in line for it. -/
def Unheeding (f : Task → Option β) : Prop :=
  ∀ remaining due, f (.countdown (.waiting remaining due .told)) =
    f (.countdown (.waiting remaining due .asked))

theorem filterMap_giveWord (hf : Unheeding f) (c : Coordinator) :
    c.giveWord.tasks.filterMap f = c.tasks.filterMap f := by
  rcases c.giveWord_cases with heq | ⟨before, remaining, due, after, ht, heq⟩
  · rw [heq]
  · simp only [heq, ht, List.filterMap_append, List.filterMap_cons, hf remaining due]

theorem filterMap_put {t' : Task} {b : Board} (ht : c.tasks[i]? = some t) (h : f t' = f t) :
    (c.put i t' b).tasks.filterMap f = c.tasks.filterMap f := by
  obtain ⟨before, after, hsplit, hput⟩ := put_of_task ht
  simp only [hput, hsplit, List.filterMap_append, List.filterMap_cons, h]

theorem filterMap_pass {t' : Task} {b : Board} (hf : Unheeding f) (ht : c.tasks[i]? = some t)
    (h : f t' = f t) (word : Bool) :
    (c.pass i t' b word).tasks.filterMap f = c.tasks.filterMap f := by
  unfold pass
  cases word with
  | false => exact filterMap_put ht h
  | true => exact (filterMap_giveWord hf _).trans (filterMap_put ht h)

end

/-! ### What an action does to one task -/

/-- What an action makes of the task at place `i`, a new one included. -/
inductive Turns (c : Coordinator) (a : Action) (i : Nat) : Option Task → Task → Prop
  | kept (t : Task) (h : a = .proceed i → c.next? i t ≠ some a) : Turns c a i (some t) t
  | told (remaining due : Nat) :
      Turns c a i (some (.countdown (.waiting remaining due .asked)))
        (.countdown (.waiting remaining due .told))
  | passed {t t' : Task} {b : Board} {word : Bool}
      (ha : a = .proceed i ∨ t.isWaiting = true ∧ (a = .notice i ∨ a = .tick i))
      (hp : c.Passes t t' b word) : Turns c a i (some t) t'
  | left (id : SessionId) :
      Turns c a i (some (.session id .present)) (.session id .leaving)
  | came (peer : String) (ha : a = .enter peer) :
      Turns c a i none (.session c.board.nextId .entered)
  | signalled (ha : a = .signal) (h : c.board.draining = false) :
      Turns c a i none (.signal .looking)
  | signalledAgain (ha : a = .signal) (h : c.board.draining = true) :
      Turns c a i none (.signal (.concluding .forceExit .forced))
  | began (ha : a = .countdown) : Turns c a i none (.countdown .starting)

theorem Passes.not_awaitsWord {t' : Task} {b : Board} {word : Bool} (h : c.Passes t t' b word)
    (hw : word = true) : t'.awaitsWord = false := by
  cases h with
  | foundNoWord _ _ _ => cases hw
  | _ => rfl

theorem length_giveWord (c : Coordinator) : c.giveWord.tasks.length = c.tasks.length := by
  rcases c.giveWord_cases with heq | ⟨before, remaining, due, after, ht, heq⟩
  · rw [heq]
  · simp [heq, ht]

theorem giveWord_task {t' : Task} (h : c.giveWord.tasks[i]? = some t') :
    c.tasks[i]? = some t' ∨
      ∃ remaining due, c.tasks[i]? = some (.countdown (.waiting remaining due .asked)) ∧
        t' = .countdown (.waiting remaining due .told) := by
  rcases c.giveWord_cases with heq | ⟨before, remaining, due, after, ht, heq⟩
  · rw [heq] at h
    exact .inl h
  · rw [heq] at h
    by_cases hi : i = before.length
    · subst hi
      exact .inr ⟨remaining, due, by simp [ht], by simpa using h.symm⟩
    · have hne : i - before.length ≠ 0 ∨ i < before.length := by omega
      refine .inl ?_
      rw [ht]
      rcases hne with hne | hlt
      · simpa [List.getElem?_append, List.getElem?_cons, hne] using h
      · simpa [List.getElem?_append, hlt] using h

theorem put_task {j : Nat} {t' t'' : Task} {b : Board} (ht : c.tasks[i]? = some t)
    (h : (c.put i t' b).tasks[j]? = some t'') : (j = i ∧ t'' = t') ∨ c.tasks[j]? = some t'' := by
  have hlt := (List.getElem?_eq_some_iff.mp ht).1
  simp only [put, List.getElem?_set] at h
  split at h
  · rename_i hij
    exact .inl ⟨hij.symm, by simpa [← hij, hlt] using h.symm⟩
  · exact .inr h

theorem spawn_task {t' : Task} {b : Board} (h : (c.spawn t b).tasks[i]? = some t') :
    c.tasks[i]? = some t' ∨ i = c.tasks.length ∧ t' = t := by
  simp only [spawn, List.getElem?_append] at h
  split at h
  · exact .inl h
  · rename_i hlt
    obtain ⟨hi, heq⟩ := List.getElem?_eq_some_iff.mp h
    exact .inr ⟨by simp at hi; omega, by simpa using heq.symm⟩

theorem Passes.ne {t' : Task} {b : Board} {word : Bool} (h : c.Passes t t' b word) : t' ≠ t := by
  cases h with
  | ticked remaining _ _ _ hr =>
      intro heq
      injection heq with heq
      injection heq with heq
      omega
  | _ => simp

theorem pass_task {t' : Task} {b : Board} {word : Bool} (ht : c.tasks[i]? = some t)
    (hp : c.Passes t t' b word) : (c.pass i t' b word).tasks[i]? = some t' := by
  have hlt := (List.getElem?_eq_some_iff.mp ht).1
  have hput : (c.put i t' b).tasks[i]? = some t' := by simp [put, hlt]
  unfold Coordinator.pass
  cases word with
  | false => exact hput
  | true =>
      have hlen := length_giveWord (c.put i t' b)
      obtain ⟨t'', ht''⟩ : ∃ t'', (c.put i t' b).giveWord.tasks[i]? = some t'' :=
        ⟨_, List.getElem?_eq_getElem (by rw [hlen]; exact (List.getElem?_eq_some_iff.mp hput).1)⟩
      rcases giveWord_task ht'' with hi | ⟨remaining, due, hi, -⟩
      · exact ht''.trans (hi.symm.trans hput)
      · obtain rfl := Option.some.inj (hput.symm.trans hi)
        exact absurd (hp.not_awaitsWord rfl) (by simp [Task.awaitsWord])

theorem step_turns {a : Action} {t' : Task} (h : (c.step a).tasks[i]? = some t') :
    c.Turns a i c.tasks[i]? t' := by
  have hkept : c.tasks[i]? = some t' → c.Turns a i c.tasks[i]? t' := by
    intro hi
    rw [hi]
    refine .kept t' fun ha hn => ?_
    obtain ⟨u, b, word, hp, hs⟩ := next?_passes hi hn
    rw [hs, pass_task hi hp] at h
    exact hp.ne (Option.some.inj h)
  have hspawned : ∀ {t : Task} {b : Board}, (c.spawn t b).tasks[i]? = some t' →
      c.Turns a i none t → c.Turns a i c.tasks[i]? t' := by
    intro t b hi hn
    rcases spawn_task hi with hold | ⟨rfl, rfl⟩
    · exact hkept hold
    · rwa [List.getElem?_eq_none (Nat.le_refl _)]
  generalize hd : c.step a = d at h hkept
  cases hd ▸ c.step_happens a with
  | nothing _ | retargeted _ _ | elapsed => exact hkept h
  | entered peer => exact hspawned h (.came peer rfl)
  | signalled hn => exact hspawned h (.signalled rfl hn)
  | signalledAgain hy => exact hspawned h (.signalledAgain rfl hy)
  | began => exact hspawned h (.began rfl)
  | left ht =>
      rcases put_task ht h with ⟨rfl, rfl⟩ | hold
      · rw [ht]
        exact .left _
      · exact hkept hold
  | @passed _ j t u b word ha ht hp =>
      have hput : (c.put j u b).tasks[i]? = some t' → c.Turns a i c.tasks[i]? t' := by
        intro hi
        rcases put_task ht hi with ⟨rfl, rfl⟩ | hold
        · rw [ht]
          exact .passed ha hp
        · exact hkept hold
      unfold Coordinator.pass at h
      cases word with
      | false => exact hput h
      | true =>
          rcases giveWord_task h with hi | ⟨remaining, due, hi, rfl⟩
          · exact hput hi
          rcases put_task ht hi with ⟨rfl, rfl⟩ | hold
          · exact absurd (hp.not_awaitsWord rfl) (by simp [Task.awaitsWord])
          · rw [hold]
            exact .told remaining due

theorem length_pass (c : Coordinator) (i : Nat) (t : Task) (b : Board) (word : Bool) :
    (c.pass i t b word).tasks.length = c.tasks.length := by
  unfold Coordinator.pass
  cases word with
  | false => exact List.length_set
  | true => exact (length_giveWord _).trans List.length_set

/-- No task is given up, and there is at most one more. -/
theorem length_step (c : Coordinator) (a : Action) :
    c.tasks.length ≤ (c.step a).tasks.length ∧
      (c.step a).tasks.length ≤ c.tasks.length + 1 := by
  generalize hd : c.step a = d
  cases hd ▸ c.step_happens a with
  | nothing _ | retargeted _ _ | elapsed => exact ⟨Nat.le_refl _, Nat.le_succ _⟩
  | entered _ | signalled _ | signalledAgain _ | began => simp [spawn]
  | left _ => simp [put]
  | passed _ _ _ =>
      rw [length_pass]
      exact ⟨Nat.le_refl _, Nat.le_succ _⟩

theorem task_step {a : Action} (ht : c.tasks[i]? = some t) :
    ∃ t', (c.step a).tasks[i]? = some t' ∧ c.Turns a i (some t) t' := by
  have hlt := (List.getElem?_eq_some_iff.mp ht).1
  have hle := (c.length_step a).1
  obtain ⟨t', ht'⟩ : ∃ t', (c.step a).tasks[i]? = some t' :=
    ⟨_, List.getElem?_eq_getElem (by omega)⟩
  have hturn := step_turns ht'
  rw [ht] at hturn
  exact ⟨t', ht', hturn⟩

end Coordinator

end TerminalGateway.Drain
