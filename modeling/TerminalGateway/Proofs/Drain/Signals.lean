import TerminalGateway.Drain.Schedule
import TerminalGateway.Proofs.Drain.Steps

/-!
Who ends a process, and why. Signals, countdowns and sessions may come between one another at every
step; the first signal alone decides whether there is a drain, and the reason of the end is that of
the first task that concluded.
-/

namespace TerminalGateway.Drain

/-- A signal that leads to `outcome`, and to the end for `reason`. -/
def SignalStage.leadsTo (outcome : SignalOutcome) (reason : ExitReason) : SignalStage → Prop
  | .looking => False
  | .concluding o r => o = outcome ∧ r = reason
  | .exiting o | .handled o => o = outcome

/-- How many steps a signal takes until it is handled. -/
def SignalStage.left : SignalStage → Nat
  | .looking => 3
  | .concluding _ _ => 2
  | .exiting _ => 1
  | .handled _ => 0

theorem SignalStage.left_le (stage : SignalStage) : stage.left ≤ 3 := by
  cases stage <;> simp [left]

namespace Task

def isSignal : Task → Bool
  | signal _ => true
  | _ => false

/-- The reason for which a task is about to end the process. -/
def conclusion? : Task → Option ExitReason
  | signal (.concluding _ reason) => some reason
  | countdown (.concluding reason) => some reason
  | _ => none

/-- A task that gave its reason and is about to end the process. -/
def isExiting : Task → Bool
  | signal (.exiting _) | countdown .exiting => true
  | _ => false

theorem not_isWaiting_of_looks {t : Task} (h : t.looks = true) : t.isWaiting = false := by
  unfold looks at h
  split at h <;> first | rfl | cases h

end Task

namespace Coordinator

variable {c : Coordinator} {a : Action} {i : Nat} {t t' : Task} {past : List Moment}

/-! ### Histories -/

/-- What holds at the start and is kept by every action that is admitted holds of every run, with
what was done in it. -/
theorem history_induction {P : List Moment → Coordinator → Prop} (h₀ : P [] c)
    (hstep : ∀ past d a, P past d → d.admits a = true → P (past ++ [(d, a)]) (d.step a))
    {as : List Action} (h : c.admitsAll as = true) : P (c.moments as) (c.run as) := by
  suffices hp : ∀ past d, P past d → d.admitsAll as = true →
      P (past ++ d.moments as) (d.run as) from hp [] c h₀ h
  clear h h₀
  induction as with
  | nil =>
      intro past d hd _
      simpa [moments, run] using hd
  | cons a as ih =>
      intro past d hd h
      rw [admitsAll, Bool.and_eq_true] at h
      have hnext := ih _ _ (hstep past d a hd h.1) h.2
      simpa [moments, run, List.append_assoc] using hnext

theorem readings_concat (past : List Moment) (c : Coordinator) (a : Action) (i : Nat) :
    readings (past ++ [(c, a)]) i =
      readings past i ++
        if a = .proceed i ∧ c.tasks[i]?.any Task.looks then [c.board.live] else [] := by
  rw [readings, List.filterMap_append, ← readings]
  congr 1
  by_cases h : a = .proceed i ∧ c.tasks[i]?.any Task.looks <;> simp [h]

theorem readings_aside (ht : c.tasks[i]? = some t) (h : a = .proceed i → t.looks = false) :
    readings (past ++ [(c, a)]) i = readings past i := by
  rw [readings_concat, if_neg, List.append_nil]
  rintro ⟨ha, hl⟩
  simp [ht, h ha] at hl

theorem readings_look (ht : c.tasks[i]? = some t) (ha : a = .proceed i) (h : t.looks = true) :
    readings (past ++ [(c, a)]) i = readings past i ++ [c.board.live] := by
  rw [readings_concat, if_pos ⟨ha, by simpa [ht] using h⟩]

theorem next?_of_looks (h : t.looks = true) : c.next? i t = some (.proceed i) := by
  unfold Task.looks at h
  split at h <;> first | rfl | cases h

/-! ### What every task keeps -/

/-- Countdown `i` began when some signal had led to a drain. -/
def Followed (past : List Moment) (i : Nat) : Prop :=
  ∃ (d : Coordinator) (j : Nat), (d, .countdown) ∈ past ∧ d.tasks.length = i ∧
    d.tasks[j]? = some (.signal (.handled .draining))

theorem Followed.concat (h : Followed past i) (m : Moment) : Followed (past ++ [m]) i := by
  obtain ⟨d, j, hm, hi, hj⟩ := h
  exact ⟨d, j, List.mem_append_left _ hm, hi, hj⟩

/-- Where task `i` may be, given what it read and whether a signal came before it. -/
inductive Lawful (past : List Moment) (i : Nat) (later : Prop) : Task → Prop
  | session (id : SessionId) (stay : Stay) : Lawful past i later (.session id stay)
  | looking (h : ¬ later) (hr : readings past i = []) :
      Lawful past i later (.signal .looking)
  | idle {stage : SignalStage} (h : ¬ later) (hr : readings past i = [0])
      (hs : stage.leadsTo .exitNow .idle) : Lawful past i later (.signal stage)
  | draining {n : Nat} (h : ¬ later) (hr : readings past i = [n]) (hn : n ≠ 0) :
      Lawful past i later (.signal (.handled .draining))
  | forced {stage : SignalStage} (h : later) (hs : stage.leadsTo .forceExit .forced) :
      Lawful past i later (.signal stage)
  | countdown {stage : CountdownStage} (hf : Followed past i)
      (hs : ∀ reason, stage = .concluding reason →
        reason = .graceElapsed ∨ reason = .drained ∧ (readings past i).getLast? = some 0) :
      Lawful past i later (.countdown stage)

variable {later : Prop}

theorem Lawful.congr {past' : List Moment} (h : Lawful past i later t)
    (hr : readings past' i = readings past i) (hf : Followed past i → Followed past' i) :
    Lawful past' i later t := by
  cases h with
  | session id stay => exact .session id stay
  | looking h hn => exact .looking h (hr.trans hn)
  | idle h hn hs => exact .idle h (hr.trans hn) hs
  | draining h hn h0 => exact .draining h (hr.trans hn) h0
  | forced h hs => exact .forced h hs
  | countdown hd hs => exact .countdown (hf hd) (by rwa [hr])

theorem Lawful.pass {b : Board} {word : Bool} (h : Lawful past i later t)
    (ht : c.tasks[i]? = some t) (hp : c.Passes t t' b word)
    (ha : a = .proceed i ∨ t.isWaiting = true ∧ (a = .notice i ∨ a = .tick i)) :
    Lawful (past ++ [(c, a)]) i later t' := by
  have hlook : t.looks = true →
      readings (past ++ [(c, a)]) i = readings past i ++ [c.board.live] := by
    intro hl
    exact readings_look ht (ha.resolve_right (by simp [Task.not_isWaiting_of_looks hl])) hl
  have haside : (a = .proceed i → t.looks = false) →
      readings (past ++ [(c, a)]) i = readings past i := readings_aside ht
  have hfollows : ∀ {stage}, t = .countdown stage → Followed (past ++ [(c, a)]) i := by
    rintro stage rfl
    cases h with
    | countdown hf _ => exact hf.concat _
  cases hp with
  | entered _ | leaving _ | removed _ | uncounted _ => exact .session _ _
  | idle hl =>
      cases h with
      | looking hn hr => exact .idle hn (by rw [hlook rfl, hr, hl]; rfl) ⟨rfl, rfl⟩
      | idle _ _ hs => exact hs.elim
      | forced _ hs => exact hs.elim
  | draining hl =>
      cases h with
      | looking hn hr => exact .draining hn (by rw [hlook rfl, hr]; rfl) hl
      | idle _ _ hs => exact hs.elim
      | forced _ hs => exact hs.elim
  | decided outcome reason =>
      cases h with
      | idle hn hr hs => exact .idle hn ((haside fun _ => rfl).trans hr) hs.1
      | forced hn hs => exact .forced hn hs.1
  | handled outcome =>
      cases h with
      | idle hn hr hs => exact .idle hn ((haside fun _ => rfl).trans hr) hs
      | forced hn hs => exact .forced hn hs
  | drainedAtOnce hl | drained _ _ hl =>
      refine .countdown (hfollows rfl) fun reason heq => ?_
      obtain rfl := CountdownStage.concluding.inj heq
      exact .inr ⟨rfl, by rw [hlook rfl, hl, List.getLast?_concat]⟩
  | graceless _ _ | elapsed _ _ _ _ _ =>
      refine .countdown (hfollows rfl) fun reason heq => ?_
      exact .inl (CountdownStage.concluding.inj heq).symm
  | began _ _ | tookWord _ _ _ | foundNoWord _ _ _ | toldOf _ _ | resumed _ _ _ | concluded _
  | exited | noticed _ _ _ _ | ticked _ _ _ _ _ =>
      exact .countdown (hfollows rfl) (by simp)

theorem Lawful.turn (h : Lawful past i later t) (ht : c.tasks[i]? = some t)
    (hn : c.Turns a i (some t) t') : Lawful (past ++ [(c, a)]) i later t' := by
  cases hn with
  | kept _ hk =>
      refine h.congr (readings_aside ht fun ha => ?_) (·.concat _)
      cases hl : t.looks with
      | false => rfl
      | true => exact absurd (ha ▸ next?_of_looks hl) (hk ha)
  | told remaining due =>
      cases h with
      | countdown hf _ => exact .countdown (hf.concat _) (by simp)
  | left id => exact .session id _
  | passed ha hp => exact h.pass ht hp ha

/-! ### What kind a task is of -/

theorem Turns.isSignal (h : c.Turns a i (some t) t') : t'.isSignal = t.isSignal := by
  cases h with
  | passed _ hp => cases hp <;> rfl
  | _ => rfl

theorem Turns.isCountdown (h : c.Turns a i (some t) t') : t'.isCountdown = t.isCountdown := by
  cases h with
  | passed _ hp => cases hp <;> rfl
  | _ => rfl

/-- A signal came before task `i`. -/
def SignalBefore (c : Coordinator) (i : Nat) : Prop :=
  ∃ j, j < i ∧ ∃ t, c.tasks[j]? = some t ∧ t.isSignal = true

theorem signalBefore_step (hi : i ≤ c.tasks.length) :
    (c.step a).SignalBefore i ↔ c.SignalBefore i := by
  refine ⟨fun ⟨j, hj, t', ht', hs⟩ => ?_, fun ⟨j, hj, t, ht, hs⟩ => ?_⟩
  · have hlt : j < c.tasks.length := by omega
    have hturn := step_turns ht'
    rw [List.getElem?_eq_getElem hlt] at hturn
    exact ⟨j, hj, _, List.getElem?_eq_getElem hlt, hturn.isSignal ▸ hs⟩
  · obtain ⟨t', ht', hturn⟩ := task_step (a := a) ht
    exact ⟨j, hj, t', ht', hturn.isSignal.trans hs⟩

/-! ### What the board keeps -/

theorem draining_signal (c : Coordinator) : (c.step .signal).board.draining = true := by
  simp only [step]
  split
  · assumption
  · rfl

theorem draining_step (c : Coordinator) (a : Action) :
    (c.step a).board.draining = true ↔ c.board.draining = true ∨ a = .signal := by
  generalize hd : c.step a = d
  cases hd ▸ c.step_happens a with
  | nothing _ =>
      refine ⟨.inl, fun h => h.elim id ?_⟩
      rintro rfl
      exact hd ▸ c.draining_signal
  | entered _ | retargeted _ _ | began | elapsed => exact ⟨.inl, fun h => h.elim id nofun⟩
  | left _ => exact ⟨.inl, fun h => h.elim id nofun⟩
  | signalled _ => exact ⟨fun _ => .inr rfl, fun _ => rfl⟩
  | signalledAgain h => exact ⟨.inl, fun _ => h⟩
  | @passed _ i t t' b word ha _ hp =>
      have hb : b.draining = c.board.draining := by cases hp <;> rfl
      have hboard : (c.pass i t' b word).board.draining = b.draining := by
        rcases c.pass_board i t' b word with heq | heq <;> rw [heq]
        rfl
      rw [hboard, hb]
      refine ⟨.inl, fun h => h.elim id ?_⟩
      rintro rfl
      rcases ha with ha | ⟨-, ha | ha⟩ <;> cases ha

theorem draining_run (h : c.board.draining = true) (more : List Action) :
    (c.run more).board.draining = true := by
  induction more generalizing c with
  | nil => exact h
  | cons a more ih => exact ih ((draining_step c a).mpr (.inl h))

theorem conclusion_step {reason : ExitReason} (ht : c.tasks[i]? = some t)
    (h : t.conclusion? = some reason) :
    (c.step (.proceed i)).board = c.board.setReason reason := by
  unfold Task.conclusion? at h
  split at h <;> cases h <;> simp [step, ht, proceedSignal, proceedCountdown, put]

/-- The reason of the end is given by a task that concludes, and by nothing else. -/
theorem reason_step (c : Coordinator) (a : Action) :
    (c.step a).board.exitReason = c.board.exitReason ∨
      ∃ i t reason, a = .proceed i ∧ c.tasks[i]? = some t ∧ t.conclusion? = some reason ∧
        (c.step a).board = c.board.setReason reason := by
  generalize hd : c.step a = d
  cases hd ▸ c.step_happens a with
  | nothing _ | entered _ | retargeted _ _ | began | elapsed | left _ | signalled _
  | signalledAgain _ => exact .inl rfl
  | @passed _ i t t' b word ha ht hp =>
      cases hc : t.conclusion? with
      | none =>
          have hb : b.exitReason = c.board.exitReason := by cases hp <;> first | rfl | cases hc
          rcases c.pass_board i t' b word with heq | heq <;> rw [heq] <;> exact .inl hb
      | some reason =>
          have ha : a = .proceed i := by
            refine ha.resolve_right fun hw => ?_
            cases hp <;> simp_all [Task.conclusion?, Task.isWaiting]
          subst ha
          exact .inr ⟨i, t, reason, rfl, ht, hc, hd ▸ conclusion_step ht hc⟩

theorem reason_stays {r : ExitReason} (h : c.board.exitReason = some r) (a : Action) :
    (c.step a).board.exitReason = some r := by
  rcases c.reason_step a with heq | ⟨_, _, reason, -, -, -, heq⟩
  · exact heq.trans h
  · rw [heq, Board.setReason_of_isSome _ _ (by simp [h]), h]

theorem reason_run {r : ExitReason} (h : c.board.exitReason = some r) (more : List Action) :
    (c.run more).board.exitReason = some r := by
  induction more generalizing c with
  | nil => exact h
  | cons a more ih => exact ih (reason_stays h a)

theorem exited_step (h : (c.step a).board.exited = true) :
    c.board.exited = true ∨ ∃ t ∈ c.tasks, t.isExiting = true := by
  generalize hd : c.step a = d at h
  cases hd ▸ c.step_happens a with
  | nothing _ | entered _ | retargeted _ _ | began | elapsed | left _ | signalled _
  | signalledAgain _ => exact .inl h
  | @passed _ i t t' b word ha ht hp =>
      have hb : b.exited = true := by
        rcases c.pass_board i t' b word with heq | heq <;> rw [heq] at h <;> exact h
      cases hx : t.isExiting with
      | true => exact .inr ⟨t, List.mem_of_getElem? ht, hx⟩
      | false =>
          refine .inl ?_
          cases hp <;> first | exact hb | cases hx

/-! ### What every run keeps -/

/-- A process whose signals and countdowns went their way. -/
structure Orderly (past : List Moment) (c : Coordinator) : Prop where
  grows : ∀ m ∈ past, m.1.tasks.length ≤ c.tasks.length
  lawful : ∀ i t, c.tasks[i]? = some t → Lawful past i (c.SignalBefore i) t
  draining : c.board.draining = true ↔ c.SignalBefore c.tasks.length
  lone : ∀ (i j : Nat) (t u : Task), c.tasks[i]? = some t → c.tasks[j]? = some u →
    t.isCountdown = true → u.isCountdown = true → i = j
  exiting : ∀ t ∈ c.tasks, t.isExiting = true → c.board.exitReason.isSome
  exited : c.board.exited = true → c.board.exitReason.isSome

theorem orderly_start (seconds : Nat) : Orderly [] (start seconds) where
  grows _ h := nomatch h
  lawful _ _ h := nomatch h
  draining := ⟨nofun, fun ⟨_, _, _, h, _⟩ => nomatch h⟩
  lone _ _ _ _ h := nomatch h
  exiting _ h := nomatch h
  exited h := nomatch h

theorem countP_le_one {α : Type} {p : α → Bool} {xs : List α}
    (h : ∀ (i j : Nat) (x y : α), xs[i]? = some x → xs[j]? = some y → p x = true → p y = true →
      i = j) :
    xs.countP p ≤ 1 := by
  induction xs with
  | nil => simp
  | cons x xs ih =>
      have htail : xs.countP p ≤ 1 := by
        refine ih fun i j y z hy hz hpy hpz => ?_
        have hij := h (i + 1) (j + 1) y z (by simpa using hy) (by simpa using hz) hpy hpz
        omega
      cases hx : p x with
      | false => simpa [List.countP_cons, hx] using htail
      | true =>
          have hnone : xs.countP p = 0 := by
            refine List.countP_eq_zero.mpr fun y hy hpy => ?_
            obtain ⟨j, hj⟩ := List.mem_iff_getElem?.mp hy
            have h0 := h 0 (j + 1) x y rfl (by simpa using hj) hx hpy
            omega
          simp [hx, hnone]

theorem isDrain_iff : t.isDrain = true ↔ t = .signal (.handled .draining) := by
  unfold Task.isDrain Task.outcome?
  split
  · simp
  · rename_i hne
    simpa using hne .draining

namespace Orderly

theorem readings_new (h : Orderly past c) (hi : c.tasks.length ≤ i) : readings past i = [] := by
  refine List.filterMap_eq_nil_iff.mpr fun m hm => ?_
  have hle := h.grows m hm
  rw [List.getElem?_eq_none (by omega)]
  simp

/-- Only the first signal leads to a drain. -/
theorem drain_first (h : Orderly past c) (ht : c.tasks[i]? = some (.signal (.handled .draining))) :
    ¬ c.SignalBefore i := by
  cases h.lawful i _ ht with
  | draining hn _ _ => exact hn
  | idle _ _ hs => cases hs
  | forced _ hs => cases hs

theorem drains_le_one (h : Orderly past c) : c.tasks.countP Task.isDrain ≤ 1 := by
  have hle : ∀ {i j : Nat} {t u : Task}, c.tasks[i]? = some t → c.tasks[j]? = some u →
      t.isDrain = true → u.isDrain = true → j ≤ i := by
    intro i j t u ht hu hpt hpu
    rw [isDrain_iff] at hpt hpu
    subst hpt hpu
    have hn := h.drain_first hu
    exact Nat.le_of_not_lt fun hlt => hn ⟨i, hlt, _, ht, rfl⟩
  refine countP_le_one fun i j t u ht hu hpt hpu => ?_
  exact Nat.le_antisymm (hle hu ht hpu hpt) (hle ht hu hpt hpu)

theorem followed_new (h : c.admits .countdown = true) :
    Followed (past ++ [(c, .countdown)]) c.tasks.length := by
  have hpos : 0 < c.tasks.countP Task.isDrain := by
    simp only [admits, decide_eq_true_eq] at h
    omega
  obtain ⟨t, hm, ht⟩ := List.countP_pos_iff.mp hpos
  obtain ⟨j, hj⟩ := List.mem_iff_getElem?.mp hm
  exact ⟨c, j, by simp, rfl, isDrain_iff.mp ht ▸ hj⟩

theorem lawful_step (h : Orderly past c) (ha : c.admits a = true)
    (ht : (c.step a).tasks[i]? = some t') :
    Lawful (past ++ [(c, a)]) i ((c.step a).SignalBefore i) t' := by
  have hturn := step_turns ht
  cases hold : c.tasks[i]? with
  | some t =>
      have hlt := (List.getElem?_eq_some_iff.mp hold).1
      rw [hold] at hturn
      rw [signalBefore_step (by omega)]
      exact (h.lawful i t hold).turn hold hturn
  | none =>
      have hge : c.tasks.length ≤ i := List.getElem?_eq_none_iff.mp hold
      obtain rfl : i = c.tasks.length := by
        have hlt := (List.getElem?_eq_some_iff.mp ht).1
        have hle := (c.length_step a).2
        omega
      have hempty : readings (past ++ [(c, a)]) c.tasks.length = [] := by
        rw [readings_concat, h.readings_new (Nat.le_refl _)]
        simp
      rw [hold] at hturn
      rw [signalBefore_step (Nat.le_refl _), ← h.draining]
      cases hturn with
      | came _ _ => exact .session _ _
      | signalled _ hd => exact .looking (by simp [hd]) hempty
      | signalledAgain _ hd => exact .forced hd ⟨rfl, rfl⟩
      | began ha' =>
          subst ha'
          exact .countdown (followed_new ha) (by simp)

theorem lone_step (h : Orderly past c) (ha : c.admits a = true) {j : Nat} {u' : Task}
    (ht : (c.step a).tasks[i]? = some t') (hu : (c.step a).tasks[j]? = some u')
    (hct : t'.isCountdown = true) (hcu : u'.isCountdown = true) : i = j := by
  -- a countdown that begins is the only one, for only one signal led to a drain
  have hnew : ∀ {i t'}, (c.step a).tasks[i]? = some t' → t'.isCountdown = true →
      (∃ t, c.tasks[i]? = some t ∧ t.isCountdown = true) ∨
        i = c.tasks.length ∧ c.tasks.countP Task.isCountdown = 0 := by
    intro i t' ht hc
    have hturn := step_turns ht
    cases hold : c.tasks[i]? with
    | some t =>
        rw [hold] at hturn
        exact .inl ⟨t, rfl, hturn.isCountdown ▸ hc⟩
    | none =>
        have hge := List.getElem?_eq_none_iff.mp hold
        have hlt := (List.getElem?_eq_some_iff.mp ht).1
        have hle := (c.length_step a).2
        rw [hold] at hturn
        cases hturn with
        | came _ _ | signalled _ _ | signalledAgain _ _ => cases hc
        | began ha' =>
            subst ha'
            have hone := h.drains_le_one
            simp only [admits, decide_eq_true_eq] at ha
            exact .inr ⟨by omega, by omega⟩
  have hnone : ∀ {i : Nat} {t : Task}, c.tasks[i]? = some t → t.isCountdown = true →
      c.tasks.countP Task.isCountdown ≠ 0 := by
    intro i t ht hc hz
    exact List.countP_eq_zero.mp hz t (List.mem_of_getElem? ht) hc
  rcases hnew ht hct with ⟨t, ht, hc⟩ | ⟨hi, hz⟩ <;>
    rcases hnew hu hcu with ⟨u, hu, hc'⟩ | ⟨hj, hz'⟩
  · exact h.lone i j t u ht hu hc hc'
  · exact absurd hz' (hnone ht hc)
  · exact absurd hz (hnone hu hc')
  · omega

theorem exiting_step (h : Orderly past c) (hm : t' ∈ (c.step a).tasks)
    (hx : t'.isExiting = true) : (c.step a).board.exitReason.isSome := by
  have hstays : c.board.exitReason.isSome → (c.step a).board.exitReason.isSome := by
    intro hs
    obtain ⟨r, hr⟩ := Option.isSome_iff_exists.mp hs
    simp [reason_stays hr a]
  obtain ⟨i, ht⟩ := List.mem_iff_getElem?.mp hm
  have hturn := step_turns ht
  generalize hold : c.tasks[i]? = o at hturn
  cases hturn with
  | kept _ _ => exact hstays (h.exiting t' (List.mem_of_getElem? hold) hx)
  | told _ _ | left _ | came _ _ | signalled _ _ | signalledAgain _ _ | began _ => cases hx
  | passed ha hp =>
      have hgave : ∀ {reason}, (c.step a).board = c.board.setReason reason →
          (c.step a).board.exitReason.isSome := by
        intro reason hb
        simp [hb, Board.setReason]
      cases hp with
      | decided outcome reason =>
          obtain rfl := ha.resolve_right (by simp [Task.isWaiting])
          exact hgave (conclusion_step hold rfl)
      | concluded reason =>
          obtain rfl := ha.resolve_right (by simp [Task.isWaiting])
          exact hgave (conclusion_step hold rfl)
      | _ => cases hx

theorem draining_step_iff (h : Orderly past c) :
    (c.step a).board.draining = true ↔ (c.step a).SignalBefore (c.step a).tasks.length := by
  rw [draining_step]
  refine ⟨fun hd => ?_, fun ⟨j, _, t', ht', hs⟩ => ?_⟩
  · rcases hd with hd | rfl
    · obtain ⟨j, hj, t, ht, hs⟩ :=
        (signalBefore_step (a := a) (Nat.le_refl _)).mpr (h.draining.mp hd)
      exact ⟨j, Nat.lt_of_lt_of_le hj (c.length_step a).1, t, ht, hs⟩
    · refine ⟨c.tasks.length, ?_, ?_⟩ <;> simp only [Coordinator.step] <;> split <;>
        simp [spawn, Task.isSignal]
  · have hturn := step_turns ht'
    cases hold : c.tasks[j]? with
    | some t =>
        rw [hold] at hturn
        have hlt := (List.getElem?_eq_some_iff.mp hold).1
        exact .inl (h.draining.mpr ⟨j, hlt, t, hold, hturn.isSignal ▸ hs⟩)
    | none =>
        rw [hold] at hturn
        cases hturn with
        | came _ _ | began _ => cases hs
        | signalled ha _ | signalledAgain ha _ => exact .inr ha

theorem step (h : Orderly past c) (ha : c.admits a = true) :
    Orderly (past ++ [(c, a)]) (c.step a) where
  grows m hm := by
    have hle := (c.length_step a).1
    rcases List.mem_append.mp hm with hm | hm
    · exact Nat.le_trans (h.grows m hm) hle
    · rwa [List.mem_singleton.mp hm]
  lawful i t ht := h.lawful_step ha ht
  draining := h.draining_step_iff
  lone i j t u ht hu hct hcu := h.lone_step ha ht hu hct hcu
  exiting t hm hx := h.exiting_step hm hx
  exited hx := by
    have hsome : c.board.exitReason.isSome := by
      rcases exited_step hx with he | ⟨t, hm, ht⟩
      · exact h.exited he
      · exact h.exiting t hm ht
    obtain ⟨r, hr⟩ := Option.isSome_iff_exists.mp hsome
    simp [reason_stays hr a]

theorem run (seconds : Nat) {as : List Action} (h : (start seconds).admitsAll as = true) :
    Orderly ((start seconds).moments as) ((start seconds).run as) :=
  history_induction (orderly_start seconds) (fun _ _ _ hp ha => hp.step ha) h

end Orderly

/-! ### A signal is answered -/

theorem signal_turn {stage : SignalStage} (h : c.Turns a i (some (.signal stage)) t') :
    ∃ stage' : SignalStage, t' = .signal stage' ∧
      stage'.left ≤ stage.left - if a = .proceed i then 1 else 0 := by
  cases h with
  | kept _ hk =>
      refine ⟨stage, rfl, ?_⟩
      cases stage with
      | handled _ => simp [SignalStage.left]
      | looking | concluding _ _ | exiting _ =>
          rw [if_neg fun ha => hk ha (by rw [ha]; rfl)]
          exact Nat.le_refl _
  | passed ha hp =>
      cases hp <;> exact ⟨_, rfl, by simp only [SignalStage.left]; split <;> omega⟩

/-- A signal is handled after three steps of its own, whatever comes between them. -/
theorem signal_answered {stage : SignalStage} (ht : c.tasks[i]? = some (.signal stage))
    {more : List Action} (h : stage.left ≤ more.count (.proceed i)) :
    ∃ outcome, (c.run more).tasks[i]? = some (.signal (.handled outcome)) := by
  induction more generalizing c stage with
  | nil =>
      cases stage with
      | handled outcome => exact ⟨outcome, ht⟩
      | looking | concluding _ _ | exiting _ => simp [SignalStage.left] at h
  | cons a more ih =>
      obtain ⟨t', ht', hturn⟩ := task_step (a := a) ht
      obtain ⟨stage', rfl, hle⟩ := signal_turn hturn
      refine ih ht' ?_
      rw [List.count_cons] at h
      by_cases ha : a = .proceed i <;> simp [ha] at h hle <;> omega

/-! ### The end -/

/-- Task `i` may give the reason of the end. -/
inductive Entitled (past : List Moment) (c : Coordinator) (i : Nat) : ExitReason → Prop
  | idle {stage : SignalStage} (ht : c.tasks[i]? = some (.signal stage))
      (h : ¬ c.SignalBefore i) (hr : readings past i = [0]) : Entitled past c i .idle
  | forced {stage : SignalStage} (ht : c.tasks[i]? = some (.signal stage))
      (h : c.SignalBefore i) : Entitled past c i .forced
  | drained {stage : CountdownStage} (ht : c.tasks[i]? = some (.countdown stage))
      (hf : Followed past i) (hr : (readings past i).getLast? = some 0) :
      Entitled past c i .drained
  | graceElapsed {stage : CountdownStage} (ht : c.tasks[i]? = some (.countdown stage))
      (hf : Followed past i) : Entitled past c i .graceElapsed

theorem Orderly.entitled (h : Orderly past c) {reason : ExitReason} (ht : c.tasks[i]? = some t)
    (hc : t.conclusion? = some reason) : Entitled past c i reason := by
  have hlaw := h.lawful i t ht
  unfold Task.conclusion? at hc
  split at hc
  · obtain rfl := Option.some.inj hc
    cases hlaw with
    | idle hn hr hs =>
        obtain ⟨-, rfl⟩ := hs
        exact .idle ht hn hr
    | forced hl hs =>
        obtain ⟨-, rfl⟩ := hs
        exact .forced ht hl
  · obtain rfl := Option.some.inj hc
    cases hlaw with
    | countdown hf hs =>
        rcases hs _ rfl with rfl | ⟨rfl, hr⟩
        · exact .graceElapsed ht hf
        · exact .drained ht hf hr
  · cases hc

/-- What signals and countdowns led to, and what of it stays so whatever happens next. -/
structure Conclusive (past : List Moment) (c : Coordinator) : Prop where
  first : ∀ i outcome, c.tasks[i]? = some (.signal (.handled outcome)) → ¬ c.SignalBefore i →
    ∃ live, readings past i = [live] ∧ outcome = if live = 0 then .exitNow else .draining
  later : ∀ i outcome, c.tasks[i]? = some (.signal (.handled outcome)) → c.SignalBefore i →
    outcome = .forceExit
  answered : ∀ i stage more, c.tasks[i]? = some (.signal stage) →
    3 ≤ more.count (.proceed i) →
      ∃ outcome, (c.run more).tasks[i]? = some (.signal (.handled outcome))
  countdowns : c.tasks.countP Task.isCountdown ≤ 1
  draining : c.board.draining = true → ∀ more, (c.run more).board.draining = true
  reason : ∀ r, c.board.exitReason = some r → ∀ more, (c.run more).board.exitReason = some r
  exited : c.board.exited = true → c.board.exitReason.isSome
  /-- Who gives the reason of the end, when it is given next. -/
  settled : ∀ a r, c.board.exitReason = none → (c.step a).board.exitReason = some r →
    ∃ i, a = .proceed i ∧ Entitled past c i r

theorem Orderly.settled (h : Orderly past c) {r : ExitReason} (hn : c.board.exitReason = none)
    (hs : (c.step a).board.exitReason = some r) : ∃ i, a = .proceed i ∧ Entitled past c i r := by
  rcases c.reason_step a with heq | ⟨i, t, reason, ha, ht, hc, heq⟩
  · rw [heq, hn] at hs
    cases hs
  · have hr : reason = r := by simpa [heq, Board.setReason, hn] using hs
    exact ⟨i, ha, hr ▸ h.entitled ht hc⟩

theorem Orderly.first_outcome (h : Orderly past c) {outcome : SignalOutcome}
    (ht : c.tasks[i]? = some (.signal (.handled outcome))) (hn : ¬ c.SignalBefore i) :
    ∃ live, readings past i = [live] ∧ outcome = if live = 0 then .exitNow else .draining := by
  cases h.lawful i _ ht with
  | idle _ hr hs => exact ⟨0, hr, hs⟩
  | draining _ hr h0 => exact ⟨_, hr, (if_neg h0).symm⟩
  | forced hl _ => exact absurd hl hn

theorem Orderly.later_outcome (h : Orderly past c) {outcome : SignalOutcome}
    (ht : c.tasks[i]? = some (.signal (.handled outcome))) (hl : c.SignalBefore i) :
    outcome = .forceExit := by
  cases h.lawful i _ ht with
  | idle hn _ _ | draining hn _ _ => exact absurd hl hn
  | forced _ hs => exact hs

theorem Orderly.conclusive (h : Orderly past c) : Conclusive past c where
  first _ _ ht hn := h.first_outcome ht hn
  later _ _ ht hl := h.later_outcome ht hl
  answered _ stage _ ht hm := signal_answered ht (Nat.le_trans stage.left_le hm)
  countdowns := countP_le_one h.lone
  draining hd := draining_run hd
  reason _ hr := reason_run hr
  exited := h.exited
  settled _ _ := h.settled

/-- The one session of a process leaves during a drain, while the countdown stands in line for
word, and has not given word yet. -/
def lastDeparture : List Action :=
  [.enter "peer", .proceed 0, .signal, .proceed 1, .countdown, .proceed 2, .proceed 2, .leave 0,
    .proceed 0, .proceed 0]

/-- Whatever comes between the steps of signals, countdowns and sessions, the first signal alone
decides whether there is a drain, and the end is settled once. -/
theorem end_settled_once (seconds : Nat) (as : List Action)
    (h : (start seconds).admitsAll as = true) :
    Conclusive ((start seconds).moments as) ((start seconds).run as) :=
  (Orderly.run seconds h).conclusive

/-- A second signal comes when the countdown took word of the last departure. -/
theorem end_settled_once_of_race :
    (start 5).admitsAll (lastDeparture ++ [.proceed 0, .proceed 2, .signal, .proceed 2, .proceed 3,
      .proceed 2, .proceed 3]) = true ∧
    Conclusive
      ((start 5).moments (lastDeparture ++ [.proceed 0, .proceed 2, .signal, .proceed 2,
        .proceed 3, .proceed 2, .proceed 3]))
      ((start 5).run (lastDeparture ++ [.proceed 0, .proceed 2, .signal, .proceed 2, .proceed 3,
        .proceed 2, .proceed 3])) :=
  ⟨by decide, end_settled_once 5 _ (by decide)⟩

end Coordinator

end TerminalGateway.Drain
