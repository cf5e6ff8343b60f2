import TerminalGateway.Proofs.Drain.Departures

/-!
What a countdown tells, and when. Any number of other tasks may come between its steps, time may
pass at any moment, and word of departures may reach it again and again within one second. It tells
the seconds of the grace period one by one, none of them early, and where no time passes while it
has something to do it is over with the last of them.
-/

namespace TerminalGateway.Drain

/-- A step of task `i`. -/
def Action.isOf (i : Nat) : Action → Bool
  | .proceed j | .notice j | .tick j => j = i
  | _ => false

namespace Coordinator

variable {c : Coordinator} {a : Action} {i : Nat} {past : List Moment}

/-- The seconds left that an action tells. -/
def tells (c : Coordinator) (a : Action) : List Nat :=
  (c.step a).board.channel.sent.drop c.board.channel.sent.length

/-- The seconds left that task `i` told, each with the time. -/
def announcements (past : List Moment) (i : Nat) : List (Nat × Nat) :=
  past.flatMap fun m =>
    if m.2.isOf i then (m.1.tells m.2).map fun remaining => (remaining, m.1.clock) else []

/-- No time passed while task `i` had something to do. -/
def Prompt (past : List Moment) (i : Nat) : Prop :=
  ∀ m ∈ past, m.2 = .elapse → ∀ t, m.1.tasks[i]? = some t → m.1.next? i t = none

/-- No countdown but task `i` has begun. -/
def Alone (i : Nat) (c : Coordinator) : Prop :=
  ∀ j t, c.tasks[j]? = some t → t.isCountdown = true → j = i

/-! ### Histories -/

/-- What holds at first and is kept by every action holds of every run, with what was done in
it. -/
theorem moments_induction {P : List Moment → Coordinator → Prop} (h₀ : P [] c)
    (hstep : ∀ past d a, P past d → P (past ++ [(d, a)]) (d.step a)) (as : List Action) :
    P (c.moments as) (c.run as) := by
  suffices hp : ∀ past d, P past d → P (past ++ d.moments as) (d.run as) from hp [] c h₀
  induction as with
  | nil =>
      intro past d hd
      simpa [moments, run] using hd
  | cons a as ih =>
      intro past d hd
      have hnext := ih _ _ (hstep past d a hd)
      simpa [moments, run, List.append_assoc] using hnext

theorem announcements_concat (past : List Moment) (c : Coordinator) (a : Action) (i : Nat) :
    announcements (past ++ [(c, a)]) i =
      announcements past i ++
        if a.isOf i then (c.tells a).map fun remaining => (remaining, c.clock) else [] := by
  simp [announcements]

theorem prompt_concat :
    Prompt (past ++ [(c, a)]) i ↔
      Prompt past i ∧ (a = .elapse → ∀ t, c.tasks[i]? = some t → c.next? i t = none) := by
  simp only [Prompt, List.forall_mem_append, List.forall_mem_singleton]

/-! ### The clock -/

theorem clock_of_ne_elapse (ha : a ≠ .elapse) : (c.step a).clock = c.clock := by
  generalize hd : c.step a = d
  cases hd ▸ c.step_happens a with
  | elapsed => exact absurd rfl ha
  | passed _ _ _ => exact clock_pass _ _ _ _ _
  | _ => rfl

theorem clock_le_step (c : Coordinator) (a : Action) : c.clock ≤ (c.step a).clock := by
  by_cases ha : a = .elapse
  · subst ha
    exact Nat.le_succ _
  · exact Nat.le_of_eq (clock_of_ne_elapse ha).symm

theorem graceSeconds_step (c : Coordinator) (a : Action) :
    (c.step a).graceSeconds = c.graceSeconds := by
  generalize hd : c.step a = d
  cases hd ▸ c.step_happens a with
  | @passed _ i t t' b word _ _ _ =>
      unfold pass giveWord
      cases word with
      | false => rfl
      | true =>
          simp only [if_true]
          split <;> rfl
  | _ => rfl

/-! ### The steps of a countdown, and those of others -/

/-- A task has a step of its own, or it stays as it is and has not looked. -/
theorem own_step {t : Task} (ht : c.tasks[i]? = some t) (ha : a.isOf i = true) :
    (c.step a = c ∧ (a = .proceed i → t.looks = false)) ∨
      ∃ t' b word, c.Passes t t' b word ∧ c.step a = c.pass i t' b word ∧
        (a = .proceed i ∨ t.isWaiting = true ∧ (a = .notice i ∨ a = .tick i)) := by
  generalize hd : c.step a = d
  cases hd ▸ c.step_happens a with
  | nothing _ =>
      refine .inl ⟨rfl, fun hof => ?_⟩
      cases hl : t.looks with
      | false => rfl
      | true =>
          obtain ⟨t', b, word, hp, heq⟩ := next?_passes ht (next?_of_looks hl)
          have ht' := pass_task ht hp
          rw [← heq, ← hof, hd, ht] at ht'
          exact absurd (Option.some.inj ht').symm hp.ne
  | entered _ | retargeted _ _ | signalled _ | signalledAgain _ | began | elapsed | left _ =>
      cases ha
  | @passed _ j u u' b word hof hu hp =>
      obtain rfl : j = i := by
        rcases hof with rfl | ⟨-, rfl | rfl⟩ <;> simpa [Action.isOf] using ha
      obtain rfl := Option.some.inj (ht.symm.trans hu)
      exact .inr ⟨u', b, word, hp, rfl, hof⟩

/-- To a countdown that stands in line others give word, and nothing else. -/
theorem other_step {stage : CountdownStage} (ht : c.tasks[i]? = some (.countdown stage))
    (ha : a.isOf i = false) :
    ∃ stage', (c.step a).tasks[i]? = some (.countdown stage') ∧
      (stage' = stage ∨ ∃ remaining due, stage = .waiting remaining due .asked ∧
        stage' = .waiting remaining due .told) := by
  obtain ⟨t', ht', hturn⟩ := task_step (a := a) ht
  cases hturn with
  | kept _ _ => exact ⟨stage, ht', .inl rfl⟩
  | told remaining due => exact ⟨_, ht', .inr ⟨remaining, due, rfl, rfl⟩⟩
  | passed hof _ =>
      rcases hof with rfl | ⟨-, rfl | rfl⟩ <;> simp [Action.isOf] at ha

theorem tells_of_same (h : c.step a = c) : c.tells a = [] := by
  simp [tells, h]

theorem channel_pass (c : Coordinator) (i : Nat) (t : Task) (b : Board) (word : Bool) :
    (c.pass i t b word).board.channel = b.channel := by
  rcases c.pass_board i t b word with heq | heq <;> rw [heq]
  rfl

theorem tells_of_pass {t' : Task} {b : Board} {word : Bool} (h : c.step a = c.pass i t' b word) :
    c.tells a = b.channel.sent.drop c.board.channel.sent.length := by
  rw [tells, h, channel_pass]

/-! ### How far a countdown is -/

variable {prompt prompt' : Prop} {g started clock clock' remaining due : Nat}
  {told : List (Nat × Nat)} {read : List Nat} {stage : CountdownStage}

/-- The seconds that were told are the last of `g`, one by one, and none of them came early. -/
structure Tally (g started clock : Nat) (told : List (Nat × Nat)) : Prop where
  values : told.map (·.1) = (List.range told.length).map (g - ·)
  few : told.length ≤ g
  times : ∀ k value time, told[k]? = some (value, time) →
    started + 1000 * k ≤ time ∧ time ≤ clock

theorem Tally.nil (g started clock : Nat) : Tally g started clock [] :=
  ⟨rfl, Nat.zero_le g, nofun⟩

theorem Tally.later (h : Tally g started clock told) (hc : clock ≤ clock') :
    Tally g started clock' told :=
  ⟨h.values, h.few, fun k value time hk =>
    ⟨(h.times k value time hk).1, Nat.le_trans (h.times k value time hk).2 hc⟩⟩

/-- The next second is told when its time has come. -/
theorem Tally.tell (h : Tally g started clock told) (hv : remaining + told.length = g)
    (hr : 0 < remaining) (ht : started + 1000 * told.length ≤ clock) :
    Tally g started clock (told ++ [(remaining, clock)]) where
  values := by
    have hlast : remaining = g - told.length := by omega
    rw [List.map_append, h.values, List.length_append, List.length_singleton, List.range_succ,
      List.map_append, hlast]
    rfl
  few := by
    rw [List.length_append, List.length_singleton]
    omega
  times k value time hk := by
    rw [List.getElem?_append] at hk
    split at hk
    · exact h.times k value time hk
    · rename_i hge
      obtain ⟨hlt, heq⟩ := List.getElem?_eq_some_iff.mp hk
      rw [List.length_singleton] at hlt
      obtain rfl : k = told.length := by omega
      simp only [Nat.sub_self, List.getElem_cons_zero, Prod.mk.injEq] at heq
      omega

theorem Tally.positive (h : Tally g started clock told) {x : Nat × Nat} (hx : x ∈ told) :
    0 < x.1 := by
  have hm : x.1 ∈ (List.range told.length).map (g - ·) :=
    h.values ▸ List.mem_map.mpr ⟨x, hx, rfl⟩
  obtain ⟨k, hk, heq⟩ := List.mem_map.mp hm
  have hlt := List.mem_range.mp hk
  have hfew := h.few
  omega

/-- A countdown is between two seconds. -/
structure Between (prompt : Prop) (g started clock : Nat) (told : List (Nat × Nat))
    (read : List Nat) (remaining due : Nat) : Prop where
  positive : 0 < remaining
  left : remaining + told.length = g + 1
  timely : started + 1000 * told.length ≤ due
  live : ∃ n rest, read = n :: rest ∧ n ≠ 0
  punctual : prompt → due = started + 1000 * told.length ∧ clock ≤ due

/-- Where a countdown may be that has `g` seconds and began at `started`, given what it told and
how many live sessions it read. -/
inductive Counting (prompt : Prop) (g started clock : Nat) (told : List (Nat × Nat))
    (read : List Nat) : CountdownStage → Prop
  | starting (hn : told = []) (hr : read = []) (hc : started ≤ clock)
      (hp : prompt → clock = started) : Counting prompt g started clock told read .starting
  | waiting {remaining due : Nat} {attention : Attention}
      (h : Between prompt g started clock told read remaining due) :
      Counting prompt g started clock told read (.waiting remaining due attention)
  | woken {remaining due : Nat} (h : Between prompt g started clock told read remaining due) :
      Counting prompt g started clock told read (.woken remaining due)
  | elapsed (hn : told.length = g) (hc : started + 1000 * g ≤ clock)
      (hp : prompt → clock ≤ started + 1000 * g) :
      Counting prompt g started clock told read (.concluding .graceElapsed)
  | drained (hr : read.getLast? = some 0) (hp : prompt → clock ≤ started + 1000 * g) :
      Counting prompt g started clock told read (.concluding .drained)
  | exiting (hp : prompt → clock ≤ started + 1000 * g) :
      Counting prompt g started clock told read .exiting
  | ended : Counting prompt g started clock told read .ended

/-- What is known of a countdown. -/
structure Account (prompt : Prop) (g started clock : Nat) (told : List (Nat × Nat))
    (read : List Nat) (stage : CountdownStage) : Prop where
  tally : Tally g started clock told
  idle : read.head? = some 0 → told = []
  counting : Counting prompt g started clock told read stage

theorem Between.imp (h : Between prompt g started clock told read remaining due)
    (hp : prompt' → prompt) : Between prompt' g started clock told read remaining due :=
  ⟨h.positive, h.left, h.timely, h.live, fun hq => h.punctual (hp hq)⟩

theorem Between.look (h : Between prompt g started clock told read remaining due) (n : Nat) :
    Between prompt g started clock told (read ++ [n]) remaining due := by
  obtain ⟨m, rest, hread, hm⟩ := h.live
  exact ⟨h.positive, h.left, h.timely, ⟨m, rest ++ [n], by simp [hread], hm⟩, h.punctual⟩

theorem Between.head (h : Between prompt g started clock told read remaining due)
    (hz : read.head? = some 0) : False := by
  obtain ⟨n, rest, rfl, hn⟩ := h.live
  exact hn (Option.some.inj hz)

/-- The grace period is not over while a second is left. -/
theorem Between.within (h : Between prompt g started clock told read remaining due)
    (hp : prompt) : clock ≤ started + 1000 * g := by
  obtain ⟨hdue, hclock⟩ := h.punctual hp
  have hleft := h.left
  have hpos := h.positive
  omega

theorem Counting.imp (h : Counting prompt g started clock told read stage)
    (hp : prompt' → prompt) : Counting prompt' g started clock told read stage := by
  cases h with
  | starting hn hr hc hs => exact .starting hn hr hc fun hq => hs (hp hq)
  | waiting h => exact .waiting (h.imp hp)
  | woken h => exact .woken (h.imp hp)
  | elapsed hn hc hs => exact .elapsed hn hc fun hq => hs (hp hq)
  | drained hr hs => exact .drained hr fun hq => hs (hp hq)
  | exiting hs => exact .exiting fun hq => hs (hp hq)
  | ended => exact .ended

theorem lt_due_of_next? {attention : Attention}
    (h : c.next? i (.countdown (.waiting remaining due attention)) = none) : c.clock < due := by
  by_contra hle
  rw [Nat.not_lt] at hle
  simp only [next?, hle, if_true] at h
  repeat' split at h
  all_goals cases h

/-- A millisecond passes, and where that is prompt the countdown had nothing to do. -/
theorem Counting.elapse (h : Counting prompt g started c.clock told read stage)
    (i : Nat) (hp : prompt' → prompt ∧ c.next? i (.countdown stage) = none) :
    Counting prompt' g started (c.clock + 1) told read stage := by
  cases h with
  | starting hn hr hc _ => exact .starting hn hr (by omega) fun hq => nomatch (hp hq).2
  | @waiting remaining due attention h =>
      refine .waiting ⟨h.positive, h.left, h.timely, h.live, fun hq => ?_⟩
      obtain ⟨hq, hn⟩ := hp hq
      exact ⟨(h.punctual hq).1, lt_due_of_next? hn⟩
  | woken h =>
      exact .woken ⟨h.positive, h.left, h.timely, h.live, fun hq => nomatch (hp hq).2⟩
  | elapsed hn hc _ => exact .elapsed hn (by omega) fun hq => nomatch (hp hq).2
  | drained hr _ => exact .drained hr fun hq => nomatch (hp hq).2
  | exiting _ => exact .exiting fun hq => nomatch (hp hq).2
  | ended => exact .ended

/-- A countdown that goes on tells the next second, or nothing. -/
theorem Passes.account {t' : Task} {b : Board} {word : Bool}
    (hp : c.Passes (.countdown stage) t' b word)
    (h : Account prompt c.graceSeconds started c.clock told read stage) :
    ∃ stage', t' = .countdown stage' ∧
      Account prompt c.graceSeconds started c.clock
        (told ++ (b.channel.sent.drop c.board.channel.sent.length).map fun remaining =>
          (remaining, c.clock))
        (read ++ if (Task.countdown stage).looks then [c.board.live] else []) stage' := by
  obtain ⟨htally, hidle, hcounting⟩ := h
  -- most steps tell nothing, and most of these read nothing
  have hsilent : ∀ {stage'}, (Task.countdown stage).looks = false →
      b.channel = c.board.channel →
      Counting prompt c.graceSeconds started c.clock told read stage' →
      Account prompt c.graceSeconds started c.clock
        (told ++ (b.channel.sent.drop c.board.channel.sent.length).map fun remaining =>
          (remaining, c.clock))
        (read ++ if (Task.countdown stage).looks then [c.board.live] else []) stage' := by
    intro stage' hl hb hc
    simpa [hl, hb] using Account.mk htally hidle hc
  have hlooks : ∀ {stage'}, (Task.countdown stage).looks = true →
      b.channel = c.board.channel →
      ((read ++ [c.board.live]).head? = some 0 → told = []) →
      Counting prompt c.graceSeconds started c.clock told (read ++ [c.board.live]) stage' →
      Account prompt c.graceSeconds started c.clock
        (told ++ (b.channel.sent.drop c.board.channel.sent.length).map fun remaining =>
          (remaining, c.clock))
        (read ++ if (Task.countdown stage).looks then [c.board.live] else []) stage' := by
    intro stage' hl hb hi hc
    simpa only [hl, hb, List.drop_length, List.map_nil, List.append_nil, if_true] using
      Account.mk htally hi hc
  cases hp with
  | drainedAtOnce hl =>
      cases hcounting with
      | starting hn _ _ hs =>
          have hwithin : prompt → c.clock ≤ started + 1000 * c.graceSeconds :=
            fun hq => by rw [hs hq]; omega
          exact ⟨_, rfl, hlooks rfl rfl (fun _ => hn)
            (.drained (List.getLast?_concat.trans (congrArg some hl)) hwithin)⟩
  | graceless hl hg =>
      cases hcounting with
      | starting hn _ hc hs =>
          have hwithin : prompt → c.clock ≤ started + 1000 * c.graceSeconds :=
            fun hq => by rw [hs hq]; omega
          exact ⟨_, rfl, hlooks rfl rfl (fun _ => hn)
            (.elapsed (by rw [hn, hg]; rfl) (by omega) hwithin)⟩
  | began hl hg =>
      cases hcounting with
      | starting hn hr hc hs =>
          subst hn hr
          have hbetween : Between prompt c.graceSeconds started c.clock
              [(c.graceSeconds, c.clock)] [c.board.live] c.graceSeconds (c.clock + 1000) := by
            refine ⟨by omega, rfl, ?_, ⟨_, [], rfl, hl⟩, fun hq => ?_⟩
            · simpa using hc
            · simp [hs hq]
          have htold : Tally c.graceSeconds started c.clock ([] ++ [(c.graceSeconds, c.clock)]) :=
            htally.tell rfl (by omega) (by simpa using hc)
          refine ⟨_, rfl, ?_⟩
          simpa [Task.looks, Board.send, Broadcast.send] using
            Account.mk htold (fun hz => (hbetween.head hz).elim) (.waiting hbetween)
  | tookWord _ _ _ | toldOf _ _ =>
      cases hcounting with
      | waiting hb => exact ⟨_, rfl, hsilent rfl rfl (.woken hb)⟩
  | foundNoWord _ _ _ =>
      cases hcounting with
      | waiting hb => exact ⟨_, rfl, hsilent rfl rfl (.waiting hb)⟩
  | drained _ _ hl =>
      cases hcounting with
      | woken hb =>
          exact ⟨_, rfl, hlooks rfl rfl (fun hz => ((hb.look _).head hz).elim)
            (.drained (List.getLast?_concat.trans (congrArg some hl)) hb.within)⟩
  | resumed _ _ _ =>
      cases hcounting with
      | woken hb =>
          exact ⟨_, rfl, hlooks rfl rfl (fun hz => ((hb.look _).head hz).elim)
            (.waiting (hb.look _))⟩
  | concluded reason =>
      have hwithin : prompt → c.clock ≤ started + 1000 * c.graceSeconds := by
        cases hcounting <;> assumption
      exact ⟨_, rfl, hsilent rfl rfl (.exiting hwithin)⟩
  | exited | noticed _ _ _ _ => exact ⟨_, rfl, hsilent rfl rfl .ended⟩
  | elapsed remaining due _ hd hz =>
      cases hcounting with
      | waiting hb =>
          have hleft := hb.left
          have hpos := hb.positive
          have htimely := hb.timely
          have hn : told.length = c.graceSeconds := by omega
          rw [hn] at htimely
          exact ⟨_, rfl, hsilent rfl rfl (.elapsed hn (by omega) hb.within)⟩
  | ticked remaining due _ hd hz =>
      cases hcounting with
      | waiting hb =>
          have hleft := hb.left
          have htimely := hb.timely
          have htold : Tally c.graceSeconds started c.clock
              (told ++ [(remaining - 1, c.clock)]) :=
            htally.tell (by omega) (by omega) (by omega)
          have hbetween : Between prompt c.graceSeconds started c.clock
              (told ++ [(remaining - 1, c.clock)]) read (remaining - 1) (due + 1000) := by
            have hlen : (told ++ [(remaining - 1, c.clock)]).length = told.length + 1 := by simp
            refine ⟨by omega, by omega, by omega, hb.live, fun hq => ?_⟩
            obtain ⟨hdue, hclock⟩ := hb.punctual hq
            omega
          refine ⟨_, rfl, ?_⟩
          simpa [Task.looks, Board.send, Broadcast.send] using
            Account.mk htold (fun hz => (hb.head hz).elim) (.waiting hbetween)

/-- Countdown `i` among the other tasks of a process, in whatever order they went on. -/
def Accounted (g started i : Nat) (past : List Moment) (c : Coordinator) : Prop :=
  c.graceSeconds = g ∧ ∃ stage, c.tasks[i]? = some (.countdown stage) ∧
    Account (Prompt past i) g started c.clock (announcements past i) (readings past i) stage

theorem Accounted.own (h : Accounted g started i past c) (ha : a.isOf i = true) :
    Accounted g started i (past ++ [(c, a)]) (c.step a) := by
  obtain ⟨rfl, stage, ht, h⟩ := h
  have hclock : (c.step a).clock = c.clock := clock_of_ne_elapse (by rintro rfl; cases ha)
  have hprompt : Prompt (past ++ [(c, a)]) i → Prompt past i := fun h => (prompt_concat.mp h).1
  refine ⟨graceSeconds_step c a, ?_⟩
  rw [hclock, announcements_concat, if_pos ha]
  rcases own_step ht ha with ⟨heq, hl⟩ | ⟨t', b, word, hp, heq, hof⟩
  · refine ⟨stage, by rw [heq, ht], ?_⟩
    rw [tells_of_same heq, List.map_nil, List.append_nil, readings_aside ht hl]
    exact ⟨h.tally, h.idle, h.counting.imp hprompt⟩
  · obtain ⟨stage', rfl, h'⟩ := hp.account h
    refine ⟨stage', heq ▸ pass_task ht hp, ?_⟩
    have hread : (if a = .proceed i ∧ c.tasks[i]?.any Task.looks then [c.board.live] else []) =
        if (Task.countdown stage).looks then [c.board.live] else [] := by
      cases hl : (Task.countdown stage).looks with
      | false => simp [ht, hl]
      | true =>
          have hof := hof.resolve_right (by simp [Task.not_isWaiting_of_looks hl])
          simp [ht, hl, hof]
    rw [tells_of_pass heq, readings_concat, hread]
    exact ⟨h'.tally, h'.idle, h'.counting.imp hprompt⟩

theorem Accounted.other (h : Accounted g started i past c) (ha : a.isOf i = false) :
    Accounted g started i (past ++ [(c, a)]) (c.step a) := by
  obtain ⟨rfl, stage, ht, h⟩ := h
  have hread : readings (past ++ [(c, a)]) i = readings past i :=
    readings_aside ht (by rintro rfl; simp [Action.isOf] at ha)
  refine ⟨graceSeconds_step c a, ?_⟩
  rw [announcements_concat, if_neg (by simp [ha]), List.append_nil, hread]
  obtain ⟨stage', ht', hsame⟩ := other_step ht ha
  refine ⟨stage', ht', h.tally.later (c.clock_le_step a), h.idle, ?_⟩
  by_cases he : a = .elapse
  · subst he
    obtain rfl : stage' = stage := by
      have hkept : (c.step .elapse).tasks[i]? = c.tasks[i]? := rfl
      rw [ht', ht] at hkept
      simpa using hkept
    refine h.counting.elapse i fun hp => ?_
    obtain ⟨hp, hn⟩ := prompt_concat.mp hp
    exact ⟨hp, hn rfl _ ht⟩
  · rw [clock_of_ne_elapse he]
    have hcounting := h.counting.imp fun hp : Prompt (past ++ [(c, a)]) i => (prompt_concat.mp hp).1
    rcases hsame with rfl | ⟨remaining, due, rfl, rfl⟩
    · exact hcounting
    · cases hcounting with
      | waiting hb => exact .waiting hb

theorem Accounted.step (h : Accounted g started i past c) (a : Action) :
    Accounted g started i (past ++ [(c, a)]) (c.step a) := by
  cases ha : a.isOf i with
  | true => exact h.own ha
  | false => exact h.other ha

/-- A countdown that has just begun has told nothing. -/
theorem accounted_began (c : Coordinator) :
    Accounted c.graceSeconds c.clock c.tasks.length [] (c.step .countdown) :=
  ⟨rfl, .starting, by simp [Coordinator.step, spawn], .nil _ _ _, fun _ => rfl,
    .starting rfl rfl (Nat.le_refl _) fun _ => rfl⟩

theorem accounted_run (c : Coordinator) (as : List Action) :
    Accounted c.graceSeconds c.clock c.tasks.length ((c.step .countdown).moments as)
      ((c.step .countdown).run as) :=
  moments_induction (accounted_began c) (fun _ _ _ h => h.step _) as

/-! ### The end of a countdown -/

/-- A countdown that has nothing to do when its last second has passed is over. -/
theorem Counting.isOver (h : Counting prompt g started c.clock told read stage) (hp : prompt)
    (hc : started + 1000 * g ≤ c.clock) (hn : c.next? i (.countdown stage) = none) :
    stage = .ended := by
  cases h with
  | waiting hb =>
      have hlt := lt_due_of_next? hn
      have hdue := (hb.punctual hp).1
      have hleft := hb.left
      have hpos := hb.positive
      omega
  | ended => rfl
  | starting _ _ _ _ | woken _ | elapsed _ _ _ | drained _ _ | exiting _ => cases hn

theorem Counting.within (h : Counting prompt g started clock told read stage) (hp : prompt)
    (hs : stage ≠ .ended) : clock ≤ started + 1000 * g := by
  cases h with
  | starting _ _ _ hq =>
      rw [hq hp]
      omega
  | waiting hb | woken hb => exact hb.within hp
  | elapsed _ _ hq | drained _ hq | exiting hq => exact hq hp
  | ended => exact absurd rfl hs

/-- Why a countdown ends the process. -/
inductive Warrant (g started clock : Nat) (told : List (Nat × Nat)) (read : List Nat) :
    ExitReason → Prop
  | graceElapsed (hn : told.length = g) (hc : started + 1000 * g ≤ clock) :
      Warrant g started clock told read .graceElapsed
  | drained (hr : read.getLast? = some 0) : Warrant g started clock told read .drained

theorem Counting.warrant {reason : ExitReason}
    (h : Counting prompt g started clock told read (.concluding reason)) :
    Warrant g started clock told read reason := by
  cases h with
  | elapsed hn hc _ => exact .graceElapsed hn hc
  | drained hr _ => exact .drained hr

/-- What a countdown has done that began at `started` as task `i` with `g` seconds, the earlier
values of the channel being `sent`. -/
structure CountsDown (g started i : Nat) (sent : List Nat) (past : List Moment)
    (c : Coordinator) : Prop where
  values : (announcements past i).map (·.1) =
    (List.range (announcements past i).length).map (g - ·)
  few : (announcements past i).length ≤ g
  positive : ∀ x ∈ announcements past i, 0 < x.1
  times : ∀ k value time, (announcements past i)[k]? = some (value, time) →
    started + 1000 * k ≤ time
  idle : (readings past i).head? = some 0 → announcements past i = []
  /-- Where no other countdown began, nothing else went out on the channel. -/
  alone : c.Alone i → c.board.channel.sent = sent ++ (announcements past i).map (·.1)
  /-- There is a second to be taken off whenever one is. -/
  left : ∀ remaining due attention,
    c.tasks[i]? = some (.countdown (.waiting remaining due attention)) → 0 < remaining
  sets : ∀ a reason, a.isOf i = true → c.board.exitReason ≠ some reason →
    (c.step a).board.exitReason = some reason →
      c.tasks[i]? = some (.countdown (.concluding reason))
  warrant : ∀ reason, c.tasks[i]? = some (.countdown (.concluding reason)) →
    Warrant g started c.clock (announcements past i) (readings past i) reason
  /-- A countdown that is never kept waiting is not there after its last second. -/
  within : Prompt past i → c.tasks[i]? ≠ some (.countdown .ended) →
    c.clock ≤ started + 1000 * g
  isOver : Prompt past i → started + 1000 * g ≤ c.clock →
    (∀ t, c.tasks[i]? = some t → c.next? i t = none) →
      c.tasks[i]? = some (.countdown .ended)

theorem reason_own {reason : ExitReason} (ht : c.tasks[i]? = some (.countdown stage))
    (ha : a.isOf i = true) (hn : c.board.exitReason ≠ some reason)
    (hs : (c.step a).board.exitReason = some reason) : stage = .concluding reason := by
  rcases c.reason_step a with heq | ⟨j, t, r, rfl, hj, hc, heq⟩
  · exact absurd (heq ▸ hs) hn
  · obtain rfl : j = i := by simpa [Action.isOf] using ha
    obtain rfl := Option.some.inj (ht.symm.trans hj)
    unfold Task.conclusion? at hc
    split at hc
    · rename_i hsignal
      cases hsignal
    · rename_i hstage
      obtain rfl := Option.some.inj hc
      rw [Task.countdown.inj hstage]
      cases hr : c.board.exitReason with
      | none => simpa [heq, Board.setReason, hr] using hs
      | some r' =>
          rw [heq, Board.setReason_of_isSome _ _ (by simp [hr])] at hs
          exact absurd hs hn
    · cases hc

/-! ### The channel -/

theorem Alone.before (h : (c.step a).Alone i) : c.Alone i := by
  intro j t ht hc
  obtain ⟨t', ht', hturn⟩ := task_step (a := a) ht
  exact h j t' ht' (hturn.isCountdown.trans hc)

theorem sent_step (c : Coordinator) (a : Action) :
    (c.step a).board.channel.sent = c.board.channel.sent ++ c.tells a := by
  have hgrows : c.board.channel.sent <+: (c.step a).board.channel.sent := by
    generalize hd : c.step a = d
    cases hd ▸ c.step_happens a with
    | passed _ _ hp =>
        rw [channel_pass]
        cases hp with
        | began _ _ | ticked _ _ _ _ _ => exact List.prefix_append _ _
        | _ => exact List.prefix_refl _
    | _ => exact List.prefix_refl _
  obtain ⟨more, hmore⟩ := hgrows
  rw [tells, ← hmore, List.drop_left]

/-- Nothing is told but by a countdown. -/
theorem tells_other (h : c.Alone i) (ha : a.isOf i = false) : c.tells a = [] := by
  generalize hd : c.step a = d
  cases hd ▸ c.step_happens a with
  | @passed _ j t t' b word hof ht hp =>
      rw [tells_of_pass hd]
      have hother : t.isCountdown = false := by
        cases hc : t.isCountdown with
        | false => rfl
        | true =>
            obtain rfl := h j t ht hc
            rcases hof with rfl | ⟨-, rfl | rfl⟩ <;> simp [Action.isOf] at ha
      cases hp <;> first | exact List.drop_length | cases hother
  | _ => simp [tells, hd, spawn, put, Board.insert, Board.retarget, Board.drain]

theorem sent_run (c : Coordinator) (i : Nat) (as : List Action) :
    (c.run as).Alone i →
      (c.run as).board.channel.sent =
        c.board.channel.sent ++ (announcements (c.moments as) i).map (·.1) := by
  refine moments_induction (P := fun past d => d.Alone i → d.board.channel.sent =
    c.board.channel.sent ++ (announcements past i).map (·.1)) ?_ ?_ as
  · intro _
    exact (List.append_nil _).symm
  · intro past d a ih h
    rw [sent_step, ih h.before, announcements_concat, List.append_assoc, List.map_append]
    cases ha : a.isOf i with
    | true => simp [Function.comp_def]
    | false => simp [tells_other h.before ha]

theorem Accounted.countsDown {sent : List Nat} (h : Accounted g started i past c)
    (ha : c.Alone i → c.board.channel.sent = sent ++ (announcements past i).map (·.1)) :
    CountsDown g started i sent past c := by
  obtain ⟨-, stage, ht, h⟩ := h
  have hstage : ∀ {stage'}, c.tasks[i]? = some (.countdown stage') → stage' = stage := by
    intro stage' ht'
    exact (Task.countdown.inj (Option.some.inj (ht.symm.trans ht'))).symm
  refine ⟨h.tally.values, h.tally.few, fun x => h.tally.positive, ?_, h.idle, ha, ?_, ?_, ?_,
    ?_, ?_⟩
  · exact fun k value time hk => (h.tally.times k value time hk).1
  · intro remaining due attention ht'
    cases hstage ht' ▸ h.counting with
    | waiting hb => exact hb.positive
  · intro a reason hof hn hs
    rw [ht, reason_own ht hof hn hs]
  · intro reason ht'
    exact (hstage ht' ▸ h.counting).warrant
  · intro hp hn
    refine h.counting.within hp fun he => hn ?_
    rw [ht, he]
  · intro hp hc hn
    rw [ht, h.counting.isOver hp hc (hn _ ht)]

/-! ### A countdown of a process that is never kept waiting -/

/-- A coordinator at rest that counts its sessions. -/
structure Rested (c : Coordinator) : Prop where
  counts : c.Counts
  calm : c.Calm

theorem rested_start (grace : Nat) : ({ grace } : Coordinator).Rested :=
  ⟨⟨rfl, rfl, nofun, .nil⟩, rfl, rfl, nofun⟩

theorem act_run (c : Coordinator) (a : Action) :
    ∃ more, (∀ a ∈ more, a.isInternal = true) ∧ c.act a = (c.step a).run more :=
  restWithin_run _ (c.step a)

theorem Rested.act (h : c.Rested) (a : Action) : (c.act a).Rested := by
  have htidy : (c.step a).Tidy := ⟨(h.counts.step a).live, h.calm.punctual_step a⟩
  obtain ⟨more, -, heq⟩ := c.act_run a
  exact ⟨heq ▸ (h.counts.step a).run more, htidy.rest.1⟩

theorem Rested.acts (h : c.Rested) (as : List Action) : (as.foldl Coordinator.act c).Rested := by
  induction as generalizing c with
  | nil => exact h
  | cons a as ih => exact ih (h.act a)

theorem clock_act (c : Coordinator) (a : Action) :
    (c.act a).clock = c.clock + if a = .elapse then 1 else 0 := by
  obtain ⟨more, hm, heq⟩ := c.act_run a
  rw [heq, clock_run hm]
  by_cases ha : a = .elapse
  · subst ha
    rfl
  · rw [clock_of_ne_elapse ha, if_neg ha]
    rfl

theorem clock_acts (c : Coordinator) (as : List Action) :
    (as.foldl act c).clock = c.clock + as.count .elapse := by
  induction as generalizing c with
  | nil => rfl
  | cons a as ih =>
      rw [List.foldl_cons, ih, clock_act, List.count_cons]
      by_cases ha : a = .elapse <;> simp [ha]
      omega

theorem graceSeconds_acts (c : Coordinator) (as : List Action) :
    (as.foldl act c).graceSeconds = c.graceSeconds := by
  have hrun : ∀ (d : Coordinator) (more : List Action),
      (d.run more).graceSeconds = d.graceSeconds := by
    intro d more
    induction more generalizing d with
    | nil => rfl
    | cons a more ih => exact (ih (d.step a)).trans (d.graceSeconds_step a)
  induction as generalizing c with
  | nil => rfl
  | cons a as ih =>
      obtain ⟨more, -, heq⟩ := c.act_run a
      rw [List.foldl_cons, ih, heq, hrun, graceSeconds_step]

/-- What is known of a countdown for which no time passed while it had something to do. -/
def AccountedPrompt (g started i : Nat) (c : Coordinator) : Prop :=
  ∃ past, Accounted g started i past c ∧ Prompt past i

theorem AccountedPrompt.step (h : AccountedPrompt g started i c)
    (ha : a = .elapse → c.ready? = none) : AccountedPrompt g started i (c.step a) := by
  obtain ⟨past, h, hp⟩ := h
  refine ⟨_, h.step a, prompt_concat.mpr ⟨hp, fun he t ht => ?_⟩⟩
  exact next?_of_ready (ha he) ht

theorem AccountedPrompt.internal (h : AccountedPrompt g started i c) {more : List Action}
    (hm : ∀ a ∈ more, a.isInternal = true) : AccountedPrompt g started i (c.run more) := by
  induction more generalizing c with
  | nil => exact h
  | cons a more ih =>
      obtain ⟨ha, hm⟩ := List.forall_mem_cons.mp hm
      exact ih (h.step (by rintro rfl; cases ha)) hm

theorem AccountedPrompt.act (h : AccountedPrompt g started i c) (hr : c.Rested) (a : Action) :
    AccountedPrompt g started i (c.act a) := by
  obtain ⟨more, hm, heq⟩ := c.act_run a
  exact heq ▸ (h.step fun _ => hr.calm.ready).internal hm

theorem AccountedPrompt.acts (h : AccountedPrompt g started i c) (hr : c.Rested)
    (as : List Action) : AccountedPrompt g started i (as.foldl Coordinator.act c) := by
  induction as generalizing c with
  | nil => exact h
  | cons a as ih => exact ih (h.act hr a) (hr.act a)

/-- A process that is never kept waiting has ended its countdown when the grace period is over. -/
theorem ended_in_time (h : c.Rested) (after : List Action)
    (ha : 1000 * c.graceSeconds ≤ after.count .elapse) :
    (after.foldl act c.startCountdown).tasks[c.tasks.length]? = some (.countdown .ended) := by
  obtain ⟨more, hm, heq⟩ := c.act_run .countdown
  have hbegun : AccountedPrompt c.graceSeconds c.clock c.tasks.length c.startCountdown := by
    have hnew : AccountedPrompt c.graceSeconds c.clock c.tasks.length (c.step .countdown) :=
      ⟨[], accounted_began c, List.forall_mem_nil _⟩
    rw [startCountdown, heq]
    exact hnew.internal hm
  have hrested : c.startCountdown.Rested := h.act .countdown
  obtain ⟨past, ⟨-, stage, ht, hacc⟩, hp⟩ := hbegun.acts hrested after
  have hclock : c.clock + 1000 * c.graceSeconds ≤ (after.foldl act c.startCountdown).clock := by
    rw [clock_acts, startCountdown, clock_act, if_neg (by simp)]
    omega
  have hn := next?_of_ready (hrested.acts after).calm.ready ht
  rw [ht, hacc.counting.isOver hp hclock hn]

/-- Whatever comes between its steps, a countdown tells the seconds of the grace period in turn and
none of them early, ends the process for what it read or for the last of them only, and is over
with the last of them where it is not kept waiting; a process whose tasks rest before time goes on
does not keep it waiting. -/
theorem seconds_told_in_turn :
    (∀ (c : Coordinator) (as : List Action),
      CountsDown c.graceSeconds c.clock c.tasks.length c.board.channel.sent
        ((c.step .countdown).moments as) ((c.step .countdown).run as)) ∧
    ∀ (grace : Nat) (before after : List Action),
      1000 * (grace / 1000) ≤ after.count .elapse →
        (after.foldl act (before.foldl act { grace }).startCountdown).tasks[
          (before.foldl act { grace }).tasks.length]? = some (.countdown .ended) := by
  refine ⟨fun c as => ?_, fun grace before after h => ?_⟩
  · exact (accounted_run c as).countsDown (sent_run (c.step .countdown) c.tasks.length as)
  · have hgrace : (before.foldl act { grace }).graceSeconds = grace / 1000 :=
      graceSeconds_acts _ before
    exact ended_in_time ((rested_start grace).acts before) after (hgrace ▸ h)

theorem seconds_told_in_turn_of_one :
    1000 * (1500 / 1000) ≤ (List.replicate 1000 Action.elapse).count .elapse ∧
    ((List.replicate 1000 Action.elapse).foldl act
      ([Action.enter "peer", .signal].foldl act { grace := 1500 }).startCountdown).tasks[
        ([Action.enter "peer", .signal].foldl act { grace := 1500 }).tasks.length]? =
      some (.countdown .ended) := by
  have hcount : 1000 * (1500 / 1000) ≤ (List.replicate 1000 Action.elapse).count .elapse :=
    Nat.le_of_eq List.count_replicate_self.symm
  exact ⟨hcount, seconds_told_in_turn.2 1500 [.enter "peer", .signal] _ hcount⟩

end Coordinator

end TerminalGateway.Drain
