import TerminalGateway.Proofs.Drain.Rest
import TerminalGateway.Proofs.Drain.Signals

/-!
The departure of the last session is heard. While a countdown waits and no session is live, word of
a departure is kept, or was given to the countdown, or is still to be given by a session that has
gone. Word may be left over from earlier departures, or be taken for nothing, or reach a countdown
whose second has just passed; the countdown then looks again.
-/

namespace TerminalGateway.Drain

/-- A task that has word of a departure, to be heard or to be given. -/
def Task.hasWord : Task → Bool
  | .session _ .uncounted | .countdown (.waiting _ _ .told) => true
  | _ => false

/-- A countdown that gave its reason, or that heard of the end. -/
def Task.isOver : Task → Bool
  | .countdown .exiting | .countdown .ended => true
  | _ => false

theorem Task.isCountdown_of_isWaiting {t : Task} (h : t.isWaiting = true) :
    t.isCountdown = true := by
  unfold isWaiting at h
  split at h
  · rfl
  · cases h

/-- A task that has not found the grace period over, and does not before more time passes. -/
def Task.isAhead (clock : Nat) : Task → Bool
  | .countdown (.waiting _ due _) | .countdown (.woken _ due) => clock < due
  | .countdown .starting => false
  | t => t.conclusion? ≠ some .graceElapsed

namespace Coordinator

variable {c : Coordinator} {a : Action} {i : Nat} {t t' : Task} {b : Board} {word : Bool}
  {past : List Moment}

/-! ### Word of a departure -/

/-- Word of a departure is kept, or some task has it. -/
def HasWord (c : Coordinator) : Prop :=
  c.board.departure = true ∨ ∃ t ∈ c.tasks, t.hasWord = true

/-- Word that is kept finds no countdown that stands in line for it. -/
def InLine (c : Coordinator) : Prop :=
  c.board.departure = true → ∀ t ∈ c.tasks, t.awaitsWord = false

theorem hasWord_giveWord (c : Coordinator) : c.giveWord.HasWord := by
  rcases c.giveWord_cases with heq | ⟨before, remaining, due, after, ht, heq⟩ <;> rw [heq]
  · exact .inl rfl
  · exact .inr ⟨.countdown (.waiting remaining due .told), by simp, rfl⟩

theorem InLine.giveWord (h : c.InLine) : c.giveWord.InLine := by
  unfold Coordinator.giveWord
  split
  · rename_i i hi
    intro hd
    obtain ⟨hlt, hp, -⟩ := List.findIdx?_eq_some_iff_getElem.mp hi
    simp [h hd _ (List.getElem_mem hlt)] at hp
  · rename_i hi
    intro _ t ht
    exact List.findIdx?_eq_none_iff.mp hi t ht

/-- What becomes of the board and of word when a task goes on and gives none itself. -/
theorem Passes.keeps_word (h : c.Passes t t' b word) (hw : word = false)
    (hn : ∀ remaining due, t' ≠ .countdown (.woken remaining due)) :
    b.departure = c.board.departure ∧ (t.hasWord = true → t'.hasWord = true) := by
  cases h with
  | uncounted _ => cases hw
  | tookWord remaining due _ | toldOf remaining due => exact absurd rfl (hn remaining due)
  | noticed _ _ attention _ | elapsed _ _ attention _ _ | ticked _ _ attention _ _ =>
      cases attention with
      | told => cases hw
      | unasked | asked => exact ⟨rfl, nofun⟩
  | _ => exact ⟨rfl, nofun⟩

/-- A task after whose step nobody is live and the end has not come: it gave up its count itself,
or nobody was live before it, and it waits only if it did so before. -/
theorem Passes.nobody (h : c.Passes t t' b word) (hl : b.live = 0) (he : b.exited = false) :
    t'.hasWord = true ∨
      c.board.live = 0 ∧ c.board.exited = false ∧ (t'.isWaiting = true → t.isWaiting = true) := by
  cases h with
  | entered _ => simp [Board.raise] at hl
  | removed _ => exact .inl rfl
  | handled _ | exited => simp [Board.exit] at he
  | began hn _ | resumed _ _ hn => exact absurd hl hn
  | _ => exact .inr ⟨hl, he, by simp [Task.isWaiting]⟩

/-- What holds of word of departures at every moment. -/
structure Attentive (c : Coordinator) : Prop where
  heard : ∀ t ∈ c.tasks, t.isWaiting = true → c.board.live = 0 → c.board.exited = false → c.HasWord
  inLine : c.InLine
  ended : .countdown .ended ∈ c.tasks → c.board.exited = true

theorem attentive_start (seconds : Nat) : (start seconds).Attentive := ⟨nofun, nofun, nofun⟩

theorem Passes.inLine (h : c.Passes t t' b word) (hd : b.departure = true) :
    c.board.departure = true ∧ t'.awaitsWord = false := by
  cases h with
  | tookWord _ _ _ => cases hd
  | foundNoWord _ _ hn => exact absurd hd (by simp [hn])
  | _ => exact ⟨hd, rfl⟩

theorem Passes.ended (h : c.Passes t t' b word) (ht : t' = .countdown .ended) :
    b.exited = true := by
  cases h with
  | exited => rfl
  | noticed _ _ _ he => exact he
  | _ => cases ht

theorem Passes.exited_stays (h : c.Passes t t' b word) (he : c.board.exited = true) :
    b.exited = true := by
  cases h <;> first | exact he | rfl

theorem mem_giveWord {u : Task} (h : u ∈ c.giveWord.tasks) : u ∈ c.tasks ∨ u.hasWord = true := by
  obtain ⟨i, hi⟩ := List.mem_iff_getElem?.mp h
  rcases giveWord_task hi with hold | ⟨remaining, due, -, rfl⟩
  · exact .inl (List.mem_of_getElem? hold)
  · exact .inr rfl

theorem mem_pass {u : Task} (h : u ∈ (c.pass i t' b word).tasks) :
    u = t' ∨ u ∈ c.tasks ∨ u.hasWord = true := by
  have hput : u ∈ (c.put i t' b).tasks → u = t' ∨ u ∈ c.tasks := by
    intro hm
    rcases List.mem_or_eq_of_mem_set hm with hm | rfl
    · exact .inr hm
    · exact .inl rfl
  unfold Coordinator.pass at h
  cases word with
  | false => exact (hput h).imp_right .inl
  | true =>
      rcases mem_giveWord h with hm | hw
      · exact (hput hm).imp_right .inl
      · exact .inr (.inr hw)

theorem board_exited_pass (c : Coordinator) (i : Nat) (t : Task) (b : Board) (word : Bool) :
    (c.pass i t b word).board.exited = b.exited ∧ (c.pass i t b word).board.live = b.live := by
  rcases c.pass_board i t b word with heq | heq <;> rw [heq] <;> exact ⟨rfl, rfl⟩

theorem InLine.step (h : c.InLine) (a : Action) : (c.step a).InLine := by
  generalize hd : c.step a = d
  cases hd ▸ c.step_happens a with
  | nothing _ | retargeted _ _ | elapsed => exact h
  | entered _ | signalled _ | signalledAgain _ | began =>
      intro hw t ht
      rcases List.mem_append.mp ht with ht | ht
      · exact h hw t ht
      · rw [List.mem_singleton.mp ht]
        rfl
  | left _ =>
      intro hw t ht
      rcases List.mem_or_eq_of_mem_set ht with ht | rfl
      · exact h hw t ht
      · rfl
  | @passed _ i t t' b word _ ht hp =>
      have hput : (c.put i t' b).InLine := by
        intro hw u hu
        obtain ⟨hw, ht'⟩ := hp.inLine hw
        rcases List.mem_or_eq_of_mem_set hu with hu | rfl
        · exact h hw u hu
        · exact ht'
      unfold Coordinator.pass
      cases word with
      | false => exact hput
      | true => exact hput.giveWord

theorem ended_step (h : .countdown .ended ∈ c.tasks → c.board.exited = true)
    (hm : .countdown .ended ∈ (c.step a).tasks) : (c.step a).board.exited = true := by
  generalize hd : c.step a = d at hm
  cases hd ▸ c.step_happens a with
  | nothing _ | retargeted _ _ | elapsed => exact h hm
  | entered _ | signalled _ | signalledAgain _ | began =>
      rcases List.mem_append.mp hm with hm | hm
      · exact h hm
      · simp at hm
  | left _ =>
      rcases List.mem_or_eq_of_mem_set hm with hm | hm
      · exact h hm
      · cases hm
  | @passed _ i t t' b word _ ht hp =>
      rw [(c.board_exited_pass i t' b word).1]
      rcases mem_pass hm with heq | hm | hw
      · exact hp.ended heq.symm
      · exact hp.exited_stays (h hm)
      · cases hw

/-- Where one countdown at most began, one that waits still has word coming after every action. -/
theorem Attentive.heard_step (h : c.Attentive)
    (hlone : ∀ (i j : Nat) (t u : Task), (c.step a).tasks[i]? = some t →
      (c.step a).tasks[j]? = some u → t.isCountdown = true → u.isCountdown = true → i = j)
    {u : Task} (hu : u ∈ (c.step a).tasks) (hw : u.isWaiting = true)
    (hl : (c.step a).board.live = 0) (he : (c.step a).board.exited = false) :
    (c.step a).HasWord := by
  have hold : ∀ {v}, v ∈ c.tasks → v.isWaiting = true → c.board.live = 0 →
      c.board.exited = false → c.HasWord := fun hv => h.heard _ hv
  generalize hd : c.step a = d at *
  cases hd ▸ c.step_happens a with
  | nothing _ | retargeted _ _ | elapsed => exact hold hu hw hl he
  | entered _ | signalled _ | signalledAgain _ | began =>
      rcases List.mem_append.mp hu with hu | hu
      · refine (hold hu hw hl he).imp_right fun ⟨v, hv, hvw⟩ => ?_
        exact ⟨v, List.mem_append_left _ hv, hvw⟩
      · simp [List.mem_singleton.mp hu, Task.isWaiting] at hw
  | @left i id ht =>
      obtain ⟨before, after, hsplit, hput⟩ := put_of_task ht
      rcases List.mem_or_eq_of_mem_set hu with hu | rfl
      · refine (hold hu hw hl he).imp_right fun ⟨v, hv, hvw⟩ => ?_
        rw [hsplit] at hv
        rw [hput]
        refine ⟨v, ?_, hvw⟩
        simp only [List.mem_append, List.mem_cons] at hv ⊢
        rcases hv with hv | rfl | hv
        · exact .inl hv
        · cases hvw
        · exact .inr (.inr hv)
      · cases hw
  | @passed _ i t t' b word _ ht hp =>
      cases word with
      | true => exact hasWord_giveWord _
      | false =>
          rw [(c.board_exited_pass i t' b false).1] at he
          rw [(c.board_exited_pass i t' b false).2] at hl
          have hat := pass_task ht hp
          obtain ⟨before, after, hsplit, hput⟩ := put_of_task ht
          have hpass : c.pass i t' b false = c.put i t' b := rfl
          rw [hpass] at hu hat hlone ⊢
          -- the one countdown that waits did not just take word
          have hn : ∀ remaining due, t' ≠ .countdown (.woken remaining due) := by
            rintro remaining due rfl
            obtain ⟨j, hj⟩ := List.mem_iff_getElem?.mp hu
            obtain rfl := hlone i j _ _ hat hj rfl (Task.isCountdown_of_isWaiting hw)
            obtain rfl := Option.some.inj (hat.symm.trans hj)
            cases hw
          obtain ⟨hdep, hkeep⟩ := hp.keeps_word rfl hn
          have hmem : t' ∈ (c.put i t' b).tasks := List.mem_of_getElem? hat
          rcases hp.nobody hl he with hgone | ⟨hl, he, hwait⟩
          · exact .inr ⟨t', hmem, hgone⟩
          have hbefore : c.HasWord := by
            rcases List.mem_or_eq_of_mem_set hu with hu | rfl
            · exact hold hu hw hl he
            · exact hold (List.mem_of_getElem? ht) (hwait hw) hl he
          rcases hbefore with hkept | ⟨v, hv, hvw⟩
          · exact .inl (hdep.trans hkept)
          · rw [hsplit] at hv
            rw [hput] at hmem ⊢
            simp only [List.mem_append, List.mem_cons] at hv
            rcases hv with hv | rfl | hv
            · exact .inr ⟨v, List.mem_append_left _ hv, hvw⟩
            · exact .inr ⟨t', hmem, hkeep hvw⟩
            · exact .inr ⟨v, List.mem_append_right _ (List.mem_cons_of_mem _ hv), hvw⟩

theorem Attentive.step (h : c.Attentive) (ho : Orderly past c) (ha : c.admits a = true) :
    (c.step a).Attentive where
  heard _ := h.heard_step (ho.step ha).lone
  inLine := h.inLine.step a
  ended := ended_step h.ended

/-! ### Rest -/

/-- A countdown that has nothing to do while no session is live has ended the process. -/
theorem Attentive.exited_at_rest (h : c.Attentive) (hr : c.ready? = none)
    (hc : ∃ t ∈ c.tasks, t.isCountdown = true) (hl : c.board.live = 0) :
    c.board.exited = true := by
  obtain ⟨t, hm, ht⟩ := hc
  obtain ⟨i, hi⟩ := List.mem_iff_getElem?.mp hm
  have hn := next?_of_ready hr hi
  cases t with
  | session _ _ | signal _ => cases ht
  | countdown stage =>
      cases stage with
      | starting | woken _ _ | concluding _ | exiting => cases hn
      | ended => exact h.ended hm
      | waiting remaining due attention =>
          cases he : c.board.exited with
          | true => rfl
          | false =>
              have hasked : attention = .asked := by
                cases attention <;> first | rfl | cases hn
              subst hasked
              rcases h.heard _ hm rfl hl he with hd | ⟨u, hu, hw⟩
              · exact absurd (h.inLine hd _ hm) (by simp [Task.awaitsWord])
              · obtain ⟨j, hj⟩ := List.mem_iff_getElem?.mp hu
                have hnone := next?_of_ready hr hj
                unfold Task.hasWord at hw
                split at hw
                · cases hnone
                · cases hnone
                · cases hw

/-- A coordinator with a countdown that nobody keeps waiting. -/
structure Deserted (c : Coordinator) : Prop where
  countdown : ∃ t ∈ c.tasks, t.isCountdown = true
  live : c.board.live = 0
  newcomer : ∀ id, .session id .entered ∉ c.tasks

theorem Passes.live_le (h : c.Passes t t' b word) (hn : ∀ id, t ≠ .session id .entered) :
    b.live ≤ c.board.live := by
  cases h with
  | entered id => exact absurd rfl (hn id)
  | removed _ => exact Nat.sub_le _ _
  | _ => exact Nat.le_refl _

theorem internal_passes (h : a.isInternal = true) :
    c.step a = c ∨ ∃ i t t' b word, c.tasks[i]? = some t ∧ c.Passes t t' b word ∧
      c.step a = c.pass i t' b word := by
  generalize hd : c.step a = d
  cases hd ▸ c.step_happens a with
  | nothing _ => exact .inl rfl
  | entered _ | retargeted _ _ | signalled _ | signalledAgain _ | began | elapsed | left _ =>
      cases h
  | @passed _ i t t' b word _ ht hp => exact .inr ⟨i, t, t', b, word, ht, hp, rfl⟩

theorem clock_pass (c : Coordinator) (i : Nat) (t : Task) (b : Board) (word : Bool) :
    (c.pass i t b word).clock = c.clock := by
  unfold pass giveWord
  cases word with
  | false => rfl
  | true =>
      simp only [if_true]
      split <;> rfl

theorem Deserted.step (h : c.Deserted) (ha : a.isInternal = true) : (c.step a).Deserted := by
  have hcountdown : ∃ t ∈ (c.step a).tasks, t.isCountdown = true := by
    obtain ⟨t, hm, ht⟩ := h.countdown
    obtain ⟨i, hi⟩ := List.mem_iff_getElem?.mp hm
    obtain ⟨t', hi', hturn⟩ := task_step (a := a) hi
    exact ⟨t', List.mem_of_getElem? hi', hturn.isCountdown.trans ht⟩
  refine ⟨hcountdown, ?_, ?_⟩
  · rcases internal_passes (c := c) ha with heq | ⟨i, t, t', b, word, ht, hp, heq⟩ <;> rw [heq]
    · exact h.live
    · rw [(c.board_exited_pass i t' b word).2]
      have hle := hp.live_le fun id hid => h.newcomer id (hid ▸ List.mem_of_getElem? ht)
      have hz := h.live
      omega
  · have hin : c.AllIn := h.newcomer
    refine hin.step fun peer hp => ?_
    rw [hp] at ha
    cases ha

theorem clock_step (ha : a.isInternal = true) : (c.step a).clock = c.clock := by
  rcases internal_passes (c := c) ha with heq | ⟨i, t, t', b, word, -, -, heq⟩ <;> rw [heq]
  exact c.clock_pass i t' b word

/-! ### The grace period -/

theorem Turns.isOver (h : c.Turns a i (some t) t') (ht : t.isOver = true) : t'.isOver = true := by
  cases h with
  | kept _ _ => exact ht
  | told _ _ | left _ => cases ht
  | passed _ hp => cases hp <;> first | rfl | cases ht

/-- The grace period is the reason of the end only where a countdown gave it. -/
theorem over_step (h : Orderly past c)
    (hb : c.board.exitReason = some .graceElapsed → ∃ t ∈ c.tasks, t.isOver = true)
    (hr : (c.step a).board.exitReason = some .graceElapsed) :
    ∃ t ∈ (c.step a).tasks, t.isOver = true := by
  have hstays : c.board.exitReason = some .graceElapsed →
      ∃ t ∈ (c.step a).tasks, t.isOver = true := by
    intro hold
    obtain ⟨t, hm, ht⟩ := hb hold
    obtain ⟨i, hi⟩ := List.mem_iff_getElem?.mp hm
    obtain ⟨t', hi', hturn⟩ := task_step (a := a) hi
    exact ⟨t', List.mem_of_getElem? hi', hturn.isOver ht⟩
  rcases c.reason_step a with heq | ⟨i, t, reason, rfl, ht, hc, heq⟩
  · exact hstays (heq ▸ hr)
  cases hn : c.board.exitReason with
  | some r =>
      have hsame := reason_stays hn (.proceed i)
      rw [hr] at hsame
      exact hstays (hn.trans hsame.symm)
  | none =>
      obtain rfl : reason = .graceElapsed := by simpa [heq, Board.setReason, hn] using hr
      cases h.entitled ht hc with
      | graceElapsed ht' _ =>
          obtain rfl := Option.some.inj (ht.symm.trans ht')
          obtain ⟨t', hi', hturn⟩ := task_step (a := .proceed i) ht
          refine ⟨t', List.mem_of_getElem? hi', ?_⟩
          unfold Task.conclusion? at hc
          split at hc
          · rename_i heq'
            cases heq'
          · rename_i heq'
            obtain rfl := (Task.countdown.inj heq')
            cases hturn with
            | kept _ hk => exact absurd rfl (hk rfl)
            | passed _ hp =>
                cases hp
                rfl
          · cases hc

/-- A process that does not end for its grace period before more time passes. -/
structure Unelapsed (c : Coordinator) : Prop where
  reason : c.board.exitReason ≠ some .graceElapsed
  ahead : ∀ t ∈ c.tasks, t.isAhead c.clock = true

theorem Passes.isAhead (h : c.Passes t t' b word) (ht : t.isAhead c.clock = true) :
    t'.isAhead c.clock = true := by
  cases h with
  | began _ _ => simp [Task.isAhead]
  | tookWord _ _ _ | foundNoWord _ _ _ | toldOf _ _ | resumed _ _ _ => exact ht
  | graceless _ _ => cases ht
  | elapsed remaining due attention hd _ | ticked remaining due attention hd _ =>
      simp only [Task.isAhead, decide_eq_true_eq] at ht
      omega
  | _ => rfl

theorem Unelapsed.step (h : c.Unelapsed) (ha : a.isInternal = true) : (c.step a).Unelapsed := by
  refine ⟨fun hr => ?_, fun t' hm => ?_⟩
  · rcases c.reason_step a with heq | ⟨i, t, reason, rfl, ht, hc, heq⟩
    · exact h.reason (heq ▸ hr)
    cases hn : c.board.exitReason with
    | some r =>
        have hsame := reason_stays hn (.proceed i)
        rw [hr] at hsame
        exact h.reason (hn.trans hsame.symm)
    | none =>
        obtain rfl : reason = .graceElapsed := by simpa [heq, Board.setReason, hn] using hr
        have hahead := h.ahead t (List.mem_of_getElem? ht)
        unfold Task.isAhead at hahead
        split at hahead <;> simp_all [Task.conclusion?]
  · rw [clock_step ha]
    obtain ⟨i, hi⟩ := List.mem_iff_getElem?.mp hm
    have hturn := step_turns hi
    generalize hold : c.tasks[i]? = o at hturn
    cases hturn with
    | kept _ _ => exact h.ahead t' (List.mem_of_getElem? hold)
    | told _ _ =>
        have hahead := h.ahead _ (List.mem_of_getElem? hold)
        exact hahead
    | left _ => rfl
    | came _ ha' | signalled ha' _ | signalledAgain ha' _ | began ha' =>
        subst ha'
        cases ha
    | passed _ hp => exact hp.isAhead (h.ahead _ (List.mem_of_getElem? hold))

/-! ### The departure of the last session -/

/-- What holds of a process at every moment of its runs. -/
structure Watchful (past : List Moment) (c : Coordinator) : Prop where
  orderly : Orderly past c
  attentive : c.Attentive
  counts : c.Counts
  blamed : c.board.exitReason = some .graceElapsed → ∃ t ∈ c.tasks, t.isOver = true

namespace Watchful

theorem step (h : Watchful past c) (ha : c.admits a = true) :
    Watchful (past ++ [(c, a)]) (c.step a) where
  orderly := h.orderly.step ha
  attentive := h.attentive.step h.orderly ha
  counts := h.counts.step a
  blamed := over_step h.orderly h.blamed

theorem run (seconds : Nat) {as : List Action} (h : (start seconds).admitsAll as = true) :
    Watchful ((start seconds).moments as) ((start seconds).run as) :=
  history_induction
    ⟨orderly_start seconds, attentive_start seconds, counts_start seconds, nofun⟩
    (fun _ _ _ hp ha => hp.step ha) h

theorem internal_run (h : Watchful past c) {more : List Action}
    (hm : ∀ a ∈ more, a.isInternal = true) : ∃ past', Watchful past' (c.run more) := by
  induction more generalizing past c with
  | nil => exact ⟨past, h⟩
  | cons a more ih =>
      obtain ⟨ha, hm⟩ := List.forall_mem_cons.mp hm
      have hadmits : c.admits a = true := by cases a <;> first | rfl | cases ha
      exact ih (h.step hadmits) hm

variable {remaining due : Nat} {attention : Attention}

/-- The countdown that waits is the only one. -/
theorem countdown_eq (h : Watchful past c)
    (hw : .countdown (.waiting remaining due attention) ∈ c.tasks) (ht : t ∈ c.tasks)
    (hc : t.isCountdown = true) : t = .countdown (.waiting remaining due attention) := by
  obtain ⟨i, hi⟩ := List.mem_iff_getElem?.mp hw
  obtain ⟨j, hj⟩ := List.mem_iff_getElem?.mp ht
  obtain rfl := h.orderly.lone i j _ _ hi hj rfl hc
  exact Option.some.inj (hj.symm.trans hi)

theorem unelapsed (h : Watchful past c)
    (hw : .countdown (.waiting remaining due attention) ∈ c.tasks) (hd : c.clock < due) :
    c.Unelapsed := by
  refine ⟨fun hr => ?_, fun t hm => ?_⟩
  · obtain ⟨t, hm, ho⟩ := h.blamed hr
    have hc : t.isCountdown = true := by
      unfold Task.isOver at ho
      split at ho <;> first | rfl | cases ho
    rw [h.countdown_eq hw hm hc] at ho
    cases ho
  · cases t with
    | session _ _ => rfl
    | countdown _ =>
        rw [h.countdown_eq hw hm rfl]
        simpa [Task.isAhead] using hd
    | signal stage =>
        obtain ⟨i, hi⟩ := List.mem_iff_getElem?.mp hm
        have hlaw := h.orderly.lawful i _ hi
        cases stage with
        | looking | exiting _ | handled _ => rfl
        | concluding outcome reason =>
            cases hlaw with
            | idle _ _ hs | forced _ hs =>
                obtain ⟨-, rfl⟩ := hs
                rfl

theorem tidy (h : Watchful past c)
    (hw : .countdown (.waiting remaining due attention) ∈ c.tasks) (hd : c.clock < due) :
    c.Tidy := by
  refine ⟨h.counts.live, fun t hm => ?_⟩
  cases t with
  | session _ _ | signal _ => rfl
  | countdown _ =>
      rw [h.countdown_eq hw hm rfl]
      simp only [Task.isPunctual, decide_eq_true_eq]
      omega

end Watchful

theorem clock_run {more : List Action} (hm : ∀ a ∈ more, a.isInternal = true) :
    (c.run more).clock = c.clock := by
  induction more generalizing c with
  | nil => rfl
  | cons a more ih =>
      obtain ⟨ha, hm⟩ := List.forall_mem_cons.mp hm
      exact (ih hm).trans (clock_step ha)

theorem Deserted.run (h : c.Deserted) {more : List Action}
    (hm : ∀ a ∈ more, a.isInternal = true) : (c.run more).Deserted := by
  induction more generalizing c with
  | nil => exact h
  | cons a more ih =>
      obtain ⟨ha, hm⟩ := List.forall_mem_cons.mp hm
      exact ih (h.step ha) hm

theorem Unelapsed.run (h : c.Unelapsed) {more : List Action}
    (hm : ∀ a ∈ more, a.isInternal = true) : (c.run more).Unelapsed := by
  induction more generalizing c with
  | nil => exact h
  | cons a more ih =>
      obtain ⟨ha, hm⟩ := List.forall_mem_cons.mp hm
      exact ih (h.step ha) hm

/-- A process that its tasks end before more time passes, in whatever order they go on; and if no
second has passed since the countdown looked, not for the grace period. -/
structure EndsAtOnce (c : Coordinator) (due : Nat) : Prop where
  anyWay : ∀ more, (∀ a ∈ more, a.isInternal = true) → (c.run more).ready? = none →
    (c.run more).board.exited = true ∧ (c.run more).clock = c.clock ∧
      (c.clock < due → (c.run more).board.exitReason ≠ some .graceElapsed)
  rest : c.clock < due → c.rest.board.exited = true ∧ c.rest.clock = c.clock ∧
    c.rest.board.exitReason ≠ some .graceElapsed

theorem Watchful.endsAtOnce {remaining due : Nat} {attention : Attention} (h : Watchful past c)
    (hw : .countdown (.waiting remaining due attention) ∈ c.tasks) (hd : c.Deserted) :
    c.EndsAtOnce due := by
  have hany : ∀ more, (∀ a ∈ more, a.isInternal = true) → (c.run more).ready? = none →
      (c.run more).board.exited = true ∧ (c.run more).clock = c.clock ∧
        (c.clock < due → (c.run more).board.exitReason ≠ some .graceElapsed) := by
    intro more hm hr
    obtain ⟨past', h'⟩ := h.internal_run hm
    have hd' := hd.run hm
    exact ⟨h'.attentive.exited_at_rest hr hd'.countdown hd'.live, clock_run hm,
      fun hlt => ((h.unelapsed hw hlt).run hm).reason⟩
  refine ⟨hany, fun hlt => ?_⟩
  obtain ⟨more, hm, heq⟩ := c.restWithin_run (8 * (c.tasks.length + 1))
  have hrest : c.rest = c.run more := heq
  have hready : c.rest.ready? = none := (h.tidy hw hlt).rest.1.ready
  rw [hrest] at hready ⊢
  obtain ⟨hx, hc, hg⟩ := hany more hm hready
  exact ⟨hx, hc, hg hlt⟩

/-- While the countdown waits and no session is live, word of a departure is kept or was given to
it, or a session that was counted no more is about to give it. So the departure of the last session
ends the drain at once. -/
theorem departure_heard (seconds : Nat) (as : List Action)
    (h : (start seconds).admitsAll as = true) {remaining due : Nat} {attention : Attention}
    (hw : .countdown (.waiting remaining due attention) ∈ ((start seconds).run as).tasks)
    (hl : ((start seconds).run as).board.live = 0)
    (he : ((start seconds).run as).board.exited = false) :
    (attention = .told ∨ ((start seconds).run as).board.departure = true ∨
      ∃ id, .session id .uncounted ∈ ((start seconds).run as).tasks) ∧
    ((∀ id, .session id .entered ∉ ((start seconds).run as).tasks) →
      ((start seconds).run as).EndsAtOnce due) := by
  have hwatch := Watchful.run seconds h
  generalize (start seconds).run as = c at *
  refine ⟨?_, fun hn => hwatch.endsAtOnce hw ⟨⟨_, hw, rfl⟩, hl, hn⟩⟩
  rcases hwatch.attentive.heard _ hw rfl hl he with hd | ⟨t, hm, ht⟩
  · exact .inr (.inl hd)
  · unfold Task.hasWord at ht
    split at ht
    · rename_i id
      exact .inr (.inr ⟨id, hm⟩)
    · have heq := hwatch.countdown_eq hw hm rfl
      injection heq with heq
      injection heq with _ _ heq
      exact .inl heq.symm
    · cases ht

theorem departure_heard_of_last :
    ((start 5).admitsAll lastDeparture = true ∧
      .countdown (.waiting 5 1000 .asked) ∈ ((start 5).run lastDeparture).tasks ∧
      ((start 5).run lastDeparture).board.live = 0 ∧
      ((start 5).run lastDeparture).board.exited = false) ∧
    ((start 5).run lastDeparture).EndsAtOnce 1000 := by
  have hnone : ∀ id, .session id .entered ∉ ((start 5).run lastDeparture).tasks := by
    have htasks : ((start 5).run lastDeparture).tasks =
        [.session 0 .uncounted, .signal (.handled .draining),
          .countdown (.waiting 5 1000 .asked)] := by decide
    simp [htasks]
  exact ⟨⟨by decide, by decide, by decide, by decide⟩,
    (@departure_heard 5 lastDeparture (by decide) 5 1000 .asked (by decide) (by decide)
      (by decide)).2 hnone⟩

end Coordinator

end TerminalGateway.Drain
