import TerminalGateway.Proofs.Drain.Countdown

/-!
What a subscriber takes of the seconds left, and what had been told by then. One that fell behind
by more than the buffer holds gets word of it and goes on with the oldest value that is left, so the
next value it takes is never the latest but that of fifteen seconds before.
-/

namespace TerminalGateway.Drain

/-! ### One value after another -/

namespace Broadcast

variable {α : Type} {b : Broadcast α} {s s' : Subscription} {r : Reception α}

/-- What a subscriber may take, and where it is then. -/
inductive Takes (b : Broadcast α) (s : Subscription) : Reception α → Subscription → Prop
  | missed (h : s.position + capacity < b.sent.length) :
      Takes b s (.lagged (b.oldest - s.position)) ⟨b.oldest⟩
  | got {x : α} (h : b.sent.length ≤ s.position + capacity) (hx : b.sent[s.position]? = some x) :
      Takes b s (.value x) ⟨s.position + 1⟩

theorem takes (h : b.take? s = some (r, s')) : b.Takes s r s' := by
  unfold take? at h
  split at h
  · rename_i hlt
    obtain ⟨rfl, rfl⟩ := Prod.mk.inj (Option.some.inj h)
    exact .missed (by unfold oldest at hlt; omega)
  · rename_i hge
    obtain ⟨x, hx, heq⟩ := Option.map_eq_some_iff.mp h
    obtain ⟨rfl, rfl⟩ := Prod.mk.inj heq
    exact .got (by unfold oldest at hge; omega) hx

theorem take?_of_missed (h : s.position + capacity < b.sent.length) :
    b.take? s = some (.lagged (b.oldest - s.position), ⟨b.oldest⟩) := by
  have hlt : s.position < b.oldest := by
    unfold oldest
    omega
  rw [take?, if_pos hlt]

theorem take?_of_within (h : b.sent.length ≤ s.position + capacity) :
    b.take? s = (b.sent[s.position]?).map fun x => (.value x, ⟨s.position + 1⟩) := by
  have hge : ¬ s.position < b.oldest := by
    unfold oldest
    omega
  rw [take?, if_neg hge]

end Broadcast

/-! ### What was taken, and what had been told -/

/-- Something that a subscriber took, and what had been told by then. -/
structure Hearing where
  reception : Reception Nat
  told : List Nat
  deriving DecidableEq, Repr

/-- What a subscriber takes in turn while more and more is told, and where it is then. -/
inductive Follows : List Hearing → Subscription → Prop
  | begun (s : Subscription) : Follows [] s
  | took {hs : List Hearing} {s s' : Subscription} {told : List Nat} {r : Reception Nat}
      (h : Follows hs s) (hg : ∀ k ∈ hs, k.told <+: told)
      (ht : Broadcast.take? ⟨told⟩ s = some (r, s')) : Follows (hs ++ [⟨r, told⟩]) s'

/-- After it fell behind, a subscriber that takes a value takes the latest one. -/
def SkipsToLatest (hs : List Hearing) : Prop :=
  ∀ missed told x told', [⟨.lagged missed, told⟩, ⟨.value x, told'⟩] <:+: hs →
    told'.getLast? = some x

/-- After it fell behind, a subscriber that takes a value takes that of fifteen seconds before the
latest one, and no other value was told in between. -/
def FallsBack (hs : List Hearing) : Prop :=
  ∀ missed told x told', [⟨.lagged missed, told⟩, ⟨.value x, told'⟩] <:+: hs →
    told' = told ∧ ∃ latest, told.getLast? = some latest ∧ x = latest + 15

namespace Follows

variable {hs : List Hearing} {s : Subscription} {r : Reception Nat} {told told' : List Nat}
  {missed x : Nat}

theorem last {k : Hearing} (h : Follows (hs ++ [k]) s) :
    ∃ s₀, Follows hs s₀ ∧ Broadcast.take? ⟨k.told⟩ s₀ = some (k.reception, s) := by
  generalize hall : hs ++ [k] = all at h
  cases h with
  | begun => simp at hall
  | took h _ ht =>
      obtain ⟨rfl, hk⟩ := List.append_inj' hall rfl
      obtain rfl := List.singleton_inj.mp hk
      exact ⟨_, h, ht⟩

/-- Word of missed values comes only where more was told than the buffer holds. -/
theorem full (h : Follows hs s) (hm : ⟨.lagged missed, told⟩ ∈ hs) :
    Broadcast.capacity < told.length := by
  induction h with
  | begun => cases hm
  | took _ _ ht ih =>
      rcases List.mem_append.mp hm with hm | hm
      · exact ih hm
      · obtain ⟨rfl, rfl⟩ := Hearing.mk.inj (List.mem_singleton.mp hm)
        cases Broadcast.takes ht with
        | missed hlt => exact Nat.lt_of_le_of_lt (Nat.le_add_left _ _) hlt

/-- The value after the missed ones is the oldest that is left. -/
theorem after_missed (h : Follows hs s)
    (hp : [⟨.lagged missed, told⟩, ⟨.value x, told'⟩] <:+: hs) :
    told' = told ∧ told[told.length - Broadcast.capacity]? = some x := by
  induction h with
  | begun => simp at hp
  | @took hs s s' told₁ r h hg ht ih =>
      rcases List.infix_concat_iff.mp hp with hp | hp
      · obtain ⟨before, hb⟩ := hp
        have hsplit : (before ++ [⟨.lagged missed, told⟩]) ++ [⟨.value x, told'⟩] =
            hs ++ [⟨r, told₁⟩] := by simpa using hb
        obtain ⟨rfl, hk⟩ := List.append_inj' hsplit rfl
        obtain ⟨rfl, rfl⟩ := Hearing.mk.inj (List.singleton_inj.mp hk)
        obtain ⟨s₀, -, ht₀⟩ := h.last
        have hgrows : told <+: told' := hg ⟨.lagged missed, told⟩ (by simp)
        have hlag := Broadcast.takes ht₀
        generalize hr : (⟨.lagged missed, told⟩ : Hearing).reception = r₀ at hlag
        cases hlag with
        | got _ _ => cases hr
        | missed hlt =>
            cases Broadcast.takes ht with
            | got hle hx =>
                have hlen : told'.length ≤ told.length := by
                  simp only [Broadcast.oldest] at hle hlt
                  omega
                obtain rfl := hgrows.eq_of_length_le hlen
                exact ⟨rfl, hx⟩
      · exact ih hp

end Follows

/-! ### The seconds of one countdown -/

/-- A countdown from `seconds`, as far as it came. -/
def CountsFrom (seconds : Nat) (told : List Nat) : Prop :=
  ∃ n ≤ seconds, told = (List.range n).map (seconds - ·)

namespace CountsFrom

variable {seconds x : Nat} {told told' : List Nat}

theorem nil (seconds : Nat) : CountsFrom seconds [] := ⟨0, Nat.zero_le _, rfl⟩

theorem initial (h : CountsFrom seconds told) (hp : told' <+: told) :
    CountsFrom seconds told' := by
  obtain ⟨n, hn, rfl⟩ := h
  have hle : told'.length ≤ n := by simpa using hp.length_le
  refine ⟨told'.length, Nat.le_trans hle hn, ?_⟩
  rw [List.prefix_iff_eq_take.mp hp, ← List.map_take, List.take_range]
  simp [Nat.min_eq_left hle]

theorem length_le (h : CountsFrom seconds told) : told.length ≤ seconds := by
  obtain ⟨n, hn, rfl⟩ := h
  simpa using hn

/-- The oldest value of a full buffer was told fifteen seconds before the latest one. -/
theorem oldest (h : CountsFrom seconds told)
    (hx : told[told.length - Broadcast.capacity]? = some x)
    (hl : Broadcast.capacity < told.length) :
    ∃ latest, told.getLast? = some latest ∧ x = latest + 15 := by
  obtain ⟨n, hn, rfl⟩ := h
  simp only [List.length_map, List.length_range, Broadcast.capacity] at hx hl
  refine ⟨seconds - (n - 1), ?_, ?_⟩
  · rw [List.getLast?_map, List.getLast?_range, if_neg (by omega)]
    rfl
  · rw [List.getElem?_map, List.getElem?_range (by omega)] at hx
    have hx : seconds - (n - 16) = x := Option.some.inj hx
    omega

end CountsFrom

theorem Follows.fallsBack {seconds : Nat} {hs : List Hearing} {s : Subscription}
    (h : Follows hs s) (hc : ∀ k ∈ hs, CountsFrom seconds k.told) : FallsBack hs := by
  intro missed told x told' hp
  have hm : ⟨.lagged missed, told⟩ ∈ hs := hp.subset (by simp)
  obtain ⟨hsame, hx⟩ := h.after_missed hp
  exact ⟨hsame, (hc _ hm).oldest hx (h.full hm)⟩

/-- Nobody falls behind a countdown that the buffer can hold. -/
theorem Follows.skipsToLatest {seconds : Nat} {hs : List Hearing} {s : Subscription}
    (h : Follows hs s) (hc : ∀ k ∈ hs, CountsFrom seconds k.told)
    (hl : seconds ≤ Broadcast.capacity) : SkipsToLatest hs := by
  intro missed told x told' hp
  have hm : ⟨.lagged missed, told⟩ ∈ hs := hp.subset (by simp)
  have hfull := h.full hm
  have hfew := (hc _ hm).length_le
  simp only at hfew
  omega

namespace Coordinator

variable {c : Coordinator} {i : Nat}

/-- Nothing that was told is taken back. -/
theorem sent_grows (c : Coordinator) (as : List Action) :
    c.board.channel.sent <+: (c.run as).board.channel.sent := by
  induction as generalizing c with
  | nil => exact List.prefix_refl _
  | cons a as ih =>
      have hstep : c.board.channel.sent <+: (c.step a).board.channel.sent :=
        c.sent_step a ▸ List.prefix_append ..
      exact hstep.trans (ih (c.step a))

theorem tells_of_none (h : ∀ t ∈ c.tasks, t.isCountdown = false) (a : Action) :
    c.tells a = [] := by
  obtain ⟨j, hj⟩ : ∃ j, a.isOf j = false := by
    cases a with
    | proceed k | notice k | tick k => exact ⟨k + 1, by simp [Action.isOf]⟩
    | _ => exact ⟨0, rfl⟩
  refine tells_other (i := j) (fun k t ht hc => ?_) hj
  rw [h t (List.mem_of_getElem? ht)] at hc
  cases hc

/-- Only one who begins a countdown brings one in. -/
theorem none_step (h : ∀ t ∈ c.tasks, t.isCountdown = false) {a : Action} (ha : a ≠ .countdown) :
    ∀ t ∈ (c.step a).tasks, t.isCountdown = false := by
  intro t' hm
  obtain ⟨j, ht'⟩ := List.mem_iff_getElem?.mp hm
  have hturn := step_turns ht'
  cases hold : c.tasks[j]? with
  | some t =>
      rw [hold] at hturn
      rw [hturn.isCountdown, h t (List.mem_of_getElem? hold)]
  | none =>
      rw [hold] at hturn
      cases hturn with
      | came _ _ | signalled _ _ | signalledAgain _ _ => rfl
      | began hb => exact absurd hb ha

/-- While there is one countdown at most, what is told is a countdown of the grace period. -/
theorem countsFrom_run (hn : ∀ t ∈ c.tasks, t.isCountdown = false)
    (hs : c.board.channel.sent = []) (as : List Action) (h : (c.run as).Alone i) :
    CountsFrom c.graceSeconds (c.run as).board.channel.sent := by
  induction as generalizing c with
  | nil => exact hs ▸ .nil _
  | cons a as ih =>
      by_cases ha : a = .countdown
      · subst ha
        have hacc := accounted_run c as
        have hcount := hacc.countsDown (sent_run (c.step .countdown) c.tasks.length as)
        obtain ⟨-, stage, ht, -⟩ := hacc
        obtain rfl : c.tasks.length = i := h _ _ ht rfl
        have hbegan : (c.step .countdown).board = c.board := rfl
        have hsent := hcount.alone h
        rw [hbegan, hs, List.nil_append, hcount.values] at hsent
        exact ⟨_, hcount.few, hsent⟩
      · have hnext := ih (none_step hn ha)
          (by rw [sent_step, hs, tells_of_none hn, List.nil_append]) h
        rwa [graceSeconds_step] at hnext

end Coordinator

end TerminalGateway.Drain
