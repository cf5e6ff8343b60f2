import TerminalGateway.Proofs.Drain.Reception
import TerminalGateway.Proofs.Process.Places
import TerminalGateway.Proofs.Session.Shown

/-!
What the sessions of a process take of the seconds left. However often a session does not listen,
and for how long, its client is shown the values that it takes and no others; one that fell behind
and listens again shows the last values of the buffer one after another, the oldest first.
-/

namespace TerminalGateway.Process

open Drain

variable {ρ : Type}

/-- The seconds left that were told so far. -/
def told (v : Process ρ) : List Nat := v.coordinator.board.channel.sent

/-- What a session that listens takes next of what was told. -/
def taken? (v : Process ρ) (id : SessionId) : Option (Reception Nat × Subscription) :=
  (v.seat? id).bind fun k =>
    if k.session.isListening then v.coordinator.board.channel.take? k.subscription else none

variable [Remote ρ]

/-- What a session takes when something happens. -/
def hearing? (v : Process ρ) (id : SessionId) : Event ρ → Option Hearing
  | .hear k => if k = id then (v.taken? id).map fun taken => ⟨taken.1, v.told⟩ else none
  | _ => none

/-- What a session takes in turn while things happen. -/
def hearings (v : Process ρ) (id : SessionId) : List (Event ρ) → List Hearing
  | [] => []
  | e :: es => (v.hearing? id e).toList ++ (v.step e).hearings id es

variable {v : Process ρ} {id : SessionId} {k k' : Seat ρ} {r : Reception Nat} {s : Subscription}
  {hs : List Hearing}

theorem hearings_append (v : Process ρ) (id : SessionId) (es fs : List (Event ρ)) :
    v.hearings id (es ++ fs) = v.hearings id es ++ (v.run es).hearings id fs := by
  induction es generalizing v with
  | nil => rfl
  | cons e es ih =>
      rw [List.cons_append, hearings, ih, hearings, List.append_assoc]
      rfl

theorem hearings_of_silent {es : List (Event ρ)} (h : ∀ e ∈ es, ∀ k, e ≠ .hear k) :
    v.hearings id es = [] := by
  induction es generalizing v with
  | nil => rfl
  | cons e es ih =>
      obtain ⟨he, hes⟩ := List.forall_mem_cons.mp h
      rw [hearings, ih hes, List.append_nil]
      cases e with
      | hear k => exact absurd rfl (he k)
      | _ => rfl

/-! ### Taking a value -/

omit [Remote ρ] in
theorem taken?_eq_some (h : v.taken? id = some (r, s)) :
    ∃ k, v.seat? id = some k ∧ k.session.isListening = true ∧
      v.coordinator.board.channel.take? k.subscription = some (r, s) := by
  obtain ⟨k, hk, ht⟩ := Option.bind_eq_some_iff.mp h
  cases hl : k.session.isListening with
  | false => simp [hl] at ht
  | true =>
      rw [hl, if_pos rfl] at ht
      exact ⟨k, hk, hl, ht⟩

omit [Remote ρ] in
theorem taken?_of_listening (hk : v.seat? id = some k) (hl : k.session.isListening = true) :
    v.taken? id = v.coordinator.board.channel.take? k.subscription := by
  simp [taken?, hk, hl]

theorem hear_of_none (h : v.taken? id = none) : v.hear id = v := by
  unfold Process.hear
  cases hk : v.seat? id with
  | none => rfl
  | some k =>
      cases hl : k.session.isListening with
      | false => simp [hl]
      | true =>
          rw [taken?_of_listening hk hl] at h
          simp [hl, h]

theorem hear_of_some (hk : v.seat? id = some k) (hl : k.session.isListening = true)
    (ht : v.coordinator.board.channel.take? k.subscription = some (r, s)) :
    v.hear id = v.move { k with subscription := s } (k.session.step (.countdown r)) := by
  simp [Process.hear, hk, hl, ht]

/-- A session that takes a value tells nobody but its client. -/
theorem hear_quiet (h : v.taken? id = some (r, s)) :
    (v.hear id).coordinator = v.coordinator := by
  obtain ⟨k, hk, hl, ht⟩ := taken?_eq_some h
  rw [hear_of_some hk hl ht]
  simp only [Process.move, Service.news, Session.step_countdown hl, List.drop_left]
  cases r <;> rfl

theorem coordinator_hears (v : Process ρ) (id : SessionId) (n : Nat) :
    (v.run (List.replicate n (.hear id))).coordinator = v.coordinator := by
  induction n generalizing v with
  | zero => rfl
  | succ n ih =>
      rw [List.replicate_succ, run, List.foldl_cons]
      refine (ih _).trans ?_
      cases ht : v.taken? id with
      | none => rw [step, hear_of_none ht]
      | some taken => exact hear_quiet ht

omit [Remote ρ] in
theorem seat?_setSeat (hk : v.seat? id = some k) (hid : k'.id = id) :
    (v.setSeat k').seats.find? (·.id = id) = some k' := by
  unfold Service.seat? at hk
  unfold Service.setSeat
  generalize v.seats = seats at hk
  induction seats with
  | nil => cases hk
  | cons j js ih =>
      rw [List.map_cons, List.find?_cons]
      rw [List.find?_cons] at hk
      by_cases hj : j.id = id
      · simp [hj, hid]
      · simp only [hj, decide_false] at hk
        simp only [hid, hj, if_false, decide_false]
        rw [← hid]
        simpa [hid] using ih hk

theorem seat?_hear (hk : v.seat? id = some k) (hl : k.session.isListening = true)
    (ht : v.coordinator.board.channel.take? k.subscription = some (r, s)) :
    (v.hear id).seat? id = some ⟨k.id, k.session.step (.countdown r), s⟩ := by
  rw [hear_of_some hk hl ht]
  exact seat?_setSeat hk (seat?_eq hk).2

/-! ### What an event makes of a seat -/

/-- Where a session comes from, for one who asks what it takes and what its client is shown. -/
inductive Comes (v : Process ρ) (e : Event ρ) (k' : Seat ρ) : Prop
  | stayed {k : Seat ρ} (hk : k ∈ v.seats) (hid : k'.id = k.id)
      (hs : k'.subscription = k.subscription)
      (hc : Record.countdown k'.session.record = Record.countdown k.session.record)
      (hn : v.hearing? k.id e = none)
  | heard {k : Seat ρ} {r : Reception Nat} (hk : k ∈ v.seats) (hid : k'.id = k.id)
      (ht : v.coordinator.board.channel.take? k.subscription = some (r, k'.subscription))
      (hc : Record.countdown k'.session.record =
        Record.countdown k.session.record ++ r.value?.toList)
      (hn : v.hearing? k.id e = some ⟨r, v.told⟩)
  | sat (hp : k'.id ∈ v.places) (hc : Record.countdown k'.session.record = [])
      (hn : v.hearing? k'.id e = none)

omit [Remote ρ] in
theorem Comes.same {e : Event ρ} (hk : k ∈ v.seats) (hn : v.hearing? k.id e = none) :
    v.Comes e k :=
  .stayed hk rfl rfl rfl hn

omit [Remote ρ] in
theorem mem_move {j : Seat ρ} {session : Session ρ} (h : j ∈ (v.move k session).seats) :
    j ∈ v.seats ∧ j.id ≠ k.id ∨ j = { k with session } := by
  obtain ⟨j₀, hj₀, rfl⟩ := List.mem_map.mp h
  by_cases hid : j₀.id = k.id
  · exact .inr (if_pos hid)
  · rw [if_neg hid]
    exact .inl ⟨hj₀, hid⟩

theorem comes_hear (hk' : k' ∈ (v.hear id).seats) : v.Comes (.hear id) k' := by
  cases ht : v.taken? id with
  | none =>
      rw [hear_of_none ht] at hk'
      refine .same hk' ?_
      by_cases hid : id = k'.id
      · simp [hearing?, ← hid, ht]
      · exact if_neg hid
  | some taken =>
      obtain ⟨r, s⟩ := taken
      obtain ⟨k, hk, hl, htake⟩ := taken?_eq_some ht
      obtain ⟨hmem, rfl⟩ := seat?_eq hk
      rw [hear_of_some hk hl htake] at hk'
      rcases mem_move hk' with ⟨hmem', hid⟩ | rfl
      · exact .same hmem' (if_neg (Ne.symm hid))
      · exact .heard hmem rfl htake (Session.countdown_told hl r) (by simp [hearing?, ht])

theorem comes (h : v.Seated) {e : Event ρ} (hk' : k' ∈ (v.step e).seats) : v.Comes e k' := by
  cases e with
  | change a =>
      have hsame : k' ∈ v.seats → v.Comes (.change a) k' := fun hk => .same hk rfl
      cases a with
      | leave id =>
          simp only [step, Process.drop] at hk'
          split at hk' <;> exact hsame hk'
      | elapse =>
          obtain ⟨k, hk, rfl⟩ := List.mem_map.mp hk'
          exact .stayed hk rfl rfl (by rw [Session.step_elapse]) rfl
      | enter _ | retarget _ _ | signal | countdown | proceed _ | notice _ | tick _ =>
          exact hsame hk'
  | sit id a =>
      simp only [step, Process.sit] at hk'
      split at hk'
      · rename_i hid
        rcases List.mem_append.mp hk' with hk | hk
        · exact .same hk rfl
        · obtain rfl := List.mem_singleton.mp hk
          exact .sat hid rfl rfl
      · exact .same hk' rfl
  | session id σ =>
      have hupdate : (∀ r, σ ≠ .countdown r) → k' ∈ (v.update id (·.step σ)).seats →
          v.Comes (.session id σ) k' := by
        intro hσ hk'
        unfold Process.update at hk'
        split at hk'
        · rename_i k hk
          have hmem := (seat?_eq hk).1
          rcases mem_move hk' with ⟨hmem', -⟩ | rfl
          · exact .same hmem' rfl
          · exact .stayed hmem rfl rfl ((h.begun k hmem).coherent.countdown_step hσ) rfl
        · exact .same hk' rfl
      cases σ with
      | countdown _ | elapse => exact .same hk' rfl
      | _ => exact hupdate (by simp) hk'
  | hear id => exact comes_hear hk'
  | quit id =>
      simp only [step, Process.quit] at hk'
      split at hk'
      · exact .same hk' rfl
      · exact .same (List.mem_of_mem_filter hk') rfl

/-- A place is there once only: nobody who has had it gets it again. -/
theorem places_step (h : v.Seated) (e : Event ρ) (hid : id ∈ (v.step e).places) :
    id ∈ v.places ∨ id ∉ v.coordinator.arrivals := by
  cases e with
  | change a =>
      have hchange : id ∈ (v.change a).places → id ∈ v.places ∨ id ∉ v.coordinator.arrivals := by
        intro hid
        rcases List.mem_append.mp hid with hid | hid
        · exact .inl hid
        · obtain ⟨i, -, ht⟩ := granted?_eq_some (Option.mem_toList.mp hid)
          exact .inr (h.counts.not_arrived (List.mem_of_getElem? ht))
      cases a with
      | leave _ =>
          simp only [step, Process.drop] at hid
          split at hid
          · exact .inl (List.mem_of_mem_erase hid)
          · exact .inl hid
      | elapse => exact .inl hid
      | enter _ | retarget _ _ | signal | countdown | proceed _ | notice _ | tick _ =>
          exact hchange hid
  | sit _ _ =>
      simp only [step, Process.sit] at hid
      split at hid
      · exact .inl (List.mem_of_mem_erase hid)
      · exact .inl hid
  | session _ σ =>
      have hupdate : ∀ j f, (v.update j f).places = v.places := by
        intro j f
        unfold Process.update
        split <;> rfl
      cases σ with
      | countdown _ | elapse => exact .inl hid
      | _ => exact .inl (hupdate _ _ ▸ hid)
  | hear _ =>
      simp only [step, Process.hear] at hid
      repeat' split at hid
      all_goals exact .inl hid
  | quit _ =>
      simp only [step, Process.quit] at hid
      split at hid <;> exact .inl hid

/-! ### What a session has taken -/

/-- What is known of a session by what it took. -/
structure Heard (v : Process ρ) (id : SessionId) (hs : List Hearing) : Prop where
  arrived : hs ≠ [] → id ∈ v.coordinator.arrivals ∧ id ∉ v.places
  told : ∀ k ∈ hs, k.told <+: v.told
  follows : ∃ s, Follows hs s
  seat : ∀ k ∈ v.seats, k.id = id → Follows hs k.subscription ∧
    Record.countdown k.session.record = hs.filterMap (·.reception.value?)

omit [Remote ρ] in
theorem heard_start (seconds : Nat) (id : SessionId) : (start seconds : Process ρ).Heard id [] :=
  ⟨fun h => absurd rfl h, List.forall_mem_nil _, ⟨⟨0⟩, .begun _⟩, List.forall_mem_nil _⟩

/-- Nothing that was told is taken back. -/
theorem told_step (v : Process ρ) (e : Event ρ) : v.told <+: (v.step e).told := by
  obtain ⟨as, has⟩ := v.step_run e
  rw [told, told, has]
  exact v.coordinator.sent_grows as

theorem arrivals_step (e : Event ρ) (h : id ∈ v.coordinator.arrivals) :
    id ∈ (v.step e).coordinator.arrivals := by
  obtain ⟨as, has⟩ := v.step_run e
  exact has ▸ Coordinator.arrivals_run h as

omit [Remote ρ] in
theorem hearing?_eq_some {e : Event ρ} {x : Hearing} (h : v.hearing? id e = some x) :
    e = .hear id ∧ ∃ k, v.seat? id = some k ∧ k.session.isListening = true ∧ ∃ s,
      v.coordinator.board.channel.take? k.subscription = some (x.reception, s) ∧
        x.told = v.told := by
  cases e with
  | hear j =>
      simp only [hearing?, Option.ite_none_right_eq_some, Option.map_eq_some_iff] at h
      obtain ⟨rfl, ⟨r, s⟩, ht, rfl⟩ := h
      obtain ⟨k, hk, hl, htake⟩ := taken?_eq_some ht
      exact ⟨rfl, k, hk, hl, s, htake, rfl⟩
  | _ => cases h

namespace Heard

theorem step (h : v.Heard id hs) (hv : v.Seated) (e : Event ρ) :
    (v.step e).Heard id (hs ++ (v.hearing? id e).toList) := by
  have hgrows := v.told_step e
  have hold : ∀ k ∈ hs, k.told <+: (v.step e).told := fun k hk => (h.told k hk).trans hgrows
  have hstays : hs ≠ [] →
      id ∈ (v.step e).coordinator.arrivals ∧ id ∉ (v.step e).places := by
    intro hne
    obtain ⟨ha, hp⟩ := h.arrived hne
    refine ⟨arrivals_step e ha, fun hid => ?_⟩
    exact (places_step hv e hid).elim hp fun hn => hn ha
  cases hx : v.hearing? id e with
  | none =>
      rw [Option.toList_none, List.append_nil]
      refine ⟨hstays, hold, h.follows, fun k' hk' hid => ?_⟩
      cases comes hv hk' with
      | @stayed k hk hkid hsub hc _ =>
          rw [hsub, hc]
          exact h.seat k hk (hkid ▸ hid)
      | @heard k r _ hkid _ _ hn =>
          rw [← hkid, hid, hx] at hn
          cases hn
      | sat hp hc _ =>
          -- a session that comes now has taken nothing before
          have hnil : hs = [] := by
            by_contra hne
            exact (h.arrived hne).2 (hid ▸ hp)
          subst hnil
          exact ⟨.begun _, hc⟩
  | some x =>
      obtain ⟨rfl, k, hk, hl, s, ht, htold⟩ := hearing?_eq_some hx
      obtain ⟨hmem, rfl⟩ := seat?_eq hk
      obtain ⟨r, told⟩ := x
      obtain rfl : told = v.told := htold
      rw [Option.toList_some]
      have hnext := (h.seat k hmem rfl).1.took h.told ht
      have hid : k.id ∈ v.places ++ v.seats.map (·.id) :=
        List.mem_append_right _ (List.mem_map_of_mem hmem)
      have hnot : k.id ∉ v.places := fun hp =>
        (List.nodup_append.mp hv.nodup).2.2 _ hp _ (List.mem_map_of_mem hmem) rfl
      refine ⟨fun _ => ⟨arrivals_step _ (hv.arrived _ hid), fun hp => ?_⟩, fun j hj => ?_,
        ⟨s, hnext⟩, fun k' hk' hkid => ?_⟩
      · exact (places_step hv _ hp).elim hnot fun hn => hn (hv.arrived _ hid)
      · rcases List.mem_append.mp hj with hj | hj
        · exact hold j hj
        · obtain rfl := List.mem_singleton.mp hj
          exact hgrows
      · cases comes hv hk' with
        | stayed _ hid' _ _ hn =>
            rw [← hid', hkid, hx] at hn
            cases hn
        | @heard k₁ r' hk₁ hid' ht' hc hn =>
            rw [← hid', hkid, hx] at hn
            obtain ⟨rfl, -⟩ := Hearing.mk.inj (Option.some.inj hn)
            obtain ⟨hfollows, hshown⟩ := h.seat k₁ hk₁ (hid'.symm.trans hkid)
            refine ⟨hfollows.took h.told ht', ?_⟩
            rw [hc, hshown, List.filterMap_append]
            cases r <;> rfl
        | sat hp _ _ => exact absurd (hkid ▸ hp) hnot

theorem run (h : v.Heard id hs) (hv : v.Seated) (es : List (Event ρ)) :
    (v.run es).Heard id (hs ++ v.hearings id es) := by
  induction es generalizing v hs with
  | nil =>
      rw [hearings, List.append_nil]
      exact h
  | cons e es ih =>
      rw [hearings, ← List.append_assoc]
      exact ih (h.step hv e) (hv.step e)

end Heard

/-! ### Many values at once -/

/-- A session that is not too far behind and goes on listening takes what is left in turn. -/
theorem hearings_within (hk : v.seat? id = some k) (hl : k.session.isListening = true)
    (hw : v.told.length ≤ k.subscription.position + Broadcast.capacity) (n : Nat) :
    v.hearings id (List.replicate n (.hear id)) =
      ((v.told.drop k.subscription.position).take n).map fun x => ⟨.value x, v.told⟩ := by
  induction n generalizing v k with
  | zero => rfl
  | succ n ih =>
      have htaken := taken?_of_listening hk hl
      rw [Broadcast.take?_of_within hw] at htaken
      rw [List.replicate_succ, hearings, step]
      cases hx : v.told[k.subscription.position]? with
      | none =>
          have hnone : v.taken? id = none := htaken.trans (congrArg (Option.map _) hx)
          have hend := List.drop_eq_nil_of_le (List.getElem?_eq_none_iff.mp hx)
          rw [hear_of_none hnone, ih hk hl hw, hend]
          simp [hearing?, hnone]
      | some x =>
          obtain ⟨hlt, heq⟩ := List.getElem?_eq_some_iff.mp hx
          have hsome := htaken.trans (congrArg (Option.map _) hx)
          have htold : (v.hear id).told = v.told := by rw [told, hear_quiet hsome, told]
          have hseat := seat?_hear hk hl (taken?_of_listening hk hl ▸ hsome)
          have hlisten : (k.session.step (.countdown (.value x))).isListening = true := by
            rw [Session.step_countdown hl]
            exact hl
          have hrest := ih hseat hlisten (by rw [htold]; simp only; omega)
          rw [hrest, htold, List.drop_eq_getElem_cons hlt, heq]
          simp [hearing?, hsome]

/-- A session that fell behind and goes on listening takes the last values in turn. -/
theorem hearings_behind (hk : v.seat? id = some k) (hl : k.session.isListening = true)
    (hb : k.subscription.position + Broadcast.capacity < v.told.length) (n : Nat) :
    v.hearings id (List.replicate (n + 1) (.hear id)) =
      ⟨.lagged (v.told.length - Broadcast.capacity - k.subscription.position), v.told⟩ ::
        ((v.told.drop (v.told.length - Broadcast.capacity)).take n).map
          fun x => ⟨.value x, v.told⟩ := by
  have htake := Broadcast.take?_of_missed hb
  have hsome := (taken?_of_listening hk hl).trans htake
  have htold : (v.hear id).told = v.told := by rw [told, hear_quiet hsome, told]
  have hseat := seat?_hear hk hl htake
  have hlisten : (k.session.step (.countdown (.lagged
      (v.coordinator.board.channel.oldest - k.subscription.position)))).isListening = true := by
    rw [Session.step_countdown hl]
    exact hl
  have hrest := hearings_within hseat hlisten
    (by rw [htold]; simp only [Broadcast.oldest, told]; omega) n
  rw [List.replicate_succ, hearings, step, hrest, htold]
  simp only [hearing?, hsome, if_true]
  rfl

end TerminalGateway.Process
