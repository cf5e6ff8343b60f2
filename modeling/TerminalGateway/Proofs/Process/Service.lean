import TerminalGateway.Proofs.Drain.Rest
import TerminalGateway.Proofs.Process.Places

/-!
A service is a process that does one thing after another: between two of them every task goes on
until it has to wait. Each of its runs is one of the process, so what holds of the process at the
pace of single changes holds of the service.
-/

namespace TerminalGateway.Process

open Drain

variable {ρ : Type} [Remote ρ] {w : Process ρ} {c : Coordinator}

/-- A process whose tasks wait and whose sessions have taken their places. -/
structure AtRest (w : Process ρ) : Prop where
  seated : w.Seated
  calm : w.coordinator.Calm
  places : w.places = []

theorem run_append (w : Process ρ) (es fs : List (Event ρ)) :
    w.run (es ++ fs) = (w.run es).run fs :=
  List.foldl_append

/-! ### Coming to rest -/

theorem run_change (w : Process ρ) {as : List Action} (h : ∀ a ∈ as, a.isInternal = true) :
    (w.run (as.map .change)).coordinator = w.coordinator.run as ∧
      (w.run (as.map .change)).seats = w.seats := by
  induction as generalizing w with
  | nil => exact ⟨rfl, rfl⟩
  | cons a as ih =>
      obtain ⟨ha, has⟩ := List.forall_mem_cons.mp h
      have hstep : w.step (.change a) = w.change a := by
        cases a with
        | proceed _ | notice _ | tick _ => rfl
        | _ => cases ha
      have hrest := ih (w.change a) has
      rwa [List.map_cons, run, List.foldl_cons, hstep]

/-- The tasks go on until they have to wait, and places come for the sessions that were entered. -/
theorem settle (h : w.Seated) (ht : w.coordinator.Tidy) :
    ∃ es, (w.run es).coordinator = w.coordinator.rest ∧ (w.run es).seats = w.seats ∧
      ((w.run es).places ++ standing w.seats).Perm w.coordinator.guests := by
  obtain ⟨more, hm, hrest⟩ := Coordinator.restWithin_run _ w.coordinator
  obtain ⟨hc, hs⟩ := w.run_change hm
  obtain ⟨hcalm, hguests⟩ := ht.rest
  have hheld := (h.run (more.map .change)).held
  rw [guards, hs, hc, ← hrest] at hheld
  refine ⟨more.map .change, hc.trans hrest.symm, hs, ?_⟩
  rw [← hguests, hcalm.settled.allIn.guests]
  exact hheld

theorem come_to_rest (h : w.Seated) (ht : w.coordinator.Tidy) (hp : w.places = [])
    (he : w.coordinator.AllIn) :
    ∃ es, (w.run es).AtRest ∧ (w.run es).toService = ⟨w.coordinator.rest, w.seats⟩ := by
  obtain ⟨es, hc, hs, hplaces⟩ := settle h ht
  have hheld := h.held
  rw [guards, hp, List.nil_append, ← he.guests] at hheld
  have hnone : (w.run es).places = [] := by
    have hlen := hplaces.length_eq
    rw [List.length_append, hheld.length_eq] at hlen
    exact List.length_eq_zero_iff.mp (by omega)
  refine ⟨es, ⟨h.run es, hc ▸ ht.rest.1, hnone⟩, ?_⟩
  rw [← hc, ← hs]

/-! ### What a session tells -/

theorem told_staying (id : SessionId) (h : c.Calm) {es : List Entry} (he : .left ∉ es) :
    es.foldl (Service.tell id) c = es.foldl (tell id) c ∧ (es.foldl (tell id) c).Calm := by
  induction es generalizing c with
  | nil => exact ⟨rfl, h⟩
  | cons e es ih =>
      rw [List.mem_cons, not_or] at he
      cases e with
      | retargeted label =>
          have hcalm := h.step_retarget id label
          have hsame : c.updateTarget id label = c.step (.retarget id label) :=
            Coordinator.restWithin_of_ready hcalm.ready _
          rw [List.foldl_cons, Service.tell, hsame]
          exact ih hcalm he.2
      | left => exact absurd rfl he.1
      | _ => exact ih h he.2

/-- It makes no difference when the tasks go on, since a session that leaves says no more. -/
theorem told_rest (id : SessionId) (h : c.Calm) {es : List Entry}
    (hes : .left ∉ es ∨ ∃ before, es = before ++ [.left] ∧ .left ∉ before) :
    es.foldl (Service.tell id) c = (es.foldl (tell id) c).rest ∧ (es.foldl (tell id) c).Tidy ∧
      (es.foldl (tell id) c).AllIn := by
  rcases hes with he | ⟨before, rfl, he⟩
  · obtain ⟨hsame, hcalm⟩ := told_staying id h he
    refine ⟨?_, hcalm.tidy, hcalm.settled.allIn⟩
    rw [hsame, Coordinator.rest, Coordinator.restWithin_of_ready hcalm.ready]
  · obtain ⟨hsame, hcalm⟩ := told_staying id h he
    simp only [List.foldl_append, List.foldl_cons, List.foldl_nil, hsame, Service.tell, tell]
    exact ⟨rfl, hcalm.tidy.leave id, hcalm.settled.allIn.step (by simp)⟩

/-! ### The service -/

namespace AtRest

/-- The tasks may go on after each thing that a session tells or after all that it tells. -/
theorem told (h : w.AtRest) {k : Seat ρ} (hk : k ∈ w.seats) (σ : Session.Stimulus) :
    let es := Service.news k.session (k.session.step σ)
    es.foldl (Service.tell k.id) w.coordinator = (es.foldl (tell k.id) w.coordinator).rest ∧
      (es.foldl (tell k.id) w.coordinator).Tidy ∧ (es.foldl (tell k.id) w.coordinator).AllIn := by
  refine told_rest k.id h.calm ?_
  rcases (h.seated.begun k hk).news σ with ⟨-, hl⟩ | ⟨-, -, hb⟩
  · exact .inl hl
  · exact .inr hb

theorem move (h : w.AtRest) {k : Seat ρ} (hk : k ∈ w.seats) (subscription : Subscription)
    (σ : Session.Stimulus) : ∃ es,
      ((w.move { k with subscription } (k.session.step σ)).run es).AtRest ∧
        ((w.move { k with subscription } (k.session.step σ)).run es).toService =
          w.toService.move { k with subscription } (k.session.step σ) := by
  obtain ⟨hrest, htidy, hin⟩ := h.told hk σ
  obtain ⟨es, hend, hsame⟩ := come_to_rest (h.seated.move hk subscription σ) htidy h.places hin
  refine ⟨es, hend, hsame.trans ?_⟩
  simp only [Process.move, Service.move, hrest]

/-- Something happens to the coordinator that brings no session. -/
theorem change (h : w.AtRest) {a : Action} (hl : ∀ id, a ≠ .leave id) (he : ∀ peer, a ≠ .enter peer)
    (hg : granted? w.coordinator a = none) :
    ∃ es, ((w.change a).run es).AtRest ∧
      ((w.change a).run es).toService = ⟨w.coordinator.act a, w.seats⟩ := by
  have hs := h.seated.change hl
  refine come_to_rest hs ⟨hs.counts.live, h.calm.punctual_step a⟩ ?_ (h.calm.settled.allIn.step he)
  simp [Process.change, h.places, hg]

theorem elapse (h : w.AtRest) :
    ∃ es, (w.elapse.run es).AtRest ∧ (w.elapse.run es).toService = w.toService.elapse :=
  have hs := h.seated.elapse
  come_to_rest hs ⟨hs.counts.live, h.calm.punctual_step .elapse⟩ h.places
    (h.calm.settled.allIn.step (by simp))

/-- A client comes: its session is entered, gets its place and takes it. -/
theorem arrive (h : w.AtRest) (a : Service.Arrival ρ) :
    ∃ es, (w.run es).AtRest ∧ (w.run es).toService = (w.toService.arrive a).2 := by
  have hs := h.seated.change (a := .enter a.peer) (by simp)
  have htidy : (w.coordinator.step (.enter a.peer)).Tidy :=
    ⟨hs.counts.live, h.calm.punctual_step (.enter a.peer)⟩
  obtain ⟨es, hc, hseats, hplaces⟩ := settle hs htidy
  have hguests : (w.change (.enter a.peer)).coordinator.guests =
      w.coordinator.guests ++ [w.coordinator.board.nextId] := by
    simp [Coordinator.guests, Process.change, Coordinator.step, Coordinator.spawn, Task.guest?]
  have hheld := h.seated.held
  rw [guards, h.places, List.nil_append, ← h.calm.settled.allIn.guests] at hheld
  have hplace : ((w.change (.enter a.peer)).run es).places = [w.coordinator.board.nextId] := by
    rw [hguests] at hplaces
    have hperm := hplaces.trans ((hheld.symm.append_right _).trans List.perm_append_comm)
    exact List.perm_singleton.mp ((List.perm_append_right_iff _).mp hperm)
  have hrun : w.run (.change (.enter a.peer) :: es ++ [.sit w.coordinator.board.nextId a]) =
      ((w.change (.enter a.peer)).run es).sit w.coordinator.board.nextId a := by
    rw [List.cons_append, ← List.singleton_append, run_append, run_append]
    rfl
  have hsit := (hs.run es).sit w.coordinator.board.nextId a
  refine ⟨.change (.enter a.peer) :: es ++ [.sit w.coordinator.board.nextId a], ?_⟩
  rw [hrun]
  simp only [Process.sit, hplace, List.mem_singleton, if_true, List.erase_cons_head] at hsit ⊢
  exact ⟨⟨hsit, hc ▸ htidy.rest.1, rfl⟩, by rw [hc, hseats]; rfl⟩

theorem still (h : w.AtRest) : ∃ es, (w.run es).AtRest ∧ (w.run es).toService = w.toService :=
  ⟨[], h, rfl⟩

theorem update (h : w.AtRest) (id : SessionId) (σ : Session.Stimulus) :
    ∃ es, ((w.update id (·.step σ)).run es).AtRest ∧
      ((w.update id (·.step σ)).run es).toService = w.toService.update id (·.step σ) := by
  unfold Process.update Service.update
  cases hk : w.seat? id with
  | none => exact h.still
  | some k => exact h.move (seat?_eq hk).1 k.subscription σ

theorem hear (h : w.AtRest) (id : SessionId) :
    ∃ es, ((w.hear id).run es).AtRest ∧ ((w.hear id).run es).toService = w.toService.hear id := by
  unfold Process.hear Service.hear
  cases hk : w.seat? id with
  | none => exact h.still
  | some k =>
      dsimp only
      split
      · exact h.still
      cases w.coordinator.board.channel.take? k.subscription with
      | none => exact h.still
      | some taken => exact h.move (seat?_eq hk).1 taken.2 (.countdown taken.1)

theorem step (h : w.AtRest) (σ : Service.Stimulus ρ) :
    ∃ es, (w.run es).AtRest ∧ (w.run es).toService = w.toService.step σ := by
  have hfirst : ∀ {v : Service ρ} (e : Event ρ),
      (∃ es, ((w.step e).run es).AtRest ∧ ((w.step e).run es).toService = v) →
      ∃ es, (w.run es).AtRest ∧ (w.run es).toService = v := fun e ⟨es, hes⟩ => ⟨e :: es, hes⟩
  cases σ with
  | arrival a => exact h.arrive a
  | session id σ =>
      have hown (hs : w.step (.session id σ) = w.update id (·.step σ))
          (ht : w.toService.step (.session id σ) = w.toService.update id (·.step σ)) :
          ∃ es, (w.run es).AtRest ∧ (w.run es).toService = w.toService.step (.session id σ) :=
        hfirst (.session id σ) (by rw [hs, ht]; exact h.update id σ)
      cases σ with
      | countdown _ | elapse => exact h.still
      | _ => exact hown rfl rfl
  | hear id => exact hfirst (.hear id) (h.hear id)
  | signal => exact hfirst (.change .signal) (h.change (by simp) (by simp) rfl)
  | countdown => exact hfirst (.change .countdown) (h.change (by simp) (by simp) rfl)
  | elapse => exact hfirst (.change .elapse) h.elapse

theorem run (h : w.AtRest) (σs : List (Service.Stimulus ρ)) :
    ∃ es, (w.run es).AtRest ∧ (w.run es).toService = w.toService.run σs := by
  induction σs generalizing w with
  | nil => exact h.still
  | cons σ σs ih =>
      obtain ⟨es, hrest, hsame⟩ := h.step σ
      obtain ⟨fs, hrest', hsame'⟩ := ih hrest
      rw [hsame] at hsame'
      exact ⟨es ++ fs, w.run_append es fs ▸ hrest', w.run_append es fs ▸ hsame'⟩

end AtRest

theorem atRest_start (seconds : Nat) : (start seconds : Process ρ).AtRest :=
  ⟨seated_start seconds, ⟨rfl, rfl, nofun⟩, rfl⟩

/-- A service comes to nothing that its process does not come to. -/
theorem service_run (seconds : Nat) (σs : List (Service.Stimulus ρ)) :
    ∃ es, ((start seconds : Process ρ).run es).AtRest ∧
      ((start seconds : Process ρ).run es).toService =
        (⟨.start seconds, []⟩ : Service ρ).run σs :=
  (atRest_start seconds).run σs

/-- Whatever happened, a service counts its sessions that were not torn down, and lists them. -/
theorem service_accounted (seconds : Nat) (σs : List (Service.Stimulus ρ)) :
    let v := (⟨.start seconds, []⟩ : Service ρ).run σs
    v.coordinator.board.live = v.seats.countP (·.session.phase ≠ .closed) ∧
      v.coordinator.listed.Perm (standing v.seats) := by
  obtain ⟨es, hrest, hsame⟩ := service_run seconds σs
  have haccounted := hrest.seated.accounted hrest.calm.settled
  have hlive := haccounted.standing
  have hlisted := haccounted.same
  rw [guards, hrest.places] at hlisted
  rw [hrest.places, List.length_nil, Nat.zero_add] at hlive
  rw [← hsame]
  exact ⟨hlive, hlisted⟩

end TerminalGateway.Process
