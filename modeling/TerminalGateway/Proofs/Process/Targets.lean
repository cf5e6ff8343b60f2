import Mathlib.Data.List.Nodup
import TerminalGateway.Proofs.Process.Service
import TerminalGateway.Proofs.Session.Label
import TerminalGateway.Session.Scripted

/-!
The registry as a list of targets. Only what a session tells changes the target in its entry, so the
registry keeps for each session the label that the footer of its client shows.
-/

namespace TerminalGateway

/-! ### The entries of the registry -/

namespace Drain

variable {id k : SessionId} {info : SessionInfo}

namespace Board

variable {b : Board}

theorem isSome_info?_iff : (b.info? id).isSome = true ↔ id ∈ b.registry.map (·.1) := by
  simp [info?]

theorem info?_of_remove (h : (b.remove id).info? k = some info) : b.info? k = some info := by
  have hk : k ≠ id := by
    rintro rfl
    have hm := isSome_info?_iff.mp (Option.isSome_of_eq_some h)
    simp [remove] at hm
  have hsame : ∀ e : SessionId × SessionInfo, e.1 ≠ id ∧ e.1 = k ↔ e.1 = k := fun e =>
    and_iff_right_of_imp fun he => he ▸ hk
  simpa only [info?, remove, List.find?_filter, decide_eq_true_eq, hsame] using h

/-- A session that is entered has no target. -/
theorem info?_of_insert {peer : String} (h : (b.insert peer).info? k = some info) :
    b.info? k = some info ∨ k = b.nextId ∧ info.target = none := by
  obtain ⟨e, he, rfl⟩ := Option.map_eq_some_iff.mp h
  rw [insert, List.find?_append, Option.or_eq_some_iff] at he
  rcases he with hold | ⟨-, hnew⟩
  · exact .inl (Option.map_eq_some_iff.mpr ⟨e, hold, rfl⟩)
  · obtain ⟨hid, rfl⟩ : b.nextId = k ∧ (b.nextId, ⟨peer, none⟩) = e := by simpa using hnew
    exact .inr ⟨hid.symm, rfl⟩

end Board

namespace Coordinator

variable {c : Coordinator} {a : Action}

theorem Counts.lt_nextId (h : c.Counts) {stay : Stay} (hm : .session id stay ∈ c.tasks) :
    id < c.board.nextId :=
  h.fresh id (List.mem_filterMap.mpr ⟨_, hm, rfl⟩)

theorem Counts.lt_of_listed (h : c.Counts) (hm : id ∈ c.listed) : id < c.board.nextId := by
  rw [h.listed] at hm
  obtain ⟨t, ht, hid⟩ := List.mem_filterMap.mp hm
  exact h.fresh id (List.mem_filterMap.mpr ⟨t, ht, Task.id?_of_listed? hid⟩)

/-- All that happens leaves the entries as they are that it does not remove; only an arrival makes
one, and only a word about a target changes one. -/
theorem info?_of_step (he : ∀ peer, a ≠ .enter peer) (hr : ∀ j target, a ≠ .retarget j target)
    (h : (c.step a).board.info? k = some info) : c.board.info? k = some info := by
  generalize hd : c.step a = d at h
  cases hd ▸ c.step_happens a with
  | nothing _ | left _ | signalled _ | signalledAgain _ | began | elapsed => exact h
  | entered peer => exact absurd rfl (he peer)
  | retargeted j target => exact absurd rfl (hr j target)
  | @passed _ i t t' b word _ _ hp =>
      have hb : b.info? k = some info := by
        rcases c.pass_board i t' b word with hboard | hboard <;>
        · rw [hboard] at h
          exact h
      rcases hp.listed with ⟨-, hsame⟩ | ⟨j, -, -, rfl⟩
      · unfold Board.info? at hb ⊢
        rwa [hsame] at hb
      · exact Board.info?_of_remove hb

theorem info?_of_rest (h : c.rest.board.info? k = some info) : c.board.info? k = some info := by
  obtain ⟨more, hm, heq⟩ := restWithin_run (8 * (c.tasks.length + 1)) c
  rw [rest, heq] at h
  clear heq
  induction more generalizing c with
  | nil => exact h
  | cons a more ih =>
      obtain ⟨ha, hmore⟩ := List.forall_mem_cons.mp hm
      refine info?_of_step (fun peer he => ?_) (fun j target he => ?_) (ih h hmore)
      all_goals simp [he, Action.isInternal] at ha

end Coordinator

end Drain

/-! ### The sessions in it -/

/-- The registry has for each session the target that it told last. -/
def Service.KeepsTargets {ρ : Type} (v : Service ρ) : Prop :=
  ∀ k ∈ v.seats, ∀ info, v.coordinator.board.info? k.id = some info →
    info.target = (Record.targets k.session.record).getLast?

namespace Process

open Drain

variable {ρ : Type} [Remote ρ] {w : Process ρ}

namespace AtRest

theorem keepsTargets_move (h : w.AtRest) (ht : w.toService.KeepsTargets) {k : Seat ρ}
    (hk : k ∈ w.seats) (subscription : Subscription) (σ : Session.Stimulus) :
    (w.toService.move { k with subscription } (k.session.step σ)).KeepsTargets := by
  intro j hj info hinfo
  have hnoted := noted_told k.id w.coordinator (Service.news k.session (k.session.step σ))
  rw [Service.move, (h.told hk σ).1] at hinfo
  have hinfo := Coordinator.info?_of_rest hinfo
  obtain ⟨i, hi, rfl⟩ := List.mem_map.mp hj
  by_cases hid : i.id = k.id
  · simp only [hid, if_true] at hinfo ⊢
    rw [hnoted.named] at hinfo
    obtain ⟨old, hold, rfl⟩ := Option.map_eq_some_iff.mp hinfo
    have hlast : old.target = (Record.targets k.session.record).getLast? := ht k hk old hold
    rw [(h.seated.begun k hk).news_eq σ, Record.targets_append, List.getLast?_append, hlast]
  · simp only [hid, if_false] at hinfo ⊢
    rw [hnoted.others i.id hid] at hinfo
    exact ht i hi info hinfo

/-- A number that a client comes under has no entry, and no session has it. -/
theorem keepsTargets_arrive (h : w.AtRest) (ht : w.toService.KeepsTargets)
    (a : Service.Arrival ρ) : (w.toService.arrive a).2.KeepsTargets := by
  intro k hk info hinfo
  have hcounts := h.seated.counts
  have hinfo : (w.coordinator.board.insert a.peer).info? k.id = some info :=
    Coordinator.info?_of_rest hinfo
  rcases List.mem_append.mp hk with hk | hk
  · have hlt : k.id < w.coordinator.board.nextId := by
      obtain ⟨stay, -, hm⟩ := Coordinator.mem_arrivals.mp
        (h.seated.arrived k.id (List.mem_append_right _ (List.mem_map_of_mem hk)))
      exact hcounts.lt_nextId hm
    rcases Board.info?_of_insert hinfo with hold | ⟨hid, -⟩
    · exact ht k hk info hold
    · exact absurd hid (Nat.ne_of_lt hlt)
  · obtain rfl := List.mem_singleton.mp hk
    rcases Board.info?_of_insert hinfo with hold | ⟨-, hnone⟩
    · have hm := Board.isSome_info?_iff.mp (Option.isSome_of_eq_some hold)
      exact absurd (hcounts.lt_of_listed hm) (Nat.lt_irrefl _)
    · exact hnone

omit [Remote ρ] in
theorem keepsTargets_act (ht : w.toService.KeepsTargets) {a : Action}
    (he : ∀ peer, a ≠ .enter peer) (hr : ∀ j target, a ≠ .retarget j target)
    {seats : List (Seat ρ)}
    (hs : ∀ k ∈ seats, ∃ j ∈ w.seats, j.id = k.id ∧ j.session.record = k.session.record) :
    (⟨w.coordinator.act a, seats⟩ : Service ρ).KeepsTargets := by
  intro k hk info hinfo
  obtain ⟨j, hj, hid, hrecord⟩ := hs k hk
  have hold := Coordinator.info?_of_step he hr (Coordinator.info?_of_rest hinfo)
  rw [← hrecord]
  exact ht j hj info (hid ▸ hold)

theorem keepsTargets_step (h : w.AtRest) (ht : w.toService.KeepsTargets)
    (σ : Service.Stimulus ρ) : (w.toService.step σ).KeepsTargets := by
  cases σ with
  | arrival a => exact h.keepsTargets_arrive ht a
  | session id σ =>
      have hupdate : (w.toService.update id (·.step σ)).KeepsTargets := by
        unfold Service.update
        cases hk : w.seat? id with
        | none => exact ht
        | some k => exact h.keepsTargets_move ht (seat?_eq hk).1 k.subscription σ
      cases σ with
      | countdown _ | elapse => exact ht
      | _ => exact hupdate
  | hear id =>
      simp only [Service.step, Service.hear]
      cases hk : w.seat? id with
      | none => exact ht
      | some k =>
          dsimp only
          split
          · exact ht
          cases w.coordinator.board.channel.take? k.subscription with
          | none => exact ht
          | some taken =>
              exact h.keepsTargets_move ht (seat?_eq hk).1 taken.2 (.countdown taken.1)
  | signal | countdown =>
      exact keepsTargets_act ht (by simp) (by simp) fun k hk => ⟨k, hk, rfl, rfl⟩
  | elapse =>
      refine keepsTargets_act ht (by simp) (by simp) fun k hk => ?_
      obtain ⟨j, hj, rfl⟩ := List.mem_map.mp hk
      exact ⟨j, hj, rfl, by simp [Session.step_elapse]⟩

theorem keepsTargets_run (h : w.AtRest) (ht : w.toService.KeepsTargets)
    (σs : List (Service.Stimulus ρ)) : (w.toService.run σs).KeepsTargets := by
  induction σs generalizing w with
  | nil => exact ht
  | cons σ σs ih =>
      obtain ⟨es, hrest, hsame⟩ := h.step σ
      have hnext := h.keepsTargets_step ht σ
      rw [← hsame] at hnext
      have hrun := ih hrest hnext
      rwa [hsame] at hrun

end AtRest

/-- A session has its entry in the registry until it ends. -/
theorem AtRest.listed_iff (h : w.AtRest) {k : Seat ρ} (hk : k ∈ w.seats) :
    k.id ∈ w.coordinator.listed ↔ k.session.phase ≠ .closed := by
  have hsame := (h.seated.accounted h.calm.settled).same
  rw [guards, h.places, List.nil_append] at hsame
  rw [hsame.mem_iff, ne_eq, ← (h.seated.begun k hk).coherent.registered, Bool.not_eq_false]
  simp only [standing, List.mem_map, List.mem_filter]
  constructor
  · rintro ⟨j, ⟨hj, hr⟩, hid⟩
    exact List.inj_on_of_nodup_map h.seated.seats_nodup hj hk hid ▸ hr
  · exact fun hr => ⟨k, ⟨hk, hr⟩, rfl⟩

theorem AtRest.target_eq (h : w.AtRest) (ht : w.toService.KeepsTargets) {k : Seat ρ}
    (hk : k ∈ w.seats) :
    (w.coordinator.board.info? k.id).map (·.target) =
      if k.session.phase = .closed then none
      else some (Record.targets k.session.record).getLast? := by
  have hentry := Board.isSome_info?_iff.trans (h.listed_iff hk)
  by_cases hp : k.session.phase = .closed
  · have hnone : w.coordinator.board.info? k.id = none := by
      simpa [hp] using hentry
    rw [if_pos hp, hnone, Option.map_none]
  · obtain ⟨info, hinfo⟩ := Option.isSome_iff_exists.mp (hentry.mpr hp)
    rw [if_neg hp, hinfo, Option.map_some, ht k hk info hinfo]

/-- A label is that of one host and one port only. Each footer of a session is the label of the
connection that it has just made, and its last one that of the connection that it has; the registry
has the label in its last footer until the session ends, and no entry for it then. -/
theorem labels_tell_targets_apart (seconds : Nat) (σs : List (Service.Stimulus ρ)) :
    (∀ c d : Credentials, c.label = d.label ↔ c.host = d.host ∧ c.port = d.port) ∧
    let v := (⟨.start seconds, []⟩ : Service ρ).run σs
    ∀ k ∈ v.seats,
      (∀ past label rest, k.session.record = past ++ .sent (.footer label) :: rest →
        ∃ c, Record.lastConnection? past = some (c, some (.ok ())) ∧ label = c.label) ∧
      (k.session.phase = .connected ∨ k.session.phase = .streaming →
        ∃ c, k.session.credentials = some c ∧
          (Record.footers k.session.record).getLast? = some c.label) ∧
      (v.coordinator.board.info? k.id).map (·.target) =
        if k.session.phase = .closed then none
        else some (Record.footers k.session.record).getLast? := by
  have hkeeps : ((⟨.start seconds, []⟩ : Service ρ).run σs).KeepsTargets :=
    (atRest_start seconds).keepsTargets_run (fun k hk => nomatch hk) σs
  obtain ⟨es, hrest, hsame⟩ := service_run (ρ := ρ) seconds σs
  rw [← hsame] at hkeeps ⊢
  refine ⟨fun c d => Credentials.label_eq_iff, ?_⟩
  intro v k hk
  have hbegun := hrest.seated.begun k hk
  have hlabelled := hbegun.labelled.labelled
  refine ⟨fun past label rest hr => hlabelled.shown past _ rest hr label rfl,
    hbegun.footer_of_connected, ?_⟩
  rw [← hlabelled.told]
  exact hrest.target_eq hkeeps hk

/-- A host that begins and ends like one in brackets gets a second pair. -/
example :
    let auth := fun host => Session.Stimulus.message
      (.ok (.auth ⟨⟨host, 22, "user", some "pw", none, none⟩, none, none⟩))
    let v := (⟨.start 5, []⟩ : Service Script).run
      [.arrival ⟨"p", .standard, {}, none, []⟩, .arrival ⟨"q", .standard, {}, none, []⟩,
        .session 0 (auth "::1"), .session 0 .settle, .session 1 (auth "[::1]"), .session 1 .settle]
    v.coordinator.board.registry.map (·.2.target) =
      [some "ssh://[::1]:22", some "ssh://[[::1]]:22"] := by
  decide +kernel

end Process

end TerminalGateway
