import TerminalGateway.Process
import TerminalGateway.Proofs.Drain.Registry
import TerminalGateway.Proofs.Session.News

/-!
The count of live sessions against the sessions themselves. Any number of sessions may come, move on
and end, and the coordinator may be anywhere between two changes of its board; whenever no session
is on its way in or out, the count, the registry and the places that are held are the same.
-/

namespace TerminalGateway

namespace Process

open Drain

variable {ρ : Type} {v : Process ρ} {c d : Coordinator} {id : SessionId}

/-! ### The coordinator -/

theorem board_step_leave (c : Coordinator) (id : SessionId) :
    (c.step (.leave id)).board = c.board := by
  simp only [Coordinator.step]
  split <;> rfl

/-- What a session tells concerns its own entry alone. -/
theorem noted_told (id : SessionId) (c : Coordinator) (es : List Entry) :
    Board.Noted id (Record.targets es) c.board (es.foldl (tell id) c).board := by
  suffices h : ∀ d targets, Board.Noted id targets c.board d.board →
      Board.Noted id (targets ++ Record.targets es) c.board (es.foldl (tell id) d).board from
    h c [] (.refl id c.board)
  intro d targets h
  induction es generalizing d targets with
  | nil => simpa [Record.targets] using h
  | cons e es ih =>
      cases e with
      | retargeted label =>
          rw [show Record.targets (.retargeted label :: es) = [label] ++ Record.targets es from rfl,
            ← List.append_assoc]
          exact ih _ _ (h.retarget label)
      | left => exact ih _ _ ((board_step_leave d id).symm ▸ h)
      | _ => exact ih _ _ h

theorem tasks_told (id : SessionId) (c : Coordinator) {es : List Entry} (he : .left ∉ es) :
    (es.foldl (tell id) c).tasks = c.tasks := by
  induction es generalizing c with
  | nil => rfl
  | cons e es ih =>
      rw [List.mem_cons, not_or] at he
      cases e with
      | retargeted label => exact ih (c.step (.retarget id label)) he.2
      | left => exact absurd rfl he.1
      | _ => exact ih c he.2

theorem told_run (id : SessionId) (c : Coordinator) (es : List Entry) :
    ∃ as, es.foldl (tell id) c = c.run as := by
  induction es generalizing c with
  | nil => exact ⟨[], rfl⟩
  | cons e es ih =>
      obtain ⟨as, has⟩ := ih (tell id c e)
      cases e with
      | retargeted label => exact ⟨.retarget id label :: as, has⟩
      | left => exact ⟨.leave id :: as, has⟩
      | _ => exact ⟨as, has⟩

/-! ### Seats -/

theorem standing_append (before after : List (Seat ρ)) :
    standing (before ++ after) = standing before ++ standing after := by
  simp [standing]

theorem standing_cons (k : Seat ρ) (seats : List (Seat ρ)) :
    standing (k :: seats) =
      if k.session.registered then k.id :: standing seats else standing seats := by
  by_cases h : k.session.registered = true <;> simp [standing, h]

theorem perm_among (xs ys zs : List SessionId) (id : SessionId) :
    (xs ++ (ys ++ id :: zs)).Perm (id :: (xs ++ (ys ++ zs))) := by
  rw [← List.append_assoc, ← List.append_assoc]
  exact List.perm_middle

theorem seat?_eq {k : Seat ρ} (h : v.seat? id = some k) : k ∈ v.seats ∧ k.id = id :=
  ⟨List.mem_of_find?_eq_some h, by simpa using List.find?_some h⟩

/-- A session in its seat among the others. -/
theorem split_seats {seats : List (Seat ρ)} (hn : (seats.map (·.id)).Nodup) {k : Seat ρ}
    (hm : k ∈ seats) : ∃ before after, seats = before ++ k :: after ∧
      (∀ j ∈ before, j.id ≠ k.id) ∧ ∀ j ∈ after, j.id ≠ k.id := by
  obtain ⟨before, after, rfl⟩ := List.append_of_mem hm
  rw [List.map_append, List.map_cons, List.nodup_append, List.nodup_cons] at hn
  obtain ⟨-, ⟨hafter, -⟩, hbefore⟩ := hn
  refine ⟨before, after, rfl, fun j hj he => ?_, fun j hj he => ?_⟩
  · exact hbefore _ (List.mem_map_of_mem hj) _ (by simp) he
  · exact hafter (List.mem_map.mpr ⟨j, hj, he⟩)

theorem setSeat_split {k k' : Seat ρ} {before after : List (Seat ρ)}
    (hv : v.seats = before ++ k :: after) (hb : ∀ j ∈ before, j.id ≠ k.id)
    (ha : ∀ j ∈ after, j.id ≠ k.id) (hk : k'.id = k.id) :
    (v.setSeat k').seats = before ++ k' :: after := by
  have hout : ∀ seats : List (Seat ρ), (∀ j ∈ seats, j.id ≠ k.id) →
      seats.map (fun j => if j.id = k.id then k' else j) = seats := fun seats hseats =>
    (List.map_congr_left fun j hj => if_neg (hseats j hj)).trans (List.map_id seats)
  simp only [Service.setSeat, hv, List.map_append, List.map_cons, hk, hout before hb,
    hout after ha, if_true]

theorem filter_split {k : Seat ρ} {before after : List (Seat ρ)}
    (hb : ∀ j ∈ before, j.id ≠ k.id) (ha : ∀ j ∈ after, j.id ≠ k.id) :
    (before ++ k :: after).filter (·.id ≠ k.id) = before ++ after := by
  have hout : ∀ seats : List (Seat ρ), (∀ j ∈ seats, j.id ≠ k.id) →
      seats.filter (·.id ≠ k.id) = seats := fun seats hseats =>
    List.filter_eq_self.mpr fun j hj => by simpa using hseats j hj
  rw [List.filter_append, List.filter_cons_of_neg (by simp), hout before hb, hout after ha]

/-! ### What every step keeps -/

/-- A process whose places are those of its coordinator. -/
structure Seated [Remote ρ] (v : Process ρ) : Prop where
  counts : v.coordinator.Counts
  held : v.guards.Perm v.coordinator.holders
  nodup : (v.places ++ v.seats.map (·.id)).Nodup
  arrived : ∀ id ∈ v.places ++ v.seats.map (·.id), id ∈ v.coordinator.arrivals
  begun : ∀ k ∈ v.seats, k.session.Begun

variable [Remote ρ]

theorem seated_start (seconds : Nat) : (start seconds : Process ρ).Seated where
  counts := Coordinator.counts_start seconds
  held := .nil
  nodup := .nil
  arrived _ h := nomatch h
  begun _ h := nomatch h

theorem granted?_eq_some {a : Action} (h : granted? c a = some id) :
    ∃ i, a = .proceed i ∧ c.tasks[i]? = some (.session id .entered) := by
  unfold granted? at h
  split at h
  · rename_i i
    split at h
    · rename_i heq
      exact ⟨i, rfl, Option.some.inj h ▸ heq⟩
    · cases h
  · cases h

theorem granted?_eq_none {a : Action} (h : granted? c a = none) (i : Nat) (id : SessionId)
    (ha : a = .proceed i) : c.tasks[i]? ≠ some (.session id .entered) := by
  intro ht
  simp [ha, granted?, ht] at h

namespace Seated

theorem change (h : v.Seated) {a : Action} (ha : ∀ id, a ≠ .leave id) : (v.change a).Seated := by
  have hcounts := h.counts.step a
  have harrived := fun id hid => Coordinator.arrivals_step (h.arrived id hid) a
  cases hg : granted? v.coordinator a with
  | none =>
      have hsame : v.change a = { v with coordinator := v.coordinator.step a } := by
        simp [Process.change, hg]
      rw [hsame]
      refine ⟨hcounts, ?_, h.nodup, harrived, h.begun⟩
      rw [Coordinator.holders_step ha (granted?_eq_none hg)]
      exact h.held
  | some id =>
      obtain ⟨i, rfl, ht⟩ := granted?_eq_some hg
      have hmore : v.change (.proceed i) = { v with
          coordinator := v.coordinator.step (.proceed i)
          places := v.places ++ [id] } := by
        simp [Process.change, hg]
      have hnew : id ∉ v.places ++ v.seats.map (·.id) := fun hm =>
        h.counts.not_arrived (List.mem_of_getElem? ht) (h.arrived id hm)
      rw [hmore]
      refine ⟨hcounts, ?_, ?_, fun k hk => ?_, h.begun⟩
      · rw [Process.guards, List.append_assoc, List.singleton_append]
        exact (List.perm_middle.trans (h.held.cons id)).trans
          (Coordinator.holders_step_entered ht).symm
      · rw [List.append_assoc, List.singleton_append]
        exact (List.perm_middle.nodup_iff).mpr (List.nodup_cons.mpr ⟨hnew, h.nodup⟩)
      · rw [List.append_assoc, List.singleton_append, List.perm_middle.mem_iff] at hk
        rcases List.mem_cons.mp hk with rfl | hk
        · refine Coordinator.mem_arrivals.mpr ⟨.present, by simp, ?_⟩
          simp only [Coordinator.step_entered ht, Coordinator.put]
          exact List.mem_set (List.getElem?_eq_some_iff.mp ht).1 _
        · exact harrived k hk

theorem drop (h : v.Seated) (id : SessionId) : (v.drop id).Seated := by
  unfold Process.drop
  split
  · rename_i hid
    have hplaces := List.perm_cons_erase hid
    have hall : (v.places ++ v.seats.map (·.id)).Perm
        (id :: (v.places.erase id ++ v.seats.map (·.id))) := hplaces.append_right _
    have hguards := Coordinator.perm_leave h.held (hplaces.append_right (standing v.seats))
    refine ⟨h.counts.step (.leave id), hguards, ?_, fun k hk => ?_, h.begun⟩
    · exact (List.nodup_cons.mp (hall.nodup_iff.mp h.nodup)).2
    · exact Coordinator.arrivals_step
        (h.arrived k (hall.mem_iff.mpr (List.mem_cons_of_mem _ hk))) _
  · exact h

theorem sit (h : v.Seated) (id : SessionId) (a : Service.Arrival ρ) : (v.sit id a).Seated := by
  unfold Process.sit
  split
  · rename_i hid
    have hplaces := List.perm_cons_erase hid
    have hmove : ∀ ids : List SessionId,
        (v.places.erase id ++ (ids ++ [id])).Perm (v.places ++ ids) := by
      intro ids
      rw [← List.append_assoc]
      exact (List.perm_append_singleton id _).trans (hplaces.append_right ids).symm
    refine ⟨h.counts, ?_, ?_, fun k hk => h.arrived k ?_, fun k hk => ?_⟩
    · rw [Process.guards, standing_append, standing_cons]
      exact (hmove _).trans h.held
    · rw [List.map_append]
      exact (hmove _).nodup_iff.mpr h.nodup
    · rw [List.map_append] at hk
      exact (hmove _).mem_iff.mp hk
    · rcases List.mem_append.mp hk with hk | hk
      · exact h.begun k hk
      · rw [List.mem_singleton.mp hk]
        exact Session.Begun.start ..
  · exact h

theorem elapse (h : v.Seated) : v.elapse.Seated := by
  have hids : (v.seats.map fun k => { k with session := k.session.step .elapse }).map (·.id) =
      v.seats.map (·.id) := by simp [Function.comp_def]
  have hstand : standing (v.seats.map fun k => { k with session := k.session.step .elapse }) =
      standing v.seats := by
    rw [standing, List.filter_map, List.map_map]
    simp [standing, Function.comp_def, Session.step_elapse]
  refine ⟨h.counts.step .elapse, ?_, ?_, fun k hk => ?_, fun k hk => ?_⟩
  · rw [Process.guards, Process.elapse, hstand]
    exact h.held
  · rw [Process.elapse, hids]
    exact h.nodup
  · rw [Process.elapse, hids] at hk
    exact h.arrived k hk
  · obtain ⟨j, hj, rfl⟩ := List.mem_map.mp hk
    exact (h.begun j hj).step .elapse

theorem seats_nodup (h : v.Seated) : (v.seats.map (·.id)).Nodup :=
  (List.nodup_append.mp h.nodup).2.1

theorem move (h : v.Seated) {k : Seat ρ} (hk : k ∈ v.seats) (subscription : Subscription)
    (σ : Session.Stimulus) : (v.move { k with subscription } (k.session.step σ)).Seated := by
  obtain ⟨before, after, hv, hb, ha⟩ := split_seats h.seats_nodup hk
  have hseats : (v.move { k with subscription } (k.session.step σ)).seats =
      before ++ ⟨k.id, k.session.step σ, subscription⟩ :: after := setSeat_split hv hb ha rfl
  obtain ⟨as, has⟩ : ∃ as, (v.move { k with subscription } (k.session.step σ)).coordinator =
      v.coordinator.run as := told_run ..
  have hids : (v.move { k with subscription } (k.session.step σ)).seats.map (·.id) =
      v.seats.map (·.id) := by simp [hseats, hv]
  have hguards := h.held
  simp only [Process.guards, hv, standing_append, standing_cons] at hguards
  refine ⟨?_, ?_, ?_, fun id hid => ?_, fun j hj => ?_⟩
  · rw [has]
    exact h.counts.run as
  · rw [Process.guards, hseats, standing_append, standing_cons]
    rcases (h.begun k hk).news σ with ⟨hr, hl⟩ | ⟨hr, hr', told, hn, hl⟩
    · have htasks := tasks_told k.id v.coordinator hl
      simp only [Process.move, Coordinator.holders, htasks, hr]
      exact hguards
    · have htasks := tasks_told k.id v.coordinator hl
      simp only [Process.move, hn, List.foldl_append, hr, hr'] at hguards ⊢
      have hholds : (v.places ++ (standing before ++ k.id :: standing after)).Perm
          (told.foldl (tell k.id) v.coordinator).holders := by
        simpa [Coordinator.holders, htasks] using hguards
      exact Coordinator.perm_leave hholds (perm_among ..)
  · rw [hids]
    exact h.nodup
  · rw [hids] at hid
    rw [has]
    exact Coordinator.arrivals_run (h.arrived id hid) as
  · rw [hseats] at hj
    rcases List.mem_append.mp hj with hj | hj
    · exact h.begun j (by simp [hv, hj])
    rcases List.mem_cons.mp hj with rfl | hj
    · exact (h.begun k hk).step σ
    · exact h.begun j (by simp [hv, hj])

theorem update (h : v.Seated) (id : SessionId) (σ : Session.Stimulus) :
    (v.update id (·.step σ)).Seated := by
  unfold Process.update
  split
  · rename_i k hk
    exact h.move (seat?_eq hk).1 k.subscription σ
  · exact h

theorem hear (h : v.Seated) (id : SessionId) : (v.hear id).Seated := by
  unfold Process.hear
  split
  · exact h
  rename_i k hk
  split
  · exact h
  split
  · exact h
  · exact h.move (seat?_eq hk).1 _ _

theorem quit (h : v.Seated) (id : SessionId) : (v.quit id).Seated := by
  unfold Process.quit
  split
  · exact h
  rename_i k hk
  obtain ⟨hmem, rfl⟩ := seat?_eq hk
  obtain ⟨before, after, hv, hb, ha⟩ := split_seats h.seats_nodup hmem
  have hrest : v.seats.filter (·.id ≠ k.id) = before ++ after := by
    rw [hv, filter_split hb ha]
  have hguards := h.held
  have hall : (v.places ++ v.seats.map (·.id)).Perm
      (k.id :: (v.places ++ (before ++ after).map (·.id))) := by
    rw [hv, List.map_append, List.map_append, List.map_cons]
    exact perm_among ..
  have hout : ∀ j ∈ v.places ++ (before ++ after).map (·.id),
      j ∈ v.places ++ v.seats.map (·.id) := fun j hj =>
    hall.mem_iff.mpr (List.mem_cons_of_mem _ hj)
  have hnodup : (v.places ++ (before ++ after).map (·.id)).Nodup :=
    (List.nodup_cons.mp (hall.nodup_iff.mp h.nodup)).2
  have hbegun : ∀ j ∈ before ++ after, j.session.Begun := fun j hj =>
    h.begun j (by rw [hv]; grind)
  simp only [Process.guards, hv, standing_append, standing_cons] at hguards
  rw [hrest]
  by_cases hr : k.session.registered = true
  · simp only [hr, if_true] at hguards ⊢
    refine ⟨h.counts.step (.leave k.id), ?_, hnodup,
      fun j hj => Coordinator.arrivals_step (h.arrived j (hout j hj)) _, hbegun⟩
    rw [Process.guards, standing_append]
    exact Coordinator.perm_leave hguards (perm_among ..)
  · simp only [hr] at hguards ⊢
    refine ⟨h.counts, ?_, hnodup, fun j hj => h.arrived j (hout j hj), hbegun⟩
    rw [Process.guards, standing_append]
    exact hguards

theorem step (h : v.Seated) (e : Event ρ) : (v.step e).Seated := by
  cases e with
  | change a =>
      cases a with
      | leave id => exact h.drop id
      | elapse => exact h.elapse
      | enter _ | retarget _ _ | signal | countdown | proceed _ | notice _ | tick _ =>
          exact h.change (by simp)
  | sit id a => exact h.sit id a
  | session id σ =>
      cases σ with
      | countdown _ | elapse => exact h
      | _ => exact h.update id _
  | hear id => exact h.hear id
  | quit id => exact h.quit id

theorem run (h : v.Seated) (es : List (Event ρ)) : (v.run es).Seated := by
  induction es generalizing v with
  | nil => exact h
  | cons e es ih => exact ih (h.step e)

end Seated

/-! ### The count, the registry and the places -/

/-- A session by itself has the coordinator learn of it, and nothing else. -/
theorem step_own (v : Process ρ) {e : Event ρ} (he : e = .hear id ∨ ∃ σ, e = .session id σ) :
    ∃ es : List Entry, (v.step e).coordinator = es.foldl (tell id) v.coordinator := by
  rcases he with rfl | ⟨σ, rfl⟩
  · simp only [step, Process.hear]
    split
    · exact ⟨[], rfl⟩
    rename_i k hk
    obtain ⟨-, rfl⟩ := seat?_eq hk
    repeat' split
    all_goals first | exact ⟨[], rfl⟩ | exact ⟨_, rfl⟩
  · have hupdate : ∀ f, ∃ es : List Entry,
        (v.update id f).coordinator = es.foldl (tell id) v.coordinator := by
      intro f
      unfold Process.update
      split
      · rename_i k hk
        obtain ⟨-, rfl⟩ := seat?_eq hk
        exact ⟨_, rfl⟩
      · exact ⟨[], rfl⟩
    cases σ with
    | countdown _ | elapse => exact ⟨[], rfl⟩
    | _ => exact hupdate _

/-- Whatever happens, the coordinator does no more than it can by itself. -/
theorem step_run (v : Process ρ) (e : Event ρ) :
    ∃ as, (v.step e).coordinator = v.coordinator.run as := by
  have hleave : ∀ id, ∃ as, v.coordinator.step (.leave id) = v.coordinator.run as :=
    fun id => ⟨[.leave id], rfl⟩
  have hnothing : ∃ as, v.coordinator = v.coordinator.run as := ⟨[], rfl⟩
  have hown : ∀ id, (e = .hear id ∨ ∃ σ, e = .session id σ) →
      ∃ as, (v.step e).coordinator = v.coordinator.run as := by
    intro id he
    obtain ⟨es, hes⟩ := v.step_own he
    exact hes ▸ told_run id v.coordinator es
  cases e with
  | change a =>
      have hchange : ∃ as, (v.change a).coordinator = v.coordinator.run as := ⟨[a], rfl⟩
      cases a with
      | leave id =>
          simp only [step, Process.drop]
          split
          · exact hleave id
          · exact hnothing
      | elapse => exact ⟨[.elapse], rfl⟩
      | enter _ | retarget _ _ | signal | countdown | proceed _ | notice _ | tick _ =>
          exact hchange
  | sit id a =>
      simp only [step, Process.sit]
      split <;> exact hnothing
  | session id σ => exact hown id (.inr ⟨σ, rfl⟩)
  | hear id => exact hown id (.inl rfl)
  | quit id =>
      simp only [step, Process.quit]
      split
      · exact hnothing
      split
      · exact hleave id
      · exact hnothing

theorem gone_run {id : SessionId} (hid : id < v.coordinator.board.nextId)
    (h : id ∉ v.coordinator.listed) (es : List (Event ρ)) : id ∉ (v.run es).coordinator.listed := by
  induction es generalizing v with
  | nil => exact h
  | cons e es ih =>
      obtain ⟨as, has⟩ := v.step_run e
      obtain ⟨hid, h⟩ := Coordinator.listed_run hid h as
      exact ih (v := v.step e) (has ▸ hid) (has ▸ h)

/-- A process that counts its sessions as they are. -/
structure Accounted [Remote ρ] (v : Process ρ) : Prop where
  guards : v.coordinator.board.live = v.guards.length
  entries : v.coordinator.board.live = v.coordinator.sessions.length
  same : v.coordinator.listed.Perm v.guards
  standing : v.coordinator.board.live =
    v.places.length + v.seats.countP (·.session.phase ≠ .closed)

theorem Seated.accounted (h : v.Seated) (hs : v.coordinator.Settled) : v.Accounted := by
  obtain ⟨hlisted, hlive⟩ := h.counts.settled hs
  have hguards : v.coordinator.board.live = v.guards.length := by rw [hlive, h.held.length_eq]
  refine ⟨hguards, ?_, hlisted ▸ h.held.symm, ?_⟩
  · rw [hlive, ← hlisted]
    simp [Coordinator.listed, Coordinator.sessions]
  · rw [hguards, Process.guards, List.length_append, standing, List.length_map,
      ← List.countP_eq_length_filter]
    congr 1
    refine List.countP_congr fun k hk => ?_
    simp [← (h.begun k hk).coherent.registered]

/-- What holds of the count and the registry of a process at one moment, whatever comes next. -/
structure Consistent [Remote ρ] (v : Process ρ) : Prop where
  /-- Whenever no session is on its way in or out. -/
  accounted : v.coordinator.Settled → v.Accounted
  /-- There is always something to lower the count by. -/
  lowered : ∀ i id, v.coordinator.tasks[i]? = some (.session id .removed) →
    (v.step (.change (.proceed i))).coordinator.board.live + 1 = v.coordinator.board.live
  retargeted : ∀ id target, Board.Noted id [target] v.coordinator.board
    (v.step (.change (.retarget id target))).coordinator.board
  /-- What a session does by itself concerns no entry but its own. -/
  own : ∀ id e, (e = .hear id ∨ ∃ σ, e = .session id σ) →
    ∃ targets, Board.Noted id targets v.coordinator.board (v.step e).coordinator.board
  /-- A session that left the registry does not come back. -/
  gone : ∀ id, id < v.coordinator.board.nextId → id ∉ v.coordinator.listed →
    ∀ es, id ∉ (v.run es).coordinator.listed

theorem Seated.consistent (h : v.Seated) : v.Consistent where
  accounted := h.accounted
  lowered i id ht := by
    have hpos := h.counts.live_pos (List.mem_of_getElem? ht)
    have hstep : (v.step (.change (.proceed i))).coordinator =
        v.coordinator.put i (.session id .uncounted) v.coordinator.board.lower := by
      simp only [Process.step, Process.change, Coordinator.step, ht, Coordinator.proceedSession]
    rw [hstep]
    exact Nat.sub_add_cancel hpos
  retargeted id target := (Board.Noted.refl id v.coordinator.board).retarget target
  own id e he := by
    obtain ⟨es, hes⟩ := v.step_own he
    exact ⟨_, hes ▸ noted_told id v.coordinator es⟩
  gone _ hid hl es := gone_run hid hl es

/-- However the sessions of a process come, move on and end, and wherever its coordinator is
between two changes, the count and the registry follow the places that are held. -/
theorem live_sessions_run (seconds : Nat) (es : List (Event ρ)) :
    ((start seconds : Process ρ).run es).Consistent :=
  ((seated_start seconds).run es).consistent

end Process

end TerminalGateway
