import Mathlib.Data.List.Basic
import TerminalGateway.Proofs.Drain.Steps

/-!
The count of live sessions and the registry are kept apart, each by steps of its own. Both follow
the sessions of the coordinator at every moment: each is counted and listed from one step of its
own to another.
-/

namespace TerminalGateway.Drain

namespace Task

def id? : Task → Option SessionId
  | .session id _ => some id
  | _ => none

/-- The session that stands in the registry. -/
def listed? : Task → Option SessionId
  | .session id .entered | .session id .present | .session id .leaving => some id
  | _ => none

/-- A session that is counted. -/
def isCounted : Task → Bool
  | .session _ .present | .session _ .leaving | .session _ .removed => true
  | _ => false

/-- The session whose place is there and was not given up. -/
def holder? : Task → Option SessionId
  | .session id .present => some id
  | _ => none

/-- The session whose place has been there. -/
def arrived? : Task → Option SessionId
  | .session _ .entered => none
  | t => t.id?

theorem id?_of_listed? {t : Task} {id : SessionId} (h : t.listed? = some id) : t.id? = some id := by
  unfold listed? at h
  split at h <;> first | exact h | cases h

end Task

namespace Board

/-- The entry of a session in the registry. -/
def info? (b : Board) (id : SessionId) : Option SessionInfo :=
  (b.registry.find? (·.1 = id)).map (·.2)

theorem info?_retarget_of_ne {b : Board} {id k : SessionId} (h : k ≠ id) (target : String) :
    (b.retarget id target).info? k = b.info? k := by
  unfold info? retarget
  dsimp only
  induction b.registry with
  | nil => rfl
  | cons e es ih =>
      rw [List.map_cons, List.find?_cons, List.find?_cons]
      by_cases he : e.1 = id
      · have hk : e.1 ≠ k := fun hk => h (hk.symm.trans he)
        simpa [he, hk, Ne.symm h] using ih
      · rw [if_neg he]
        by_cases hk : e.1 = k
        · simp [hk]
        · simpa [hk] using ih

theorem info?_retarget (b : Board) (id : SessionId) (target : String) :
    (b.retarget id target).info? id =
      (b.info? id).map fun info => { info with target := some target } := by
  unfold info? retarget
  dsimp only
  induction b.registry with
  | nil => rfl
  | cons e es ih =>
      rw [List.map_cons, List.find?_cons, List.find?_cons]
      by_cases he : e.1 = id
      · simp [he]
      · simpa [he] using ih

/-- A board after targets of one session were noted, one after another, and nothing else. -/
structure Noted (id : SessionId) (targets : List String) (b b' : Board) : Prop where
  listed : b'.registry.map (·.1) = b.registry.map (·.1)
  others : ∀ k, k ≠ id → b'.info? k = b.info? k
  named : b'.info? id =
    (b.info? id).map fun info => { info with target := targets.getLast?.or info.target }
  rest : { b' with registry := b.registry } = b

theorem Noted.refl (id : SessionId) (b : Board) : Noted id [] b b :=
  ⟨rfl, fun _ _ => rfl, by simp, rfl⟩

theorem Noted.retarget {id : SessionId} {targets : List String} {b b' : Board}
    (h : Noted id targets b b') (target : String) :
    Noted id (targets ++ [target]) b (b'.retarget id target) where
  listed := (b'.retarget_ids id target).trans h.listed
  others k hk := (info?_retarget_of_ne hk target).trans (h.others k hk)
  named := by simp [info?_retarget, h.named, Function.comp_def]
  rest := h.rest

end Board

namespace Coordinator

variable {c : Coordinator} {a : Action} {i : Nat} {t t' : Task} {b : Board} {word : Bool}

/-- The sessions that ever came. -/
def ids (c : Coordinator) : List SessionId := c.tasks.filterMap Task.id?

/-- The sessions in the registry. -/
def listed (c : Coordinator) : List SessionId := c.board.registry.map (·.1)

/-- The sessions whose places are there and were not given up. -/
def holders (c : Coordinator) : List SessionId := c.tasks.filterMap Task.holder?

/-- The sessions whose places have been there. -/
def arrivals (c : Coordinator) : List SessionId := c.tasks.filterMap Task.arrived?

/-- A coordinator whose count and registry are those of its sessions. -/
structure Counts (c : Coordinator) : Prop where
  live : c.board.live = c.tasks.countP Task.isCounted
  listed : c.listed = c.tasks.filterMap Task.listed?
  fresh : ∀ id ∈ c.ids, id < c.board.nextId
  nodup : c.ids.Nodup

theorem counts_start (seconds : Nat) : (start seconds).Counts := ⟨rfl, rfl, nofun, .nil⟩

theorem Passes.counted (h : c.Passes t t' b word) (hl : t.isCounted = true → 0 < c.board.live) :
    b.live + (if t.isCounted then 1 else 0) =
      c.board.live + if t'.isCounted then 1 else 0 := by
  cases h with
  | removed _ =>
      have hpos := hl rfl
      simp only [Board.lower, Task.isCounted, if_true]
      simp
      omega
  | _ => rfl

theorem Passes.id? (h : c.Passes t t' b word) : t'.id? = t.id? := by
  cases h <;> rfl

theorem Passes.nextId (h : c.Passes t t' b word) : b.nextId = c.board.nextId := by
  cases h <;> rfl

/-- A session that goes on stays in the registry, or it is the one that is removed. -/
theorem Passes.listed (h : c.Passes t t' b word) :
    (t'.listed? = t.listed? ∧ b.registry = c.board.registry) ∨
      ∃ id, t = .session id .leaving ∧ t' = .session id .removed ∧ b = c.board.remove id := by
  cases h with
  | leaving id => exact .inr ⟨id, rfl, rfl, rfl⟩
  | _ => exact .inl ⟨rfl, rfl⟩

namespace Counts

theorem giveWord (h : c.Counts) : c.giveWord.Counts := by
  have hboard : c.giveWord.listed = c.listed ∧ c.giveWord.board.nextId = c.board.nextId ∧
      c.giveWord.board.live = c.board.live := by
    unfold Coordinator.giveWord
    split <;> exact ⟨rfl, rfl, rfl⟩
  have hids : c.giveWord.ids = c.ids := filterMap_giveWord (fun _ _ => rfl) c
  refine ⟨?_, ?_, ?_, ?_⟩
  · rw [hboard.2.2, h.live]
    rcases c.giveWord_cases with heq | ⟨before, remaining, due, after, ht, heq⟩
    · rw [heq]
    · simp [heq, ht, Task.isCounted]
  · rw [hboard.1, h.listed, filterMap_giveWord fun _ _ => rfl]
  · rw [hids, hboard.2.1]
    exact h.fresh
  · rw [hids]
    exact h.nodup

/-- The session that is removed is the only one of its number. -/
theorem filter_listed {before after : List Task} {id : SessionId}
    (hn : ((before ++ .session id .leaving :: after).filterMap Task.id?).Nodup) :
    ((before ++ .session id .leaving :: after).filterMap Task.listed?).filter (· ≠ id) =
      (before ++ .session id .removed :: after).filterMap Task.listed? := by
  have hcons : (Task.session id .leaving :: after).filterMap Task.id? =
      id :: after.filterMap Task.id? := rfl
  rw [List.filterMap_append, hcons, List.nodup_append, List.nodup_cons] at hn
  obtain ⟨-, hafter, hapart⟩ := hn
  have hout : ∀ ts : List Task, id ∉ ts.filterMap Task.id? →
      (ts.filterMap Task.listed?).filter (· ≠ id) = ts.filterMap Task.listed? := by
    refine fun ts hts => List.filter_eq_self.mpr fun j hj => ?_
    obtain ⟨t, hm, ht⟩ := List.mem_filterMap.mp hj
    simp only [decide_eq_true_eq]
    rintro rfl
    exact hts (List.mem_filterMap.mpr ⟨t, hm, Task.id?_of_listed? ht⟩)
  have hb : id ∉ before.filterMap Task.id? := fun hm => hapart id hm id (by simp) rfl
  simp only [List.filterMap_append, List.filterMap_cons, Task.listed?, List.filter_append,
    hout before hb]
  rw [List.filter_cons_of_neg (by simp), hout after hafter.1]

theorem put (h : c.Counts) (ht : c.tasks[i]? = some t) (hp : c.Passes t t' b word) :
    (c.put i t' b).Counts := by
  have hcount := hp.counted fun hc => by
    rw [h.live]
    exact List.countP_pos_iff.mpr ⟨t, List.mem_of_getElem? ht, hc⟩
  have hids : (c.put i t' b).ids = c.ids := filterMap_put ht hp.id?
  refine ⟨?_, ?_, ?_, ?_⟩
  · obtain ⟨before, after, hsplit, hput⟩ := put_of_task ht
    have hl := h.live
    rw [hsplit] at hl
    simp only [hput, List.countP_append, List.countP_cons] at hl ⊢
    omega
  · rcases hp.listed with ⟨hlist, hreg⟩ | ⟨id, rfl, rfl, rfl⟩
    · rw [filterMap_put ht hlist, ← h.listed]
      exact congrArg (List.map _) hreg
    · obtain ⟨before, after, hsplit, hput⟩ := put_of_task ht
      have hr := h.listed
      have hn := h.nodup
      unfold Coordinator.listed at hr ⊢
      unfold ids at hn
      rw [hsplit] at hr hn
      simp only [hput, Board.remove]
      rw [← filter_listed hn, ← hr, List.filter_map]
      rfl
  · rw [hids]
    exact hp.nextId ▸ h.fresh
  · rw [hids]
    exact h.nodup

theorem pass (h : c.Counts) (ht : c.tasks[i]? = some t) (hp : c.Passes t t' b word) :
    (c.pass i t' b word).Counts := by
  unfold Coordinator.pass
  cases word with
  | false => exact h.put ht hp
  | true => exact (h.put ht hp).giveWord

/-- A new task that is no session changes nothing in the counts. -/
theorem spawn (h : c.Counts) (hi : t.id? = none) (hl : b.live = c.board.live)
    (hr : b.registry = c.board.registry) (hn : b.nextId = c.board.nextId) :
    (c.spawn t b).Counts := by
  have hc : t.isCounted = false ∧ t.listed? = none := by
    cases t <;> simp_all [Task.id?, Task.isCounted, Task.listed?]
  refine ⟨?_, ?_, ?_, ?_⟩
  · simpa [Coordinator.spawn, hc.1, hl] using h.live
  · simpa [Coordinator.listed, Coordinator.spawn, hc.2, hr] using h.listed
  · simpa [ids, Coordinator.spawn, hi, hn] using h.fresh
  · simpa [ids, Coordinator.spawn, hi] using h.nodup

theorem enter (h : c.Counts) (peer : String) : (c.step (.enter peer)).Counts := by
  have hids : (c.step (.enter peer)).ids = c.ids ++ [c.board.nextId] := by
    simp [ids, Coordinator.step, Coordinator.spawn, Task.id?]
  refine ⟨?_, ?_, ?_, ?_⟩
  · simpa [Coordinator.step, Coordinator.spawn, Board.insert, Task.isCounted] using h.live
  · simpa [Coordinator.listed, Coordinator.step, Coordinator.spawn, Board.insert,
      Task.listed?] using h.listed
  · rw [hids]
    intro id hid
    rcases List.mem_append.mp hid with hid | hid
    · exact Nat.lt_succ_of_lt (h.fresh id hid)
    · rw [List.mem_singleton.mp hid]
      exact Nat.lt_succ_self c.board.nextId
  · rw [hids, List.nodup_append]
    refine ⟨h.nodup, by simp, fun id hid j hj => ?_⟩
    rw [List.mem_singleton.mp hj]
    exact Nat.ne_of_lt (h.fresh id hid)

theorem step (h : c.Counts) (a : Action) : (c.step a).Counts := by
  generalize hd : c.step a = d
  cases hd ▸ c.step_happens a with
  | nothing _ | elapsed => exact ⟨h.live, h.listed, h.fresh, h.nodup⟩
  | entered peer => exact h.enter peer
  | retargeted id target =>
      exact ⟨h.live, (c.board.retarget_ids id target).trans h.listed, h.fresh, h.nodup⟩
  | signalled _ | signalledAgain _ | began => exact h.spawn rfl rfl rfl rfl
  | @left i id ht =>
      have hids : (c.put i (.session id .leaving) c.board).ids = c.ids := filterMap_put ht rfl
      refine ⟨?_, ?_, hids ▸ h.fresh, hids ▸ h.nodup⟩
      · obtain ⟨before, after, hsplit, hput⟩ := put_of_task ht
        have hl := h.live
        rw [hsplit] at hl
        rw [hput]
        simpa [List.countP_cons, Task.isCounted] using hl
      · rw [filterMap_put ht (by rfl)]
        exact h.listed
  | passed _ ht hp => exact h.pass ht hp

theorem run (h : c.Counts) (as : List Action) : (c.run as).Counts := by
  induction as generalizing c with
  | nil => exact h
  | cons a as ih => exact ih (h.step a)

/-- A session that is to be counted no more is counted. -/
theorem live_pos (h : c.Counts) {id : SessionId} (hm : .session id .removed ∈ c.tasks) :
    0 < c.board.live := by
  rw [h.live]
  exact List.countP_pos_iff.mpr ⟨_, hm, rfl⟩

end Counts

/-! ### Places -/

theorem mem_arrivals {id : SessionId} :
    id ∈ c.arrivals ↔ ∃ stay, stay ≠ .entered ∧ .session id stay ∈ c.tasks := by
  rw [arrivals, List.mem_filterMap]
  constructor
  · rintro ⟨t, hm, ht⟩
    cases t with
    | session k stay =>
        cases stay with
        | entered => cases ht
        | present | leaving | removed | uncounted | gone =>
            obtain rfl : k = id := Option.some.inj ht
            exact ⟨_, by simp, hm⟩
    | signal _ | countdown _ => cases ht
  · rintro ⟨stay, hne, hm⟩
    refine ⟨_, hm, ?_⟩
    cases stay <;> first | rfl | exact absurd rfl hne

theorem Turns.arrived {id : SessionId} {stay : Stay} (h : c.Turns a i (some (.session id stay)) t')
    (hs : stay ≠ .entered) : ∃ stay', stay' ≠ .entered ∧ t' = .session id stay' := by
  cases h with
  | kept _ _ => exact ⟨stay, hs, rfl⟩
  | left _ => exact ⟨_, by simp, rfl⟩
  | passed _ hp =>
      cases hp <;> exact ⟨_, by simp, rfl⟩

theorem arrivals_step {id : SessionId} (h : id ∈ c.arrivals) (a : Action) :
    id ∈ (c.step a).arrivals := by
  obtain ⟨stay, hs, hm⟩ := mem_arrivals.mp h
  obtain ⟨i, hi⟩ := List.mem_iff_getElem?.mp hm
  obtain ⟨t', hi', hturn⟩ := task_step (a := a) hi
  obtain ⟨stay', hs', rfl⟩ := hturn.arrived hs
  exact mem_arrivals.mpr ⟨stay', hs', List.mem_of_getElem? hi'⟩

theorem arrivals_run {id : SessionId} (h : id ∈ c.arrivals) (as : List Action) :
    id ∈ (c.run as).arrivals := by
  induction as generalizing c with
  | nil => exact h
  | cons a as ih => exact ih (arrivals_step h a)

theorem eq_of_nodup_filterMap {α β : Type} {f : α → Option β} {xs : List α} {x y : α} {z : β}
    (h : (xs.filterMap f).Nodup) (hx : x ∈ xs) (hy : y ∈ xs) (hfx : f x = some z)
    (hfy : f y = some z) : x = y := by
  induction xs with
  | nil => cases hx
  | cons w ws ih =>
      have hout : ∀ v ∈ ws, f v = some z → f w ≠ some z := by
        intro v hv hfv hfw
        rw [List.filterMap_cons_some hfw, List.nodup_cons] at h
        exact h.1 (List.mem_filterMap.mpr ⟨v, hv, hfv⟩)
      have htail : (ws.filterMap f).Nodup :=
        h.sublist ((List.sublist_cons_self w ws).filterMap f)
      rcases List.mem_cons.mp hx with hxw | hx <;> rcases List.mem_cons.mp hy with hyw | hy
      · exact hxw.trans hyw.symm
      · exact absurd (hxw ▸ hfx) (hout y hy hfy)
      · exact absurd (hyw ▸ hfy) (hout x hx hfx)
      · exact ih htail hx hy

/-- A session that is being registered has had no place yet. -/
theorem Counts.not_arrived (h : c.Counts) {id : SessionId} (hm : .session id .entered ∈ c.tasks) :
    id ∉ c.arrivals := by
  intro ha
  obtain ⟨stay, hs, hm'⟩ := mem_arrivals.mp ha
  have heq := eq_of_nodup_filterMap h.nodup hm hm' rfl rfl
  injection heq with _ heq
  exact hs heq.symm

/-- Places come by the step that counts their session, and go when they are given up. -/
theorem holders_step (hl : ∀ id, a ≠ .leave id)
    (he : ∀ i id, a = .proceed i → c.tasks[i]? ≠ some (.session id .entered)) :
    (c.step a).holders = c.holders := by
  generalize hd : c.step a = d
  cases hd ▸ c.step_happens a with
  | nothing _ | retargeted _ _ | elapsed => rfl
  | entered _ | signalled _ | signalledAgain _ | began =>
      simp [holders, Coordinator.spawn, Task.holder?]
  | left _ => exact absurd rfl (hl _)
  | @passed _ i t t' b word ha ht hp =>
      refine filterMap_pass (fun _ _ => rfl) ht ?_ word
      cases hp with
      | entered id =>
          obtain rfl := ha.resolve_right (by simp [Task.isWaiting])
          exact absurd ht (he i id rfl)
      | _ => rfl

theorem step_entered {id : SessionId} (ht : c.tasks[i]? = some (.session id .entered)) :
    c.step (.proceed i) = c.put i (.session id .present) c.board.raise := by
  simp [step, ht, proceedSession]

theorem holders_step_entered {id : SessionId} (ht : c.tasks[i]? = some (.session id .entered)) :
    (c.step (.proceed i)).holders.Perm (id :: c.holders) := by
  obtain ⟨before, after, hsplit, hput⟩ := put_of_task ht
  rw [step_entered ht, hput, holders, holders, hsplit]
  simp [List.filterMap_cons, Task.holder?, List.perm_middle]

theorem holders_step_leave {id : SessionId} (hid : id ∈ c.holders) :
    c.holders.Perm (id :: (c.step (.leave id)).holders) := by
  obtain ⟨t, hm, ht⟩ := List.mem_filterMap.mp hid
  obtain rfl : t = .session id .present := by
    unfold Task.holder? at ht
    split at ht
    · rw [Option.some.inj ht]
    · cases ht
  obtain ⟨i, hi⟩ : ∃ i, c.tasks.findIdx? (· = .session id .present) = some i := by
    rw [← Option.isSome_iff_exists, List.findIdx?_isSome]
    exact List.any_eq_true.mpr ⟨_, hm, by simp⟩
  obtain ⟨hlt, hp, -⟩ := List.findIdx?_eq_some_iff_getElem.mp hi
  obtain ⟨before, after, hsplit, hput⟩ := put_of_task
    (List.getElem?_eq_some_iff.mpr ⟨hlt, by simpa using hp⟩ :
      c.tasks[i]? = some (.session id .present))
  have hstep : (c.step (.leave id)).tasks = before ++ .session id .leaving :: after := by
    simp only [Coordinator.step, hi, hput]
  rw [holders, holders, hstep, hsplit]
  simp [List.filterMap_cons, Task.holder?, List.perm_middle]

/-- What is left when one of the places that are held is given up. -/
theorem perm_leave {id : SessionId} {held rest : List SessionId} (h : held.Perm c.holders)
    (hr : held.Perm (id :: rest)) : rest.Perm (c.step (.leave id)).holders := by
  have hm : (id :: rest).Perm c.holders := hr.symm.trans h
  exact (hm.trans (holders_step_leave (hm.subset List.mem_cons_self))).cons_inv

/-! ### The registry -/

/-- A session comes into the registry at its entry only, under a new number. -/
theorem listed_step {id : SessionId} (hid : id < c.board.nextId) (h : id ∉ c.listed) (a : Action) :
    id < (c.step a).board.nextId ∧ id ∉ (c.step a).listed := by
  generalize hd : c.step a = d
  cases hd ▸ c.step_happens a with
  | nothing _ | elapsed | signalled _ | signalledAgain _ | began | left _ => exact ⟨hid, h⟩
  | retargeted k target =>
      have hids : ({ c with board := c.board.retarget k target } : Coordinator).listed = c.listed :=
        c.board.retarget_ids k target
      exact ⟨hid, hids ▸ h⟩
  | entered peer =>
      refine ⟨Nat.lt_succ_of_lt hid, fun hm => ?_⟩
      simp only [listed, Coordinator.spawn, Board.insert, List.map_append, List.mem_append] at hm
      rcases hm with hm | hm
      · exact h hm
      · exact Nat.ne_of_lt hid (by simpa using hm)
  | @passed _ i t t' b word _ _ hp =>
      have hboard : (c.pass i t' b word).board.nextId = b.nextId ∧
          (c.pass i t' b word).listed = b.registry.map (·.1) := by
        unfold listed
        rcases c.pass_board i t' b word with heq | heq <;> rw [heq] <;> exact ⟨rfl, rfl⟩
      rw [hboard.1, hboard.2, hp.nextId]
      refine ⟨hid, fun hm => h ?_⟩
      rcases hp.listed with ⟨-, hreg⟩ | ⟨k, -, -, rfl⟩
      · rwa [hreg] at hm
      · obtain ⟨e, he, rfl⟩ := List.mem_map.mp hm
        exact List.mem_map.mpr ⟨e, (List.mem_filter.mp he).1, rfl⟩

theorem listed_run {id : SessionId} (hid : id < c.board.nextId) (h : id ∉ c.listed)
    (as : List Action) : id < (c.run as).board.nextId ∧ id ∉ (c.run as).listed := by
  induction as generalizing c with
  | nil => exact ⟨hid, h⟩
  | cons a as ih =>
      obtain ⟨hid, h⟩ := listed_step hid h a
      exact ih hid h

/-- No session is on its way in or out. -/
def Settled (c : Coordinator) : Prop :=
  ∀ id stay, .session id stay ∈ c.tasks → stay = .present ∨ stay = .gone

/-- While no session comes or goes, those that are counted, those in the registry and those with a
place are the same. -/
theorem Counts.settled (h : c.Counts) (hs : c.Settled) :
    c.listed = c.holders ∧ c.board.live = c.holders.length := by
  have hkind : ∀ t ∈ c.tasks, t.listed? = t.holder? ∧ t.isCounted = t.holder?.isSome := by
    intro t hm
    cases t with
    | session id stay => rcases hs id stay hm with rfl | rfl <;> exact ⟨rfl, rfl⟩
    | signal _ | countdown _ => exact ⟨rfl, rfl⟩
  refine ⟨?_, ?_⟩
  · rw [h.listed, holders]
    exact List.filterMap_congr fun t hm => (hkind t hm).1
  · rw [h.live, holders, List.length_filterMap_eq_countP]
    exact List.countP_congr fun t hm => by rw [(hkind t hm).2]

end Coordinator

end TerminalGateway.Drain
