import TerminalGateway.Proofs.Process.Hearing
import TerminalGateway.Proofs.Process.Service
import TerminalGateway.Session.Scripted

/-!
How far a session can fall behind the countdown. One that waits for its server does not listen, and
once the server has answered it shows its client all that the buffer holds, from the oldest value to
the latest. Only where the whole countdown fits into the buffer does that never happen.
-/

namespace TerminalGateway.Process

open Drain

/-! ### What sessions show -/

section

variable {ρ : Type} [Remote ρ]

/-- What a session took is what its client is shown. One that fell behind and listens on takes all
that the buffer holds, and the latest value last. -/
structure Shows (v : Process ρ) (id : SessionId) (hs : List Hearing) : Prop where
  shown : ∀ k ∈ v.seats, k.id = id →
    Record.countdown k.session.record = hs.filterMap (·.reception.value?)
  fallsBack : FallsBack hs
  burst : ∀ k, v.seat? id = some k → k.session.isListening = true →
    k.subscription.position + Broadcast.capacity < v.told.length →
      v.hearings id (List.replicate (Broadcast.capacity + 1) (.hear id)) =
        ⟨.lagged (v.told.length - Broadcast.capacity - k.subscription.position), v.told⟩ ::
          (v.told.drop (v.told.length - Broadcast.capacity)).map fun x => ⟨.value x, v.told⟩

/-- There is one countdown at most. -/
def CountsOnce (v : Process ρ) : Prop := ∃ i, v.coordinator.Alone i

theorem coordinator_run (v : Process ρ) (es : List (Event ρ)) :
    ∃ as, (v.run es).coordinator = v.coordinator.run as := by
  induction es generalizing v with
  | nil => exact ⟨[], rfl⟩
  | cons e es ih =>
      obtain ⟨as, has⟩ := v.step_run e
      obtain ⟨as', has'⟩ := ih (v.step e)
      refine ⟨as ++ as', has'.trans ?_⟩
      rw [has, Coordinator.run, Coordinator.run, Coordinator.run, List.foldl_append]

theorem countsFrom_run {seconds : Nat} {es : List (Event ρ)}
    (h : ((start seconds : Process ρ).run es).CountsOnce) :
    CountsFrom seconds ((start seconds : Process ρ).run es).told := by
  obtain ⟨i, hi⟩ := h
  obtain ⟨as, has⟩ := coordinator_run (start seconds : Process ρ) es
  have hgrace : (Coordinator.start seconds).graceSeconds = seconds :=
    Nat.mul_div_cancel seconds (by omega)
  have hcounts : CountsFrom (Coordinator.start seconds).graceSeconds
      ((Coordinator.start seconds).run as).board.channel.sent :=
    Coordinator.countsFrom_run (List.forall_mem_nil _) rfl as (has ▸ hi)
  rw [hgrace] at hcounts
  rw [told, has]
  exact hcounts

theorem heard_run (seconds : Nat) (id : SessionId) (es : List (Event ρ)) :
    ((start seconds : Process ρ).run es).Heard id ((start seconds : Process ρ).hearings id es) :=
  (heard_start seconds id).run (seated_start seconds) es

theorem countsFrom_hearings {seconds : Nat} {es : List (Event ρ)} (id : SessionId)
    (h : ((start seconds : Process ρ).run es).CountsOnce) :
    ∀ k ∈ (start seconds : Process ρ).hearings id es, CountsFrom seconds k.told := fun k hk =>
  (countsFrom_run h).initial ((heard_run seconds id es).told k hk)

theorem shows_run {seconds : Nat} {es : List (Event ρ)} (id : SessionId)
    (h : ((start seconds : Process ρ).run es).CountsOnce) :
    ((start seconds : Process ρ).run es).Shows id
      ((start seconds : Process ρ).hearings id es) := by
  have hheard := heard_run seconds id es
  obtain ⟨s, hfollows⟩ := hheard.follows
  refine ⟨fun k hk hid => (hheard.seat k hk hid).2, hfollows.fallsBack (countsFrom_hearings id h),
    fun k hk hl hb => ?_⟩
  have hall : ((start seconds : Process ρ).run es).told.length -
      (((start seconds : Process ρ).run es).told.length - Broadcast.capacity) ≤
        Broadcast.capacity := by omega
  rw [hearings_behind hk hl hb, List.take_of_length_le (by simpa using hall)]

theorem run_cons (v : Process ρ) (e : Event ρ) (es : List (Event ρ)) :
    v.run (e :: es) = (v.step e).run es := rfl

theorem elapse_run (v : Process ρ) (n : Nat) :
    v.run (List.replicate n (.change .elapse)) =
      { v with
        coordinator := { v.coordinator with clock := v.coordinator.clock + n }
        seats := v.seats.map fun k =>
          { k with session := { k.session with clock := k.session.clock + n } } } := by
  induction n generalizing v with
  | zero => simp [run]
  | succ n ih =>
      rw [List.replicate_succ, run, List.foldl_cons]
      refine (ih _).trans ?_
      simp [step, Process.elapse, Session.step_elapse, Function.comp_def, Coordinator.step,
        Nat.add_right_comm, Nat.add_assoc]

end

/-! ### A session that waits for its server -/

def guest : Service.Arrival Script := { peer := "peer", config := Config.standard, remote := {} }

def guestLogin : Inbound := .ok (.auth ⟨⟨"h", 22, "user", some "pw", none, none⟩, none, none⟩)

/-- A client logs in, and a drain begins while its server is slow to answer. -/
def slowLogin : List (Event Script) :=
  [.change (.enter "peer"), .change (.proceed 0), .sit 0 guest, .session 0 (.message guestLogin),
    .change .signal, .change (.proceed 1), .change .countdown, .change (.proceed 2)]

/-- A second of the countdown passes. -/
def oneSecond : List (Event Script) :=
  .change (.proceed 2) :: List.replicate 1000 (.change .elapse) ++ [.change (.tick 2)]

/-- The session of that client after so many milliseconds. -/
def pending (clock : Nat) : Session Script :=
  { guest.session.step (.message guestLogin) with clock }

/-- The coordinator after `j` seconds of the countdown. -/
def countingDown (seconds j : Nat) : Coordinator where
  grace := seconds * 1000
  clock := 1000 * j
  board :=
    { live := 1
      draining := true
      registry := [(0, ⟨"peer", none⟩)]
      nextId := 1
      channel := ⟨(List.range (j + 1)).map (seconds - ·)⟩ }
  tasks := [.session 0 .present, .signal (.handled .draining),
    .countdown (.waiting (seconds - j) (1000 * (j + 1)) .unasked)]

def delayed (seconds j : Nat) : Process Script :=
  { coordinator := countingDown seconds j, seats := [⟨0, pending (1000 * j), ⟨0⟩⟩] }

theorem slowLogin_run {seconds : Nat} (h : 0 < seconds) :
    (start seconds : Process Script).run slowLogin = delayed seconds 0 := by
  have hgrace : seconds * 1000 / 1000 = seconds := Nat.mul_div_cancel seconds (by omega)
  have hbegan : (start seconds : Process Script).run slowLogin =
      ({ coordinator := { countingDown seconds 0 with
          board.channel := {}
          tasks := [.session 0 .present, .signal (.handled .draining), .countdown .starting] }
         seats := [⟨0, pending 0, ⟨0⟩⟩] } : Process Script).change (.proceed 2) := rfl
  rw [hbegan]
  simp [Process.change, granted?, Coordinator.step, Coordinator.proceedCountdown, delayed,
    countingDown, Coordinator.graceSeconds, hgrace, Nat.ne_of_gt h, Coordinator.put, Board.send,
    Broadcast.send]

theorem oneSecond_run {seconds j : Nat} (h : j + 1 < seconds) :
    (delayed seconds j).run oneSecond = delayed seconds (j + 1) := by
  let asked : List Task := [.session 0 .present, .signal (.handled .draining),
    .countdown (.waiting (seconds - j) (1000 * (j + 1)) .asked)]
  have hasked : (delayed seconds j).step (.change (.proceed 2)) =
      { coordinator := { countingDown seconds j with tasks := asked }
        seats := [⟨0, pending (1000 * j), ⟨0⟩⟩] } := rfl
  have hticked : ({ countingDown seconds j with
      clock := 1000 * j + 1000
      tasks := asked } : Coordinator).step (.tick 2) = countingDown seconds (j + 1) := by
    have hlast : seconds - j - 1 ≠ 0 := by omega
    have hdue : 1000 * (j + 1) ≤ 1000 * j + 1000 := by omega
    have hclock : 1000 * j + 1000 = 1000 * (j + 1) := by omega
    simp only [asked, Coordinator.step, List.getElem?_cons_succ, List.getElem?_cons_zero, hdue,
      if_true, Coordinator.tick, hlast, if_false, Coordinator.stopWaiting, Coordinator.put]
    rw [hclock]
    simp [Attention.isTold, countingDown, Board.send, Broadcast.send, List.range_succ, Nat.sub_sub]
    omega
  have hpending : ({ pending (1000 * j) with clock := 1000 * j + 1000 } : Session Script) =
      pending (1000 * (j + 1)) := rfl
  rw [oneSecond, run_append, run_cons, run_cons, hasked, elapse_run]
  simp only [run, List.foldl_nil, step, Process.change, granted?, Option.toList_none,
    List.append_nil, List.map_cons, List.map_nil]
  exact congrArg₂ (fun coordinator session => ({
    coordinator, seats := [⟨0, session, ⟨0⟩⟩] } : Process Script)) hticked hpending

theorem delayed_run {seconds j : Nat} (h : j < seconds) :
    (start seconds : Process Script).run (slowLogin ++ (List.replicate j oneSecond).flatten) =
      delayed seconds j := by
  induction j with
  | zero => simpa using slowLogin_run h
  | succ j ih =>
      rw [List.replicate_succ', List.flatten_append, ← List.append_assoc, run_append,
        ih (by omega), List.flatten_singleton, oneSecond_run h]

theorem alone_delayed (seconds j : Nat) : (delayed seconds j).coordinator.Alone 2 := by
  intro i t ht hc
  simp only [delayed, countingDown] at ht
  rcases i with _ | _ | _ | i
  · cases ht
    cases hc
  · cases ht
    cases hc
  · rfl
  · cases ht

/-- The server has answered, and the session listens again where it was. -/
theorem settled_delayed (seconds j : Nat) :
    let v := (delayed seconds j).step (.session 0 .settle)
    v.seat? 0 = some ⟨0, (pending (1000 * j)).step .settle, ⟨0⟩⟩ ∧
      ((pending (1000 * j)).step .settle).isListening = true ∧
        v.told = (List.range (j + 1)).map (seconds - ·) :=
  ⟨rfl, rfl, rfl⟩

/-- The server answers when `j` seconds have passed, and the session listens to the countdown. -/
def overtaken (j : Nat) : List (Event Script) :=
  slowLogin ++ (List.replicate j oneSecond).flatten ++
    .session 0 .settle :: List.replicate (Broadcast.capacity + 1) (.hear 0)

theorem hearings_overtaken {seconds j : Nat} (h : j < seconds) (hj : Broadcast.capacity ≤ j) :
    let told := (List.range (j + 1)).map (seconds - ·)
    (start seconds : Process Script).hearings 0 (overtaken j) =
      ⟨.lagged (j - 15), told⟩ :: (told.drop (j - 15)).map fun x => ⟨.value x, told⟩ := by
  intro told
  obtain ⟨hseat, hlisten, htold⟩ := settled_delayed seconds j
  have hsilent : ∀ e ∈ slowLogin ++ (List.replicate j oneSecond).flatten, ∀ k, e ≠ .hear k := by
    intro e he k
    simp only [List.mem_append, List.mem_flatten, List.mem_replicate] at he
    rcases he with he | ⟨_, ⟨-, rfl⟩, he⟩
    · simp only [slowLogin, List.mem_cons, List.not_mem_nil, or_false] at he
      rcases he with rfl | rfl | rfl | rfl | rfl | rfl | rfl | rfl <;> simp
    · simp only [oneSecond, List.cons_append, List.mem_cons, List.mem_append, List.mem_replicate,
        List.not_mem_nil, or_false] at he
      rcases he with rfl | ⟨-, rfl⟩ | rfl <;> simp
  have hlen : ((delayed seconds j).step (.session 0 .settle)).told.length = j + 1 := by
    simp [htold]
  have hburst := hearings_behind hseat hlisten
    (by rw [hlen]; simp only; omega) Broadcast.capacity
  rw [overtaken, hearings_append, hearings_of_silent hsilent, delayed_run h, List.nil_append,
    hearings, hburst, hlen, htold]
  simp only [Broadcast.capacity] at hj ⊢
  have hfirst : j + 1 - 16 = j - 15 := by omega
  have hfew : (told.drop (j - 15)).length ≤ 16 := by
    rw [List.length_drop, List.length_map, List.length_range]
    omega
  rw [hfirst, List.take_of_length_le hfew]
  rfl

theorem coordinator_overtaken {seconds j : Nat} (h : j < seconds) :
    ((start seconds : Process Script).run (overtaken j)).coordinator =
      ((delayed seconds j).step (.session 0 .settle)).coordinator := by
  rw [overtaken, run_append, delayed_run h, run_cons, coordinator_hears]

theorem countsOnce_overtaken {seconds j : Nat} (h : j < seconds) :
    ((start seconds : Process Script).run (overtaken j)).CountsOnce :=
  ⟨2, coordinator_overtaken h ▸ alone_delayed seconds j⟩

theorem told_overtaken {seconds j : Nat} (h : j < seconds) :
    ((start seconds : Process Script).run (overtaken j)).told =
      (List.range (j + 1)).map (seconds - ·) := by
  rw [told, coordinator_overtaken h]
  rfl

theorem not_skipsToLatest {seconds j : Nat} (h : j < seconds) (hj : Broadcast.capacity ≤ j) :
    ¬ SkipsToLatest ((start seconds : Process Script).hearings 0 (overtaken j)) := by
  intro hskips
  have hfalls := (shows_run 0 (countsOnce_overtaken h)).fallsBack
  have hall := hearings_overtaken h hj
  have hleft : 0 < (((List.range (j + 1)).map (seconds - ·)).drop (j - 15)).length := by
    rw [List.length_drop, List.length_map, List.length_range]
    omega
  obtain ⟨x, rest, hdrop⟩ := List.exists_cons_of_length_pos hleft
  generalize (List.range (j + 1)).map (seconds - ·) = told at hall hdrop
  rw [hall, hdrop] at hskips hfalls
  have hpair : [⟨.lagged (j - 15), told⟩, ⟨.value x, told⟩] <:+:
      (⟨.lagged (j - 15), told⟩ :: (x :: rest).map fun x => ⟨.value x, told⟩ : List Hearing) :=
    (List.prefix_append _ _).isInfix
  obtain ⟨-, latest, hlatest, hx⟩ := hfalls _ _ _ _ hpair
  have hlast := hskips _ _ _ _ hpair
  rw [hlatest] at hlast
  have hsame := Option.some.inj hlast
  omega

/-- Twenty seconds are left when a client begins to wait for its server, and three when the server
answers: the client is shown all the seconds from eighteen on before those three. -/
theorem burst_of_twenty :
    ((start 20 : Process Script).run (overtaken 17)).CountsOnce ∧
      ((start 20 : Process Script).run (overtaken 17)).told.getLast? = some 3 ∧
      ((start 20 : Process Script).hearings 0 (overtaken 17)).map (·.reception) =
        .lagged 2 :: ((List.range 16).map fun i => .value (18 - i)) ∧
      ¬ SkipsToLatest ((start 20 : Process Script).hearings 0 (overtaken 17)) := by
  have hj : Broadcast.capacity ≤ 17 := by decide
  refine ⟨countsOnce_overtaken (by decide), ?_, ?_, not_skipsToLatest (by decide) hj⟩
  · rw [told_overtaken (by decide)]
    rfl
  · rw [hearings_overtaken (by decide) hj]
    rfl

/-- Whatever becomes of its sessions, each shows its client what it takes of a countdown, and one
that fell behind goes on fifteen seconds late; so it skips to the latest value in every case exactly
if the whole countdown fits into the buffer. -/
theorem skips_to_latest_iff (seconds : Nat) :
    (∀ (ρ : Type) [Remote ρ] (id : SessionId) (es : List (Event ρ)),
      ((start seconds : Process ρ).run es).CountsOnce →
        ((start seconds : Process ρ).run es).Shows id
          ((start seconds : Process ρ).hearings id es)) ∧
    ((∀ (ρ : Type) [Remote ρ] (id : SessionId) (es : List (Event ρ)),
      ((start seconds : Process ρ).run es).CountsOnce →
        SkipsToLatest ((start seconds : Process ρ).hearings id es)) ↔
      seconds ≤ Broadcast.capacity) := by
  refine ⟨fun ρ _ id es h => shows_run id h, fun hskips => ?_, fun hle ρ _ id es h => ?_⟩
  · by_contra hlt
    have hlt : Broadcast.capacity < seconds := Nat.lt_of_not_le hlt
    exact not_skipsToLatest hlt (Nat.le_refl _) (hskips Script 0 _ (countsOnce_overtaken hlt))
  · obtain ⟨s, hfollows⟩ := (heard_run seconds id es).follows
    exact hfollows.skipsToLatest (countsFrom_hearings id h) hle

theorem skips_to_latest_iff_slow :
    ((start 20 : Process Script).run (overtaken 17)).CountsOnce ∧
      ((start 20 : Process Script).run (overtaken 17)).Shows 0
        ((start 20 : Process Script).hearings 0 (overtaken 17)) := by
  have h : ((start 20 : Process Script).run (overtaken 17)).CountsOnce :=
    countsOnce_overtaken (by decide)
  exact ⟨h, (skips_to_latest_iff 20).1 Script 0 (overtaken 17) h⟩

end TerminalGateway.Process
