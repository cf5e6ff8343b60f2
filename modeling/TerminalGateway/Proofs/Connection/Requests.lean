import TerminalGateway.Connection.Basic

/-!
What the operations of a connection ask on its channels. A channel is set up by one plan of
requests, up to the first that is not carried; what is asked on it later belongs to its use, and is
asked while it is the open stream.
-/

namespace TerminalGateway

namespace ChannelRequest

/-- A request of the use of a channel. -/
def isUse : ChannelRequest → Bool
  | .data _ | .resize _ | .close => true
  | _ => false

def isEnv : ChannelRequest → Bool
  | .env _ _ => true
  | _ => false

end ChannelRequest

namespace Connection

/-- What was asked on one channel. -/
def requestsOn (n : Nat) (asked : List Ask) : List ChannelRequest :=
  asked.filterMap fun a =>
    match a with
    | .channel k r => if k = n then some r else none
    | _ => none

/-- How a channel is set up: the environment, the terminal if there is one, and then the program. -/
def plan (env : Environment.Pairs) (terminal : Option Terminal) (program : ChannelRequest) :
    List ChannelRequest :=
  env.map (fun p => .env p.1 p.2) ++ (terminal.map .terminal).toList ++ [program]

/-- What was asked on a channel that was set up by a plan with an outcome: all of the plan and then
uses, or no more than its beginning. -/
inductive Accords (plan : List ChannelRequest) : Outcome → List ChannelRequest → Prop
  | stopped {f : Failure} {done : List ChannelRequest} (h : done <+: plan) :
      Accords plan (.error f) done
  | complete {uses : List ChannelRequest} (h : ∀ r ∈ uses, r.isUse = true) :
      Accords plan (.ok ()) (plan ++ uses)

variable {c d e : Connection} {n : Nat} {requests : List ChannelRequest} {outcome : Outcome}

/-! ### Requests on one channel -/

@[simp] theorem requestsOn_append (n : Nat) (asked new : List Ask) :
    requestsOn n (asked ++ new) = requestsOn n asked ++ requestsOn n new :=
  List.filterMap_append

theorem mem_requestsOn {asked : List Ask} {r : ChannelRequest} :
    r ∈ requestsOn n asked ↔ .channel n r ∈ asked := by
  rw [requestsOn, List.mem_filterMap]
  constructor
  · rintro ⟨a, hm, ha⟩
    cases a with
    | channel k r' =>
        obtain ⟨rfl, rfl⟩ : k = n ∧ r' = r := by simpa using ha
        exact hm
    | _ => cases ha
  · intro hm
    exact ⟨_, hm, if_pos rfl⟩

theorem requestsOn_eq_nil {asked : List Ask} (h : ∀ r, .channel n r ∉ asked) :
    requestsOn n asked = [] :=
  List.eq_nil_iff_forall_not_mem.mpr fun r hr => h r (mem_requestsOn.mp hr)

theorem requestsOn_map (n k : Nat) (requests : List ChannelRequest) :
    requestsOn n (requests.map (.channel k)) = if k = n then requests else [] := by
  induction requests with
  | nil => simp [requestsOn]
  | cons r requests ih =>
      rw [List.map_cons, requestsOn, List.filterMap_cons, ← requestsOn, ih]
      by_cases h : k = n <;> simp [h]

/-! ### Operations that open no channel -/

/-- What is asked to close the stream. -/
def closing (c : Connection) : List Ask := (c.stream.map fun n => .channel n .close).toList

theorem closeStream_eq (c : Connection) :
    c.closeStream = { c with stream := none, asked := c.asked ++ c.closing } := by
  rcases c with ⟨_, _, _, _, stream, _, _, _, asked, _⟩
  cases stream with
  | none => simp [closeStream, closing]
  | some n => rfl

/-- A connection that opened no channel, and asked nothing on one but uses of its stream. -/
structure Uses (c d : Connection) : Prop where
  channels : d.channels = c.channels
  stream : ∀ n, d.stream = some n → c.stream = some n
  asked : ∃ new, d.asked = c.asked ++ new ∧
    ∀ n r, .channel n r ∈ new → c.stream = some n ∧ r.isUse = true

namespace Uses

theorem same (hc : d.channels = c.channels) (hs : ∀ n, d.stream = some n → c.stream = some n)
    (ha : d.asked = c.asked) : c.Uses d :=
  ⟨hc, hs, [], by simp [ha], by simp⟩

theorem refl (c : Connection) : c.Uses c := same rfl (fun _ h => h) rfl

theorem trans (h : c.Uses d) (h' : d.Uses e) : c.Uses e := by
  obtain ⟨new, ha, hnew⟩ := h.asked
  obtain ⟨new', ha', hnew'⟩ := h'.asked
  refine ⟨h'.channels.trans h.channels, fun n hn => h.stream n (h'.stream n hn), new ++ new',
    by rw [ha', ha, List.append_assoc], fun n r hm => ?_⟩
  rcases List.mem_append.mp hm with hm | hm
  · exact hnew n r hm
  · exact ⟨h.stream n (hnew' n r hm).1, (hnew' n r hm).2⟩

theorem ask (c : Connection) {a : Ask} (h : ∀ n r, a ≠ .channel n r) : c.Uses (c.ask a) :=
  ⟨rfl, fun _ hn => hn, [a], rfl, fun n r hm => absurd (List.mem_singleton.mp hm).symm (h n r)⟩

theorem closeStream (c : Connection) : c.Uses c.closeStream := by
  unfold Connection.closeStream
  cases hs : c.stream with
  | none => exact refl c
  | some k =>
      refine ⟨rfl, nofun, [.channel k .close], rfl, fun n r hm => ?_⟩
      obtain ⟨rfl, rfl⟩ : n = k ∧ r = .close := by simpa using hm
      exact ⟨hs, rfl⟩

theorem hangUp (c : Connection) : c.Uses c.hangUp := by
  unfold Connection.hangUp
  refine (closeStream c).trans ?_
  dsimp only
  generalize c.closeStream = b
  split
  · rename_i link _
    exact ⟨rfl, fun _ h => h, [.disconnect link], rfl, by simp⟩
  · exact refl b

theorem begin (c : Connection) (who : Credentials) : c.Uses (c.begin who) := by
  unfold Connection.begin
  split
  · exact (hangUp c).trans (same rfl (fun _ h => h) rfl)
  · exact same rfl (fun _ h => h) rfl

theorem login (c : Connection) (link : Nat) (who : Credentials) :
    c.Uses (c.login link who).1 := by
  unfold Connection.login
  generalize Auth.authenticate _ c.readKey who = result
  obtain ⟨verdict, x⟩ := result
  have hasked : c.Uses { c with
      asked := c.asked ++ x.requests.map (.authenticate link who.username)
      forwarded := c.forwarded ++ x.forwarded } :=
    ⟨rfl, fun _ h => h, _, rfl, fun n r hm => by simp at hm⟩
  match verdict with
  | .ok true => exact hasked.trans (same rfl (fun _ h => h) rfl)
  | .ok false => exact hasked.trans (ask _ (by simp))
  | .error _ => exact hasked

theorem settle (c : Connection) : c.Uses c.settle.1 := by
  unfold Connection.settle
  split
  · rename_i who _
    have hdial : c.Uses { ({ c with pending := none } : Connection).ask
        (.dial who.host who.port) with links := c.links + 1 } :=
      ⟨rfl, fun _ h => h, [.dial who.host who.port], rfl, fun n r hm => by simp at hm⟩
    unfold Connection.establish
    dsimp only
    split
    · exact hdial.trans (login _ _ who)
    · exact hdial
  · exact refl c

end Uses

/-! ### One request after another -/

theorem requestAll_asks (c : Connection) (channel : Nat)
    (requests : List (ChannelRequest × String)) :
    ∃ done, done <+: requests.map (·.1) ∧
      (c.requestAll channel requests).1 =
        { c with asked := c.asked ++ done.map (.channel channel) } ∧
      ((c.requestAll channel requests).2 = .ok () → done = requests.map (·.1)) := by
  induction requests generalizing c with
  | nil => exact ⟨[], List.nil_prefix, by simp [requestAll], fun _ => rfl⟩
  | cons r rest ih =>
      obtain ⟨r, words⟩ := r
      simp only [requestAll, request]
      cases hp : c.peer.permit (c.asked ++ [.channel channel r]) with
      | error f =>
          refine ⟨[r], ?_, rfl, nofun⟩
          rw [List.map_cons, List.cons_prefix_cons]
          exact ⟨rfl, List.nil_prefix⟩
      | ok _ =>
          obtain ⟨done, hpre, hd, hok⟩ := ih (c.ask (.channel channel r))
          refine ⟨r :: done, ?_, ?_, fun h => ?_⟩
          · rw [List.map_cons, List.cons_prefix_cons]
            exact ⟨rfl, hpre⟩
          · dsimp only
            rw [hd]
            simp [ask]
          · rw [List.map_cons, hok h]

theorem requestAll_done {channel : Nat} {requests : List (ChannelRequest × String)}
    (h : c.requestAll channel requests = (d, outcome)) :
    ∃ done, done <+: requests.map (·.1) ∧
      d = { c with asked := c.asked ++ done.map (.channel channel) } ∧
      (outcome = .ok () → done = requests.map (·.1)) := by
  have hall := c.requestAll_asks channel requests
  rwa [h] at hall

/-- What is asked while a channel is the open stream, and does not set it up, is a use of it. -/
theorem Uses.requestAll (c : Connection) {channel : Nat} {r : ChannelRequest} {words : String}
    (hs : c.stream = some channel) (hr : r.isUse = true) :
    c.Uses (c.requestAll channel [(r, words)]).1 := by
  obtain ⟨done, hpre, hd, -⟩ := c.requestAll_asks channel [(r, words)]
  rw [hd]
  refine ⟨rfl, fun _ h => h, _, rfl, fun n r' hm => ?_⟩
  obtain ⟨_, hmem, heq⟩ := List.mem_map.mp hm
  injection heq with hn hr'
  subst hn hr'
  obtain rfl := List.mem_singleton.mp (hpre.subset hmem)
  exact ⟨hs, hr⟩

theorem Uses.write (c : Connection) (bytes : Octets) : c.Uses (c.write bytes).1 := by
  unfold Connection.write
  split
  · exact refl c
  · exact Uses.requestAll c ‹_› rfl

theorem Uses.resize (c : Connection) (size : Dimensions) : c.Uses (c.resize size).1 := by
  unfold Connection.resize
  split
  · exact refl c
  · exact Uses.requestAll c ‹_› rfl

/-! ### Opening a channel -/

theorem Accords.all (plan : List ChannelRequest) : Accords plan (.ok ()) plan := by
  have h : Accords plan (.ok ()) (plan ++ []) := .complete (by simp)
  rwa [List.append_nil] at h

/-- A connection that was to open a channel by a plan: there is no channel, or it is the next one
and what was asked on it accords with the plan. -/
inductive Opens (c : Connection) (plan : List ChannelRequest) (d : Connection) (outcome : Outcome) :
    Prop
  | refused (hu : c.Uses d)
  | opened {b : Connection} {done : List ChannelRequest} (hu : c.Uses b)
      (hc : d.channels = c.channels + 1)
      (ha : d.asked = b.asked ++ done.map (.channel c.channels)) (hd : Accords plan outcome done)
      (hs : ∀ n, d.stream = some n → n = c.channels ∧ outcome = .ok ())

/-- What an attempt to open a stream makes of a connection. -/
inductive Attaches (c : Connection) (plan : List ChannelRequest) : Connection → Outcome → Prop
  | unlinked (f : Failure) (hh : c.handle = none) :
      Attaches c plan { c with stream := none, asked := c.asked ++ c.closing } (.error f)
  | refused {link : Nat} (f : Failure) (hh : c.handle = some link) :
      Attaches c plan
        { c with stream := none, asked := c.asked ++ c.closing ++ [.openChannel link] } (.error f)
  | broken {link : Nat} {done : List ChannelRequest} (f : Failure) (hh : c.handle = some link)
      (hd : done <+: plan) :
      Attaches c plan
        { c with
          stream := none
          channels := c.channels + 1
          asked := c.asked ++ c.closing ++ .openChannel link :: done.map (.channel c.channels) }
        (.error f)
  | attached {link : Nat} (hh : c.handle = some link) :
      Attaches c plan
        { c with
          stream := some c.channels
          channels := c.channels + 1
          asked := c.asked ++ c.closing ++ .openChannel link :: plan.map (.channel c.channels) }
        (.ok ())

theorem openStream_attaches (c : Connection) (env : Environment.Pairs) (terminal : Option Terminal)
    (program : ChannelRequest) (words : String) :
    Attaches c (plan env terminal program) (c.openStream env terminal program words).1
      (c.openStream env terminal program words).2 := by
  have hb : c.closeStream = { c with stream := none, asked := c.asked ++ c.closing } :=
    c.closeStream_eq
  unfold openStream
  dsimp only
  generalize c.closeStream = b at hb ⊢
  subst hb
  split
  next hh => exact .unlinked _ hh
  next link hh =>
    simp only [request]
    split
    next d f hr =>
      obtain ⟨rfl, -⟩ := Prod.mk.inj hr
      exact .refused _ hh
    next d hr =>
      obtain ⟨rfl, -⟩ := Prod.mk.inj hr
      generalize hreq : env.map (fun p => (ChannelRequest.env p.1 p.2, "Failed to set " ++ p.1))
        ++ (terminal.map fun t => (ChannelRequest.terminal t, "PTY request failed")).toList
        ++ [(program, words)] = requests
      have hplan : requests.map (·.1) = plan env terminal program := by
        rw [← hreq, plan]
        cases terminal <;> simp
      split
      next d hd =>
        obtain ⟨done, -, rfl, hok⟩ := requestAll_done hd
        obtain rfl := hok rfl
        simpa [ask, hplan] using @Attaches.attached c (plan env terminal program) _ hh
      next d f hd =>
        obtain ⟨done, hpre, rfl, -⟩ := requestAll_done hd
        rw [hplan] at hpre
        simpa [ask] using Attaches.broken (c := c) f hh hpre

theorem openStream_opens (c : Connection) (env : Environment.Pairs) (terminal : Option Terminal)
    (program : ChannelRequest) (words : String) :
    c.Opens (plan env terminal program) (c.openStream env terminal program words).1
      (c.openStream env terminal program words).2 := by
  have hclose : c.Uses { c with stream := none, asked := c.asked ++ c.closing } :=
    closeStream_eq c ▸ Uses.closeStream c
  have hask : ∀ link,
      c.Uses { c with stream := none, asked := c.asked ++ c.closing ++ [.openChannel link] } :=
    fun link => hclose.trans (.ask _ (by simp))
  have ha := openStream_attaches c env terminal program words
  generalize c.openStream env terminal program words = result at ha ⊢
  obtain ⟨d, outcome⟩ := result
  cases ha with
  | unlinked _ _ => exact .refused hclose
  | refused _ _ => exact .refused (hask _)
  | @broken link _ _ _ hd => exact .opened (hask link) rfl (by simp) (.stopped hd) (by simp)
  | @attached link _ =>
      exact .opened (hask link) rfl (by simp) (.all _) fun n hn => ⟨(Option.some.inj hn).symm, rfl⟩

/-! ### What every channel keeps -/

/-- A connection each of whose channels was set up as `law` says. -/
structure Conducts (law : Nat → List ChannelRequest → Outcome → Prop) (c : Connection) : Prop where
  asked : ∀ n r, .channel n r ∈ c.asked → n < c.channels
  stream : ∀ n, c.stream = some n → n < c.channels
  accords : ∀ n, n < c.channels → ∃ plan outcome, law n plan outcome ∧
    Accords plan outcome (requestsOn n c.asked) ∧ (c.stream = some n → outcome = .ok ())

variable {law law' : Nat → List ChannelRequest → Outcome → Prop}

theorem Accords.use {plan uses : List ChannelRequest} (h : Accords plan (.ok ()) requests)
    (hu : ∀ r ∈ uses, r.isUse = true) : Accords plan (.ok ()) (requests ++ uses) := by
  cases h with
  | complete h =>
      rw [List.append_assoc]
      refine .complete fun r hr => ?_
      rcases List.mem_append.mp hr with hr | hr
      · exact h r hr
      · exact hu r hr

namespace Conducts

theorem mono (h : c.Conducts law)
    (hl : ∀ n plan outcome, law n plan outcome → law' n plan outcome) : c.Conducts law' where
  asked := h.asked
  stream := h.stream
  accords n hn := by
    obtain ⟨plan, outcome, hlaw, ha⟩ := h.accords n hn
    exact ⟨plan, outcome, hl _ _ _ hlaw, ha⟩

theorem uses (h : c.Conducts law) (hu : c.Uses d) : d.Conducts law := by
  obtain ⟨new, ha, hnew⟩ := hu.asked
  refine ⟨fun n r hm => ?_, fun n hn => ?_, fun n hn => ?_⟩
  · rw [hu.channels]
    rw [ha] at hm
    rcases List.mem_append.mp hm with hm | hm
    · exact h.asked n r hm
    · exact h.stream n (hnew n r hm).1
  · rw [hu.channels]
    exact h.stream n (hu.stream n hn)
  · rw [hu.channels] at hn
    obtain ⟨plan, outcome, hlaw, haccords, hstream⟩ := h.accords n hn
    refine ⟨plan, outcome, hlaw, ?_, fun hs => hstream (hu.stream n hs)⟩
    rw [ha, requestsOn_append]
    by_cases hs : c.stream = some n
    · obtain rfl := hstream hs
      exact haccords.use fun r hr => (hnew n r (mem_requestsOn.mp hr)).2
    · rw [requestsOn_eq_nil fun r hr => hs (hnew n r hr).1, List.append_nil]
      exact haccords

theorem opens (h : c.Conducts law) {plan : List ChannelRequest} (ho : c.Opens plan d outcome)
    (hl : law c.channels plan outcome) : d.Conducts law := by
  cases ho with
  | refused hu => exact h.uses hu
  | @opened b done hu hc ha hd hs =>
      have hb := h.uses hu
      have hch : b.channels = c.channels := hu.channels
      refine ⟨fun n r hm => ?_, fun n hn => ?_, fun n hn => ?_⟩
      · rw [ha] at hm
        rcases List.mem_append.mp hm with hm | hm
        · have hlt := hb.asked n r hm
          omega
        · obtain ⟨_, -, heq⟩ := List.mem_map.mp hm
          injection heq with hn
          omega
      · have heq := (hs n hn).1
        omega
      · rw [ha, requestsOn_append, requestsOn_map]
        by_cases hlast : c.channels = n
        · subst hlast
          have hnone : requestsOn c.channels b.asked = [] := by
            refine requestsOn_eq_nil fun r hr => ?_
            have hlt := hb.asked _ r hr
            omega
          refine ⟨plan, outcome, hl, ?_, fun hs' => (hs _ hs').2⟩
          simpa [hnone] using hd
        · obtain ⟨plan', outcome', hlaw, haccords, -⟩ := hb.accords n (by omega)
          refine ⟨plan', outcome', hlaw, ?_, fun hs' => absurd (hs n hs').1.symm hlast⟩
          simpa [hlast] using haccords

end Conducts

end Connection

end TerminalGateway
