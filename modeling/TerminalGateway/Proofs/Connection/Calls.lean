import TerminalGateway.Proofs.Connection.Requests
import TerminalGateway.Session.Basic

/-!
Calls of a connection in any order, whatever the server does: what each leaves behind and what it
asks of the server. There is a stream only while there is a link, and neither is forgotten before
the server was told.
-/

namespace TerminalGateway

/-- Whether what is asked is about links and channels below these numbers only. -/
def Ask.isWithin (links channels : Nat) : Ask → Prop
  | .dial _ _ => True
  | .authenticate link _ _ | .openChannel link | .disconnect link => link < links
  | .channel n _ => n < channels

theorem Ask.isWithin.mono {links channels links' channels' : Nat} {a : Ask}
    (h : a.isWithin links channels) (hl : links ≤ links') (hc : channels ≤ channels') :
    a.isWithin links' channels' := by
  cases a with
  | dial _ _ => trivial
  | authenticate _ _ _ | openChannel _ | disconnect _ => exact Nat.lt_of_lt_of_le h hl
  | channel _ _ => exact Nat.lt_of_lt_of_le h hc

namespace Connection

/-- A connection that was not used yet. -/
def start (peer : Peer) (readyTimeout : Nat) (readKey : Auth.KeyReader) : Connection :=
  { peer, readyTimeout, readKey }

/-- A call and its outcome. To close or to hang up never fails. -/
def perform (c : Connection) : Call → Connection × Outcome
  | .connect who => c.connect who
  | .shell t env => c.shell t env
  | .exec command t env => c.exec command t env
  | .write bytes => c.write bytes
  | .resize d => c.resize d
  | .closeStream => (c.closeStream, .ok ())
  | .hangUp => (c.hangUp, .ok ())

/-- All calls, one after another. -/
def performAll (c : Connection) (calls : List Call) : Connection :=
  calls.foldl (fun c call => (c.perform call).1) c

/-- What is asked to close the stream and the link. -/
def parting (c : Connection) : List Ask := c.closing ++ (c.handle.map .disconnect).toList

/-- What is asked on the stream. -/
def asking (c : Connection) (r : ChannelRequest) : List Ask :=
  (c.stream.map fun n => .channel n r).toList

variable {c d : Connection} {outcome : Outcome}

/-! ### What an operation does -/

theorem hangUp_eq (c : Connection) :
    c.hangUp = { c with handle := none, stream := none, asked := c.asked ++ c.parting } := by
  simp only [hangUp, closeStream_eq]
  rcases c with ⟨_, _, _, handle, _, _, _, _, _, _⟩
  cases handle with
  | none => simp [parting, closing]
  | some link => simp [parting, closing, ask]

theorem hangUp_hangUp (c : Connection) : c.hangUp.hangUp = c.hangUp := by
  simp [hangUp_eq, parting, closing]

theorem requestAll_single (c : Connection) (channel : Nat) (r : ChannelRequest) (words : String) :
    (c.requestAll channel [(r, words)]).1 = c.ask (.channel channel r) := by
  simp only [requestAll, request]
  split
  next hr => exact (Prod.mk.inj hr).1.symm
  next hr => exact (Prod.mk.inj hr).1.symm

theorem write_fst (c : Connection) (bytes : Octets) :
    (c.write bytes).1 = { c with asked := c.asked ++ c.asking (.data bytes) } := by
  rcases c with ⟨_, _, _, _, stream, _, _, _, _, _⟩
  cases stream with
  | none => simp [write, asking]
  | some n => exact requestAll_single _ _ _ _

theorem resize_fst (c : Connection) (size : Dimensions) :
    (c.resize size).1 = { c with asked := c.asked ++ c.asking (.resize size) } := by
  rcases c with ⟨_, _, _, _, stream, _, _, _, _, _⟩
  cases stream with
  | none => simp [resize, asking]
  | some n => exact requestAll_single _ _ _ _

/-- What an attempt to connect makes of a connection. -/
inductive Connects (c : Connection) (who : Credentials) : Connection → Outcome → Prop
  | connected (requests : List Auth.Request) (forwarded : List InteractivePrompt) :
      Connects c who
        { c with
          handle := some c.links
          stream := none
          pending := none
          links := c.links + 1
          asked := c.asked ++ c.parting ++
            .dial who.host who.port :: requests.map (.authenticate c.links who.username)
          forwarded }
        (.ok ())
  | failed (requests : List Auth.Request) (leave : List Ask) (forwarded : List InteractivePrompt)
      (f : Failure) (hl : leave <+: [.disconnect c.links]) :
      Connects c who
        { c with
          handle := none
          stream := none
          pending := none
          links := c.links + 1
          asked := c.asked ++ c.parting ++
            .dial who.host who.port ::
              (requests.map (.authenticate c.links who.username) ++ leave)
          forwarded }
        (.error f)

theorem connect_connects (hs : c.stream.isSome = true → c.handle.isSome = true)
    (who : Credentials) : Connects c who (c.connect who).1 (c.connect who).2 := by
  have hb : c.begin who =
      { c with
        handle := none, stream := none, asked := c.asked ++ c.parting, pending := some who } := by
    rcases c with ⟨_, _, _, handle, stream, _, _, _, _, _⟩
    cases handle with
    | none =>
        obtain rfl : stream = none := by simpa using hs
        simp [begin, parting, closing]
    | some link => simp [begin, hangUp_eq]
  unfold connect
  rw [hb]
  simp only [settle, establish, ask]
  split
  · unfold login
    generalize Auth.authenticate _ _ who = result
    obtain ⟨accepted, x⟩ := result
    cases accepted with
    | error _ =>
        simpa using @Connects.failed c who x.requests _
          (c.forwarded ++ x.forwarded) _ List.nil_prefix
    | ok accepted =>
        cases accepted with
        | true => simpa using @Connects.connected c who x.requests (c.forwarded ++ x.forwarded)
        | false =>
            simpa [ask] using @Connects.failed c who x.requests _
              (c.forwarded ++ x.forwarded) _ List.prefix_rfl
  · simpa using @Connects.failed c who [] _ c.forwarded _ List.nil_prefix

/-! ### What every connection keeps -/

/-- A connection whose stream is one of its link, and whose link and stream are numbered below the
next ones and were not given up. -/
structure Sound (c : Connection) : Prop where
  linked : c.stream.isSome = true → c.handle.isSome = true
  handle : ∀ link, c.handle = some link → link < c.links ∧ .disconnect link ∉ c.asked
  stream : ∀ n, c.stream = some n → n < c.channels ∧ .channel n .close ∉ c.asked
  asked : ∀ a ∈ c.asked, a.isWithin c.links c.channels

theorem sound_start (peer : Peer) (readyTimeout : Nat) (readKey : Auth.KeyReader) :
    (start peer readyTimeout readKey).Sound :=
  ⟨by simp [start], by simp [start], by simp [start], by simp [start]⟩

namespace Sound

theorem closing (h : c.Sound) : ∀ a ∈ c.closing, a.isWithin c.links c.channels := by
  intro a ha
  obtain ⟨n, hn, rfl⟩ : ∃ n, c.stream = some n ∧ .channel n .close = a := by
    simpa [Connection.closing] using ha
  exact (h.stream n hn).1

theorem closed (h : c.Sound) :
    ({ c with stream := none, asked := c.asked ++ c.closing } : Connection).Sound where
  linked := nofun
  handle link hl := by
    have hnot : .disconnect link ∉ c.closing := by simp [Connection.closing]
    exact ⟨(h.handle link hl).1, by simp [(h.handle link hl).2, hnot]⟩
  stream := nofun
  asked a ha := by
    rcases List.mem_append.mp ha with ha | ha
    · exact h.asked a ha
    · exact h.closing a ha

theorem parted (h : c.Sound) :
    ({ c with handle := none, stream := none, asked := c.asked ++ c.parting } :
      Connection).Sound where
  linked := nofun
  handle := nofun
  stream := nofun
  asked a ha := by
    rw [parting, ← List.append_assoc] at ha
    rcases List.mem_append.mp ha with ha | ha
    · exact h.closed.asked a ha
    · obtain ⟨link, hl, rfl⟩ : ∃ link, c.handle = some link ∧ .disconnect link = a := by
        simpa using ha
      exact (h.handle link hl).1

theorem used (h : c.Sound) {r : ChannelRequest} (hr : r ≠ .close) :
    ({ c with asked := c.asked ++ c.asking r } : Connection).Sound where
  linked := h.linked
  handle link hl := by
    have hnot : .disconnect link ∉ c.asking r := by simp [asking]
    exact ⟨(h.handle link hl).1, by simp [(h.handle link hl).2, hnot]⟩
  stream n hn := by
    have hnot : .channel n .close ∉ c.asking r := by simp [asking, hr]
    exact ⟨(h.stream n hn).1, by simp [(h.stream n hn).2, hnot]⟩
  asked a ha := by
    rcases List.mem_append.mp ha with ha | ha
    · exact h.asked a ha
    · obtain ⟨n, hn, rfl⟩ : ∃ n, c.stream = some n ∧ .channel n r = a := by
        simpa [asking] using ha
      exact (h.stream n hn).1

theorem connects (h : c.Sound) {who : Credentials} (hc : Connects c who d outcome) : d.Sound := by
  have hp := h.parted
  have hold : ∀ a ∈ c.asked ++ c.parting, a.isWithin (c.links + 1) c.channels := fun a ha =>
    (hp.asked a ha).mono (Nat.le_succ _) (Nat.le_refl _)
  have hnew : .disconnect c.links ∉ c.asked ++ c.parting := fun ha =>
    Nat.lt_irrefl _ (hp.asked _ ha)
  cases hc with
  | connected requests forwarded =>
      refine ⟨nofun, fun link hl => ?_, nofun, fun a ha => ?_⟩
      · obtain rfl : c.links = link := by simpa using hl
        exact ⟨Nat.lt_succ_self _, by simpa using hnew⟩
      · rcases List.mem_append.mp ha with ha | ha
        · exact hold a ha
        · simp only [List.mem_cons, List.mem_map] at ha
          rcases ha with rfl | ⟨r, -, rfl⟩
          · trivial
          · exact Nat.lt_succ_self _
  | failed requests leave forwarded f hl =>
      refine ⟨nofun, nofun, nofun, fun a ha => ?_⟩
      rcases List.mem_append.mp ha with ha | ha
      · exact hold a ha
      · simp only [List.mem_cons, List.mem_append, List.mem_map] at ha
        rcases ha with rfl | ⟨r, -, rfl⟩ | ha
        · trivial
        · exact Nat.lt_succ_self _
        · obtain rfl := List.mem_singleton.mp (hl.subset ha)
          exact Nat.lt_succ_self _

/-- A link opens its next channel and sets it up, with a stream on it or without. -/
theorem opened (h : c.Sound) {link : Nat} (hh : c.handle = some link) {stream : Option Nat}
    (hs : ∀ n, stream = some n → n = c.channels) {done : List ChannelRequest}
    (hd : .close ∉ done) :
    ({ c with
      stream
      channels := c.channels + 1
      asked := c.asked ++ .openChannel link :: done.map (.channel c.channels) } :
        Connection).Sound where
  linked _ := by simp [hh]
  handle l hl := ⟨(h.handle l hl).1, by simpa using (h.handle l hl).2⟩
  stream n hn := by
    obtain rfl := hs n hn
    have hnot : .channel c.channels .close ∉ c.asked := fun ha => Nat.lt_irrefl _ (h.asked _ ha)
    exact ⟨Nat.lt_succ_self _, by simp [hnot, hd]⟩
  asked a ha := by
    simp only [List.mem_append, List.mem_cons, List.mem_map] at ha
    rcases ha with ha | rfl | ⟨r, -, rfl⟩
    · exact (h.asked a ha).mono (Nat.le_refl _) (Nat.le_succ _)
    · exact (h.handle link hh).1
    · exact Nat.lt_succ_self _

theorem attaches (h : c.Sound) {plan : List ChannelRequest} (hp : .close ∉ plan)
    (ha : Attaches c plan d outcome) : d.Sound := by
  have hc := h.closed
  cases ha with
  | unlinked f hh => exact hc
  | @refused link f hh =>
      refine ⟨nofun, fun l hl => ?_, nofun, fun a ha => ?_⟩
      · exact ⟨(hc.handle l hl).1, by simpa using (hc.handle l hl).2⟩
      · rcases List.mem_append.mp ha with ha | ha
        · exact hc.asked a ha
        · obtain rfl := List.mem_singleton.mp ha
          exact (h.handle link hh).1
  | broken f hh hd => exact hc.opened hh (by simp) fun hm => hp (hd.subset hm)
  | attached hh => exact hc.opened hh (by simp [eq_comm]) hp

end Sound

/-- How a call that opens a stream sets up its channel. -/
def setUp? : Call → Option (List ChannelRequest)
  | .shell t env => some (plan env (some t) .shell)
  | .exec command t env => some (plan env t (.exec command))
  | _ => none

theorem perform_attaches (c : Connection) {call : Call} {requests : List ChannelRequest}
    (h : setUp? call = some requests) :
    Attaches c requests (c.perform call).1 (c.perform call).2 ∧ .close ∉ requests := by
  cases call with
  | shell t env =>
      obtain rfl := Option.some.inj h
      exact ⟨openStream_attaches c env (some t) .shell _, by simp [plan]⟩
  | exec command t env =>
      obtain rfl := Option.some.inj h
      exact ⟨openStream_attaches c env t (.exec command) _, by simp [plan]⟩
  | connect _ | write _ | resize _ | closeStream | hangUp => cases h

theorem Sound.perform (h : c.Sound) (call : Call) : (c.perform call).1.Sound := by
  cases call with
  | connect who => exact h.connects (connect_connects h.linked who)
  | shell t env =>
      obtain ⟨ha, hp⟩ := perform_attaches c (show setUp? (.shell t env) = some _ from rfl)
      exact h.attaches hp ha
  | exec command t env =>
      obtain ⟨ha, hp⟩ := perform_attaches c (show setUp? (.exec command t env) = some _ from rfl)
      exact h.attaches hp ha
  | write bytes => exact write_fst c bytes ▸ h.used (by simp)
  | resize d => exact resize_fst c d ▸ h.used (by simp)
  | closeStream =>
      show c.closeStream.Sound
      exact closeStream_eq c ▸ h.closed
  | hangUp =>
      show c.hangUp.Sound
      exact hangUp_eq c ▸ h.parted

theorem Sound.performAll (h : c.Sound) (calls : List Call) : (c.performAll calls).Sound := by
  induction calls generalizing c with
  | nil => exact h
  | cons call calls ih => exact ih (h.perform call)

/-! ### What callers rely on -/

/-- What each call leaves behind, and what it asks of the server. -/
structure Contract (c : Connection) : Prop where
  /-- There is a stream only while there is a link. -/
  linked : c.stream.isSome = true → c.handle.isSome = true
  /-- The next link and the next channel are new to the server. -/
  fresh : ∀ a ∈ c.asked, a.isWithin c.links c.channels
  /-- To connect is to part from the server first, and then to dial and log in on a new link. -/
  dialled : ∀ who, ∃ (requests : List Auth.Request) (leave : List Ask),
    (c.connect who).1.asked = c.asked ++ c.parting ++
      .dial who.host who.port :: (requests.map (.authenticate c.links who.username) ++ leave) ∧
    leave <+: [.disconnect c.links] ∧ ((c.connect who).2 = .ok () → leave = [])
  connected : ∀ who, (c.connect who).2 = .ok () →
    (c.connect who).1.handle = some c.links ∧ (c.connect who).1.stream = none
  unconnected : ∀ who f, (c.connect who).2 = .error f →
    (c.connect who).1.handle = none ∧ (c.connect who).1.stream = none
  /-- To open a stream is to close the one that there is first. -/
  reopened : ∀ call requests, setUp? call = some requests →
    (c.perform call).1.handle = c.handle ∧ c.asked ++ c.closing <+: (c.perform call).1.asked
  opened : ∀ call requests, setUp? call = some requests → (c.perform call).2 = .ok () →
    ∃ link, c.handle = some link ∧ (c.perform call).1.stream = some c.channels ∧
      (c.perform call).1.asked =
        c.asked ++ c.closing ++ .openChannel link :: requests.map (.channel c.channels)
  unopened : ∀ call requests f, setUp? call = some requests → (c.perform call).2 = .error f →
    (c.perform call).1.stream = none
  written : ∀ bytes, (c.write bytes).1.handle = c.handle ∧ (c.write bytes).1.stream = c.stream ∧
    (c.write bytes).1.asked = c.asked ++ c.asking (.data bytes)
  resized : ∀ d, (c.resize d).1.handle = c.handle ∧ (c.resize d).1.stream = c.stream ∧
    (c.resize d).1.asked = c.asked ++ c.asking (.resize d)
  closed : c.closeStream.handle = c.handle ∧ c.closeStream.stream = none ∧
    c.closeStream.asked = c.asked ++ c.closing
  /-- To hang up once more asks nothing of the server and changes nothing. -/
  hungUp : c.hangUp.handle = none ∧ c.hangUp.stream = none ∧
    c.hangUp.asked = c.asked ++ c.parting ∧ c.hangUp.hangUp = c.hangUp

theorem Connects.leaves {who : Credentials} (h : Connects c who d outcome) :
    (∃ (requests : List Auth.Request) (leave : List Ask),
      d.asked = c.asked ++ c.parting ++
        .dial who.host who.port :: (requests.map (.authenticate c.links who.username) ++ leave) ∧
      leave <+: [.disconnect c.links] ∧ (outcome = .ok () → leave = [])) ∧
    (outcome = .ok () → d.handle = some c.links ∧ d.stream = none) ∧
    ∀ f, outcome = .error f → d.handle = none ∧ d.stream = none := by
  cases h with
  | connected requests _ =>
      exact ⟨⟨requests, [], by simp, List.nil_prefix, fun _ => rfl⟩, fun _ => ⟨rfl, rfl⟩, nofun⟩
  | failed requests leave _ _ hl =>
      exact ⟨⟨requests, leave, rfl, hl, nofun⟩, nofun, fun _ _ => ⟨rfl, rfl⟩⟩

theorem Attaches.leaves {requests : List ChannelRequest} (h : Attaches c requests d outcome) :
    (d.handle = c.handle ∧ c.asked ++ c.closing <+: d.asked) ∧
    (outcome = .ok () → ∃ link, c.handle = some link ∧ d.stream = some c.channels ∧
      d.asked = c.asked ++ c.closing ++ .openChannel link :: requests.map (.channel c.channels)) ∧
    ∀ f, outcome = .error f → d.stream = none := by
  cases h with
  | unlinked _ _ => exact ⟨⟨rfl, List.prefix_rfl⟩, nofun, fun _ _ => rfl⟩
  | refused _ _ | broken _ _ _ => exact ⟨⟨rfl, List.prefix_append _ _⟩, nofun, fun _ _ => rfl⟩
  | attached hh =>
      exact ⟨⟨rfl, List.prefix_append _ _⟩, fun _ => ⟨_, hh, rfl, rfl⟩, nofun⟩

theorem Sound.contract (h : c.Sound) : c.Contract where
  linked := h.linked
  fresh := h.asked
  dialled who := (connect_connects h.linked who).leaves.1
  connected who := (connect_connects h.linked who).leaves.2.1
  unconnected who := (connect_connects h.linked who).leaves.2.2
  reopened _ _ hr := (perform_attaches c hr).1.leaves.1
  opened _ _ hr := (perform_attaches c hr).1.leaves.2.1
  unopened _ _ f hr := (perform_attaches c hr).1.leaves.2.2 f
  written bytes := by simp [write_fst]
  resized d := by simp [resize_fst]
  closed := by simp [closeStream_eq]
  hungUp := ⟨by simp [hangUp_eq], by simp [hangUp_eq], by simp [hangUp_eq], hangUp_hangUp c⟩

/-- A connection that asked more, and gave up no link and no stream before the server was told. -/
structure Follows (c d : Connection) : Prop where
  asked : c.asked <+: d.asked
  handle : ∀ link, c.handle = some link → d.handle = some link ∨ .disconnect link ∈ d.asked
  stream : ∀ n, c.stream = some n → d.stream = some n ∨ .channel n .close ∈ d.asked

theorem Follows.trans {e : Connection} (h : c.Follows d) (h' : d.Follows e) : c.Follows e where
  asked := h.asked.trans h'.asked
  handle link hl := by
    rcases h.handle link hl with hd | hd
    · exact h'.handle link hd
    · exact .inr (h'.asked.subset hd)
  stream n hn := by
    rcases h.stream n hn with hd | hd
    · exact h'.stream n hd
    · exact .inr (h'.asked.subset hd)

theorem mem_closing {n : Nat} (h : c.stream = some n) : .channel n .close ∈ c.closing := by
  simp [closing, h]

theorem mem_parting {link : Nat} (h : c.handle = some link) : .disconnect link ∈ c.parting := by
  simp [parting, h]

theorem Contract.follows (h : c.Contract) (call : Call) : c.Follows (c.perform call).1 := by
  have opens : ∀ {requests}, setUp? call = some requests → c.Follows (c.perform call).1 := by
    intro requests hr
    obtain ⟨hh, hp⟩ := h.reopened call requests hr
    refine ⟨(List.prefix_append _ _).trans hp, fun link hl => .inl (hh.trans hl), fun n hn => ?_⟩
    exact .inr (hp.subset (List.mem_append_right _ (mem_closing hn)))
  -- What is asked begins with the parting, whatever comes after it.
  have parts : ∀ {d : Connection}, c.asked ++ c.parting <+: d.asked → c.Follows d := by
    intro d hp
    refine ⟨(List.prefix_append _ _).trans hp, fun link hl => ?_, fun n hn => ?_⟩
    · exact .inr (hp.subset (List.mem_append_right _ (mem_parting hl)))
    · exact .inr (hp.subset (List.mem_append_right _ (List.mem_append_left _ (mem_closing hn))))
  cases call with
  | connect who =>
      obtain ⟨requests, leave, ha, -⟩ := h.dialled who
      exact parts (ha ▸ List.prefix_append _ _)
  | shell t env => exact opens rfl
  | exec command t env => exact opens rfl
  | write bytes =>
      obtain ⟨hh, hs, ha⟩ := h.written bytes
      exact ⟨ha ▸ List.prefix_append _ _, fun _ hl => .inl (hh.trans hl),
        fun _ hn => .inl (hs.trans hn)⟩
  | resize d =>
      obtain ⟨hh, hs, ha⟩ := h.resized d
      exact ⟨ha ▸ List.prefix_append _ _, fun _ hl => .inl (hh.trans hl),
        fun _ hn => .inl (hs.trans hn)⟩
  | closeStream =>
      obtain ⟨hh, -, ha⟩ := h.closed
      refine ⟨ha ▸ List.prefix_append _ _, fun _ hl => .inl (hh.trans hl), fun n hn => .inr ?_⟩
      exact ha ▸ List.mem_append_right _ (mem_closing hn)
  | hangUp => exact parts (h.hungUp.2.2.1 ▸ List.prefix_rfl)

/-- Every link and every stream that a connection once had it still has, or it told the server that
it gave it up. -/
theorem Sound.follows_performAll (h : c.Sound) (calls : List Call) :
    c.Follows (c.performAll calls) := by
  induction calls generalizing c with
  | nil => exact ⟨List.prefix_rfl, fun _ => .inl, fun _ => .inl⟩
  | cons call calls ih => exact (h.contract.follows call).trans (ih (h.perform call))

/-- The calls of a connection keep to their contract after any other calls, in any order and
whatever the server does. -/
theorem contract_performAll (peer : Peer) (readyTimeout : Nat) (readKey : Auth.KeyReader)
    (calls : List Call) : ((start peer readyTimeout readKey).performAll calls).Contract :=
  ((sound_start peer readyTimeout readKey).performAll calls).contract

/-- A server that lets everybody in and carries out everything is told of the end of a stream before
the next one is opened. -/
example :
    let peer : Peer :=
      { dial := fun _ => .ok (), decide := fun _ => .ok .accepted,
        converse := fun _ => .ok (.verdict .accepted), permit := fun _ => .ok () }
    let who : Credentials := ⟨"h", 22, "u", none, none, none⟩
    ((start peer 20000 fun _ _ => none).performAll
      [.connect who, .exec "a" none [], .exec "b" none [], .hangUp, .hangUp]).asked =
      [.dial "h" 22, .authenticate 0 "u" .none, .openChannel 0, .channel 0 (.exec "a"),
        .channel 0 .close, .openChannel 0, .channel 1 (.exec "b"), .channel 1 .close,
        .disconnect 0] := by
  decide

end Connection

end TerminalGateway
