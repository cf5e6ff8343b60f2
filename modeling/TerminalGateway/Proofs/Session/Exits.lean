import TerminalGateway.Proofs.Config
import TerminalGateway.Proofs.Session.Flow
import TerminalGateway.Session.Scripted

/-!
The exits of commands. The record of a session is read in chapters, one for each stream that it
opened; the chapter of a command tells of its exit once, and only where it tells of its end.
-/

namespace TerminalGateway

/-- One stream in a record: the message that asked for it, when and how it was opened, and all that
was done from then on until another one was opened. -/
structure Chapter where
  message : Option Inbound
  time : Nat
  opening : Call
  since : List (Nat × Entry) := []

/-- A record with the times of its entries: what stands before the first stream, and the chapters,
the last one first. -/
structure Chronicle where
  /-- The message taken up last. -/
  message : Option Inbound := none
  prelude : List (Nat × Entry) := []
  chapters : List Chapter := []

namespace Chronicle

def write (c : Chronicle) (xs : List (Nat × Entry)) : Chronicle :=
  match c.chapters with
  | [] => { c with prelude := c.prelude ++ xs }
  | chapter :: older =>
      { c with chapters := { chapter with since := chapter.since ++ xs } :: older }

def turnPage (c : Chronicle) (time : Nat) (call : Call) : Chronicle :=
  { c with chapters := ⟨c.message, time, call, []⟩ :: c.chapters }

def add (c : Chronicle) (time : Nat) (e : Entry) : Chronicle :=
  match e with
  | .called call _ => if e.opensStream then c.turnPage time call else c.write [(time, e)]
  | .handled m => { c.write [(time, e)] with message := some m }
  | e => c.write [(time, e)]

def addAll (c : Chronicle) (time : Nat) (es : List Entry) : Chronicle :=
  es.foldl (fun c e => c.add time e) c

/-- All that a chronicle tells, in order. -/
def entries (c : Chronicle) : List Entry :=
  c.prelude.map (·.2) ++ c.chapters.reverse.flatMap fun chapter =>
    .called chapter.opening (.ok ()) :: chapter.since.map (·.2)

end Chronicle

/-- The record of a run, read in chapters. -/
def Session.chronicle {ρ : Type} [Remote ρ] (s : Session ρ) (c : Chronicle) :
    List Session.Stimulus → Chronicle
  | [] => c
  | σ :: σs =>
      (s.step σ).chronicle (c.addAll s.clock ((s.step σ).record.drop s.record.length)) σs

namespace Entry

def tellsExit : Entry → Bool
  | .sent (.execExit _ _ _) => true
  | _ => false

def closesStream : Entry → Bool
  | .called .closeStream _ => true
  | _ => false

/-- A stream came to its end, or its time was up. -/
def isEnd : Entry → Bool
  | .received _ none | .received _ (some .closed) | .expired => true
  | _ => false

/-- The number of the stream that something was taken off. -/
def origin? : Entry → Option Nat
  | .received n _ => some n
  | _ => none

theorem opensStream_of_isStill {e : Entry} (h : e.isStill = true) : e.opensStream = false := by
  unfold opensStream
  split <;> simp_all [isStill]

theorem plain_of_isStill {e : Entry} (h : e.isStill = true) :
    e.tellsExit = false ∧ e.closesStream = false ∧ e.isEnd = false := by
  refine ⟨?_, ?_, ?_⟩
  · unfold tellsExit
    split <;> simp_all [isStill]
  · unfold closesStream
    split <;> simp_all [isStill]
  · unfold isEnd
    split <;> simp_all [isStill]

theorem origin?_of_isStill {e : Entry} (h : e.isStill = true) : e.origin? = none := by
  unfold origin?
  split <;> simp_all [isStill]

end Entry

def StreamEvent.code? : StreamEvent → Option Nat
  | .exitStatus code => some code
  | _ => none

def StreamEvent.signal? : StreamEvent → Option String
  | .exitSignal name => some name
  | _ => none

/-- What streams told last, of the things that `f` picks. -/
def lastTold? {α : Type} (f : StreamEvent → Option α) (es : List (Nat × Entry)) : Option α :=
  (es.filterMap fun x => match x.2 with
    | .received _ (some event) => f event
    | _ => none).getLast?

/-- Nothing about the end of a stream. -/
def Plain (es : List (Nat × Entry)) : Prop :=
  ∀ x ∈ es, x.2.tellsExit = false ∧ x.2.closesStream = false ∧ x.2.isEnd = false

/-- What may be told of a command that was asked for with `r` and begun at a time. -/
inductive Course (r : ExecRequest) (begun : Nat) : List (Nat × Entry) → Prop
  /-- It goes on, or was dropped. -/
  | unfinished {es : List (Nat × Entry)} (h : Plain es) : Course r begun es
  /-- It came to its end, with what its stream told of it. -/
  | finished {before after : List (Nat × Entry)} {time n : Nat} {e : Option StreamEvent}
      (he : e = none ∨ e = some .closed) (hb : Plain before) (ha : Plain after) :
      Course r begun (before ++
        [(time, .received n e),
          (time, .sent (.execExit (lastTold? StreamEvent.code? before)
            (lastTold? StreamEvent.signal? before) false)),
          (time, .called .closeStream (.ok ()))] ++ after)
  /-- It was cut off when its time was up. -/
  | cutOff {before after : List (Nat × Entry)} {time timeout : Nat}
      (hr : r.timeout = some timeout) (ht : begun + timeout ≤ time) (hb : Plain before)
      (ha : Plain after) :
      Course r begun (before ++
        [(time, .expired), (time, .called .closeStream (.ok ())),
          (time, .sent (.execExit none none true))] ++ after)

/-- A chapter is about a shell, of which no exit is ever told, or about a command. -/
inductive Chapter.Told : Chapter → Prop
  | shell {r : TerminalRequest} {time : Nat} {terminal : Terminal} {env : Environment.Pairs}
      {es : List (Nat × Entry)}
      (h : ∀ x ∈ es, x.2.tellsExit = false ∧ x.2.closesStream = false) :
      Told ⟨some (.ok (.terminal r)), time, .shell terminal env, es⟩
  | command {r : ExecRequest} {time : Nat} {terminal : Option Terminal} {env : Environment.Pairs}
      {es : List (Nat × Entry)} (h : Course r time es) :
      Told ⟨some (.ok (.exec r)), time, .exec r.command terminal env, es⟩

/-! ### Chapters that go on -/

theorem plain_of_still {es : List Entry} {time : Nat} (h : ∀ e ∈ es, e.isStill = true) :
    Plain (es.map (time, ·)) := by
  intro x hx
  obtain ⟨e, he, rfl⟩ := List.mem_map.mp hx
  exact Entry.plain_of_isStill (h e he)

theorem lastTold?_append {α : Type} {f : StreamEvent → Option α} {es more : List (Nat × Entry)}
    (h : ∀ x ∈ more, x.2.origin? = none) : lastTold? f (es ++ more) = lastTold? f es := by
  have hnil : (more.filterMap fun x => match x.2 with
      | .received _ (some event) => f event
      | _ => none) = [] := by
    refine List.filterMap_eq_nil_iff.mpr fun x hx => ?_
    split
    · rename_i hx'
      simpa [hx', Entry.origin?] using h x hx
    · rfl
  rw [lastTold?, List.filterMap_append, hnil, List.append_nil, lastTold?]

theorem lastTold?_taken {α : Type} {f : StreamEvent → Option α} {es : List (Nat × Entry)}
    {time n : Nat} {event : StreamEvent} :
    lastTold? f (es ++ [(time, .received n (some event))]) = (f event).or (lastTold? f es) := by
  cases hf : f event <;> simp [lastTold?, hf]

theorem plain_nil : Plain [] := by simp [Plain]

theorem plain_append {es es' : List (Nat × Entry)} (h : Plain es) (h' : Plain es') :
    Plain (es ++ es') := by
  intro x hx
  rcases List.mem_append.mp hx with hx | hx
  · exact h x hx
  · exact h' x hx

theorem Course.append {r : ExecRequest} {begun : Nat} {es more : List (Nat × Entry)}
    (h : Course r begun es) (hm : Plain more) : Course r begun (es ++ more) := by
  cases h with
  | unfinished hp => exact .unfinished (plain_append hp hm)
  | finished he hb ha =>
      rw [List.append_assoc]
      exact .finished he hb (plain_append ha hm)
  | cutOff hr ht hb ha =>
      rw [List.append_assoc]
      exact .cutOff hr ht hb (plain_append ha hm)

theorem Chapter.Told.append {chapter : Chapter} {more : List (Nat × Entry)} (h : chapter.Told)
    (hm : Plain more) : Told { chapter with since := chapter.since ++ more } := by
  cases h with
  | shell hs =>
      refine .shell fun x hx => ?_
      rcases List.mem_append.mp hx with hx | hx
      · exact hs x hx
      · exact ⟨(hm x hx).1, (hm x hx).2.1⟩
  | command hc => exact .command (hc.append hm)

/-- A chapter about the stream that is open. -/
inductive Chapter.Carries : Chapter → OpenStream → Prop
  | shell {r : TerminalRequest} {time : Nat} {terminal : Terminal} {env : Environment.Pairs}
      {es : List (Nat × Entry)} {st : OpenStream}
      (h : ∀ x ∈ es, x.2.tellsExit = false ∧ x.2.closesStream = false) (hk : st.kind = .shell) :
      Carries ⟨some (.ok (.terminal r)), time, .shell terminal env, es⟩ st
  | command {r : ExecRequest} {time : Nat} {terminal : Option Terminal} {env : Environment.Pairs}
      {es : List (Nat × Entry)} {st : OpenStream} (h : Plain es)
      (hk : st.kind = .exec (r.timeout.map (time + ·)))
      (hc : st.exitCode = lastTold? StreamEvent.code? es)
      (hs : st.exitSignal = lastTold? StreamEvent.signal? es) :
      Carries ⟨some (.ok (.exec r)), time, .exec r.command terminal env, es⟩ st

theorem Chapter.Carries.append {chapter : Chapter} {st : OpenStream}
    {more : List (Nat × Entry)} (h : chapter.Carries st) (hp : Plain more)
    (ho : ∀ x ∈ more, x.2.origin? = none) :
    Carries { chapter with since := chapter.since ++ more } st := by
  cases h with
  | shell hs hk =>
      refine .shell (fun x hx => ?_) hk
      rcases List.mem_append.mp hx with hx | hx
      · exact hs x hx
      · exact ⟨(hp x hx).1, (hp x hx).2.1⟩
  | command hes hk hc hs =>
      exact .command (plain_append hes hp) hk (hc.trans (lastTold?_append ho).symm)
        (hs.trans (lastTold?_append ho).symm)

theorem Chapter.Carries.told {chapter : Chapter} {st : OpenStream} (h : chapter.Carries st) :
    chapter.Told := by
  cases h with
  | shell hs _ => exact .shell hs
  | command hp _ _ _ => exact .command (.unfinished hp)

theorem plain_taken {time n : Nat} {event : StreamEvent} (h : event ≠ .closed) :
    Plain [(time, .received n (some event))] := by
  intro x hx
  obtain rfl := List.mem_singleton.mp hx
  cases event <;> simp_all [Entry.tellsExit, Entry.closesStream, Entry.isEnd]

theorem Chapter.Carries.heard {chapter : Chapter} {st : OpenStream} {time n : Nat}
    {event : StreamEvent} (h : chapter.Carries st) (he : event ≠ .closed) :
    Carries { chapter with since := chapter.since ++ [(time, .received n (some event))] }
      (st.heard event) := by
  have hkind : (st.heard event).kind = st.kind := by cases event <;> rfl
  cases h with
  | shell hs hk =>
      refine .shell (fun x hx => ?_) (hkind.trans hk)
      rcases List.mem_append.mp hx with hx | hx
      · exact hs x hx
      · exact ⟨(plain_taken he x hx).1, (plain_taken he x hx).2.1⟩
  | command hp hk hc hs =>
      refine .command (plain_append hp (plain_taken he)) (hkind.trans hk) ?_ ?_
      · rw [lastTold?_taken, ← hc]
        cases event <;> simp [OpenStream.heard, StreamEvent.code?]
      · rw [lastTold?_taken, ← hs]
        cases event <;> simp [OpenStream.heard, StreamEvent.signal?]

/-- Chapters that tell each of its own stream, by the number of the stream. -/
def Sound : List Chapter → Prop
  | [] => True
  | chapter :: older =>
      chapter.Told ∧ (∀ x ∈ chapter.since, ∀ n, x.2.origin? = some n → n = older.length) ∧
        Sound older

namespace Chronicle

variable {c : Chronicle} {es : List Entry} (time : Nat)

theorem addAll_chapters {chapter : Chapter} {older : List Chapter}
    (hc : c.chapters = chapter :: older) (h : ∀ e ∈ es, e.opensStream = false) :
    (c.addAll time es).prelude = c.prelude ∧
    (c.addAll time es).chapters =
      { chapter with since := chapter.since ++ es.map (time, ·) } :: older := by
  induction es generalizing c chapter with
  | nil => simp [addAll, hc]
  | cons e es ih =>
      have hadd : (c.add time e).prelude = c.prelude ∧ (c.add time e).chapters =
          { chapter with since := chapter.since ++ [(time, e)] } :: older := by
        have he := h e List.mem_cons_self
        cases e <;> simp_all [add, write]
      obtain ⟨hp, hcs⟩ := ih hadd.2 fun x hx => h x (List.mem_cons_of_mem e hx)
      refine ⟨hp.trans hadd.1, ?_⟩
      rw [show c.addAll time (e :: es) = (c.add time e).addAll time es from rfl, hcs]
      simp

theorem addAll_prelude (hc : c.chapters = []) (h : ∀ e ∈ es, e.opensStream = false) :
    (c.addAll time es).prelude = c.prelude ++ es.map (time, ·) ∧
      (c.addAll time es).chapters = [] := by
  induction es generalizing c with
  | nil => simp [addAll, hc]
  | cons e es ih =>
      have hadd : (c.add time e).prelude = c.prelude ++ [(time, e)] ∧
          (c.add time e).chapters = [] := by
        have he := h e List.mem_cons_self
        cases e <;> simp_all [add, write]
      obtain ⟨hp, hcs⟩ := ih hadd.2 fun x hx => h x (List.mem_cons_of_mem e hx)
      refine ⟨?_, hcs⟩
      rw [show c.addAll time (e :: es) = (c.add time e).addAll time es from rfl, hp, hadd.1]
      simp

theorem entries_write (c : Chronicle) (xs : List (Nat × Entry)) :
    (c.write xs).entries = c.entries ++ xs.map (·.2) := by
  unfold write
  split
  · rename_i hc
    simp [entries, hc]
  · rename_i hc
    simp [entries, hc]

theorem entries_add (c : Chronicle) (e : Entry) : (c.add time e).entries = c.entries ++ [e] := by
  cases e with
  | called call outcome =>
      unfold add
      dsimp only
      split
      · rename_i ho
        obtain rfl : outcome = .ok () := by
          unfold Entry.opensStream at ho
          split at ho <;> simp_all
        simp [entries, turnPage]
      · exact entries_write c _
  | _ => exact entries_write c _

theorem entries_addAll (c : Chronicle) (es : List Entry) :
    (c.addAll time es).entries = c.entries ++ es := by
  induction es generalizing c with
  | nil => simp [addAll]
  | cons e es ih =>
      rw [show c.addAll time (e :: es) = (c.add time e).addAll time es from rfl, ih, entries_add]
      simp

end Chronicle

namespace Session

variable {ρ : Type} {s t : Session ρ} {c : Chronicle} {chapter : Chapter} {older : List Chapter}
  {es : List Entry}

/-! ### What a session does to its chapters -/

/-- The chapters are those of the streams that the session opened, and the last of them is about the
stream that is open. -/
structure Follows (c : Chronicle) (s : Session ρ) : Prop where
  opened : c.chapters.length = s.opened
  prelude : ∀ x ∈ c.prelude, x.2.tellsExit = false
  sound : Sound c.chapters
  current : ∀ st, s.stream = some st →
    ∃ chapter older, c.chapters = chapter :: older ∧ s.receiver = some older.length ∧
      chapter.Carries st

theorem follows_start (config : Config) (remote : ρ) (cached : Option Credentials)
    (env : Environment.Pairs) : Follows {} (start config remote cached env) :=
  ⟨rfl, by simp, trivial, by simp [start]⟩

/-- The last chapter goes on. -/
theorem Follows.extend (h : Follows c s) (hc : c.chapters = chapter :: older) {time : Nat}
    (hes : ∀ e ∈ es, e.opensStream = false)
    (ht : Chapter.Told { chapter with since := chapter.since ++ es.map (time, ·) })
    (hn : ∀ e ∈ es, ∀ n, e.origin? = some n → n = older.length) (ho : t.opened = s.opened)
    (hcur : ∀ st, t.stream = some st → t.receiver = some older.length ∧
      Chapter.Carries { chapter with since := chapter.since ++ es.map (time, ·) } st) :
    Follows (c.addAll time es) t := by
  obtain ⟨hp, hcs⟩ := Chronicle.addAll_chapters time hc hes
  have hsound := h.sound
  rw [hc] at hsound
  refine ⟨?_, by simpa only [hp] using h.prelude, ?_, fun st hst => ?_⟩
  · rw [hcs, ho, ← h.opened, hc]
    rfl
  · rw [hcs]
    refine ⟨ht, fun x hx n hx' => ?_, hsound.2.2⟩
    rcases List.mem_append.mp hx with hx | hx
    · exact hsound.2.1 x hx n hx'
    · obtain ⟨e, he, rfl⟩ := List.mem_map.mp hx
      exact hn e he n hx'
  · obtain ⟨hr, hcarry⟩ := hcur st hst
    exact ⟨_, older, hcs, hr, hcarry⟩

theorem Follows.aside (h : Follows c s) {time : Nat} (he : ∀ e ∈ es, e.isStill = true)
    (ho : t.opened = s.opened)
    (hs : t.stream = s.stream ∧ t.receiver = s.receiver ∨ t.stream = none ∧ t.receiver = none) :
    Follows (c.addAll time es) t := by
  have hopens : ∀ e ∈ es, e.opensStream = false := fun e hm =>
    Entry.opensStream_of_isStill (he e hm)
  have horigin : ∀ x ∈ es.map (time, ·), x.2.origin? = none := by
    intro x hx
    obtain ⟨e, hm, rfl⟩ := List.mem_map.mp hx
    exact Entry.origin?_of_isStill (he e hm)
  have hplain : Plain (es.map (time, ·)) := plain_of_still he
  cases hc : c.chapters with
  | nil =>
      obtain ⟨hp, hcs⟩ := Chronicle.addAll_prelude time hc hopens
      refine ⟨?_, ?_, by simp [hcs, Sound], fun st hst => ?_⟩
      · rw [hcs, ho, ← h.opened, hc]
      · rw [hp]
        intro x hx
        rcases List.mem_append.mp hx with hx | hx
        · exact h.prelude x hx
        · exact (hplain x hx).1
      · rcases hs with ⟨hst', -⟩ | ⟨hst', -⟩
        · obtain ⟨_, _, hc', -⟩ := h.current st (hst' ▸ hst)
          simp [hc] at hc'
        · simp [hst'] at hst
  | cons chapter older =>
      have hsound := h.sound
      rw [hc] at hsound
      refine h.extend hc hopens (hsound.1.append hplain) (fun e hm n hn => ?_) ho fun st hst => ?_
      · simp [Entry.origin?_of_isStill (he e hm)] at hn
      · rcases hs with ⟨hst', hr⟩ | ⟨hst', -⟩
        · obtain ⟨_, _, hc', hr', hcarry⟩ := h.current st (hst' ▸ hst)
          obtain ⟨rfl, rfl⟩ := List.cons.inj (hc.symm.trans hc')
          exact ⟨hr.trans hr', hcarry.append hplain horigin⟩
        · simp [hst'] at hst

theorem Follows.opens (h : Follows c s) {m : Inbound} {call : Call} {kind : StreamKind}
    (hop : Opens s.clock m call kind) (hs : t.stream = some { kind })
    (hr : t.receiver = some s.opened) (ho : t.opened = s.opened + 1) :
    Follows (c.addAll s.clock [.handled m, .called call (.ok ())]) t := by
  -- the message still belongs to the chapter before, and the new one begins with the call
  have hm : Follows (c.addAll s.clock [.handled m]) s :=
    h.aside (by simp [Entry.isStill]) rfl (.inl ⟨rfl, rfl⟩)
  have hmessage : (c.addAll s.clock [.handled m]).message = some m := rfl
  have hsplit : c.addAll s.clock [.handled m, .called call (.ok ())] =
      (c.addAll s.clock [.handled m]).add s.clock (.called call (.ok ())) := rfl
  rw [hsplit]
  generalize c.addAll s.clock [.handled m] = d at hm hmessage
  have hnew : d.add s.clock (.called call (.ok ())) =
      { d with chapters := ⟨some m, s.clock, call, []⟩ :: d.chapters } := by
    cases hop <;> simp [Chronicle.add, Chronicle.turnPage, Entry.opensStream, hmessage]
  rw [hnew]
  refine ⟨by simp [hm.opened, ho], hm.prelude, ⟨?_, by simp, hm.sound⟩, fun st hst => ?_⟩
  · cases hop with
    | shell => exact .shell (by simp)
    | exec => exact .command (.unfinished plain_nil)
  · obtain rfl := Option.some.inj (hs.symm.trans hst)
    refine ⟨_, _, rfl, by rw [hr, hm.opened], ?_⟩
    cases hop with
    | shell => exact .shell (by simp) rfl
    | exec => exact .command plain_nil rfl rfl rfl

/-- A stream came to its end in some way, and its chapter tells of it. -/
theorem Follows.over (h : Follows c s) {st : OpenStream} {n : Nat} (hs : s.stream = some st)
    (hn : s.receiver = some n) {time : Nat} (hes : ∀ e ∈ es, e.opensStream = false)
    (horigin : ∀ e ∈ es, ∀ i, e.origin? = some i → i = n) (ho : t.opened = s.opened)
    (ht : t.stream = none)
    (htold : ∀ chapter : Chapter, chapter.Carries st →
      Chapter.Told { chapter with since := chapter.since ++ es.map (time, ·) }) :
    Follows (c.addAll time es) t := by
  obtain ⟨chapter, older, hc, hr, hcarry⟩ := h.current st hs
  obtain rfl := Option.some.inj (hn.symm.trans hr)
  exact h.extend hc hes (htold _ hcarry) horigin ho (by simp [ht])

variable [Remote ρ]

theorem Follows.flows (h : Follows c s) {σ : Stimulus} (hf : Flows s σ t)
    (he : t.record = s.record ++ es) : Follows (c.addAll s.clock es) t := by
  have hes : ∀ {es'}, t.record = s.record ++ es' → es' = es := fun hr =>
    List.append_cancel_left (hr.symm.trans he)
  cases hf with
  | aside _ ha =>
      obtain ⟨es', hr, hstill⟩ := ha.record
      obtain rfl := hes hr
      exact h.aside hstill ha.opened ha.stream
  | opened _ _ hop hr hs hk ho =>
      obtain rfl := hes hr
      exact h.opens hop hs hk ho
  | @heard _ n e st hne hn hs ht hr hk ho =>
      obtain rfl := hes hr
      obtain ⟨chapter, older, hc, hlast, hcarry⟩ := h.current st hs
      obtain rfl := Option.some.inj (hn.symm.trans hlast)
      have hnew : Chapter.Carries { chapter with since := chapter.since ++
          (Entry.received older.length (some e) ::
            e.payload?.toList.map fun bytes => .sent (.data bytes)).map (s.clock, ·) }
          (st.heard e) := by
        rw [List.map_cons, List.append_cons]
        refine (hcarry.heard hne).append ?_ ?_
        · cases e.payload? <;> simp [Plain, Entry.tellsExit, Entry.closesStream, Entry.isEnd]
        · cases e.payload? <;> simp [Entry.origin?]
      refine h.extend hc ?_ hnew.told ?_ ho fun st' hst => ?_
      · cases e.payload? <;> simp [Entry.opensStream]
      · cases e.payload? <;> simp [Entry.origin?, eq_comm]
      · obtain rfl := Option.some.inj (ht.symm.trans hst)
        exact ⟨hk.trans hlast, hnew⟩
  | @exited n e st deadline he' hn hs hk =>
      obtain rfl := hes (List.append_assoc _ _ _)
      refine h.over hs hn (by simp [Entry.opensStream]) (by simp [Entry.origin?, eq_comm]) rfl rfl
        ?_
      intro chapter hcarry
      cases hcarry with
      | shell _ hk' => simp [hk] at hk'
      | command hp _ hcode hsignal =>
          rw [hcode, hsignal]
          exact .command (by simpa using Course.finished he' hp plain_nil)
  | @broke _ n e st hend hn hs ha ht _ =>
      -- a shell that told of its end, or a stream that failed: no exit is told of either
      obtain ⟨rest, hr, hstill⟩ := ha.record
      rw [record_note, List.append_assoc] at hr
      obtain rfl := hes hr
      have hrest : Plain (rest.map (s.clock, ·)) := plain_of_still hstill
      refine h.over hs hn ?_ ?_ ha.opened ht fun chapter hcarry => ?_
      · exact List.forall_mem_cons.mpr ⟨rfl, fun x hx => Entry.opensStream_of_isStill (hstill x hx)⟩
      · refine List.forall_mem_cons.mpr ⟨by simp [Entry.origin?, eq_comm], fun x hx i hi => ?_⟩
        simp [Entry.origin?_of_isStill (hstill x hx)] at hi
      · rcases hend with ⟨-, hk⟩ | ⟨f, rfl⟩
        · cases hcarry with
          | command _ hk' _ _ => simp [hk] at hk'
          | shell hshell _ =>
              refine .shell fun x hx => ?_
              rcases List.mem_append.mp hx with hx | hx
              · exact hshell x hx
              rcases List.mem_cons.mp hx with rfl | hx
              · exact ⟨rfl, rfl⟩
              · exact ⟨(hrest x hx).1, (hrest x hx).2.1⟩
        · exact hcarry.told.append (plain_append (plain_taken (by simp)) hrest)
  | @expired n st deadline hn hs hk hd =>
      obtain rfl := hes rfl
      refine h.over hs hn (by simp [Entry.opensStream]) (by simp [Entry.origin?]) rfl rfl ?_
      intro chapter hcarry
      cases hcarry with
      | shell _ hk' => simp [hk] at hk'
      | @command r time _ _ _ _ hp hk' _ _ =>
          obtain ⟨timeout, htimeout, rfl⟩ : ∃ timeout, r.timeout = some timeout ∧
              time + timeout = deadline := by
            simpa [hk] using hk'.symm
          exact .command (by simpa using Course.cutOff htimeout hd hp plain_nil)

theorem Follows.step (h : Follows c s) (hs : s.Coherent) (σ : Stimulus) :
    Follows (c.addAll s.clock ((s.step σ).record.drop s.record.length)) (s.step σ) := by
  rcases hs.step_cases σ with ⟨-, heq⟩ | heq | ⟨-, hm⟩
  · simpa [heq, Chronicle.addAll] using (⟨h.opened, h.prelude, h.sound, h.current⟩ :
      Follows c { s with clock := s.clock + 1 })
  · simpa [heq, Chronicle.addAll] using h
  · have hf := hm.flows hs
    obtain ⟨es, hr⟩ := hf.record
    exact h.flows hf (by rw [hr, List.drop_left])

theorem Follows.run (h : Follows c s) (hs : s.Coherent) (σs : List Stimulus) :
    Follows (s.chronicle c σs) (s.run σs) := by
  induction σs generalizing s c with
  | nil => exact h
  | cons σ σs ih => exact ih (h.step hs σ) (hs.step σ)

theorem entries_chronicle (h : c.entries = s.record) (hs : s.Coherent) (σs : List Stimulus) :
    (s.chronicle c σs).entries = (s.run σs).record := by
  induction σs generalizing s c with
  | nil => exact h
  | cons σ σs ih =>
      refine ih ?_ (hs.step σ)
      obtain ⟨es, hr⟩ : ∃ es, (s.step σ).record = s.record ++ es := by
        rcases hs.step_cases σ with ⟨-, heq⟩ | heq | ⟨-, hm⟩
        · exact ⟨[], by simp [heq]⟩
        · exact ⟨[], by simp [heq]⟩
        · exact (hm.flows hs).record
      rw [Chronicle.entries_addAll, h, hr, List.drop_left]

/-- A session that tells of the exit of a command may go on with another one. -/
theorem Flows.exits {σ : Stimulus} (h : Flows s σ t) (he : t.record = s.record ++ es)
    (hx : ∃ e ∈ es, e.tellsExit = true) :
    t.phase = .connected ∧ t.stream = none ∧ t.receiver = none := by
  obtain ⟨e, hm, hx⟩ := hx
  have hes : ∀ {es'}, t.record = s.record ++ es' → es' = es := fun hr =>
    List.append_cancel_left (hr.symm.trans he)
  cases h with
  | aside _ ha =>
      obtain ⟨es', hr, hstill⟩ := ha.record
      obtain rfl := hes hr
      simp [(Entry.plain_of_isStill (hstill e hm)).1] at hx
  | opened _ _ _ hr _ _ _ =>
      obtain rfl := hes hr
      simp only [List.mem_cons, List.not_mem_nil, or_false] at hm
      rcases hm with rfl | rfl <;> simp [Entry.tellsExit] at hx
  | @heard _ _ e' _ _ _ _ _ hr _ _ =>
      obtain rfl := hes hr
      cases hp : e'.payload? with
      | none =>
          obtain rfl : e = _ := by simpa [hp] using hm
          simp [Entry.tellsExit] at hx
      | some bytes =>
          simp only [hp, Option.toList, List.map_cons, List.map_nil, List.mem_cons,
            List.not_mem_nil, or_false] at hm
          rcases hm with rfl | rfl <;> simp [Entry.tellsExit] at hx
  | exited _ _ _ _ | expired _ _ _ _ => exact ⟨rfl, rfl, rfl⟩
  | broke _ _ _ ha _ _ =>
      obtain ⟨rest, hr, hstill⟩ := ha.record
      rw [record_note, List.append_assoc] at hr
      obtain rfl := hes hr
      rcases List.mem_cons.mp hm with rfl | hm
      · simp [Entry.tellsExit] at hx
      · simp [(Entry.plain_of_isStill (hstill e hm)).1] at hx

theorem Coherent.exits (hs : s.Coherent) {σ : Stimulus}
    (hx : ∃ e ∈ (s.step σ).record.drop s.record.length, e.tellsExit = true) :
    (s.step σ).phase = .connected ∧ (s.step σ).stream = none ∧ (s.step σ).receiver = none := by
  rcases hs.step_cases σ with ⟨-, heq⟩ | heq | ⟨-, hm⟩
  · simp [heq] at hx
  · simp [heq] at hx
  · have hf := hm.flows hs
    obtain ⟨es, hr⟩ := hf.record
    rw [hr, List.drop_left] at hx
    exact hf.exits hr hx

omit [Remote ρ] in
theorem sound_chapter {chapters newer : List Chapter} (h : Sound chapters)
    (hc : chapters = newer ++ chapter :: older) :
    chapter.Told ∧ ∀ x ∈ chapter.since, ∀ n, x.2.origin? = some n → n = older.length := by
  induction newer generalizing chapters with
  | nil =>
      subst hc
      exact ⟨h.1, h.2.1⟩
  | cons _ newer ih =>
      subst hc
      exact ih h.2.2 rfl

omit [Remote ρ] in
/-- The time of an open stream is up when the request for it says so, however much came between. -/
theorem Follows.due (h : Follows c s) {st : OpenStream} (hs : s.stream = some st) :
    ∃ chapter older, c.chapters = chapter :: older ∧ s.receiver = some older.length ∧
      (s.isDue = true ↔ ∃ r timeout, chapter.message = some (.ok (.exec r)) ∧
        r.timeout = some timeout ∧ chapter.time + timeout ≤ s.clock) := by
  obtain ⟨chapter, older, hc, hr, hcarry⟩ := h.current st hs
  refine ⟨chapter, older, hc, hr, ?_⟩
  cases hcarry with
  | shell _ hk => simp [isDue, hs, OpenStream.deadline?, hk]
  | @command r time _ _ _ _ _ hk _ _ =>
      cases ht : r.timeout <;> simp [isDue, hs, OpenStream.deadline?, hk, ht]

end Session

/-- The chapters of commands tell as many exits, and as many closings of streams, as ends; that is
one at most. -/
theorem Course.counts {r : ExecRequest} {begun : Nat} {es : List (Nat × Entry)}
    (h : Course r begun es) :
    es.countP (·.2.tellsExit) = es.countP (·.2.isEnd) ∧
      es.countP (·.2.closesStream) = es.countP (·.2.isEnd) ∧ es.countP (·.2.isEnd) ≤ 1 := by
  have hplain : ∀ {es : List (Nat × Entry)}, Plain es → es.countP (·.2.tellsExit) = 0 ∧
      es.countP (·.2.closesStream) = 0 ∧ es.countP (·.2.isEnd) = 0 := by
    intro es hp
    simp only [List.countP_eq_zero, Bool.not_eq_true]
    exact ⟨fun x hx => (hp x hx).1, fun x hx => (hp x hx).2.1, fun x hx => (hp x hx).2.2⟩
  cases h with
  | unfinished hp => simp [hplain hp]
  | finished he hb ha =>
      simp only [List.countP_append, hplain hb, hplain ha, Nat.zero_add, Nat.add_zero]
      rcases he with rfl | rfl <;> exact ⟨rfl, rfl, Nat.le_refl 1⟩
  | cutOff _ _ hb ha =>
      simp only [List.countP_append, hplain hb, hplain ha, Nat.zero_add, Nat.add_zero]
      exact ⟨rfl, rfl, Nat.le_refl 1⟩

/-- The exit of a command is told once if the command comes to its end or is cut off, and in no
other case. It is told of what its own stream said last, or that its time was up; and the session
may then go on with another command. -/
theorem exits_told_once {ρ : Type} [Remote ρ] (config : Config) (remote : ρ)
    (cached : Option Credentials) (env : Environment.Pairs) (σs : List Session.Stimulus) :
    let begun := Session.start config remote cached env
    let s := begun.run σs
    let c := begun.chronicle {} σs
    c.entries = s.record ∧ c.chapters.length = s.opened ∧
    (∀ x ∈ c.prelude, x.2.tellsExit = false) ∧
    (∀ newer chapter older, c.chapters = newer ++ chapter :: older →
      chapter.Told ∧ (∀ x ∈ chapter.since, ∀ n, x.2.origin? = some n → n = older.length) ∧
      (∀ r, chapter.message = some (.ok (.exec r)) →
        chapter.since.countP (·.2.tellsExit) = chapter.since.countP (·.2.isEnd) ∧
        chapter.since.countP (·.2.closesStream) = chapter.since.countP (·.2.isEnd) ∧
        chapter.since.countP (·.2.isEnd) ≤ 1)) ∧
    (∀ st, s.stream = some st →
      ∃ chapter older, c.chapters = chapter :: older ∧ s.receiver = some older.length ∧
        (s.isDue = true ↔ ∃ r timeout, chapter.message = some (.ok (.exec r)) ∧
          r.timeout = some timeout ∧ chapter.time + timeout ≤ s.clock)) ∧
    (∀ σ, (∃ e ∈ (s.step σ).record.drop s.record.length, e.tellsExit = true) →
      (s.step σ).phase = .connected ∧ (s.step σ).stream = none ∧ (s.step σ).receiver = none) := by
  intro begun s c
  have hb : begun.Coherent := Session.coherent_start config remote cached env
  have hs : s.Coherent := hb.run σs
  have h : Session.Follows c s := (Session.follows_start config remote cached env).run hb σs
  refine ⟨Session.entries_chronicle rfl hb σs, h.opened, h.prelude,
    fun newer chapter older hc => ?_, fun st hst => h.due hst, fun σ hx => hs.exits hx⟩
  obtain ⟨htold, horigin⟩ := Session.sound_chapter h.sound hc
  refine ⟨htold, horigin, fun r hr => ?_⟩
  cases htold with
  | shell _ => simp at hr
  | command hcourse => exact hcourse.counts

/-- A command that is cut off after a millisecond, whatever it says. -/
def hurried : ExecRequest := ⟨"yes", false, none, .standard, [], some 1⟩

def hurriedRun : List Session.Stimulus :=
  [.message (.ok (.auth ⟨⟨"h", 22, "user", some "pw", none, none⟩, none, none⟩)), .settle,
    .message (.ok (.exec hurried)), .stream (some (.exitStatus 1)), .elapse,
    .stream (some (.data [121])), .expire]

theorem exits_told_once_hurried :
    let c := (Session.start Config.standard ({} : Script) none []).chronicle {} hurriedRun
    let since : List (Nat × Entry) :=
      [(0, .received 0 (some (.exitStatus 1))), (1, .received 0 (some (.data [121]))),
        (1, .sent (.data [121])), (1, .expired), (1, .called .closeStream (.ok ())),
        (1, .sent (.execExit none none true))]
    c.chapters = [⟨some (.ok (.exec hurried)), 0, .exec "yes" none [], since⟩] ∧
    since.countP (·.2.tellsExit) = since.countP (·.2.isEnd) ∧
    since.countP (·.2.closesStream) = since.countP (·.2.isEnd) := by
  intro c since
  obtain ⟨-, -, -, hall, -, -⟩ := exits_told_once Config.standard ({} : Script) none [] hurriedRun
  have hc : c.chapters = [⟨some (.ok (.exec hurried)), 0, .exec "yes" none [], since⟩] := by rfl
  obtain ⟨-, -, hcount⟩ := hall [] _ [] hc
  obtain ⟨hexits, hcloses, -⟩ := hcount hurried rfl
  exact ⟨hc, hexits, hcloses⟩

end TerminalGateway
