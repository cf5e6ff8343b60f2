import TerminalGateway.Session.Basic

/-!
What a record tells: the connection that was begun last, and whether each entry was allowed by
the entries before it.
-/

namespace TerminalGateway.Record

/-- The connection begun last, after one more entry, with its outcome once that is known. -/
def connectionAfter (last : Option (Credentials × Option Outcome)) :
    Entry → Option (Credentials × Option Outcome)
  | .called (.connect c) _ => some (c, none)
  | .settled outcome => last.map fun l => (l.1, some outcome)
  | _ => last

def lastConnection? (record : List Entry) : Option (Credentials × Option Outcome) :=
  record.foldl connectionAfter none

@[simp] theorem lastConnection?_append (record es : List Entry) :
    lastConnection? (record ++ es) = es.foldl connectionAfter (lastConnection? record) := by
  simp [lastConnection?]

/-- An entry about no connection. -/
def Quiet (e : Entry) : Prop := ∀ last, connectionAfter last e = last

theorem foldl_connectionAfter {es : List Entry} (h : ∀ e ∈ es, Quiet e)
    (last : Option (Credentials × Option Outcome)) : es.foldl connectionAfter last = last := by
  induction es with
  | nil => rfl
  | cons e es ih =>
      rw [List.foldl_cons, h e List.mem_cons_self]
      exact ih fun x hx => h x (List.mem_cons_of_mem e hx)

/-- The messages that were taken up, in order. -/
def handled (record : List Entry) : List Inbound :=
  record.filterMap fun e => match e with
    | .handled m => some m
    | _ => none

@[simp] theorem handled_append (record es : List Entry) :
    handled (record ++ es) = handled record ++ handled es := by
  simp [handled]

theorem handled_eq_nil {es : List Entry} (h : ∀ m, .handled m ∉ es) : handled es = [] := by
  refine List.filterMap_eq_nil_iff.mpr fun e he => ?_
  cases e with
  | handled m => exact absurd he (h m)
  | _ => rfl

/-- What the client was told, in order. -/
def events (record : List Entry) : List ServerEvent :=
  record.filterMap fun e => match e with
    | .sent event => some event
    | _ => none

@[simp] theorem events_append (record es : List Entry) :
    events (record ++ es) = events record ++ events es := by
  simp [events]

@[simp] theorem events_sent (told : List ServerEvent) : events (told.map .sent) = told := by
  rw [events, List.filterMap_map]
  exact List.filterMap_some

theorem mem_events {es : List Entry} {event : ServerEvent} :
    event ∈ events es ↔ .sent event ∈ es := by
  constructor
  · intro h
    obtain ⟨e, he, hs⟩ := List.mem_filterMap.mp h
    cases e with
    | sent x => exact Option.some.inj hs ▸ he
    | _ => simp at hs
  · exact fun h => List.mem_filterMap.mpr ⟨_, h, rfl⟩

/-- The labels in the footers that the client was shown, in order. -/
def footers (record : List Entry) : List String :=
  record.filterMap fun e => match e with
    | .sent (.update element label) => if element = "footer" then some label else none
    | _ => none

@[simp] theorem footers_append (record es : List Entry) :
    footers (record ++ es) = footers record ++ footers es := by
  simp [footers]

/-- The labels that the coordinator was told, in order. -/
def targets (record : List Entry) : List String :=
  record.filterMap fun e => match e with
    | .retargeted label => some label
    | _ => none

@[simp] theorem targets_append (record es : List Entry) :
    targets (record ++ es) = targets record ++ targets es := by
  simp [targets]

def Each (P : List Entry → Entry → Prop) (record : List Entry) : Prop :=
  ∀ past e rest, record = past ++ e :: rest → P past e

@[simp] theorem each_nil (P : List Entry → Entry → Prop) : Each P [] := by
  intro past e rest h
  simp at h

@[simp] theorem each_cons {P : List Entry → Entry → Prop} {e : Entry} {es : List Entry} :
    Each P (e :: es) ↔ P [] e ∧ Each (fun past => P (e :: past)) es := by
  constructor
  · intro h
    refine ⟨h [] e es rfl, ?_⟩
    rintro past x rest rfl
    exact h (e :: past) x rest rfl
  · rintro ⟨he, h⟩ past x rest heq
    cases past with
    | nil =>
        obtain ⟨rfl, -⟩ := List.cons.inj heq
        exact he
    | cons y past =>
        obtain ⟨rfl, hes⟩ := List.cons.inj heq
        exact h past x rest hes

@[simp] theorem each_append {P : List Entry → Entry → Prop} {record es : List Entry} :
    Each P (record ++ es) ↔ Each P record ∧ Each (fun past => P (record ++ past)) es := by
  induction record generalizing P with
  | nil => simp
  | cons e record ih => simp [ih, and_assoc]

theorem Each.of_mem {P : List Entry → Entry → Prop} {record : List Entry} {e : Entry}
    (h : Each P record) (he : e ∈ record) :
    ∃ past rest, record = past ++ e :: rest ∧ P past e := by
  obtain ⟨past, rest, rfl⟩ := List.append_of_mem he
  exact ⟨past, rest, rfl, h past e rest rfl⟩

/-- A record is split in one way only at an entry that stands neither before nor behind. -/
theorem split_unique {before past post rest : List Entry} {x y : Entry}
    (h : before ++ y :: post = past ++ x :: rest) (hb : x ∉ before) (hp : x ∉ post) :
    before = past ∧ y = x ∧ post = rest := by
  rcases List.append_eq_append_iff.mp h with ⟨more, rfl, hm⟩ | ⟨more, rfl, hm⟩
  · cases more with
    | nil => simpa using hm
    | cons z more =>
        obtain ⟨-, rfl⟩ := List.cons.inj hm
        simp at hp
  · cases more with
    | nil => simpa [eq_comm] using hm
    | cons z more =>
        obtain ⟨rfl, -⟩ := List.cons.inj hm
        simp at hb

end TerminalGateway.Record
