import TerminalGateway.Proofs.Session.Record

/-!
The line to the server, as a record tells of it: what may be done at each moment, and what each
moment says of all that was done before.
-/

namespace TerminalGateway

namespace Entry

def connects : Entry → Bool
  | .called (.connect _) _ => true
  | _ => false

/-- A stream was asked for. -/
def asksStream : Entry → Bool
  | .called (.shell _ _) _ | .called (.exec _ _ _) _ => true
  | _ => false

def opensStream : Entry → Bool
  | .called (.shell _ _) (.ok ()) | .called (.exec _ _ _) (.ok ()) => true
  | _ => false

def writes : Entry → Bool
  | .called (.write _) _ => true
  | _ => false

/-- A stream that was open is closed, came to its end or was given up. -/
def endsStream : Entry → Bool
  | .called .closeStream _ | .called .hangUp _ | .called (.connect _) _ => true
  | .received _ none | .received _ (some .closed) | .received _ (some (.failed _)) => true
  | .expired => true
  | _ => false

/-- A connection that there was is no more, or the one begun was not made. -/
def losesLine : Entry → Bool
  | .called .hangUp _ | .called (.connect _) _ | .settled (.error _) => true
  | _ => false

end Entry

namespace Record

/-- Behind each entry of one kind stands a certain other one. -/
def Followed (p : Entry → Bool) (x : Entry) (record : List Entry) : Prop :=
  ∀ before e after, record = before ++ e :: after → p e = true → x ∈ after

theorem split_snoc {record before after : List Entry} {x e : Entry}
    (h : record ++ [e] = before ++ x :: after) :
    (after = [] ∧ x = e) ∨ ∃ rest, after = rest ++ [e] ∧ record = before ++ x :: rest := by
  rcases List.eq_nil_or_concat after with rfl | ⟨rest, last, rfl⟩
  · exact .inl ⟨rfl, by simpa using (List.append_inj' h rfl).2.symm⟩
  · rw [List.concat_eq_append, ← List.cons_append, ← List.append_assoc] at h
    obtain ⟨hr, hl⟩ := List.append_inj' h rfl
    obtain rfl : e = last := by simpa using hl
    exact .inr ⟨rest, by simp, hr⟩

theorem Followed.snoc {p : Entry → Bool} {x : Entry} {record : List Entry}
    (h : Followed p x record) {e : Entry} (he : p e = false) : Followed p x (record ++ [e]) := by
  intro before y after heq hy
  rcases split_snoc heq with ⟨-, rfl⟩ | ⟨rest, rfl, hr⟩
  · simp [he] at hy
  · exact List.mem_append_left _ (h before y rest hr hy)

theorem followed_snoc_self {p : Entry → Bool} {x : Entry} (hx : p x = false)
    (record : List Entry) : Followed p x (record ++ [x]) := by
  intro before y after heq hy
  rcases split_snoc heq with ⟨-, rfl⟩ | ⟨rest, rfl, -⟩
  · simp [hx] at hy
  · simp

/-- A connection was begun last, and was not lost since. -/
def Begun (record since : List Entry) : Prop :=
  (∃ before c o, record = before ++ .called (.connect c) o :: since) ∧
    ∀ e ∈ since, e.losesLine = false

theorem Begun.snoc {record since : List Entry} (h : Begun record since) {e : Entry}
    (he : e.losesLine = false) : Begun (record ++ [e]) (since ++ [e]) := by
  obtain ⟨⟨before, c, o, rfl⟩, hs⟩ := h
  refine ⟨⟨before, c, o, by simp⟩, fun y hy => ?_⟩
  rcases List.mem_append.mp hy with hy | hy
  · exact hs y hy
  · rw [List.mem_singleton.mp hy, he]

/-- The connection begun last was made, and was not lost since. -/
def Made (record since : List Entry) : Prop := Begun record since ∧ .settled (.ok ()) ∈ since

theorem Made.snoc {record since : List Entry} (h : Made record since) {e : Entry}
    (he : e.losesLine = false) : Made (record ++ [e]) (since ++ [e]) :=
  ⟨h.1.snoc he, List.mem_append_left _ h.2⟩

/-- A stream was opened and did not end since. -/
def HoldsStream (record : List Entry) : Prop :=
  ∃ before e since, record = before ++ e :: since ∧ e.opensStream = true ∧
    ∀ x ∈ since, x.endsStream = false

theorem HoldsStream.snoc {record : List Entry} (h : HoldsStream record) {e : Entry}
    (he : e.endsStream = false) : HoldsStream (record ++ [e]) := by
  obtain ⟨before, o, since, rfl, ho, hs⟩ := h
  refine ⟨before, o, since ++ [e], by simp, ho, fun y hy => ?_⟩
  rcases List.mem_append.mp hy with hy | hy
  · exact hs y hy
  · rw [List.mem_singleton.mp hy, he]

end Record

/-- The line to the server. -/
inductive Line
  | down
  /-- A connection was begun, and what came of it is not known. -/
  | begun
  /-- The connection was not made, and was not hung up. -/
  | failed
  /-- There is a connection, and each stream that was opened on it is closed. -/
  | up
  /-- There is an open stream. -/
  | carrying
  /-- The stream came to its end or was given up, and is not closed. -/
  | spent
  deriving DecidableEq, Repr

namespace Line

open Record

/-- The line after one more entry, if the entry may stand there. -/
def next? (l : Line) : Entry → Option Line
  | .called (.connect _) _ => if l = .down then some .begun else none
  | .settled (.ok ()) => if l = .begun then some .up else none
  | .settled (.error _) => if l = .begun then some .failed else none
  | .called (.shell _ _) (.ok ()) | .called (.exec _ _ _) (.ok ()) =>
      if l = .up then some .carrying else none
  | .called (.shell _ _) (.error _) | .called (.exec _ _ _) (.error _) =>
      if l = .up then some .up else none
  | .called (.write _) _ => if l = .carrying then some .carrying else none
  | .received _ none | .received _ (some .closed) | .received _ (some (.failed _)) | .expired =>
      if l = .carrying then some .spent else none
  | .called .closeStream (.ok ()) => if l = .spent then some .up else none
  | .called .hangUp (.ok ()) => some .down
  | .called .closeStream (.error _) | .called .hangUp (.error _) => none
  | _ => some l

theorem eq_down_of_connects {l l' : Line} {e : Entry} (h : l.next? e = some l')
    (he : e.connects = true) : l = .down := by
  unfold Entry.connects at he
  split at he
  · exact (Option.ite_none_right_eq_some.mp h).1
  · simp at he

theorem eq_up_of_asksStream {l l' : Line} {e : Entry} (h : l.next? e = some l')
    (he : e.asksStream = true) : l = .up := by
  unfold Entry.asksStream at he
  split at he
  · rename_i o
    obtain f | ⟨⟩ := o <;> exact (Option.ite_none_right_eq_some.mp h).1
  · rename_i o
    obtain f | ⟨⟩ := o <;> exact (Option.ite_none_right_eq_some.mp h).1
  · simp at he

theorem eq_carrying_of_writes {l l' : Line} {e : Entry} (h : l.next? e = some l')
    (he : e.writes = true) : l = .carrying := by
  unfold Entry.writes at he
  split at he
  · exact (Option.ite_none_right_eq_some.mp h).1
  · simp at he

/-- What the line says of the record. -/
def Tells (record : List Entry) : Line → Prop
  | .down => Followed Entry.connects (.called .hangUp (.ok ())) record
  | .begun => ∃ since, Begun record since ∧ ∀ e ∈ since, e.opensStream = false
  | .failed => True
  | .up => ∃ since, Made record since ∧
      Followed Entry.opensStream (.called .closeStream (.ok ())) since
  | .carrying => (∃ since, Made record since) ∧ HoldsStream record
  | .spent => ∃ since, Made record since

theorem Tells.snoc {record : List Entry} {l : Line} (h : l.Tells record) {e : Entry}
    (hl : e.losesLine = false) (ho : e.opensStream = false) (he : e.endsStream = false) :
    l.Tells (record ++ [e]) := by
  have hc : e.connects = false := by
    unfold Entry.connects
    split
    · simp [Entry.losesLine] at hl
    · rfl
  cases l with
  | down => exact Followed.snoc h hc
  | begun =>
      obtain ⟨since, hb, hs⟩ := h
      refine ⟨since ++ [e], hb.snoc hl, fun y hy => ?_⟩
      rcases List.mem_append.mp hy with hy | hy
      · exact hs y hy
      · rw [List.mem_singleton.mp hy, ho]
  | failed => trivial
  | up =>
      obtain ⟨since, hm, hs⟩ := h
      exact ⟨since ++ [e], hm.snoc hl, hs.snoc ho⟩
  | carrying =>
      obtain ⟨⟨since, hm⟩, hs⟩ := h
      exact ⟨⟨since ++ [e], hm.snoc hl⟩, hs.snoc he⟩
  | spent =>
      obtain ⟨since, hm⟩ := h
      exact ⟨since ++ [e], hm.snoc hl⟩

theorem Tells.next {record : List Entry} {l l' : Line} (h : l.Tells record) {e : Entry}
    (hn : l.next? e = some l') : l'.Tells (record ++ [e]) := by
  match e with
  | .called (.connect c) o =>
      obtain ⟨rfl, rfl⟩ : l = .down ∧ .begun = l' := by simpa [next?] using hn
      exact ⟨[], ⟨⟨record, c, o, rfl⟩, by simp⟩, by simp⟩
  | .settled (.ok ()) =>
      obtain ⟨rfl, rfl⟩ : l = .begun ∧ .up = l' := by simpa [next?] using hn
      obtain ⟨since, hb, hs⟩ := h
      refine ⟨since ++ [.settled (.ok ())], ⟨hb.snoc rfl, by simp⟩, ?_⟩
      -- nothing was opened before the connection was there
      refine Followed.snoc (fun before e after heq he => ?_) rfl
      simp [hs e (by simp [heq])] at he
  | .settled (.error _) =>
      obtain ⟨-, rfl⟩ : l = .begun ∧ .failed = l' := by simpa [next?] using hn
      trivial
  | .called (.shell _ _) (.ok ()) | .called (.exec _ _ _) (.ok ()) =>
      obtain ⟨rfl, rfl⟩ : l = .up ∧ .carrying = l' := by simpa [next?] using hn
      obtain ⟨since, hm, -⟩ := h
      exact ⟨⟨_, hm.snoc rfl⟩, record, _, [], rfl, rfl, by simp⟩
  | .received _ none | .received _ (some .closed) | .received _ (some (.failed _)) | .expired =>
      obtain ⟨rfl, rfl⟩ : l = .carrying ∧ .spent = l' := by simpa [next?] using hn
      obtain ⟨⟨since, hm⟩, -⟩ := h
      exact ⟨_, hm.snoc rfl⟩
  | .called .closeStream (.ok ()) =>
      obtain ⟨rfl, rfl⟩ : l = .spent ∧ .up = l' := by simpa [next?] using hn
      obtain ⟨since, hm⟩ := h
      exact ⟨_, hm.snoc rfl, followed_snoc_self rfl since⟩
  | .called .hangUp (.ok ()) =>
      obtain rfl : .down = l' := by simpa [next?] using hn
      exact followed_snoc_self rfl record
  | .called .closeStream (.error _) | .called .hangUp (.error _) => simp [next?] at hn
  | .called (.shell _ _) (.error _) | .called (.exec _ _ _) (.error _) | .called (.write _) _ =>
      obtain rfl : l = l' := by
        simp only [next?, Option.ite_none_right_eq_some, Option.some.injEq] at hn
        exact hn.1.trans hn.2
      exact h.snoc rfl rfl rfl
  | .handled _ | .vetted _ _ | .called (.resize _) _ | .sent _ | .received _ (some (.data _))
  | .received _ (some (.extendedData _)) | .received _ (some (.exitStatus _))
  | .received _ (some (.exitSignal _)) | .retargeted _ | .socketClosed | .left =>
      obtain rfl : l = l' := by simpa [next?] using hn
      exact h.snoc rfl rfl rfl

/-- A record in which each entry may stand where it stands, with the line after it. -/
def Leads (record : List Entry) (l : Line) : Prop := record.foldlM next? .down = some l

theorem Leads.append {record : List Entry} {l l' : Line} (h : Leads record l) (es : List Entry)
    (he : es.foldlM next? l = some l') : Leads (record ++ es) l' := by
  unfold Leads at h ⊢
  rw [List.foldlM_append, h]
  exact he

theorem Leads.before {past rest : List Entry} {e : Entry} {l : Line}
    (h : Leads (past ++ e :: rest) l) : ∃ l₀ l₁, Leads past l₀ ∧ l₀.next? e = some l₁ := by
  unfold Leads at h
  rw [List.foldlM_append] at h
  obtain ⟨l₀, hp, h⟩ := Option.bind_eq_some_iff.mp h
  rw [List.foldlM_cons] at h
  obtain ⟨l₁, he, -⟩ := Option.bind_eq_some_iff.mp h
  exact ⟨l₀, l₁, hp, he⟩

theorem Tells.append {past es : List Entry} {l l' : Line} (h : l.Tells past)
    (he : es.foldlM next? l = some l') : l'.Tells (past ++ es) := by
  induction es generalizing past l with
  | nil =>
      obtain rfl : l = l' := by simpa using he
      simpa using h
  | cons e es ih =>
      rw [List.foldlM_cons] at he
      obtain ⟨l₁, hn, he⟩ := Option.bind_eq_some_iff.mp he
      rw [List.append_cons]
      exact ih (h.next hn) he

theorem Leads.tells {record : List Entry} {l : Line} (h : Leads record l) : l.Tells record := by
  have hnil : Line.down.Tells [] := by simp [Tells, Followed]
  exact hnil.append h

end Line

end TerminalGateway
