import TerminalGateway.Proofs.Json.Figure
import TerminalGateway.Proofs.Json.Written

/-!
All the ways of writing a value: literals, numbers in any notation, strings with any escapes, and
lists and objects with gaps anywhere, of which the latter may name a field again. However a value is
written, it is read back.
-/

namespace TerminalGateway.Json

section Lists

variable (written : Value → List Char → List Char → Prop)

/-- The items of a list, of which there is at least one, up to and with its closing bracket. -/
inductive Items : List Value → List Char → List Char → Prop
  | last {v : Value} {c₀ c₁ c₂ rest : List Char} (h₀ : Gap c₀ c₁) (hv : written v c₁ c₂)
      (h₂ : Gap c₂ (']' :: rest)) : Items [v] c₀ rest
  | more {v : Value} {items : List Value} {c₀ c₁ c₂ ds rest : List Char} (h₀ : Gap c₀ c₁)
      (hv : written v c₁ c₂) (h₂ : Gap c₂ (',' :: ds)) (h : Items items ds rest) :
      Items (v :: items) c₀ rest

/-- A list between brackets. -/
inductive Bracketed : List Value → List Char → List Char → Prop
  | empty {cs rest : List Char} (h : Gap cs (']' :: rest)) : Bracketed [] ('[' :: cs) rest
  | items {items : List Value} {cs rest : List Char} (h : Items written items cs rest) :
      Bracketed items ('[' :: cs) rest

end Lists

/-- What stands for a number by itself, with a minus sign or without one. -/
inductive Literal (n : Number) : List Char → Prop
  | negative {cs : List Char} {p q : Position} (h : readFigure true ⟨cs, p⟩ = .ok (n, ⟨[], q⟩)) :
      Literal n ('-' :: cs)
  | positive {x : Char} {cs : List Char} {p q : Position} (hx : Numeral.isDigit x = true)
      (h : readFigure false ⟨x :: cs, p⟩ = .ok (n, ⟨[], q⟩)) : Literal n (x :: cs)

/-- A value in any spelling, whose lists and objects nest at most `depth` times. -/
def Spelt : Nat → Value → List Char → List Char → Prop
  | _, .null, cs, rest => cs = "null".toList ++ rest
  | _, .bool b, cs, rest => cs = (if b then "true" else "false").toList ++ rest
  | _, .number n, cs, rest => ∃ literal, Literal n literal ∧ cs = literal ++ rest
  | _, .string s, cs, rest => Quoted s cs rest
  | depth + 1, .array items, cs, rest => Bracketed (Spelt depth) items cs rest
  | depth + 1, .object fields, cs, rest =>
      ∃ given, Braced (Spelt depth) given cs rest ∧ fields = collect [] given
  | _, _, _, _ => False

variable {cs ds rest : List Char} {x : Char} {depth : Nat} {v : Value}

/-! ### Lists -/

theorem endsNumber_bracket : EndsNumber (']' :: rest) := ⟨by decide, by decide, by decide⟩

theorem nextItem_of_solid {isFirst : Bool} {c₀ : List Char} (he : Enters isFirst cs c₀)
    (h₀ : Gap c₀ (x :: ds)) (hgap : Cursor.isGap x = false) (hend : x ≠ ']') (p : Position) :
    ∃ p', nextItem isFirst ⟨cs, p⟩ = .ok (true, ⟨x :: ds, p'⟩) := by
  cases isFirst with
  | true =>
      obtain rfl : cs = c₀ := he
      obtain ⟨p₁, hp₁⟩ := h₀.skipGap_eq hgap p
      exact ⟨p₁, by simp [nextItem, hp₁, hend]⟩
  | false =>
      obtain ⟨p₁, hp₁⟩ := Gap.skipGap_eq he rfl p
      obtain ⟨p₂, hp₂⟩ := h₀.skipGap_eq hgap (p₁.past ',')
      exact ⟨p₂, by simp [nextItem, hp₁, Cursor.advance, hp₂, hend]⟩

theorem nextItem_of_end (isFirst : Bool) (h : Gap cs (']' :: rest)) (p : Position) :
    ∃ p', nextItem isFirst ⟨cs, p⟩ = .ok (false, ⟨']' :: rest, p'⟩) := by
  obtain ⟨p', hp'⟩ := h.skipGap_eq rfl p
  exact ⟨p', by simp [nextItem, hp']⟩

/-- What values begin with is not taken for a gap or for the end of a list. -/
def BeginSolid (written : Value → List Char → List Char → Prop) : Prop :=
  ∀ {v cs rest}, written v cs rest → ∃ x ds, cs = x :: ds ∧ Cursor.isGap x = false ∧ x ≠ ']'

section Items

variable {written : Value → List Char → List Char → Prop} {item : Cursor → Reading Value}

theorem Finds.readItem (hi : Finds written item) (hb : BeginSolid written) {isFirst : Bool}
    {c₀ c₁ c₂ : List Char} (he : Enters isFirst cs c₀) (h₀ : Gap c₀ c₁) (hv : written v c₁ c₂)
    (hends : EndsNumber c₂) (steps : Nat) (p : Position) :
    ∃ p', readItems item (steps + 1) isFirst ⟨cs, p⟩ =
      (readItems item steps false ⟨c₂, p'⟩).map fun (vs, c) => (v :: vs, c) := by
  obtain ⟨x, ds, rfl, hgap, hend⟩ := hb hv
  obtain ⟨p₁, hp₁⟩ := nextItem_of_solid he h₀ hgap hend p
  obtain ⟨p₂, hp₂⟩ := hi.value hv hends p₁
  refine ⟨p₂, ?_⟩
  rw [readItems.eq_def]
  simp only [hp₁, bind, Except.bind, if_true, hp₂]
  cases readItems item steps false ⟨c₂, p₂⟩ <;> rfl

/-- Every item has its comma or the bracket. -/
theorem Finds.items_length (hi : Finds written item) {items : List Value}
    (h : Items written items cs rest) : items.length + rest.length ≤ cs.length := by
  induction h with
  | last h₀ hv h₂ =>
      have := h₀.length_le
      have := hi.shorter hv
      have := h₂.length_le
      simp only [List.length_cons, List.length_nil] at this ⊢
      omega
  | more h₀ hv h₂ _ ih =>
      have := h₀.length_le
      have := hi.shorter hv
      have := h₂.length_le
      simp only [List.length_cons] at this ⊢
      omega

/-- The items of a list are read in turn, whether or not others stand before them. -/
theorem Finds.items (hi : Finds written item) (hb : BeginSolid written) {items : List Value}
    {c₀ : List Char} (h : Items written items c₀ rest) {isFirst : Bool} (he : Enters isFirst cs c₀)
    {steps : Nat} (hsteps : items.length < steps) (p : Position) :
    ∃ p', readItems item steps isFirst ⟨cs, p⟩ = .ok (items, ⟨']' :: rest, p'⟩) := by
  induction h generalizing isFirst cs steps p with
  | last h₀ hv h₂ =>
      obtain ⟨steps, rfl⟩ : ∃ n, steps = n + 2 := ⟨steps - 2, by simp at hsteps; omega⟩
      obtain ⟨p₁, hp₁⟩ := hi.readItem hb he h₀ hv (endsNumber_bracket.of_gap h₂) (steps + 1) p
      obtain ⟨p₂, hp₂⟩ := nextItem_of_end false h₂ p₁
      refine ⟨p₂, hp₁.trans ?_⟩
      rw [readItems.eq_def]
      simp [hp₂, bind, Except.bind, pure, Except.pure, Except.map]
  | more h₀ hv h₂ _ ih =>
      obtain ⟨steps, rfl⟩ : ∃ n, steps = n + 1 := ⟨steps - 1, by omega⟩
      have hends := (endsNumber_of_mark (.inl rfl)).of_gap h₂
      obtain ⟨p₁, hp₁⟩ := hi.readItem hb he h₀ hv hends steps p
      have hnext : Enters false _ _ := h₂
      obtain ⟨p₂, hp₂⟩ := ih hnext (Nat.lt_of_succ_lt_succ hsteps) p₁
      exact ⟨p₂, by rw [hp₁, hp₂]; rfl⟩

theorem Finds.bracketed (hi : Finds written item) (hb : BeginSolid written) {items : List Value}
    (h : Bracketed written items cs rest) :
    ∃ ds, cs = '[' :: ds ∧ rest.length < ds.length ∧
      ∀ p, ∃ p', readItems item (cs.length + 1) true ⟨ds, p⟩ = .ok (items, ⟨']' :: rest, p'⟩) := by
  cases h with
  | @empty ds _ h =>
      refine ⟨ds, rfl, h.length_le, fun p => ?_⟩
      obtain ⟨p', hp'⟩ := nextItem_of_end true h p
      refine ⟨p', ?_⟩
      rw [readItems.eq_def]
      simp [hp', bind, Except.bind, pure, Except.pure]
  | @items _ ds _ h =>
      have hlength := hi.items_length h
      have hfirst : Enters true ds ds := rfl
      refine ⟨ds, rfl, ?_, hi.items hb h hfirst ?_⟩
      · cases h <;> simp only [List.length_cons] at hlength <;> omega
      · simp only [List.length_cons]
        omega

end Items

/-! ### Values -/

/-- A value that is neither a list nor an object. -/
def Value.IsScalar : Value → Prop
  | .array _ | .object _ => False
  | _ => True

theorem readScalar_of_null (rest : List Char) (p : Position) :
    ∃ p', readScalar ⟨"null".toList ++ rest, p⟩ = .ok (.null, ⟨rest, p'⟩) := by
  obtain ⟨p', hp'⟩ := readLiteral_of_append ['u', 'l', 'l'] rest (p.past 'n')
  simp only [List.cons_append, List.nil_append] at hp'
  exact ⟨p', by simp [readScalar, Cursor.advance, Except.map, hp']⟩

theorem readScalar_of_literal {n : Number} {literal : List Char} (h : Literal n literal)
    (hrest : EndsNumber rest) (p : Position) :
    ∃ p', readScalar ⟨literal ++ rest, p⟩ = .ok (.number n, ⟨rest, p'⟩) := by
  cases h with
  | negative h =>
      obtain ⟨p', hp'⟩ := isLocal_readFigure true h hrest (p.past '-')
      rw [List.nil_append] at hp'
      exact ⟨p', by simp [readScalar, Cursor.advance, hp', Except.map]⟩
  | positive hx h =>
      obtain ⟨-, hn, ht, hf, hquote, hminus⟩ := digit_ne hx
      obtain ⟨p', hp'⟩ := isLocal_readFigure false h hrest p
      rw [List.nil_append, List.cons_append] at hp'
      exact ⟨p', by simp [readScalar, hn, ht, hf, hquote, hminus, hx, hp', Except.map]⟩

theorem Literal.eq_cons {n : Number} {literal : List Char} (h : Literal n literal) :
    ∃ x xs, literal = x :: xs ∧ BeginsScalar x ∧ x ≠ ']' := by
  cases h with
  | negative => exact ⟨'-', _, rfl, ⟨by decide, by decide, by decide⟩, by decide⟩
  | @positive x _ _ _ hx =>
      refine ⟨x, _, rfl, (digit_ne hx).1, ?_⟩
      rintro rfl
      exact absurd hx (by decide)

/-- A value that is no list and no object is read by the reader of such values. -/
theorem readScalar_of_spelt (h : Spelt depth v cs rest) (hv : v.IsScalar) :
    ∃ x ds, cs = x :: ds ∧ BeginsScalar x ∧ x ≠ ']' ∧ rest.length ≤ ds.length ∧
      (EndsNumber rest → ∀ p, ∃ p', readScalar ⟨cs, p⟩ = .ok (v, ⟨rest, p'⟩)) := by
  rw [Spelt.eq_def] at h
  cases v with
  | array _ | object _ => exact hv.elim
  | null =>
      subst h
      exact ⟨'n', _, rfl, ⟨by decide, by decide, by decide⟩, by decide, Nat.le_add_right _ 3,
        fun _ => readScalar_of_null rest⟩
  | bool b =>
      subst h
      have hread : EndsNumber rest → _ := fun _ => readScalar_of_bool b rest
      cases b with
      | true =>
          exact ⟨'t', _, rfl, beginsScalar_letter (.inl rfl), by decide,
            Nat.le_add_right _ 3, hread⟩
      | false =>
          exact ⟨'f', _, rfl, beginsScalar_letter (.inr (.inl rfl)), by decide,
            Nat.le_add_right _ 4, hread⟩
  | number n =>
      obtain ⟨literal, hl, rfl⟩ := h
      obtain ⟨x, xs, rfl, hx, hend⟩ := hl.eq_cons
      exact ⟨x, _, rfl, hx, hend, by simp, readScalar_of_literal hl⟩
  | string s =>
      have hlength := h.length_lt
      have hread := readScalar_of_quoted h
      cases h with
      | mk =>
          exact ⟨'"', _, rfl, beginsScalar_letter (.inr (.inr rfl)), by decide,
            Nat.le_of_lt_succ hlength, fun _ => hread⟩

theorem beginSolid_spelt (depth : Nat) : BeginSolid (Spelt depth) := by
  intro v cs rest h
  cases v with
  | null | bool _ | number _ | string _ =>
      obtain ⟨x, ds, rfl, hx, hend, -⟩ := readScalar_of_spelt h trivial
      exact ⟨x, ds, rfl, hx.1, hend⟩
  | array items =>
      cases depth with
      | zero => simp [Spelt] at h
      | succ depth =>
          rw [Spelt] at h
          cases h <;> exact ⟨'[', _, rfl, by decide, by decide⟩
  | object fields =>
      cases depth with
      | zero => simp [Spelt] at h
      | succ depth =>
          rw [Spelt] at h
          obtain ⟨_, h, -⟩ := h
          cases h <;> exact ⟨'\x7b', _, rfl, by decide, by decide⟩

theorem readValue_of_scalar (h : Spelt depth v cs rest) (hv : v.IsScalar) (hrest : EndsNumber rest)
    (p : Position) : ∃ p', readValue depth ⟨cs, p⟩ = .ok (v, ⟨rest, p'⟩) := by
  obtain ⟨x, ds, rfl, hx, -, -, hread⟩ := readScalar_of_spelt h hv
  obtain ⟨p', hp'⟩ := hread hrest p
  exact ⟨p', (readValue_eq_readScalar hx depth p).trans hp'⟩

theorem readValue_of_readItems {items : List Value} {p p' : Position}
    (h : readItems (readValue depth) (('[' :: cs).length + 1) true ⟨cs, p.past '['⟩ =
      .ok (items, ⟨']' :: rest, p'⟩)) :
    readValue (depth + 1) ⟨'[' :: cs, p⟩ = .ok (.array items, ⟨rest, p'.past ']'⟩) := by
  have hgap : Cursor.isGap '[' = false := by decide
  rw [readValue.eq_def]
  simp only [skipGap_of_solid hgap, Cursor.sees, Cursor.advance, h, bind, Except.bind, pure,
    Except.pure]
  rfl

/-- However a value is written, it is read back. -/
theorem finds_spelt (depth : Nat) : Finds (Spelt depth) (readValue depth) := by
  induction depth with
  | zero =>
      have hv : ∀ {v cs rest}, Spelt 0 v cs rest → v.IsScalar := by
        intro v cs rest h
        cases v <;> simp [Spelt, Value.IsScalar] at h ⊢
      refine ⟨fun h => ?_, readValue_gap, fun h => readValue_of_scalar h (hv h)⟩
      obtain ⟨x, ds, rfl, -, -, hlength, -⟩ := readScalar_of_spelt h (hv h)
      exact Nat.le_succ_of_le hlength
  | succ depth ih =>
      refine ⟨fun {v cs rest} h => ?_, readValue_gap, fun {v cs rest} h hrest p => ?_⟩
      · cases v with
        | null | bool _ | number _ | string _ =>
            obtain ⟨x, ds, rfl, -, -, hlength, -⟩ := readScalar_of_spelt h trivial
            exact Nat.le_succ_of_le hlength
        | array items =>
            rw [Spelt] at h
            obtain ⟨ds, rfl, hlength, -⟩ := ih.bracketed (beginSolid_spelt depth) h
            exact Nat.le_succ_of_le (Nat.le_of_lt hlength)
        | object fields =>
            rw [Spelt] at h
            obtain ⟨given, h, -⟩ := h
            obtain ⟨ds, rfl, hlength, -⟩ := ih.braced h
            exact Nat.le_succ_of_le hlength
      · cases v with
        | null | bool _ | number _ | string _ => exact readValue_of_scalar h trivial hrest p
        | array items =>
            rw [Spelt] at h
            obtain ⟨ds, rfl, -, hread⟩ := ih.bracketed (beginSolid_spelt depth) h
            obtain ⟨p', hp'⟩ := hread (p.past '[')
            exact ⟨p'.past ']', readValue_of_readItems hp'⟩
        | object fields =>
            rw [Spelt] at h
            obtain ⟨given, h, rfl⟩ := h
            obtain ⟨ds, rfl, -, hread⟩ := ih.braced h
            obtain ⟨p', hp'⟩ := hread (p.past '\x7b')
            exact ⟨p'.past '\x7d', readValue_of_readFields hp'⟩

/-! ### Spellings from narrower ones -/

section Narrower

variable {written written' : Value → List Char → List Char → Prop}

theorem Member.imp (himp : ∀ {v cs rest}, written v cs rest → written' v cs rest)
    {f : String × Value} (h : Member written f cs rest) : Member written' f cs rest := by
  cases h with
  | mk h₀ hname h₂ h₃ hv h₅ => exact .mk h₀ hname h₂ h₃ (himp hv) h₅

theorem Members.imp (himp : ∀ {v cs rest}, written v cs rest → written' v cs rest)
    {fields : List (String × Value)} (h : Members written fields cs rest) :
    Members written' fields cs rest := by
  induction h with
  | last hf => exact .last (hf.imp himp)
  | more hf _ ih => exact .more (hf.imp himp) ih

theorem Braced.imp (himp : ∀ {v cs rest}, written v cs rest → written' v cs rest)
    {fields : List (String × Value)} (h : Braced written fields cs rest) :
    Braced written' fields cs rest := by
  cases h with
  | empty h => exact .empty h
  | fields h => exact .fields (h.imp himp)

end Narrower

theorem literal_digits {n : Nat} (hn : n < 0x10000000000000000) :
    Literal (.integer n) (Numeral.digits 10 n) := by
  obtain ⟨x, xs, hxs, hdigit, -⟩ := digits_eq_cons n
  have hrest : EndsNumber [] := trivial
  obtain ⟨p', hp'⟩ := readFigure_digits hn hrest .start
  rw [List.append_nil, hxs] at hp'
  exact hxs ▸ .positive hdigit hp'

theorem spelt_of_flat (h : Written depth v cs rest) (hv : ∀ fields, v ≠ .object fields) :
    Spelt depth v cs rest := by
  rw [Written.eq_def] at h
  cases v with
  | null | array _ => simp at h
  | object fields => exact absurd rfl (hv fields)
  | bool b =>
      rw [Spelt]
      exact h
  | number m =>
      cases m with
      | real _ => simp at h
      | integer i =>
          simp only at h
          obtain ⟨n, rfl, hn, rfl⟩ := h
          rw [Spelt]
          exact ⟨_, literal_digits hn, rfl⟩
  | string s =>
      rw [Spelt]
      exact h

/-- The values of messages are among those that can be written. -/
theorem spelt_of_written (h : Written depth v cs rest) : Spelt depth v cs rest := by
  induction depth generalizing v cs rest with
  | zero =>
      refine spelt_of_flat h ?_
      rintro fields rfl
      simp [Written] at h
  | succ depth ih =>
      cases v with
      | null | bool _ | number _ | string _ | array _ => exact spelt_of_flat h (by simp)
      | object fields =>
          rw [Written] at h
          rw [Spelt]
          exact ⟨fields, h.2.imp ih, (collect_of_nodup h.1).symm⟩

end TerminalGateway.Json
