import TerminalGateway.Proofs.Json.Passing

/-!
How an envelope can be written: as an object whose fields stand in any order, with gaps anywhere and
with other fields among them. However it is written, it is read back.
-/

namespace TerminalGateway.Envelope

open Json

/-- A text that is nothing but an envelope, whose two fields may change places. -/
def WrittenAs (e : Envelope) (text : String) : Prop :=
  ∃ cs ds fields, Gap text.toList cs ∧ Braced (Written depthLimit) fields cs ds ∧ Gap ds [] ∧
    (fields = [("type", .string e.kind), ("payload", e.payload)] ∨
      fields = [("payload", e.payload), ("type", .string e.kind)])

/-- The values that fields have under a name. -/
def valuesOf (name : String) (fields : List (String × Value)) : List Value :=
  (fields.filter fun f => f.1 = name).map (·.2)

/-- One field is the kind and one the payload, among any others. A missing payload is null. -/
structure IsGivenBy (e : Envelope) (fields : List (String × Value)) : Prop where
  kind : valuesOf "type" fields = [.string e.kind]
  payload : valuesOf "payload" fields = [e.payload] ∨
    valuesOf "payload" fields = [] ∧ e.payload = .null

/-- A text that is nothing but an envelope, in any spelling. -/
def SpeltAs (e : Envelope) (text : String) : Prop :=
  ∃ cs ds fields, Gap text.toList cs ∧ Braced (Spelt depthLimit) fields cs ds ∧ Gap ds [] ∧
    e.IsGivenBy fields

variable {cs ds rest c₀ : List Char} {isFirst : Bool} {kind : String} {v : Value} {e : Envelope}
variable {fields : List (String × Value)}

@[simp] theorem valuesOf_nil (name : String) : valuesOf name [] = [] := rfl

@[simp] theorem valuesOf_cons_self (name : String) (v : Value) (fields : List (String × Value)) :
    valuesOf name ((name, v) :: fields) = v :: valuesOf name fields := by
  simp [valuesOf]

theorem valuesOf_cons_of_ne {name other : String} (h : other ≠ name) (v : Value)
    (fields : List (String × Value)) :
    valuesOf name ((other, v) :: fields) = valuesOf name fields := by
  simp [valuesOf, h]

/-! ### Single fields -/

theorem readText_of_quoted {s : String} (hgap : Gap cs ds) (h : Quoted s ds rest) (p : Position) :
    ∃ p', readText ⟨cs, p⟩ = .ok (s, ⟨rest, p'⟩) := by
  cases h with
  | mk h =>
      obtain ⟨p₁, hp₁⟩ := hgap.skipGap_eq rfl p
      obtain ⟨p₂, hp₂⟩ := h.readString (p₁.past '"')
      exact ⟨p₂, by simp [readText, hp₁, Cursor.sees, Cursor.advance, hp₂]⟩

theorem readFields_type (h : Member (Spelt depthLimit) ("type", .string kind) c₀ ds)
    (he : Enters isFirst cs c₀) (steps : Nat) (payload : Option Value) (p : Position) :
    ∃ c p', Gap c ds ∧ Envelope.readFields (steps + 1) isFirst none payload ⟨cs, p⟩ =
      Envelope.readFields steps false (some kind) payload ⟨c, p'⟩ := by
  cases h with
  | @mk _ _ _ c₁ c₂ c₃ c₄ c₅ _ h₀ hname h₂ h₃ hv h₅ =>
      rw [Spelt] at hv
      obtain ⟨p₁, hp₁⟩ := nextName_of_quoted he h₀ hname p
      obtain ⟨p₂, hp₂⟩ := readColon_of_gap h₂ p₁
      obtain ⟨p₃, hp₃⟩ := readText_of_quoted h₃ hv p₂
      refine ⟨c₅, p₃, h₅, ?_⟩
      rw [Envelope.readFields]
      simp [hp₁, hp₂, hp₃, bind, Except.bind]

theorem readFields_payload (h : Member (Spelt depthLimit) ("payload", v) c₀ ds)
    (he : Enters isFirst cs c₀) (hds : EndsNumber ds) (steps : Nat) (kind : Option String)
    (p : Position) :
    ∃ c p', Gap c ds ∧ Envelope.readFields (steps + 1) isFirst kind none ⟨cs, p⟩ =
      Envelope.readFields steps false kind (some v) ⟨c, p'⟩ := by
  cases h with
  | @mk _ _ _ c₁ c₂ c₃ c₄ c₅ _ h₀ hname h₂ h₃ hv h₅ =>
      have hi := finds_spelt depthLimit
      obtain ⟨p₁, hp₁⟩ := nextName_of_quoted he h₀ hname p
      obtain ⟨p₂, hp₂⟩ := readColon_of_gap h₂ p₁
      obtain ⟨p₃, hp₃⟩ := hi.gap h₃ p₂
      obtain ⟨p₄, hp₄⟩ := hi.value hv (hds.of_gap h₅) p₃
      refine ⟨c₅, p₄, h₅, ?_⟩
      rw [Envelope.readFields]
      simp [hp₁, hp₂, hp₃, hp₄, bind, Except.bind]

/-- A field of another name is passed over. -/
theorem readFields_other {name : String} (ht : name ≠ "type") (hpay : name ≠ "payload")
    (h : Member (Spelt depthLimit) (name, v) c₀ ds) (he : Enters isFirst cs c₀)
    (hds : EndsNumber ds) (steps : Nat) (kind : Option String) (payload : Option Value)
    (p : Position) :
    ∃ c p', Gap c ds ∧ Envelope.readFields (steps + 1) isFirst kind payload ⟨cs, p⟩ =
      Envelope.readFields steps false kind payload ⟨c, p'⟩ := by
  cases h with
  | @mk _ _ _ c₁ c₂ c₃ c₄ c₅ _ h₀ hname h₂ h₃ hv h₅ =>
      obtain ⟨p₁, hp₁⟩ := nextName_of_quoted he h₀ hname p
      obtain ⟨p₂, hp₂⟩ := readColon_of_gap h₂ p₁
      obtain ⟨p₃, hp₃⟩ := skipValue_of_spelt h₃ hv (hds.of_gap h₅) p₂
      refine ⟨c₅, p₃, h₅, ?_⟩
      rw [Envelope.readFields]
      simp [hp₁, hp₂, hp₃, ht, hpay, bind, Except.bind]

theorem readFields_end (h : Gap cs ('\x7d' :: rest)) (steps : Nat) (isFirst : Bool)
    (payload : Option Value) (p : Position) :
    ∃ p', Envelope.readFields (steps + 1) isFirst (some kind) payload ⟨cs, p⟩ =
      .ok (⟨kind, payload.getD .null⟩, ⟨rest, p'⟩) := by
  obtain ⟨p', hp'⟩ := nextName_of_end isFirst h p
  refine ⟨p'.past '\x7d', ?_⟩
  rw [Envelope.readFields]
  simp [hp', Cursor.advance, bind, Except.bind, pure, Except.pure]

/-! ### Whole envelopes -/

/-- What was read so far and what is still to come give the envelope together. -/
structure Awaits (e : Envelope) (kind : Option String) (payload : Option Value)
    (fields : List (String × Value)) : Prop where
  kind : kind.toList.map .string ++ valuesOf "type" fields = [.string e.kind]
  payload : payload.toList ++ valuesOf "payload" fields = [e.payload] ∨
    payload.toList ++ valuesOf "payload" fields = [] ∧ e.payload = .null

theorem Awaits.member {f : String × Value} {kind : Option String} {payload : Option Value}
    (h : e.Awaits kind payload (f :: fields)) (hf : Member (Spelt depthLimit) f c₀ ds)
    (he : Enters isFirst cs c₀) (hds : EndsNumber ds) (steps : Nat) (p : Position) :
    ∃ kind' payload' c p', e.Awaits kind' payload' fields ∧ Gap c ds ∧
      Envelope.readFields (steps + 1) isFirst kind payload ⟨cs, p⟩ =
        Envelope.readFields steps false kind' payload' ⟨c, p'⟩ := by
  obtain ⟨name, v⟩ := f
  obtain ⟨hkind, hpayload⟩ := h
  by_cases ht : name = "type"
  · subst ht
    rw [valuesOf_cons_self] at hkind
    rw [valuesOf_cons_of_ne (by decide)] at hpayload
    cases kind with
    | some k => simp at hkind
    | none =>
        obtain ⟨rfl, hnone⟩ := List.cons.inj hkind
        obtain ⟨c, p', hc, hp'⟩ := readFields_type hf he steps payload p
        exact ⟨some e.kind, payload, c, p', ⟨by simp [hnone], hpayload⟩, hc, hp'⟩
  by_cases hpay : name = "payload"
  · subst hpay
    rw [valuesOf_cons_of_ne (by decide)] at hkind
    rw [valuesOf_cons_self] at hpayload
    cases payload with
    | some w => simp at hpayload
    | none =>
        have hnext : [v] ++ valuesOf "payload" fields = [e.payload] := by simpa using hpayload
        obtain ⟨c, p', hc, hp'⟩ := readFields_payload hf he hds steps kind p
        exact ⟨kind, some v, c, p', ⟨hkind, .inl hnext⟩, hc, hp'⟩
  · rw [valuesOf_cons_of_ne ht] at hkind
    rw [valuesOf_cons_of_ne hpay] at hpayload
    obtain ⟨c, p', hc, hp'⟩ := readFields_other ht hpay hf he hds steps kind payload p
    exact ⟨kind, payload, c, p', ⟨hkind, hpayload⟩, hc, hp'⟩

theorem Awaits.closed {kind : Option String} {payload : Option Value} (h : e.Awaits kind payload [])
    (hgap : Gap cs ('\x7d' :: rest)) (steps : Nat) (p : Position) :
    ∃ p', Envelope.readFields (steps + 1) isFirst kind payload ⟨cs, p⟩ = .ok (e, ⟨rest, p'⟩) := by
  obtain ⟨hkind, hpayload⟩ := h
  obtain ⟨k, w⟩ := e
  obtain rfl : kind = some k := by cases kind <;> simp_all
  obtain rfl : payload.getD .null = w := by
    cases payload <;> simp_all
  exact readFields_end hgap steps isFirst payload p

/-- The fields of an envelope are read one by one. -/
theorem Awaits.members {kind : Option String} {payload : Option Value}
    (h : e.Awaits kind payload fields) (hf : Members (Spelt depthLimit) fields c₀ rest)
    (he : Enters isFirst cs c₀) {steps : Nat} (hsteps : fields.length < steps) (p : Position) :
    ∃ p', Envelope.readFields steps isFirst kind payload ⟨cs, p⟩ = .ok (e, ⟨rest, p'⟩) := by
  induction hf generalizing kind payload isFirst cs steps p with
  | last hf =>
      obtain ⟨steps, rfl⟩ : ∃ n, steps = n + 2 := ⟨steps - 2, by simp at hsteps; omega⟩
      obtain ⟨kind', payload', c, p₁, hnext, hc, hp₁⟩ :=
        h.member hf he (endsNumber_of_mark (.inr rfl)) (steps + 1) p
      obtain ⟨p₂, hp₂⟩ := hnext.closed hc steps p₁
      exact ⟨p₂, hp₁.trans hp₂⟩
  | more hf _ ih =>
      obtain ⟨steps, rfl⟩ : ∃ n, steps = n + 1 := ⟨steps - 1, by omega⟩
      obtain ⟨kind', payload', c, p₁, hnext, hc, hp₁⟩ :=
        h.member hf he (endsNumber_of_mark (.inl rfl)) steps p
      have henters : Enters false c _ := hc
      obtain ⟨p₂, hp₂⟩ := ih hnext henters (Nat.lt_of_succ_lt_succ hsteps) p₁
      exact ⟨p₂, hp₁.trans hp₂⟩

theorem readEnd_of_gap (h : Gap cs []) (p : Position) : readEnd ⟨cs, p⟩ = .ok () := by
  obtain ⟨p', hp'⟩ := h.skipGap p
  have hend : (⟨cs, p⟩ : Cursor).skipGap = ⟨[], p'⟩ := hp'
  simp [readEnd, hend]

/-- However an envelope is written, it is read back. -/
theorem read_of_speltAs {text : String} (h : e.SpeltAs text) : ofText text = .ok e := by
  obtain ⟨cs, ds, fields, hgap, hbraced, hend, hkind, hpayload⟩ := h
  have hawaits : e.Awaits none none fields := ⟨hkind, hpayload⟩
  cases hbraced with
  | empty => simp at hkind
  | @fields _ cs _ h =>
      have hlength := (finds_spelt depthLimit).members_length h
      have hsteps : fields.length < cs.length + 1 + 1 := by omega
      have hfirst : Enters true cs cs := rfl
      obtain ⟨p₁, hp₁⟩ := hgap.skipGap_eq rfl .start
      obtain ⟨p₂, hp₂⟩ := hawaits.members h hfirst hsteps (p₁.past '\x7b')
      have hgapped : (Cursor.ofText text).skipGap = ⟨'\x7b' :: cs, p₁⟩ := hp₁
      simp [ofText, hgapped, Cursor.sees, Cursor.advance, hp₂, readEnd_of_gap hend, bind,
        Except.bind, pure, Except.pure]

theorem WrittenAs.speltAs {text : String} (h : e.WrittenAs text) : e.SpeltAs text := by
  obtain ⟨cs, ds, fields, hgap, hbraced, hend, hf⟩ := h
  refine ⟨cs, ds, fields, hgap, hbraced.imp spelt_of_written, hend, ?_⟩
  obtain rfl | rfl := hf <;> exact ⟨rfl, .inl rfl⟩

/-- However an envelope is written, it is read back. -/
theorem read_of_writtenAs {text : String} (h : e.WrittenAs text) : ofText text = .ok e :=
  read_of_speltAs h.speltAs

/-- An envelope can be written if its payload can be. -/
theorem exists_writtenAs {e : Envelope} (h : CanBeWritten depthLimit e.payload) :
    ∃ text, e.WrittenAs text := by
  have hfields : ∀ f ∈ [("type", .string e.kind), ("payload", e.payload)],
      CanBeWritten depthLimit f.2 := by
    simp only [List.forall_mem_cons]
    exact ⟨canBeWritten_string _ _, h, by simp⟩
  obtain ⟨cs, hcs⟩ := exists_braced hfields []
  refine ⟨String.ofList cs, cs, [], _, ?_, hcs, .none [], .inl rfl⟩
  rw [String.toList_ofList]
  exact .none cs

end TerminalGateway.Envelope
