import TerminalGateway.Message.Envelope
import TerminalGateway.Proofs.Config

/-!
The fields of an object. A reader puts every value under its name, so no name occurs twice in an
object that was read, and the value under a name does not depend on where it stands.
-/

namespace TerminalGateway.Json

/-- The names of fields. -/
abbrev names (fields : List (String × Value)) : List String := fields.map (·.1)

variable {fields more : List (String × Value)} {name : String} {v : Value}

theorem putField_of_notMem (h : name ∉ names fields) :
    putField fields name v = fields ++ [(name, v)] := by
  induction fields with
  | nil => rfl
  | cons f rest ih =>
      obtain ⟨hne, hrest⟩ := List.ne_and_not_mem_of_not_mem_cons h
      simp [putField, Ne.symm hne, ih hrest]

theorem names_putField_of_mem (h : name ∈ names fields) :
    names (putField fields name v) = names fields := by
  induction fields with
  | nil => simp at h
  | cons f rest ih =>
      by_cases hf : f.1 = name
      · simp [putField, hf]
      · have hrest : name ∈ names rest := by simpa [Ne.symm hf] using h
        simpa [putField, hf] using ih hrest

theorem nodup_putField (h : (names fields).Nodup) : (names (putField fields name v)).Nodup := by
  by_cases hm : name ∈ names fields
  · rwa [names_putField_of_mem hm]
  · rw [putField_of_notMem hm]
    rw [names, List.map_append, List.nodup_append]
    refine ⟨h, by simp, ?_⟩
    rintro n hn m hm' rfl
    obtain rfl : n = name := by simpa using hm'
    exact hm hn

@[simp] theorem field?_nil : field? [] name = none := rfl

theorem field?_cons (f : String × Value) :
    field? (f :: fields) name = if f.1 = name then some f.2 else field? fields name := by
  by_cases h : f.1 = name <;> simp [field?, h]

theorem field?_append :
    field? (fields ++ more) name = (field? fields name).or (field? more name) := by
  simp [field?, List.find?_append, Option.map_or]

theorem field?_eq_none_iff : field? fields name = none ↔ name ∉ names fields := by
  induction fields with
  | nil => simp [field?]
  | cons f rest ih =>
      rw [field?_cons, names, List.map_cons, List.mem_cons, not_or, ← ih]
      by_cases h : f.1 = name
      · simp [h]
      · simp [h, Ne.symm h]

theorem field?_eq_some_iff (h : (names fields).Nodup) :
    field? fields name = some v ↔ (name, v) ∈ fields := by
  induction fields with
  | nil => simp [field?]
  | cons f rest ih =>
      obtain ⟨hf, hrest⟩ := List.nodup_cons.mp h
      rw [field?_cons, List.mem_cons, ← ih hrest]
      by_cases hn : f.1 = name
      · subst hn
        have hnone : field? rest f.1 = none := field?_eq_none_iff.mpr hf
        simp [hnone, Prod.ext_iff, eq_comm]
      · simp [hn, Prod.ext_iff, Ne.symm hn]

/-- The order of fields does not matter to what is found under a name. -/
theorem field?_perm (h : (names fields).Nodup) (hp : fields.Perm more) :
    field? more = field? fields := by
  funext name
  have hmore : (names more).Nodup := (hp.map _).nodup h
  apply Option.ext
  intro v
  rw [field?_eq_some_iff h, field?_eq_some_iff hmore, hp.mem_iff]

/-! ### Objects that were read -/

theorem nodup_of_readFields {item : Cursor → Reading Value} {steps : Nat} {isFirst : Bool}
    {c c' : Cursor} (hf : (names fields).Nodup)
    (h : readFields item steps isFirst fields c = .ok (more, c')) : (names more).Nodup := by
  induction steps generalizing isFirst fields c with
  | zero => simp [readFields] at h
  | succ steps ih =>
      simp only [readFields, bind_eq_ok, Prod.exists] at h
      obtain ⟨next, c₁, -, h⟩ := h
      cases next with
      | none =>
          obtain ⟨rfl, -⟩ := Prod.mk.inj (Except.ok.inj h)
          exact hf
      | some name =>
          simp only [bind_eq_ok, Prod.exists] at h
          obtain ⟨c₂, -, v, c₃, -, h⟩ := h
          exact ih (nodup_putField hf) h

theorem map_eq_ok {ε α β : Type} {x : Except ε α} {f : α → β} {b : β} :
    x.map f = .ok b ↔ ∃ a, x = .ok a ∧ f a = b := by
  cases x <;> simp [Except.map]

theorem readScalar_ne_object {c c' : Cursor} : readScalar c ≠ .ok (.object fields, c') := by
  intro h
  unfold readScalar at h
  split at h
  · simp at h
  · repeat' split at h
    all_goals simp [map_eq_ok] at h

theorem nodup_of_readValue {depth : Nat} {c c' : Cursor}
    (h : readValue depth c = .ok (.object fields, c')) : (names fields).Nodup := by
  unfold readValue at h
  simp only at h
  split at h
  · cases depth with
    | zero => simp at h
    | succ depth => simp [bind_eq_ok, pure, Except.pure] at h
  split at h
  · cases depth with
    | zero => simp at h
    | succ depth =>
        simp only [bind_eq_ok, Prod.exists] at h
        obtain ⟨fs, c₁, hfs, h⟩ := h
        obtain ⟨heq, -⟩ := Prod.mk.inj (Except.ok.inj h)
        obtain rfl := Value.object.inj heq
        exact nodup_of_readFields (by simp) hfs
  · exact absurd h readScalar_ne_object

end TerminalGateway.Json

namespace TerminalGateway.Envelope

open Json

/-- A payload in which no name occurs twice. -/
def IsTidy (payload : Value) : Prop := ∀ fields, payload = .object fields → (names fields).Nodup

theorem isTidy_of_readFields {steps : Nat} {isFirst : Bool} {kind : Option String}
    {payload : Option Value} {c c' : Cursor} {e : Envelope} (hp : ∀ v ∈ payload, IsTidy v)
    (h : readFields steps isFirst kind payload c = .ok (e, c')) : IsTidy e.payload := by
  induction steps generalizing isFirst kind payload c with
  | zero => simp [readFields] at h
  | succ steps ih =>
      simp only [readFields, bind_eq_ok, Prod.exists] at h
      obtain ⟨name, c₁, -, h⟩ := h
      cases name with
      | none =>
          cases kind with
          | none => simp at h
          | some kind =>
              obtain ⟨rfl, -⟩ := Prod.mk.inj (Except.ok.inj h)
              cases payload with
              | none => simp [IsTidy]
              | some v => exact hp v rfl
      | some name =>
          simp only at h
          split at h
          · split at h
            · simp [bind_eq_ok] at h
            · simp only [bind_eq_ok, Prod.exists] at h
              obtain ⟨c₂, -, k, c₃, -, h⟩ := h
              exact ih hp h
          split at h
          · split at h
            · simp [bind_eq_ok] at h
            · simp only [bind_eq_ok, Prod.exists] at h
              obtain ⟨c₂, -, v, c₃, hv, h⟩ := h
              refine ih ?_ h
              intro w hw fields hfields
              obtain rfl : v = w := by simpa using hw
              subst hfields
              exact nodup_of_readValue hv
          · simp only [bind_eq_ok] at h
            obtain ⟨c₂, -, c₃, -, h⟩ := h
            exact ih hp h

theorem isTidy_of_readItems {c c' : Cursor} {e : Envelope} (h : readItems c = .ok (e, c')) :
    IsTidy e.payload := by
  simp only [readItems, bind_eq_ok, Prod.exists] at h
  obtain ⟨more, c₁, -, h⟩ := h
  split at h
  · simp [bind_eq_ok] at h
  simp only [bind_eq_ok, Prod.exists] at h
  obtain ⟨kind, c₂, -, more, c₃, -, h⟩ := h
  split at h
  · simp only [bind_eq_ok, Prod.exists] at h
    obtain ⟨payload, c₄, hp, c₅, -, h⟩ := h
    obtain ⟨rfl, -⟩ := Prod.mk.inj (Except.ok.inj h)
    rintro fields rfl
    exact nodup_of_readValue hp
  · simp only [bind_eq_ok, Prod.exists, pure, Except.pure, Except.ok.injEq, Prod.mk.injEq] at h
    obtain ⟨payload, c₄, ⟨rfl, -⟩, c₅, -, rfl, -⟩ := h
    simp [IsTidy]

/-- No name occurs twice in the payload of an envelope that was read. -/
theorem isTidy_of_ofText {text : String} {e : Envelope} (h : ofText text = .ok e) :
    IsTidy e.payload := by
  unfold ofText at h
  simp only at h
  split at h
  · simp [bind_eq_ok] at h
  split at h
  · simp only [bind_eq_ok, Prod.exists] at h
    obtain ⟨e', c, hread, -, -, h⟩ := h
    obtain rfl := Except.ok.inj h
    exact isTidy_of_readFields (by simp) hread
  split at h
  · simp only [bind_eq_ok, Prod.exists] at h
    obtain ⟨e', c, hread, -, -, h⟩ := h
    obtain rfl := Except.ok.inj h
    exact isTidy_of_readItems hread
  · simp [bind_eq_ok] at h

end TerminalGateway.Envelope
