import TerminalGateway.Proofs.Json.Fields
import TerminalGateway.Proofs.Json.Spelling

/-!
How values can be written, as far as messages have them: truth values, natural numbers, strings and
objects, with gaps anywhere between the tokens. A reader that finds single values finds the fields
of an object, whatever stands between them.
-/

namespace TerminalGateway.Json

section Objects

variable (written : Value → List Char → List Char → Prop)

/-- A field of an object, with the gaps around its parts. -/
inductive Member : String × Value → List Char → List Char → Prop
  | mk {name : String} {v : Value} {c₀ c₁ c₂ c₃ c₄ c₅ rest : List Char} (h₀ : Gap c₀ c₁)
      (hname : Quoted name c₁ c₂) (h₂ : Gap c₂ (':' :: c₃)) (h₃ : Gap c₃ c₄)
      (hv : written v c₄ c₅) (h₅ : Gap c₅ rest) : Member (name, v) c₀ rest

/-- The fields of an object, of which there is at least one, up to and with its closing brace. -/
inductive Members : List (String × Value) → List Char → List Char → Prop
  | last {f : String × Value} {cs rest : List Char} (hf : Member written f cs ('\x7d' :: rest)) :
      Members [f] cs rest
  | more {f : String × Value} {fields : List (String × Value)} {cs ds rest : List Char}
      (hf : Member written f cs (',' :: ds)) (h : Members fields ds rest) :
      Members (f :: fields) cs rest

/-- An object between braces. -/
inductive Braced : List (String × Value) → List Char → List Char → Prop
  | empty {cs rest : List Char} (h : Gap cs ('\x7d' :: rest)) : Braced [] ('\x7b' :: cs) rest
  | fields {fields : List (String × Value)} {cs rest : List Char}
      (h : Members written fields cs rest) : Braced fields ('\x7b' :: cs) rest

end Objects

/-- A value whose objects nest at most `depth` times. -/
def Written : Nat → Value → List Char → List Char → Prop
  | _, .bool b, cs, rest => cs = (if b then "true" else "false").toList ++ rest
  | _, .number (.integer i), cs, rest =>
      ∃ n : Nat, i = n ∧ n < 0x10000000000000000 ∧ cs = Numeral.digits 10 n ++ rest
  | _, .string s, cs, rest => Quoted s cs rest
  | depth + 1, .object fields, cs, rest =>
      (names fields).Nodup ∧ Braced (Written depth) fields cs rest
  | _, _, _, _ => False

variable {cs ds rest : List Char} {x : Char}

/-! ### Parts of objects -/

theorem EndsNumber.of_gap (h : Gap cs rest) (hrest : EndsNumber rest) : EndsNumber cs := by
  cases h with
  | none => exact hrest
  | @more x cs _ hx _ =>
      simp only [List.mem_cons, List.not_mem_nil, or_false] at hx
      obtain rfl | rfl | rfl | rfl := hx <;> exact ⟨by decide, by decide, by decide⟩

theorem endsNumber_of_mark (hx : x = ',' ∨ x = '\x7d') : EndsNumber (x :: rest) := by
  obtain rfl | rfl := hx <;> exact ⟨by decide, by decide, by decide⟩

theorem readColon_of_gap (h : Gap cs (':' :: rest)) (p : Position) :
    ∃ p', readColon ⟨cs, p⟩ = .ok ⟨rest, p'⟩ := by
  obtain ⟨p', hp'⟩ := h.skipGap_eq rfl p
  exact ⟨p'.past ':', by simp [readColon, hp', Cursor.advance]⟩

/-- The place before a field: right before it if it is the first, and else before the comma. -/
def Enters (isFirst : Bool) (cs ds : List Char) : Prop :=
  if isFirst then cs = ds else Gap cs (',' :: ds)

theorem nextName_of_quoted {isFirst : Bool} {name : String} {c₀ c₁ c₂ : List Char}
    (he : Enters isFirst cs c₀) (h₀ : Gap c₀ c₁) (hname : Quoted name c₁ c₂) (p : Position) :
    ∃ p', nextName isFirst ⟨cs, p⟩ = .ok (some name, ⟨c₂, p'⟩) := by
  cases hname with
  | mk h =>
      cases isFirst with
      | true =>
          obtain rfl : cs = c₀ := he
          obtain ⟨p₁, hp₁⟩ := h₀.skipGap_eq rfl p
          obtain ⟨p₂, hp₂⟩ := h.readString (p₁.past '"')
          exact ⟨p₂, by simp [nextName, hp₁, Cursor.advance, hp₂, Except.map]⟩
      | false =>
          obtain ⟨p₁, hp₁⟩ := Gap.skipGap_eq he rfl p
          obtain ⟨p₂, hp₂⟩ := h₀.skipGap_eq rfl (p₁.past ',')
          obtain ⟨p₃, hp₃⟩ := h.readString (p₂.past '"')
          exact ⟨p₃, by simp [nextName, hp₁, Cursor.advance, hp₂, hp₃, Except.map]⟩

theorem nextName_of_end (isFirst : Bool) (h : Gap cs ('\x7d' :: rest)) (p : Position) :
    ∃ p', nextName isFirst ⟨cs, p⟩ = .ok (none, ⟨'\x7d' :: rest, p'⟩) := by
  obtain ⟨p', hp'⟩ := h.skipGap_eq rfl p
  exact ⟨p', by simp [nextName, hp']⟩

theorem notMem_of_nodup {done fields : List (String × Value)} {f : String × Value}
    (h : (names (done ++ f :: fields)).Nodup) : f.1 ∉ names done := by
  rw [names, List.map_append, List.nodup_append] at h
  exact fun hm => h.2.2 f.1 hm f.1 (by simp) rfl

/-! ### Objects -/

/-- A reader of values finds each where it is written, after any gap. -/
structure Finds (written : Value → List Char → List Char → Prop) (item : Cursor → Reading Value) :
    Prop where
  shorter : ∀ {v cs rest}, written v cs rest → rest.length ≤ cs.length
  gap : ∀ {cs rest}, Gap cs rest → ∀ p, ∃ p', item ⟨cs, p⟩ = item ⟨rest, p'⟩
  value : ∀ {v cs rest}, written v cs rest → EndsNumber rest →
    ∀ p, ∃ p', item ⟨cs, p⟩ = .ok (v, ⟨rest, p'⟩)

variable {written : Value → List Char → List Char → Prop} {item : Cursor → Reading Value}

theorem Finds.member (hi : Finds written item) {f : String × Value} {isFirst : Bool}
    {c₀ : List Char} (hf : Member written f c₀ ds) (he : Enters isFirst cs c₀) (hds : EndsNumber ds)
    (steps : Nat) (fields : List (String × Value)) (p : Position) :
    ∃ c p', Gap c ds ∧ readFields item (steps + 1) isFirst fields ⟨cs, p⟩ =
      readFields item steps false (putField fields f.1 f.2) ⟨c, p'⟩ := by
  cases hf with
  | @mk name v _ c₁ c₂ c₃ c₄ c₅ _ h₀ hname h₂ h₃ hv h₅ =>
      obtain ⟨p₁, hp₁⟩ := nextName_of_quoted he h₀ hname p
      obtain ⟨p₂, hp₂⟩ := readColon_of_gap h₂ p₁
      obtain ⟨p₃, hp₃⟩ := hi.gap h₃ p₂
      obtain ⟨p₄, hp₄⟩ := hi.value hv (hds.of_gap h₅) p₃
      refine ⟨c₅, p₄, h₅, ?_⟩
      rw [readFields.eq_def]
      simp [hp₁, hp₂, hp₃, hp₄, bind, Except.bind]

theorem Finds.member_length (hi : Finds written item) {f : String × Value}
    (hf : Member written f cs rest) : rest.length < cs.length := by
  cases hf with
  | mk h₀ hname h₂ h₃ hv h₅ =>
      have hcolon := h₂.length_le
      have hvalue := hi.shorter hv
      have := h₀.length_le
      have := hname.length_lt
      have := h₃.length_le
      have := h₅.length_le
      simp only [List.length_cons] at hcolon
      omega

/-- Every field takes at least a character. -/
theorem Finds.members_length (hi : Finds written item) {fields : List (String × Value)}
    (h : Members written fields cs rest) : fields.length + rest.length < cs.length := by
  induction h with
  | last hf =>
      have := hi.member_length hf
      simp only [List.length_cons, List.length_nil] at this ⊢
      omega
  | more hf _ ih =>
      have := hi.member_length hf
      simp only [List.length_cons] at this ⊢
      omega

/-- The fields that an object has when these were written in it; the last value of a name counts. -/
def collect (done fields : List (String × Value)) : List (String × Value) :=
  fields.foldl (fun done f => putField done f.1 f.2) done

theorem collect_append {done fields : List (String × Value)}
    (h : (names (done ++ fields)).Nodup) : collect done fields = done ++ fields := by
  induction fields generalizing done with
  | nil => exact (List.append_nil done).symm
  | cons f fields ih =>
      have hput : putField done f.1 f.2 = done ++ [f] := putField_of_notMem (notMem_of_nodup h)
      have hrest : (names ((done ++ [f]) ++ fields)).Nodup := by simpa using h
      rw [collect, List.foldl_cons, hput, ← collect, ih hrest, List.append_assoc,
        List.singleton_append]

theorem collect_of_nodup {fields : List (String × Value)} (h : (names fields).Nodup) :
    collect [] fields = fields :=
  collect_append h

theorem Finds.members (hi : Finds written item) {fields : List (String × Value)} {c₀ : List Char}
    (h : Members written fields c₀ rest) {isFirst : Bool} (he : Enters isFirst cs c₀) {steps : Nat}
    (hsteps : fields.length < steps) (done : List (String × Value)) (p : Position) :
    ∃ p', readFields item steps isFirst done ⟨cs, p⟩ =
      .ok (collect done fields, ⟨'\x7d' :: rest, p'⟩) := by
  induction h generalizing isFirst cs steps done p with
  | @last f c₀ rest hf =>
      obtain ⟨steps, rfl⟩ : ∃ n, steps = n + 2 := ⟨steps - 2, by simp at hsteps; omega⟩
      obtain ⟨c, p₁, hc, hp₁⟩ := hi.member hf he (endsNumber_of_mark (.inr rfl)) (steps + 1) done p
      obtain ⟨p₂, hp₂⟩ := nextName_of_end false hc p₁
      refine ⟨p₂, hp₁.trans ?_⟩
      rw [readFields.eq_def]
      simp [hp₂, collect, bind, Except.bind, pure, Except.pure]
  | @more f fields c₀ ds rest hf h ih =>
      obtain ⟨steps, rfl⟩ : ∃ n, steps = n + 1 := ⟨steps - 1, by omega⟩
      obtain ⟨c, p₁, hc, hp₁⟩ := hi.member hf he (endsNumber_of_mark (.inl rfl)) steps done p
      have hnext : Enters false c ds := hc
      obtain ⟨p₂, hp₂⟩ := ih hnext (Nat.lt_of_succ_lt_succ hsteps) (putField done f.1 f.2) p₁
      exact ⟨p₂, hp₁.trans hp₂⟩

theorem Finds.braced (hi : Finds written item) {fields : List (String × Value)}
    (h : Braced written fields cs rest) :
    ∃ ds, cs = '\x7b' :: ds ∧ rest.length ≤ ds.length ∧
      ∀ p, ∃ p', readFields item (cs.length + 1) true [] ⟨ds, p⟩ =
        .ok (collect [] fields, ⟨'\x7d' :: rest, p'⟩) := by
  cases h with
  | @empty ds _ h =>
      have hlength := h.length_le
      refine ⟨ds, rfl, Nat.le_of_succ_le hlength, fun p => ?_⟩
      obtain ⟨p', hp'⟩ := nextName_of_end true h p
      refine ⟨p', ?_⟩
      rw [readFields.eq_def]
      simp [hp', collect, bind, Except.bind, pure, Except.pure]
  | @fields _ ds _ h =>
      have hlength := hi.members_length h
      have hfirst : Enters true ds ds := rfl
      refine ⟨ds, rfl, by omega, hi.members h hfirst ?_ []⟩
      simp only [List.length_cons]
      omega

/-! ### Values -/

theorem readLiteral_of_append (es rest : List Char) (p : Position) :
    ∃ p', readLiteral es ⟨es ++ rest, p⟩ = .ok ⟨rest, p'⟩ := by
  induction es generalizing p with
  | nil => exact ⟨p, rfl⟩
  | cons e es ih =>
      obtain ⟨p', hp'⟩ := ih (p.past e)
      exact ⟨p', by simpa [readLiteral, Cursor.advance] using hp'⟩

/-- A character that a value which is no list or object can begin with. -/
def BeginsScalar (x : Char) : Prop := Cursor.isGap x = false ∧ x ≠ '[' ∧ x ≠ '\x7b'

theorem beginsScalar_letter (hx : x = 't' ∨ x = 'f' ∨ x = '"') : BeginsScalar x := by
  obtain rfl | rfl | rfl := hx <;> exact ⟨by decide, by decide, by decide⟩

theorem readValue_eq_readScalar (hx : BeginsScalar x) (depth : Nat) (p : Position) :
    readValue depth ⟨x :: rest, p⟩ = readScalar ⟨x :: rest, p⟩ := by
  rw [readValue.eq_def]
  simp [skipGap_of_solid hx.1, Cursor.sees, hx.2.1, hx.2.2]

theorem readScalar_of_bool (b : Bool) (rest : List Char) (p : Position) :
    ∃ p', readScalar ⟨(if b then "true" else "false").toList ++ rest, p⟩ =
      .ok (.bool b, ⟨rest, p'⟩) := by
  cases b with
  | true =>
      obtain ⟨p', hp'⟩ := readLiteral_of_append ['r', 'u', 'e'] rest (p.past 't')
      simp only [List.cons_append, List.nil_append] at hp'
      exact ⟨p', by simp [readScalar, Cursor.advance, Except.map, hp']⟩
  | false =>
      obtain ⟨p', hp'⟩ := readLiteral_of_append ['a', 'l', 's', 'e'] rest (p.past 'f')
      simp only [List.cons_append, List.nil_append] at hp'
      exact ⟨p', by simp [readScalar, Cursor.advance, Except.map, hp']⟩

theorem digit_ne (h : Numeral.isDigit x = true) :
    BeginsScalar x ∧ x ≠ 'n' ∧ x ≠ 't' ∧ x ≠ 'f' ∧ x ≠ '"' ∧ x ≠ '-' := by
  have hne : ∀ y, Numeral.isDigit y = false → x ≠ y := by
    intro y hy hxy
    rw [hxy, hy] at h
    exact absurd h (by decide)
  have hgap : Cursor.isGap x = false := by
    simp [Cursor.isGap, hne ' ' (by decide), hne '\n' (by decide), hne '\t' (by decide),
      hne '\r' (by decide)]
  exact ⟨⟨hgap, hne _ (by decide), hne _ (by decide)⟩, hne _ (by decide), hne _ (by decide),
    hne _ (by decide), hne _ (by decide), hne _ (by decide)⟩

theorem readScalar_of_quoted {s : String} (h : Quoted s cs rest) (p : Position) :
    ∃ p', readScalar ⟨cs, p⟩ = .ok (.string s, ⟨rest, p'⟩) := by
  cases h with
  | mk h =>
      obtain ⟨p', hp'⟩ := h.readString (p.past '"')
      exact ⟨p', by simp [readScalar, Cursor.advance, hp', Except.map]⟩

theorem readValue_gap {depth : Nat} (h : Gap cs rest) (p : Position) :
    ∃ p', readValue depth ⟨cs, p⟩ = readValue depth ⟨rest, p'⟩ := by
  obtain ⟨p', hp'⟩ := h.skipGap p
  refine ⟨p', ?_⟩
  rw [readValue.eq_def, readValue.eq_def depth ⟨rest, p'⟩]
  simp only [hp']

theorem readValue_of_readFields {depth : Nat} {fields : List (String × Value)} {p p' : Position}
    (h : readFields (readValue depth) (('\x7b' :: cs).length + 1) true [] ⟨cs, p.past '\x7b'⟩ =
      .ok (fields, ⟨'\x7d' :: rest, p'⟩)) :
    readValue (depth + 1) ⟨'\x7b' :: cs, p⟩ = .ok (.object fields, ⟨rest, p'.past '\x7d'⟩) := by
  have hgap : Cursor.isGap '\x7b' = false := by decide
  rw [readValue.eq_def]
  simp only [skipGap_of_solid hgap, Cursor.sees, Cursor.advance, h, bind, Except.bind, pure,
    Except.pure]
  rfl

/-! ### Values that can be written -/

/-- There is a way to write a value before anything else. -/
def CanBeWritten (depth : Nat) (v : Value) : Prop := ∀ rest, ∃ cs, Written depth v cs rest

theorem canBeWritten_bool (depth : Nat) (b : Bool) : CanBeWritten depth (.bool b) :=
  fun _ => ⟨_, by rw [Written]⟩

theorem canBeWritten_integer (depth : Nat) {n : Nat} (hn : n < 0x10000000000000000) :
    CanBeWritten depth (.number (.integer n)) :=
  fun _ => ⟨_, by rw [Written]; exact ⟨n, rfl, hn, rfl⟩⟩

theorem canBeWritten_string (depth : Nat) (s : String) : CanBeWritten depth (.string s) := by
  intro rest
  obtain ⟨cs, hcs⟩ := exists_quoted s rest
  exact ⟨cs, by rwa [Written]⟩

theorem exists_member {depth : Nat} {f : String × Value} (hf : CanBeWritten depth f.2)
    (rest : List Char) : ∃ cs, Member (Written depth) f cs rest := by
  obtain ⟨ds, hds⟩ := hf rest
  obtain ⟨cs, hcs⟩ := exists_quoted f.1 (':' :: ds)
  exact ⟨cs, .mk (.none _) hcs (.none _) (.none _) hds (.none _)⟩

theorem exists_members {depth : Nat} (f : String × Value) (fields : List (String × Value))
    (h : ∀ g ∈ f :: fields, CanBeWritten depth g.2) (rest : List Char) :
    ∃ cs, Members (Written depth) (f :: fields) cs rest := by
  induction fields generalizing f with
  | nil =>
      obtain ⟨cs, hcs⟩ := exists_member (h f (by simp)) ('\x7d' :: rest)
      exact ⟨cs, .last hcs⟩
  | cons g fields ih =>
      obtain ⟨hf, hrest⟩ := List.forall_mem_cons.mp h
      obtain ⟨ds, hds⟩ := ih g hrest
      obtain ⟨cs, hcs⟩ := exists_member hf (',' :: ds)
      exact ⟨cs, .more hcs hds⟩

theorem exists_braced {depth : Nat} {fields : List (String × Value)}
    (h : ∀ f ∈ fields, CanBeWritten depth f.2) (rest : List Char) :
    ∃ cs, Braced (Written depth) fields cs rest := by
  cases fields with
  | nil => exact ⟨_, .empty (.none _)⟩
  | cons f fields =>
      obtain ⟨cs, hcs⟩ := exists_members f fields h rest
      exact ⟨_, .fields hcs⟩

theorem canBeWritten_object {depth : Nat} {fields : List (String × Value)}
    (hnames : (names fields).Nodup) (h : ∀ f ∈ fields, CanBeWritten depth f.2) :
    CanBeWritten (depth + 1) (.object fields) := by
  intro rest
  obtain ⟨cs, hcs⟩ := exists_braced h rest
  exact ⟨cs, by rw [Written]; exact ⟨hnames, hcs⟩⟩

end TerminalGateway.Json
