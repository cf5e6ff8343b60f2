import Mathlib.Tactic.SplitIfs
import TerminalGateway.Json.Writer
import TerminalGateway.Proofs.Message.Envelope

/-!
Reading what was written. The writer leaves no gaps and escapes only what it must, so what it writes
is one of the ways in which a value can be written, and the readers find it there.
-/

namespace TerminalGateway.Json

/-- The value that a text is as a whole. It may nest one deeper than a payload, as an envelope
does. -/
def readDocument (text : String) : Except Fault Value := do
  let (v, c) ← readValue (Envelope.depthLimit + 1) (.ofText text)
  readEnd c
  return v

/-- A value of truth values, natural numbers of at most 64 bits and strings, in lists and objects
that nest at most `depth` times. -/
def Value.Fits : Nat → Value → Prop
  | _, .bool _ => True
  | _, .string _ => True
  | _, .number (.integer i) => ∃ n : Nat, i = n ∧ n < 0x10000000000000000
  | depth + 1, .array items => ∀ v ∈ items, v.Fits depth
  | depth + 1, .object fields => (names fields).Nodup ∧ ∀ f ∈ fields, f.2.Fits depth
  | _, _ => False

/-- A value as the writer writes it. -/
def Compact (depth : Nat) (v : Value) (cs rest : List Char) : Prop :=
  v.Fits depth ∧ cs = v.write ++ rest

variable {cs ds rest : List Char} {x : Char} {v : Value} {depth : Nat}

/-! ### Strings -/

theorem hexDigit_digitOf {n : Nat} (h : n < 16) : HexDigit n (Numeral.digitOf n) := by
  have key : ∀ n < 16, "0123456789abcdef".toList[n]? = some (Numeral.digitOf n) := by decide
  exact .inl (key n h)

theorem letter_writeChar (x : Char) (rest : List Char) : Letter x (writeChar x ++ rest) rest := by
  unfold writeChar
  split_ifs with hquote hslash _ _ _ _ _ hcontrol
  -- the first seven are the characters with an escape of their own
  any_goals
    subst x
    exact .short (by decide) rest
  · have hlt : x.toNat < ' '.toNat := hcontrol
    have hsmall : x.toNat < 32 := hlt
    have hsum : ((0 * 16 + 0) * 16 + x.toNat / 16) * 16 + x.toNat % 16 = x.toNat := by omega
    have hzero : HexDigit 0 '0' := hexDigit_digitOf (by decide)
    have hhigh := hexDigit_digitOf (show x.toNat / 16 < 16 by omega)
    have hlow := hexDigit_digitOf (show x.toNat % 16 < 16 by omega)
    have hunit := CodeUnit.mk hzero hzero hhigh hlow rest
    rw [hsum] at hunit
    exact .unit hunit
  · exact .plain hquote hslash (Char.not_lt.mp hcontrol) rest

theorem letters_writeChar (xs rest : List Char) :
    Letters xs (xs.flatMap writeChar ++ '"' :: rest) rest := by
  induction xs with
  | nil => exact .done rest
  | cons x xs ih =>
      rw [List.flatMap_cons, List.append_assoc]
      exact .more (letter_writeChar x _) ih

theorem quoted_writeString (s : String) (rest : List Char) :
    Quoted s (writeString s ++ rest) rest := by
  have heq : writeString s ++ rest = '"' :: (s.toList.flatMap writeChar ++ '"' :: rest) := by
    simp [writeString]
  exact heq ▸ .mk (letters_writeChar _ _)

/-! ### Objects -/

section Objects

variable {written : Value → List Char → List Char → Prop}

theorem member_writeField {f : String × Value} (h : written f.2 (f.2.write ++ rest) rest) :
    Member written f (writeString f.1 ++ ':' :: (f.2.write ++ rest)) rest :=
  .mk (.none _) (quoted_writeString _ _) (.none _) (.none _) h (.none _)

theorem members_writeFields {f : String × Value} {fields : List (String × Value)}
    (h : ∀ g ∈ f :: fields, ∀ rest, written g.2 (g.2.write ++ rest) rest) :
    Members written (f :: fields) (writeFields (f :: fields) ++ '\x7d' :: rest) rest := by
  induction fields generalizing f with
  | nil =>
      have hf := member_writeField (h f (by simp) ('\x7d' :: rest))
      exact .last (by simpa [writeFields] using hf)
  | cons g fields ih =>
      obtain ⟨hf, hfields⟩ := List.forall_mem_cons.mp h
      have hmember := member_writeField (hf (',' :: (writeFields (g :: fields) ++ '\x7d' :: rest)))
      exact .more (by simpa [writeFields] using hmember) (ih hfields)

theorem braced_writeFields {fields : List (String × Value)}
    (h : ∀ f ∈ fields, ∀ rest, written f.2 (f.2.write ++ rest) rest) (rest : List Char) :
    Braced written fields ((Value.object fields).write ++ rest) rest := by
  rw [Value.write, List.cons_append, List.cons_append, List.append_assoc]
  cases fields with
  | nil => exact .empty (.none _)
  | cons f fields => exact .fields (members_writeFields h)

end Objects

theorem braced_of_fits {fields : List (String × Value)} (h : ∀ f ∈ fields, f.2.Fits depth)
    (rest : List Char) :
    Braced (Compact depth) fields ((Value.object fields).write ++ rest) rest :=
  braced_writeFields (fun f hf _ => ⟨h f hf, rfl⟩) rest

/-! ### Lists -/

theorem items_writeItems {written : Value → List Char → List Char → Prop} {items : List Value}
    (h : ∀ w ∈ v :: items, ∀ rest, written w (w.write ++ rest) rest) :
    Items written (v :: items) (writeItems (v :: items) ++ ']' :: rest) rest := by
  induction items generalizing v with
  | nil => exact .last (.none _) (h v (by simp) _) (.none _)
  | cons w items ih =>
      obtain ⟨hv, hitems⟩ := List.forall_mem_cons.mp h
      have hfirst := hv (',' :: (writeItems (w :: items) ++ ']' :: rest))
      have hwrite : writeItems (v :: w :: items) ++ ']' :: rest =
          v.write ++ ',' :: (writeItems (w :: items) ++ ']' :: rest) := by
        simp [writeItems]
      exact hwrite ▸ .more (.none _) hfirst (.none _) (ih hitems)

theorem bracketed_writeItems {written : Value → List Char → List Char → Prop} {items : List Value}
    (h : ∀ v ∈ items, ∀ rest, written v (v.write ++ rest) rest) (rest : List Char) :
    Bracketed written items ((Value.array items).write ++ rest) rest := by
  rw [Value.write, List.cons_append, List.cons_append, List.append_assoc]
  cases items with
  | nil => exact .empty (.none _)
  | cons v items => exact .items (items_writeItems h)

/-! ### Values -/

/-- What is no list and no object is written as messages have it. -/
theorem written_of_fits (h : v.Fits depth) (hv : v.IsScalar) :
    Written depth v (v.write ++ rest) rest := by
  cases v with
  | null => simp [Value.Fits] at h
  | array _ | object _ => exact hv.elim
  | bool b =>
      rw [Written]
      cases b <;> rfl
  | number m =>
      cases m with
      | real _ => simp [Value.Fits] at h
      | integer i =>
          rw [Value.Fits] at h
          obtain ⟨n, rfl, hn⟩ := h
          rw [Written]
          refine ⟨n, rfl, hn, ?_⟩
          have hwrite : (Value.number (.integer n)).write = Numeral.digits 10 n :=
            String.toList_ofList
          rw [hwrite]
  | string s =>
      rw [Written, Value.write]
      exact quoted_writeString s rest

/-- What the writer writes is one of the spellings of the value. -/
theorem spelt_of_compact (h : Compact depth v cs rest) : Spelt depth v cs rest := by
  induction depth generalizing v cs rest with
  | zero =>
      obtain ⟨hv, rfl⟩ := h
      refine spelt_of_written (written_of_fits hv ?_)
      cases v <;> simp [Value.Fits, Value.IsScalar] at hv ⊢
  | succ depth ih =>
      obtain ⟨hv, rfl⟩ := h
      cases v with
      | null | bool _ | number _ | string _ => exact spelt_of_written (written_of_fits hv trivial)
      | array items =>
          rw [Value.Fits] at hv
          rw [Spelt]
          exact bracketed_writeItems (fun w hw _ => ih ⟨hv w hw, rfl⟩) rest
      | object fields =>
          rw [Value.Fits] at hv
          rw [Spelt]
          exact ⟨fields, (braced_of_fits hv.2 rest).imp ih, (collect_of_nodup hv.1).symm⟩

/-- The text of a value is a whole document, and the document is the value. -/
theorem readDocument_text (h : v.Fits (Envelope.depthLimit + 1)) :
    readDocument v.text = .ok v := by
  have hcompact : Compact (Envelope.depthLimit + 1) v v.text.toList [] :=
    ⟨h, by rw [Value.text, String.toList_ofList, List.append_nil]⟩
  obtain ⟨p, hp⟩ := (finds_spelt _).value (spelt_of_compact hcompact) trivial .start
  have hend : readEnd ⟨[], p⟩ = .ok () := Envelope.readEnd_of_gap (.none []) p
  simp [readDocument, Cursor.ofText, hp, hend, bind, Except.bind, pure, Except.pure]

end TerminalGateway.Json

namespace TerminalGateway.Envelope

open Json

/-- An envelope as an object of its two fields. -/
def json (e : Envelope) : Value := .object [("type", .string e.kind), ("payload", e.payload)]

/-- What the writer makes of the fields of an envelope is one of its spellings. -/
theorem speltAs_text {e : Envelope} {fields : List (String × Value)} (h : e.IsGivenBy fields)
    (hfields : ∀ f ∈ fields, f.2.Fits depthLimit) : e.SpeltAs (Value.object fields).text := by
  have hbraced := (braced_of_fits hfields []).imp spelt_of_compact
  refine ⟨_, [], fields, ?_, hbraced, .none [], h⟩
  rw [Value.text, String.toList_ofList, List.append_nil]
  exact .none _

/-- What the writer writes can stand in a message as its payload, and is read there as the value
that was written. -/
theorem ofText_text (e : Envelope) (h : e.payload.Fits depthLimit) :
    ofText e.json.text = .ok e := by
  refine read_of_speltAs (speltAs_text ⟨rfl, .inl rfl⟩ ?_)
  simp [Value.Fits, h]

end TerminalGateway.Envelope
