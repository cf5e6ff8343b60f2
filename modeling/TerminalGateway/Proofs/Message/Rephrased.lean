import Mathlib.Data.List.Basic
import Mathlib.Logic.Relation
import TerminalGateway.Proofs.Json.Document
import TerminalGateway.Proofs.Message.Declared
import TerminalGateway.Proofs.Message.RoundTrip

/-!
One message in other words. A payload may be missing, its fields may be null or left out, undeclared
ones may be added, it may be a list of all fields, and fields that can be read may change places. In
each of these ways the text is the same message or is rejected for the same reason.
-/

namespace TerminalGateway

open Json

/-- A field that makes a difference: one that is declared, and not null. -/
def Telling (declared : List (String × FieldType)) (f : String × Value) : Bool :=
  (declared.any fun d => d.1 = f.1) && (Value.told (some f.2)).isSome

/-- One way of saying the same in another payload. -/
inductive Rephrases (declared : List (String × FieldType)) : Value → Value → Prop
  | blank : Rephrases declared .null (.object [])
  | telling {fields more : List (String × Value)} (hf : (names fields).Nodup)
      (hm : (names more).Nodup)
      (h : fields.filter (Telling declared) = more.filter (Telling declared)) :
      Rephrases declared (.object fields) (.object more)
  | listed {items : List Value} (h : items.length = declared.length) :
      Rephrases declared (.object ((declared.map (·.1)).zip items)) (.array items)
  | permuted {fields more : List (String × Value)} (hf : (names fields).Nodup)
      (hfit : ∀ f ∈ fields, ∀ d ∈ declared, d.1 = f.1 → d.2.Holds f.2) (h : fields.Perm more) :
      Rephrases declared (.object fields) (.object more)

/-- Payloads that say the same, by any number of rephrasings. -/
def SaysSame (declared : List (String × FieldType)) : Value → Value → Prop :=
  Relation.EqvGen (Rephrases declared)

variable {fields more : List (String × Value)} {declared : List (String × FieldType)}
variable {kind : String} {p q : Value}

theorem telling_iff {f : String × Value} :
    Telling declared f = true ↔ (∃ d ∈ declared, d.1 = f.1) ∧ f.2 ≠ .null := by
  have htold : (Value.told (some f.2)).isSome = true ↔ f.2 ≠ .null := by
    cases f.2 <;> simp [Value.told]
  simp [Telling, htold]

theorem SaysSame.eq {α : Sort*} (hsame : SaysSame declared p q) (meaning : Value → α)
    (h : ∀ p q, Rephrases declared p q → meaning p = meaning q) : meaning p = meaning q := by
  induction hsame with
  | rel p q hstep => exact h p q hstep
  | refl _ => rfl
  | symm _ _ _ ih => exact ih.symm
  | trans _ _ _ _ _ ih ih' => exact ih.trans ih'

/-! ### Records -/

theorem field?_telling (hf : (names fields).Nodup) {d : String × FieldType} (hd : d ∈ declared) :
    field? (fields.filter (Telling declared)) d.1 = Value.told (field? fields d.1) := by
  induction fields with
  | nil => rfl
  | cons f rest ih =>
      obtain ⟨hname, hrest⟩ := List.nodup_cons.mp hf
      have ih := ih hrest
      rw [field?_cons]
      by_cases hn : f.1 = d.1
      · rw [if_pos hn]
        by_cases hnull : f.2 = .null
        · have hsilent : Telling declared f = false := by
            rw [Bool.eq_false_iff, Ne, telling_iff]
            exact fun h => h.2 hnull
          have hnone : field? rest d.1 = none := field?_eq_none_iff.mpr (hn ▸ hname)
          rw [List.filter_cons_of_neg (by simp [hsilent]), ih, hnone, hnull]
          rfl
        · have htelling : Telling declared f = true := telling_iff.mpr ⟨⟨d, hd, hn.symm⟩, hnull⟩
          rw [List.filter_cons_of_pos htelling, field?_cons, if_pos hn, Value.told_of_ne hnull]
      · rw [if_neg hn, List.filter_cons, ← ih]
        split
        · rw [field?_cons, if_neg hn]
        · rfl

namespace Json.Layout.Declares

variable {ρ : Type} {layout : Layout ρ} {record : (String → Option Value) → ρ}

theorem firstFault?_telling (h : layout.Declares record declared) (fields : List (String × Value)) :
    layout.firstFault? (fields.filter (Telling declared)) = layout.firstFault? fields := by
  induction fields with
  | nil => rfl
  | cons f rest ih =>
      by_cases htelling : Telling declared f = true
      · rw [List.filter_cons_of_pos htelling]
        simp only [firstFault?, List.findSome?_cons] at ih ⊢
        rw [ih]
      · have hfit : layout.fault? f.1 f.2 = none := by
          by_cases hn : f.1 ∈ layout.fields
          · have hnull : f.2 = .null := Classical.byContradiction fun hnull =>
              htelling (telling_iff.mpr ⟨h.mem_fields.mp hn, hnull⟩)
            rw [hnull, h.fault?_null]
          · exact h.other f.1 f.2 hn
        rw [List.filter_cons_of_neg htelling, ih, firstFault?, firstFault?, List.findSome?_cons,
          hfit]

theorem firstFault?_eq_none (h : layout.Declares record declared)
    (hfit : ∀ f ∈ fields, ∀ d ∈ declared, d.1 = f.1 → d.2.Holds f.2) :
    layout.firstFault? fields = none := by
  refine firstFault?_eq_none_iff.mpr fun f hf => ?_
  by_cases hn : f.1 ∈ layout.fields
  · obtain ⟨d, hd, heq⟩ := h.mem_fields.mp hn
    exact heq ▸ (h.fits d hd f.2).mpr (hfit f hf d hd heq)
  · exact h.other f.1 f.2 hn

theorem readPayload_object (h : layout.Declares record declared) (hf : (names fields).Nodup) :
    ClientMessage.readPayload layout (.object fields) =
      match layout.firstFault? fields with
      | none => .ok (record (field? fields))
      | some cause => .error (.malformed ⟨cause, none⟩) := by
  simp only [ClientMessage.readPayload, Layout.read, h.describes.putAll_blank hf]
  cases layout.firstFault? fields <;> rfl

theorem readPayload_listed {items : List Value} (hlength : items.length = layout.fields.length) :
    ClientMessage.readPayload layout (.array items) =
      ClientMessage.readPayload layout (.object (layout.fields.zip items)) := by
  simp only [ClientMessage.readPayload, Layout.read, hlength, Nat.lt_irrefl, if_false]
  cases layout.putAll layout.blank (layout.fields.zip items) <;> rfl

/-- Payloads that say the same are the same record, or show the same fault. -/
theorem readPayload_eq (h : layout.Declares record declared) (hstep : Rephrases declared p q) :
    ClientMessage.readPayload layout p = ClientMessage.readPayload layout q := by
  cases hstep with
  | blank => rfl
  | @listed items hlength =>
      rw [h.order]
      refine (readPayload_listed ?_).symm
      rw [hlength, ← h.order, List.length_map]
  | @telling fields more hf hm htelling =>
      have hfault : layout.firstFault? fields = layout.firstFault? more := by
        rw [← h.firstFault?_telling, ← h.firstFault?_telling more, htelling]
      have hrecord : record (field? fields) = record (field? more) := by
        refine h.record_eq fun d hd => ?_
        rw [← field?_telling hf hd, ← field?_telling hm hd, htelling]
      rw [h.readPayload_object hf, h.readPayload_object hm, hfault, hrecord]
  | @permuted fields more hf hfit hperm =>
      have hm : (names more).Nodup := (hperm.map _).nodup hf
      have hfit' : ∀ f ∈ more, ∀ d ∈ declared, d.1 = f.1 → d.2.Holds f.2 :=
        fun f hmem => hfit f (hperm.mem_iff.mpr hmem)
      rw [h.readPayload_object hf, h.readPayload_object hm, h.firstFault?_eq_none hfit,
        h.firstFault?_eq_none hfit', field?_perm hf hperm]

end Json.Layout.Declares

/-! ### Messages -/

theorem ClientMessage.ofEnvelope_eq (hsame : SaysSame (Envelope.declared kind) p q) :
    ofEnvelope ⟨kind, p⟩ = ofEnvelope ⟨kind, q⟩ := by
  refine hsame.eq (fun p => ofEnvelope ⟨kind, p⟩) fun p q hstep => ?_
  unfold ofEnvelope
  simp only
  split
  case h_1 => rw [AuthFields.fills.declares.readPayload_eq hstep]
  case h_2 => rw [TerminalFields.fills.declares.readPayload_eq hstep]
  case h_3 => rw [ResizeFields.fills.declares.readPayload_eq hstep]
  case h_4 => rw [ExecFields.fills.declares.readPayload_eq hstep]
  case h_5 => rw [ControlFields.fills.declares.readPayload_eq hstep]
  case h_6 => cases hstep <;> rfl
  case h_7 => rfl

/-! ### Environments -/

theorem members_of_requirePairs {pairs : List (String × Value)} {env : Environment.Pairs}
    (h : requirePairs pairs = .ok env) : pairs = Environment.members env := by
  induction pairs generalizing env with
  | nil =>
      obtain rfl := Except.ok.inj h
      rfl
  | cons pair rest ih =>
      obtain ⟨key, v⟩ := pair
      cases v with
      | string s =>
          obtain ⟨env', henv, rfl⟩ := map_eq_ok.mp h
          rw [ih henv]
          rfl
      | null | bool _ | number _ | array _ | object _ => simp [requirePairs] at h

/-- The environment of an accepted record is that of its payload, and makes no other difference. -/
theorem ExecFields.check_env {f : ExecFields} {pairs : List (String × Value)} {r : ExecRequest}
    (hf : f.env = some pairs) (h : f.check = .ok r) :
    pairs = Environment.members r.env ∧
      ∀ env, ({ f with env := some (Environment.members env) } : ExecFields).check =
        .ok { r with env } := by
  simp only [check, bind_eq_ok] at h
  obtain ⟨command, hcommand, cols, hcols, rows, hrows, env, henv, timeout, htimeout, hr⟩ := h
  obtain rfl := Except.ok.inj hr
  rw [hf] at henv
  refine ⟨members_of_requirePairs henv, fun env => ?_⟩
  simp only [check, hcommand, hcols, hrows, htimeout, Option.getD_some,
    ExecRequest.requirePairs_members, bind, Except.bind, pure, Except.pure]

/-- The fields of an `exec` payload around its environment. -/
def execFields (before : List (String × Value)) (pairs : List (String × Value))
    (after : List (String × Value)) : List (String × Value) :=
  before ++ ("env", .object pairs) :: after

section Exec

variable {before after pairs : List (String × Value)}

theorem names_execFields (other : List (String × Value)) :
    names (execFields before other after) = names (execFields before pairs after) := by
  simp [execFields]

theorem field?_execFields_env (hf : (names (execFields before pairs after)).Nodup) :
    field? (execFields before pairs after) "env" = some (.object pairs) :=
  (field?_eq_some_iff hf).mpr (by simp [execFields])

theorem field?_execFields_of_ne {name : String} (hn : name ≠ "env")
    (other : List (String × Value)) :
    field? (execFields before other after) name = field? (execFields before pairs after) name := by
  simp [execFields, field?_append, field?_cons, Ne.symm hn]

theorem firstFault?_execFields (other : List (String × Value))
    (h : ExecFields.layout.firstFault? (execFields before pairs after) = none) :
    ExecFields.layout.firstFault? (execFields before other after) = none := by
  rw [Layout.firstFault?_eq_none_iff] at h ⊢
  intro f hf
  obtain hf | rfl | hf : f ∈ before ∨ f = ("env", .object other) ∨ f ∈ after := by
    simpa [execFields] using hf
  · exact h f (by simp [execFields, hf])
  · rfl
  · exact h f (by simp [execFields, hf])

theorem ofEntries_execFields (hf : (names (execFields before pairs after)).Nodup)
    (other : List (String × Value)) :
    ExecFields.ofEntries (field? (execFields before other after)) =
      { ExecFields.ofEntries (field? (execFields before pairs after)) with env := some other } := by
  have hnames : names (execFields before other after) = names (execFields before pairs after) :=
    names_execFields other
  have hother := field?_execFields_env (hnames ▸ hf)
  simp only [ExecFields.ofEntries, hother, Value.members?]
  congr 1 <;> rw [field?_execFields_of_ne (by decide)]

/-- Another environment makes an accepted record one with this environment. -/
theorem ClientMessage.ofEnvelope_execFields {r : ExecRequest}
    (hf : (names (execFields before pairs after)).Nodup)
    (hr : ofEnvelope ⟨"exec", .object (execFields before pairs after)⟩ = .ok (.exec r)) :
    pairs = Environment.members r.env ∧
      ∀ env, ofEnvelope ⟨"exec", .object (execFields before (Environment.members env) after)⟩ =
        .ok (.exec { r with env }) := by
  have hread := ExecFields.fills.declares.readPayload_object hf
  obtain ⟨f, hpayload, r', hcheck, hr⟩ : ∃ f, readPayload ExecFields.layout
      (.object (execFields before pairs after)) = .ok f ∧ ∃ r', f.check = .ok r' ∧
        (.exec r' : ClientMessage) = .exec r := by
    simpa [ofEnvelope, bind_eq_ok, pure, Except.pure] using hr
  obtain rfl := ClientMessage.exec.inj hr
  rw [hpayload] at hread
  cases hfault : ExecFields.layout.firstFault? (execFields before pairs after) with
  | some cause => simp [hfault] at hread
  | none =>
      obtain rfl : f = _ := by simpa [hfault] using hread
      have henv : (ExecFields.ofEntries (field? (execFields before pairs after))).env =
          some pairs := by
        simp [ExecFields.ofEntries, field?_execFields_env hf, Value.members?]
      obtain ⟨hpairs, hothers⟩ := ExecFields.check_env henv hcheck
      refine ⟨hpairs, fun env => ?_⟩
      have hother := ExecFields.fills.declares.readPayload_object
        (names_execFields (Environment.members env) ▸ hf)
      rw [firstFault?_execFields _ hfault, ofEntries_execFields hf] at hother
      simp only [ofEnvelope, hother, bind, Except.bind, hothers env]
      rfl

end Exec

/-- What is permuted in an environment as an object is permuted in it as pairs. -/
theorem exists_members_of_perm {env : Environment.Pairs} {more : List (String × Value)}
    (h : (Environment.members env).Perm more) :
    ∃ env', env.Perm env' ∧ more = Environment.members env' := by
  let pairOf (f : String × Value) : String × String := (f.1, (Value.text? (some f.2)).getD "")
  have hpair : ∀ pair : String × String, pairOf (pair.1, .string pair.2) = pair := fun _ => rfl
  refine ⟨more.map pairOf, ?_, ?_⟩
  · have hmap := h.map pairOf
    simpa [Environment.members, Function.comp_def, hpair] using hmap
  · have hstring : ∀ f ∈ more, ((pairOf f).1, .string (pairOf f).2) = f := by
      intro f hf
      obtain ⟨pair, -, rfl⟩ := List.mem_map.mp (h.mem_iff.mpr hf)
      rfl
    simp only [Environment.members, List.map_map]
    exact (List.map_congr_left hstring).trans (List.map_id _) |>.symm

/-- Payloads that say the same are the same message, or are rejected for the same reason, however
their envelopes are written. An accepted command of which the environment is permuted has its
environment permuted alike, and is otherwise the same. -/
theorem ClientMessage.ofText_rephrased {text other : String}
    (ht : Envelope.SpeltAs ⟨kind, p⟩ text) (ho : Envelope.SpeltAs ⟨kind, q⟩ other) :
    (SaysSame (Envelope.declared kind) p q → ofText text = ofText other) ∧
      ∀ before pairs more after r, kind = "exec" →
        (names (execFields before pairs after)).Nodup → pairs.Perm more →
        SaysSame (Envelope.declared "exec") p (.object (execFields before pairs after)) →
        SaysSame (Envelope.declared "exec") q (.object (execFields before more after)) →
        ofText text = .ok (.exec r) →
          ∃ env, r.env.Perm env ∧ pairs = Environment.members r.env ∧
            more = Environment.members env ∧ ofText other = .ok (.exec { r with env }) := by
  have htext : ofText text = ofEnvelope ⟨kind, p⟩ := by
    simp only [ofText, Envelope.read_of_speltAs ht]
  have hother : ofText other = ofEnvelope ⟨kind, q⟩ := by
    simp only [ofText, Envelope.read_of_speltAs ho]
  rw [htext, hother]
  refine ⟨ofEnvelope_eq, ?_⟩
  rintro before pairs more after r rfl hf hperm hp hq hr
  rw [ofEnvelope_eq hp] at hr
  obtain ⟨hpairs, hothers⟩ := ofEnvelope_execFields hf hr
  obtain ⟨env, henv, rfl⟩ := exists_members_of_perm (hpairs ▸ hperm)
  exact ⟨env, henv, hpairs, rfl, (ofEnvelope_eq hq).trans (hothers env)⟩

theorem members_injective : Function.Injective Environment.members := by
  refine List.map_injective_iff.mpr fun a b h => ?_
  obtain ⟨hname, hvalue⟩ := Prod.mk.inj h
  exact Prod.ext hname (Value.string.inj hvalue)

/-- A command with two variables. -/
def sorted : ExecRequest where
  command := "env"
  pty := false
  term := none
  dimensions := Dimensions.standard
  env := [("A", "1"), ("B", "2")]
  timeout := none

def sortedPayload : Value :=
  .object (execFields [("command", .string "env")] (Environment.members sorted.env) [])

def sortedText : String :=
  (Value.object [("type", .string "exec"), ("payload", sortedPayload)]).text

/-- The same command with its fields and its variables the other way round, and with a hint. -/
def reversedPayload : Value :=
  .object [("env", .object (Environment.members sorted.env.reverse)), ("hint", .bool true),
    ("command", .string "env")]

/-- The payload stands before the kind, and a number before both. -/
def reversedText : String :=
  (Value.object [("id", .number (.integer 7)), ("payload", reversedPayload),
    ("type", .string "exec")]).text

theorem ClientMessage.ofText_rephrased_reversed :
    ofText sortedText = .ok (.exec sorted) ∧
      ofText reversedText = .ok (.exec { sorted with env := sorted.env.reverse }) := by
  have ht : Envelope.SpeltAs ⟨"exec", sortedPayload⟩ sortedText := by
    refine Envelope.speltAs_text ⟨rfl, .inl rfl⟩ ?_
    simp [sortedPayload, execFields, sorted, Environment.members, Value.Fits, Envelope.depthLimit]
  have ho : Envelope.SpeltAs ⟨"exec", reversedPayload⟩ reversedText := by
    refine Envelope.speltAs_text ⟨rfl, .inl rfl⟩ ?_
    simp [reversedPayload, sorted, Environment.members, Value.Fits, Envelope.depthLimit]
    exact ⟨7, rfl, by decide⟩
  have hsaid : SaysSame (Envelope.declared "exec") reversedPayload
      (.object (execFields [("command", .string "env")]
        (Environment.members sorted.env.reverse) [])) := by
    have hdrop : Rephrases (Envelope.declared "exec") reversedPayload
        (.object [("env", .object (Environment.members sorted.env.reverse)),
          ("command", .string "env")]) := .telling (by decide) (by decide) rfl
    refine .trans _ _ _ (.rel _ _ hdrop) (.rel _ _ (.permuted (by decide) ?_ ?_))
    · simp [Envelope.declared, FieldType.Holds]
    · exact .swap _ _ _
  have hr : ofText sortedText = .ok (.exec sorted) := by
    rw [ofText, Envelope.read_of_speltAs ht]
    rfl
  obtain ⟨env, -, -, henv, hother⟩ := (ofText_rephrased ht ho).2 [("command", .string "env")]
    (Environment.members sorted.env) (Environment.members sorted.env.reverse) [] sorted rfl
    (by decide) (.swap _ _ _) (.refl _) hsaid hr
  exact ⟨hr, members_injective henv ▸ hother⟩

end TerminalGateway
