import TerminalGateway.Proofs.Message.Rules

/-!
What the rejection of a login says about the secrets in it. The rules never look at a secret, but a
value that is not the string it should be is quoted, so two logins that differ in their secrets only
are rejected alike exactly if the first value that does not fit is not a secret or is the same.
-/

namespace TerminalGateway

open Json

/-- The fields of a login whose values are not to be shown. -/
def secretNames : List String := ["password", "privateKey", "passphrase"]

/-- Two values of one type that is neither a list nor an object. -/
inductive SameScalar : Value → Value → Prop
  | null : SameScalar .null .null
  | bool (a b : Bool) : SameScalar (.bool a) (.bool b)
  | number (m n : Number) : SameScalar (.number m) (.number n)
  | string (s t : String) : SameScalar (.string s) (.string t)

/-- Entries that are the same but for the values of secrets. -/
inductive Alike : List (String × Value) → List (String × Value) → Prop
  | nil : Alike [] []
  | same (f : String × Value) {fields more : List (String × Value)} (h : Alike fields more) :
      Alike (f :: fields) (f :: more)
  | secret {name : String} {v w : Value} {fields more : List (String × Value)}
      (hn : name ∈ secretNames) (hv : SameScalar v w) (h : Alike fields more) :
      Alike ((name, v) :: fields) ((name, w) :: more)

/-- The entries of a payload, by the names of a login's fields if it is a list. -/
def loginEntries : Value → List (String × Value)
  | .object fields => fields
  | .array items => AuthFields.layout.fields.zip items
  | _ => []

/-- Payloads of logins that are the same but for the values of secrets. -/
inductive AlikeButSecrets : Value → Value → Prop
  | same (v : Value) : AlikeButSecrets v v
  | object {fields more : List (String × Value)} (h : Alike fields more) :
      AlikeButSecrets (.object fields) (.object more)
  | array {items more : List Value} (hl : items.length = more.length)
      (h : Alike (loginEntries (.array items)) (loginEntries (.array more))) :
      AlikeButSecrets (.array items) (.array more)

/-- Every secret that is there is a string or null. -/
def HasPlainSecrets (fields : List (String × Value)) : Prop :=
  ∀ f ∈ fields, f.1 ∈ secretNames → f.2 = .null ∨ ∃ s, f.2 = .string s

/-- The first entry that does not fit its field, if that is a secret. -/
def exposedAmong? (fields : List (String × Value)) : Option Found :=
  match fields.find? fun f => (AuthFields.layout.fault? f.1 f.2).isSome with
  | some (name, v) => if name ∈ secretNames then some v.found else none
  | none => none

/-- What the rejection of a login shows of a secret. -/
def exposed? (payload : Value) : Option Found := exposedAmong? (loginEntries payload)

/-! ### Entries -/

variable {fields more : List (String × Value)} {name : String} {v w : Value}

theorem fault?_secret (hn : name ∈ secretNames) (v : Value) :
    AuthFields.layout.fault? name v =
      match v with
      | .null | .string _ => none
      | v => some (.mismatch v.found .string) := by
  simp only [secretNames, List.mem_cons, List.not_mem_nil, or_false] at hn
  rcases hn with rfl | rfl | rfl <;> cases v <;> rfl

theorem firstFault?_cons (f : String × Value) : AuthFields.layout.firstFault? (f :: fields) =
    (AuthFields.layout.fault? f.1 f.2).or (AuthFields.layout.firstFault? fields) := by
  rw [Layout.firstFault?, List.findSome?_cons]
  cases AuthFields.layout.fault? f.1 f.2 <;> rfl

theorem exposedAmong?_cons_of_fits {f : String × Value}
    (h : AuthFields.layout.fault? f.1 f.2 = none) :
    exposedAmong? (f :: fields) = exposedAmong? fields := by
  simp [exposedAmong?, h]

theorem exposedAmong?_cons_of_misfit {f : String × Value} {cause : Cause}
    (h : AuthFields.layout.fault? f.1 f.2 = some cause) :
    exposedAmong? (f :: fields) = if f.1 ∈ secretNames then some f.2.found else none := by
  simp [exposedAmong?, h]

theorem firstFault?_of_exposedAmong? {found : Found} (h : exposedAmong? fields = some found) :
    AuthFields.layout.firstFault? fields = some (.mismatch found .string) := by
  induction fields with
  | nil => simp [exposedAmong?] at h
  | cons f rest ih =>
      rw [firstFault?_cons]
      cases hf : AuthFields.layout.fault? f.1 f.2 with
      | none => simpa using ih (by rwa [exposedAmong?_cons_of_fits hf] at h)
      | some cause =>
          rw [exposedAmong?_cons_of_misfit hf] at h
          split at h
          · rename_i hn
            obtain rfl := Option.some.inj h
            rw [fault?_secret hn] at hf
            split at hf
            · simp at hf
            · simp at hf
            · rw [← hf]
              rfl
          · simp at h

theorem HasPlainSecrets.exposedAmong?_eq_none (h : HasPlainSecrets fields) :
    exposedAmong? fields = none := by
  induction fields with
  | nil => rfl
  | cons f rest ih =>
      obtain ⟨hhead, hrest⟩ := List.forall_mem_cons.mp h
      cases hf : AuthFields.layout.fault? f.1 f.2 with
      | none => rw [exposedAmong?_cons_of_fits hf, ih hrest]
      | some cause =>
          rw [exposedAmong?_cons_of_misfit hf, if_neg]
          intro hn
          rw [fault?_secret hn] at hf
          rcases hhead hn with hv | ⟨s, hv⟩ <;> simp [hv] at hf

namespace Alike

theorem refl (fields : List (String × Value)) : Alike fields fields := by
  induction fields with
  | nil => exact .nil
  | cons f _ ih => exact .same f ih

theorem field?_eq (h : Alike fields more) (hn : name ∉ secretNames) :
    field? fields name = field? more name := by
  induction h with
  | nil => rfl
  | same f _ ih => rw [field?_cons, field?_cons, ih]
  | @secret n v w _ _ hs _ _ ih =>
      have hne : n ≠ name := by
        rintro rfl
        exact hn hs
      rw [field?_cons, field?_cons, if_neg hne, if_neg hne, ih]

/-- The same entries misfit, and the first of them is shown the same unless it is a secret. -/
theorem firstFault? (h : Alike fields more) :
    (AuthFields.layout.firstFault? fields = none ↔ AuthFields.layout.firstFault? more = none) ∧
      (AuthFields.layout.firstFault? fields = AuthFields.layout.firstFault? more ↔
        exposedAmong? fields = exposedAmong? more) := by
  induction h with
  | nil => simp
  | same f _ ih =>
      cases hf : AuthFields.layout.fault? f.1 f.2 with
      | none => simpa [firstFault?_cons, hf, exposedAmong?_cons_of_fits hf] using ih
      | some cause => simp [firstFault?_cons, hf, exposedAmong?_cons_of_misfit hf]
  | @secret n v w _ _ hn hv _ ih =>
      have hfv := fault?_secret hn v
      have hfw := fault?_secret hn w
      cases hv with
      | null | string =>
          rw [firstFault?_cons, firstFault?_cons, exposedAmong?_cons_of_fits hfv,
            exposedAmong?_cons_of_fits hfw]
          simpa [hfv, hfw] using ih
      | bool | number =>
          rw [firstFault?_cons, firstFault?_cons, exposedAmong?_cons_of_misfit hfv,
            exposedAmong?_cons_of_misfit hfw]
          simp [hfv, hfw, hn]

theorem hasPlainSecrets (h : Alike fields more) (hp : HasPlainSecrets fields) :
    HasPlainSecrets more := by
  induction h with
  | nil => exact hp
  | same f _ ih =>
      obtain ⟨hhead, hrest⟩ := List.forall_mem_cons.mp hp
      exact List.forall_mem_cons.mpr ⟨hhead, ih hrest⟩
  | secret hn hv _ ih =>
      obtain ⟨hhead, hrest⟩ := List.forall_mem_cons.mp hp
      refine List.forall_mem_cons.mpr ⟨fun _ => ?_, ih hrest⟩
      have hv' := hhead hn
      cases hv with
      | null => exact .inl rfl
      | string s t => exact .inr ⟨t, rfl⟩
      | bool | number => simp at hv'

/-- No rule looks at a secret. -/
theorem rules_eq (h : Alike fields more) :
    (AuthFields.ofEntries (field? fields)).rules = (AuthFields.ofEntries (field? more)).rules := by
  have hlook : ∀ name, name ∉ secretNames → field? fields name = field? more name :=
    fun _ => h.field?_eq
  simp only [AuthFields.rules, AuthFields.ofEntries, hlook "username" (by decide),
    hlook "host" (by decide), hlook "port" (by decide), hlook "cols" (by decide),
    hlook "rows" (by decide)]

end Alike

/-! ### Payloads -/

/-- What comes of entries: the first that does not fit is reported, and if all fit, the record is
put to the rules and what else may follow. -/
def settled (fields : List (String × Value))
    (next : AuthFields → Except Rejection AuthRequest) : Except Rejection AuthRequest :=
  match AuthFields.layout.firstFault? fields with
  | some cause => .error (.malformed ⟨cause, none⟩)
  | none => next (.ofEntries (field? fields))

/-- The rules, after the number of items that a list has. -/
def checkedItems (items : List Value) (f : AuthFields) : Except Rejection AuthRequest :=
  if items.length < AuthFields.layout.fields.length then
    .error (.malformed ⟨.tooFewItems items.length "RawAuth" AuthFields.layout.fields.length, none⟩)
  else if AuthFields.layout.fields.length < items.length then
    .error (.malformed ⟨.tooManyItems items.length, none⟩)
  else f.check

/-- What follows once the entries of a payload fit. -/
def afterEntries : Value → AuthFields → Except Rejection AuthRequest
  | .array items, f => checkedItems items f
  | .null, f | .object _, f => f.check
  | v, _ => .error (.malformed ⟨.mismatch v.found (.record "RawAuth"), none⟩)

theorem readPayload_auth {p : Value} (hp : Envelope.IsTidy p) :
    (ClientMessage.readPayload AuthFields.layout p >>= AuthFields.check) =
      settled (loginEntries p) (afterEntries p) := by
  cases p with
  | null | bool _ | number _ | string _ => rfl
  | object fields =>
      have hread := AuthFields.fills.describes.putAll_blank (hp fields rfl)
      simp only [ClientMessage.readPayload, Layout.read, hread, settled, loginEntries]
      cases AuthFields.layout.firstFault? fields <;> rfl
  | array items =>
      have hn := Layout.nodup_names_zip (show AuthFields.layout.fields.Nodup by decide) items
      have hread := AuthFields.fills.describes.putAll_blank hn
      simp only [ClientMessage.readPayload, Layout.read, hread, settled, loginEntries]
      cases AuthFields.layout.firstFault? (AuthFields.layout.fields.zip items) with
      | some cause => rfl
      | none =>
          simp only [afterEntries, checkedItems]
          by_cases hfew : items.length < AuthFields.layout.fields.length
          · rw [if_pos hfew, if_pos hfew]
            rfl
          by_cases hmany : AuthFields.layout.fields.length < items.length
          · rw [if_neg hfew, if_neg hfew, if_pos hmany, if_pos hmany]
            rfl
          · rw [if_neg hfew, if_neg hfew, if_neg hmany, if_neg hmany]
            rfl

/-- Two records under the same rules are rejected for the same reason. -/
theorem AuthFields.eq_of_check_error {f g : AuthFields} (hrules : f.rules = g.rules)
    {r r' : Rejection} (h : f.check = .error r) (h' : g.check = .error r') : r = r' := by
  have hf := h ▸ f.obeys_check
  cases hf with
  | broken before after s hs hb hr =>
      have hg := g.obeys_check.eq_error (hrules ▸ hs) hb hr
      exact Except.error.inj (hg.symm.trans h')

theorem checkedItems_eq_of_error {items more : List Value} (hl : items.length = more.length)
    {f g : AuthFields} (hrules : f.rules = g.rules) {r r' : Rejection}
    (h : checkedItems items f = .error r) (h' : checkedItems more g = .error r') : r = r' := by
  unfold checkedItems at h h'
  rw [← hl] at h'
  split at h
  · rw [if_pos ‹_›] at h'
    exact Except.error.inj (h.symm.trans h')
  rw [if_neg ‹_›] at h'
  split at h
  · rw [if_pos ‹_›] at h'
    exact Except.error.inj (h.symm.trans h')
  rw [if_neg ‹_›] at h'
  exact AuthFields.eq_of_check_error hrules h h'

namespace AlikeButSecrets

variable {p p' : Value}

theorem entries (h : AlikeButSecrets p p') : Alike (loginEntries p) (loginEntries p') := by
  cases h with
  | same => exact .refl _
  | object h | array _ h => exact h

theorem afterEntries_eq (h : AlikeButSecrets p p') {f g : AuthFields} (hrules : f.rules = g.rules)
    {r r' : Rejection} (hr : afterEntries p f = .error r) (hr' : afterEntries p' g = .error r') :
    r = r' := by
  cases h with
  | object => exact AuthFields.eq_of_check_error hrules hr hr'
  | array hl => exact checkedItems_eq_of_error hl hrules hr hr'
  | same =>
      cases p with
      | null | object _ => exact AuthFields.eq_of_check_error hrules hr hr'
      | array items => exact checkedItems_eq_of_error rfl hrules hr hr'
      | bool _ | number _ | string _ => exact Except.error.inj (hr.symm.trans hr')

theorem settled_eq_iff (h : AlikeButSecrets p p') {r r' : Rejection}
    (hr : settled (loginEntries p) (afterEntries p) = .error r)
    (hr' : settled (loginEntries p') (afterEntries p') = .error r') :
    r = r' ↔ exposed? p = exposed? p' := by
  obtain ⟨hnone, hiff⟩ := h.entries.firstFault?
  unfold settled at hr hr'
  rw [exposed?, exposed?, ← hiff]
  cases hf : AuthFields.layout.firstFault? (loginEntries p) with
  | none =>
      have hm := hnone.mp hf
      rw [hf] at hr
      rw [hm] at hr'
      exact iff_of_true (h.afterEntries_eq h.entries.rules_eq hr hr') hm.symm
  | some cause =>
      cases hm : AuthFields.layout.firstFault? (loginEntries p') with
      | none => simp [hnone.mpr hm] at hf
      | some cause' =>
          simp only [hf, hm, Except.error.injEq] at hr hr'
          rw [← hr, ← hr']
          simp

end AlikeButSecrets

theorem settled_of_exposed? {p : Value} {found : Found} (h : exposed? p = some found)
    (next : AuthFields → Except Rejection AuthRequest) :
    settled (loginEntries p) next = .error (.malformed ⟨.mismatch found .string, none⟩) := by
  simp [settled, firstFault?_of_exposedAmong? h]

namespace ClientMessage

theorem auth_eq_error {text : String} {p : Value} {r : Rejection}
    (h : Envelope.ofText text = .ok ⟨"auth", p⟩) (hr : ofText text = .error r) :
    settled (loginEntries p) (afterEntries p) = .error r := by
  rw [← readPayload_auth (Envelope.isTidy_of_ofText h)]
  simp only [ofText, h, ofEnvelope] at hr
  cases hp : readPayload AuthFields.layout p with
  | error r' =>
      rw [hp] at hr
      exact congrArg Except.error (Except.error.inj hr)
  | ok f =>
      rw [hp] at hr
      change (f.check >>= fun a => .ok (ClientMessage.auth a)) = .error r at hr
      change f.check = .error r
      cases hf : f.check with
      | error r' =>
          rw [hf] at hr
          exact congrArg Except.error (Except.error.inj hr)
      | ok a => simp [hf, bind, Except.bind] at hr

/-- Two logins that differ in secrets only and are both rejected: the rejections are the same
exactly if they show the same of the secrets. What they show is a whole secret, and nothing if the
secrets are strings or null. -/
theorem auth_rejections_eq_iff {text text' : String} {p p' : Value} {r r' : Rejection}
    (h : Envelope.ofText text = .ok ⟨"auth", p⟩) (h' : Envelope.ofText text' = .ok ⟨"auth", p'⟩)
    (ha : AlikeButSecrets p p') (hr : ofText text = .error r) (hr' : ofText text' = .error r') :
    (r = r' ↔ exposed? p = exposed? p') ∧
      (∀ found, exposed? p = some found → r = .malformed ⟨.mismatch found .string, none⟩) ∧
      (HasPlainSecrets (loginEntries p) → r = r') := by
  have hs := auth_eq_error h hr
  have hs' := auth_eq_error h' hr'
  have hiff := ha.settled_eq_iff hs hs'
  refine ⟨hiff, fun found hfound => ?_, fun hplain => hiff.mpr ?_⟩
  · rw [settled_of_exposed? hfound] at hs
    exact (Except.error.inj hs).symm
  · have hplain' := ha.entries.hasPlainSecrets hplain
    rw [exposed?, exposed?, hplain.exposedAmong?_eq_none, hplain'.exposedAmong?_eq_none]

/-- A login whose password is a number. -/
def pinText (pin : String) : String :=
  "\x7b\"type\":\"auth\",\"payload\":\x7b\"password\":" ++ pin ++ "\x7d\x7d"

def pinPayload (pin : Int) : Value := .object [("password", .number (.integer pin))]

/-- The envelope of a login whose password is this number. -/
def holdsPin (pin : Int) : Except Fault Envelope → Bool
  | .ok ⟨kind, .object [(name, .number (.integer i))]⟩ =>
      kind = "auth" && name = "password" && i = pin
  | _ => false

theorem eq_of_holdsPin {pin : Int} {x : Except Fault Envelope} (h : holdsPin pin x = true) :
    x = .ok ⟨"auth", pinPayload pin⟩ := by
  unfold holdsPin at h
  split at h
  · simp only [Bool.and_eq_true, decide_eq_true_eq] at h
    obtain ⟨⟨rfl, rfl⟩, rfl⟩ := h
    rfl
  · simp at h

theorem eq_error_of_holdsPin {text : String} {pin : Int}
    (h : holdsPin pin (Envelope.ofText text) = true) :
    ofText text = .error (.malformed ⟨.mismatch (.integer pin) .string, none⟩) := by
  simp only [ofText, eq_of_holdsPin h]
  rfl

theorem alike_pinPayload (a b : Int) : AlikeButSecrets (pinPayload a) (pinPayload b) :=
  .object (.secret (by decide) (.number _ _) .nil)

theorem holdsPin_12345 : holdsPin 12345 (Envelope.ofText (pinText "12345")) = true := by
  decide +kernel

theorem holdsPin_67890 : holdsPin 67890 (Envelope.ofText (pinText "67890")) = true := by
  decide +kernel

theorem auth_rejections_eq_iff_pins :
    ∃ r r', ofText (pinText "12345") = .error r ∧ ofText (pinText "67890") = .error r' ∧
      (r = r' ↔ exposed? (pinPayload 12345) = exposed? (pinPayload 67890)) ∧
      r = .malformed ⟨.mismatch (.integer 12345) .string, none⟩ := by
  have hr := eq_error_of_holdsPin holdsPin_12345
  have hr' := eq_error_of_holdsPin holdsPin_67890
  obtain ⟨hiff, hshown, -⟩ := auth_rejections_eq_iff (eq_of_holdsPin holdsPin_12345)
    (eq_of_holdsPin holdsPin_67890) (alike_pinPayload _ _) hr hr'
  exact ⟨_, _, hr, hr', hiff, hshown (.integer 12345) rfl⟩

/-- A password that is a number is shown in the rejection. -/
theorem auth_rejections_show_pin :
    ¬ ∀ text text' p p' r r', Envelope.ofText text = .ok ⟨"auth", p⟩ →
      Envelope.ofText text' = .ok ⟨"auth", p'⟩ → AlikeButSecrets p p' →
      ofText text = .error r → ofText text' = .error r' → r = r' := by
  intro h
  have heq := h _ _ _ _ _ _ (eq_of_holdsPin holdsPin_12345) (eq_of_holdsPin holdsPin_67890)
    (alike_pinPayload _ _) (eq_error_of_holdsPin holdsPin_12345)
    (eq_error_of_holdsPin holdsPin_67890)
  simp at heq

end ClientMessage

end TerminalGateway
