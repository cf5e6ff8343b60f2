import TerminalGateway.Proofs.Json.Document
import TerminalGateway.Proofs.Message.RoundTrip
import TerminalGateway.Proofs.Text.Utf8

/-!
Events as text. What a client is told is a whole JSON document from which the event can be taken
back, so no two events have the same text. The fields are looked up by name: of those that may be
left out, a missing one says that there was nothing to say.
-/

namespace TerminalGateway

open Json

/-! ### Taking events back -/

/-- A natural number, if an entry is one. -/
def Json.Value.natural? (v : Option Value) : Option Nat := (integer? v).map Int.toNat

/-- The items of a list, if an entry is one. -/
def Json.Value.items? : Option Value → Option (List Value)
  | some (.array items) => some items
  | _ => none

open Json.Value (text? truth? members? natural? items?)

def Prompt.ofJson? (v : Value) : Option Prompt := do
  let fields ← members? (some v)
  return ⟨← text? (field? fields "prompt"), ← truth? (field? fields "echo")⟩

def InteractivePrompt.ofFields? (fields : List (String × Value)) : Option InteractivePrompt := do
  let items ← items? (field? fields "prompts")
  return ⟨← text? (field? fields "name"), ← text? (field? fields "instructions"),
    ← items.mapM Prompt.ofJson?⟩

def Permissions.ofFields? (fields : List (String × Value)) : Option Permissions :=
  return ⟨← truth? (field? fields "autoLog"), ← truth? (field? fields "allowReplay"),
    ← truth? (field? fields "allowReconnect"), ← truth? (field? fields "allowReauth")⟩

namespace ServerEvent

/-- The event about a login, by what it calls the action. -/
def ofAuthentication? (fields : List (String × Value)) : Option ServerEvent := do
  let action ← text? (field? fields "action")
  if action = "auth_result" then
    return .authResult (← truth? (field? fields "success")) (text? (field? fields "message"))
  else if action = "keyboard-interactive" then
    return .keyboardInteractive (← InteractivePrompt.ofFields? fields)
  else if action = "reauth" then return .reauth
  else none

def ofUpdate? (fields : List (String × Value)) : Option ServerEvent :=
  return .update (← text? (field? fields "element")) (← text? (field? fields "value"))

def ofExecExit (fields : List (String × Value)) : ServerEvent :=
  .execExit (natural? (field? fields "code")) (text? (field? fields "signal"))
    ((truth? (field? fields "timedOut")).getD false)

/-- The event of a name and what it says. -/
def ofParts? (name : String) (data : Option Value) : Option ServerEvent :=
  if name = "authentication" then (members? data).bind ofAuthentication?
  else if name = "permissions" then
    ((members? data).bind Permissions.ofFields?).map .permissions
  else if name = "getTerminal" then (truth? data).map .getTerminal
  else if name = "updateUI" then (members? data).bind ofUpdate?
  else if name = "data" then (text? data).map fun s => .data (Text.Utf8.encode s.toList)
  else if name = "ssherror" then (text? data).map .sshError
  else if name = "shutdownCountdownUpdate" then (natural? data).map .countdown
  else if name = "execExit" then (members? data).map ofExecExit
  else none

/-- The event that a value tells. -/
def ofJson? (v : Value) : Option ServerEvent := do
  let fields ← members? (some v)
  ofParts? (← text? (field? fields "event")) (field? fields "data")

/-- An event whose numbers have at most 64 bits. -/
def InRange : ServerEvent → Prop
  | .countdown remaining => remaining < 0x10000000000000000
  | .execExit code _ _ => ∀ n ∈ code, n < 0x10000000000000000
  | _ => True

/-- An event as it is told in text: terminal output with a replacement for what is no text. -/
def legible : ServerEvent → ServerEvent
  | .data bytes => .data (Text.Utf8.encode (Text.Utf8.decodeLossy bytes))
  | e => e

/-! ### Events as values -/

variable {depth : Nat}

theorem optionalField_eq_given (name : String) (v : Option Value) :
    optionalField name v = given name v := by
  cases v <;> rfl

theorem parts_execExit (code : Option Nat) (signal : Option String) (timedOut : Bool) :
    (execExit code signal timedOut).parts =
      ("execExit", .object (given "code" (code.map .natural)
        ++ given "signal" (signal.map .string)
        ++ given "timedOut" (if timedOut then some (.bool true) else none))) := by
  cases code <;> cases signal <;> cases timedOut <;> rfl

theorem fits_natural {n : Nat} (hn : n < 0x10000000000000000) : (Value.natural n).Fits depth := by
  rw [Value.natural, Value.Fits]
  exact ⟨n, rfl, hn⟩

theorem fits_prompt (p : Prompt) : p.json.Fits (depth + 1) := by
  simp [Prompt.json, Value.Fits]

theorem fits_exit {code : Option Nat} (h : ∀ n ∈ code, n < 0x10000000000000000)
    (signal : Option String) (timedOut : Bool) :
    (execExit code signal timedOut).parts.2.Fits (depth + 1) := by
  rw [parts_execExit, Value.Fits]
  constructor
  · have hnames := (names_given_sublist "code" (code.map .natural)).append
      (names_given_sublist "signal" (signal.map .string)) |>.append
      (names_given_sublist "timedOut" (if timedOut then some (.bool true) else none))
    simp only [names, List.map_append] at hnames ⊢
    exact hnames.nodup (by decide)
  · simp only [List.mem_append, or_imp, forall_and]
    refine ⟨⟨?_, ?_⟩, ?_⟩
    · exact forall_mem_given.mpr fun n hn => fits_natural (h n hn)
    · exact forall_mem_given.mpr fun s _ => by simp [Value.Fits]
    · cases timedOut <;> simp [given, Value.Fits]

theorem parts_fits {e : ServerEvent} (h : e.InRange) : e.parts.2.Fits (depth + 3) := by
  cases e with
  | authResult success message =>
      cases message <;> simp [parts, Value.Fits, optionalField]
  | keyboardInteractive p =>
      have hprompts : ∀ q ∈ p.prompts, q.json.Fits (depth + 1) := fun q _ => fits_prompt q
      simpa [parts, Value.Fits] using hprompts
  | permissions p => simp [parts, Permissions.json, Value.Fits]
  | countdown remaining => exact fits_natural h
  | execExit code signal timedOut => exact fits_exit h signal timedOut
  | reauth | getTerminal _ | update _ _ | data _ | sshError _ => simp [parts, Value.Fits]

theorem json_fits {e : ServerEvent} (h : e.InRange) (depth : Nat) : e.json.Fits (depth + 4) := by
  have hdata : e.parts.2.Fits (depth + 3) := parts_fits h
  simp [json, Value.Fits, hdata]

/-! ### Back again -/

theorem natural?_map (n : Option Nat) : natural? (n.map .natural) = n := by
  cases n <;> rfl

theorem mapM_prompts (prompts : List Prompt) :
    prompts.mapM (Prompt.ofJson? ∘ Prompt.json) = some prompts := by
  have hprompt : Prompt.ofJson? ∘ Prompt.json = some := by
    funext p
    simp [Prompt.ofJson?, Prompt.json, field?_cons]
  rw [hprompt]
  induction prompts with
  | nil => rfl
  | cons p prompts ih => simp [List.mapM_cons, ih]

theorem ofParts?_parts (e : ServerEvent) :
    ofParts? e.parts.1 (some e.parts.2) = some e.legible := by
  cases e with
  | authResult success message =>
      simp [ofParts?, parts, ofAuthentication?, optionalField_eq_given, field?_cons, field?_given,
        legible]
  | keyboardInteractive p =>
      simp [ofParts?, parts, ofAuthentication?, InteractivePrompt.ofFields?, field?_cons, items?,
        mapM_prompts, legible]
  | reauth => simp [ofParts?, parts, ofAuthentication?, field?_cons, legible]
  | permissions p =>
      simp [ofParts?, parts, Permissions.ofFields?, Permissions.json, field?_cons, legible]
  | update element value => simp [ofParts?, parts, ofUpdate?, field?_cons, legible]
  | execExit code signal timedOut =>
      cases timedOut <;>
        simp [ofParts?, parts_execExit, ofExecExit, field?_append, field?_given, natural?_map,
          truth?, legible]
  | getTerminal _ | data _ | sshError _ => simp [ofParts?, parts, legible]
  | countdown _ => simp [ofParts?, parts, natural?, Value.integer?, legible]

theorem ofJson?_json (e : ServerEvent) : ofJson? e.json = some e.legible := by
  simp [ofJson?, json, field?_cons, ofParts?_parts]

theorem readDocument_json {e : ServerEvent} (h : e.InRange) :
    readDocument e.text = .ok e.json :=
  readDocument_text (json_fits h 123)

/-- Two events with one text are told alike. -/
theorem legible_of_text {e e' : ServerEvent} (h : e.InRange) (h' : e'.InRange)
    (heq : e'.text = e.text) : e'.legible = e.legible := by
  have hread := readDocument_json h'
  rw [heq, readDocument_json h] at hread
  have hjson : e'.json = e.json := (Except.ok.inj hread).symm
  have hback : some e'.legible = some e.legible := by rw [← ofJson?_json, ← ofJson?_json, hjson]
  exact Option.some.inj hback

theorem legible_eq_self {e : ServerEvent} (he : ∀ bytes, e ≠ .data bytes) : e.legible = e := by
  cases e with
  | data bytes => exact absurd rfl (he bytes)
  | _ => rfl

theorem eq_of_legible {e e' : ServerEvent} (he : ∀ bytes, e ≠ .data bytes) (h : e'.legible = e) :
    e' = e := by
  cases e' with
  | data bytes => exact absurd h.symm (he _)
  | _ => exact h

theorem legible_encode (cs : List Char) :
    (data (Text.Utf8.encode cs)).legible = data (Text.Utf8.encode cs) := by
  rw [legible, Text.Utf8.decodeLossy_encode]

/-- The text of an event is a whole document, and what it says can stand in a message as the
payload. Every event but terminal output can be taken back from it, and no other event has its
text; of terminal output that is text the document keeps just the octets. -/
theorem recovered_from_text {e : ServerEvent} (h : e.InRange) :
    readDocument e.text = .ok e.json ∧
      (∀ kind, Envelope.ofText (Envelope.json ⟨kind, e.json⟩).text = .ok ⟨kind, e.json⟩) ∧
      ((∀ bytes, e ≠ .data bytes) →
        Http.Frame.ofEvent e = .text e.text ∧ ofJson? e.json = some e ∧
          ∀ e' : ServerEvent, e'.InRange → e'.text = e.text → e' = e) ∧
      ∀ bytes cs, e = .data bytes → Text.Utf8.decode? bytes = some cs →
        e.json = .object [("event", .string "data"), ("data", .string (String.ofList cs))] ∧
          bytes = Text.Utf8.encode cs ∧ ofJson? e.json = some e ∧
          ∀ bytes', (Text.Utf8.decode? bytes').isSome → (data bytes').text = e.text →
            bytes' = bytes := by
  refine ⟨readDocument_json h, fun kind => ?_, fun he => ⟨?_, ?_, ?_⟩, ?_⟩
  · exact Envelope.ofText_text ⟨kind, e.json⟩ (json_fits h 122)
  · cases e with
    | data bytes => exact absurd rfl (he bytes)
    | _ => rfl
  · rw [ofJson?_json, legible_eq_self he]
  · intro e' h' heq
    have hlegible := legible_of_text h h' heq
    rw [legible_eq_self he] at hlegible
    exact eq_of_legible he hlegible
  · rintro bytes cs rfl hcs
    obtain rfl := Text.Utf8.decode?_eq_some_iff.mp hcs
    refine ⟨?_, rfl, ?_, fun bytes' hsome heq => ?_⟩
    · rw [json, parts, Text.Utf8.decodeLossy_encode]
    · rw [ofJson?_json, legible_encode]
    · obtain ⟨cs', hcs'⟩ := Option.isSome_iff_exists.mp hsome
      obtain rfl := Text.Utf8.decode?_eq_some_iff.mp hcs'
      have h' : (data (Text.Utf8.encode cs')).InRange := trivial
      have hlegible := legible_of_text h h' heq
      rw [legible_encode, legible_encode] at hlegible
      exact data.inj hlegible

theorem recovered_from_text_timedOut :
    (execExit (some 3) none true).InRange ∧
      ofJson? (execExit (some 3) none true).json = some (execExit (some 3) none true) ∧
      (data [0xc3, 0xa9]).text ≠ (execExit (some 3) none true).text := by
  have hrange : (execExit (some 3) none true).InRange := by simp [InRange]
  have hdata : (data [0xc3, 0xa9]).InRange := trivial
  obtain ⟨-, -, hevent, -⟩ := recovered_from_text hrange
  obtain ⟨-, hback, hunique⟩ := hevent nofun
  exact ⟨hrange, hback, fun heq => nomatch hunique _ hdata heq⟩

end ServerEvent

end TerminalGateway
