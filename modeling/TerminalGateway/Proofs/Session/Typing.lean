import TerminalGateway.Proofs.Config
import TerminalGateway.Proofs.Session.Operations
import TerminalGateway.Session.Scripted

/-!
What is typed into a stream, and the sizes that its terminal is given. All of it follows from the
messages that are handled: octets and sizes come with them, and a password is that of the connection
made last, whatever was asked for before.
-/

namespace TerminalGateway

/-- What a stream is given: octets, or a size for its terminal. -/
def Entry.input? : Entry → Option Call
  | .called (.write bytes) _ => some (.write bytes)
  | .called (.resize d) _ => some (.resize d)
  | _ => none

def Call.octets? : Call → Option Octets
  | .write bytes => some bytes
  | _ => none

namespace Record

def inputs (record : List Entry) : List Call := record.filterMap Entry.input?

/-- The credentials of the connection that there is. -/
def connected? (record : List Entry) : Option Credentials :=
  match lastConnection? record with
  | some (c, some (.ok ())) => some c
  | _ => none

theorem inputs_operations (record : List Entry) : inputs (operations record) = inputs record := by
  rw [inputs, operations, List.filterMap_filter]
  refine congrArg (record.filterMap ·) (funext fun e => ?_)
  cases ho : e.isOperation with
  | true => rfl
  | false =>
      unfold Entry.isOperation at ho
      unfold Entry.input?
      split at ho <;> simp_all

end Record

namespace Session

variable {ρ : Type} {s : Session ρ}

/-- What a message gives to the stream by the settings of the operator: its own octets or its own
size, or the password of the connection. -/
def given? (config : Config) (s : Session ρ) : Inbound → Option Call
  | .ok (.data bytes) => if s.phase = .streaming then some (.write bytes) else none
  | .ok (.control .replayCredentials) =>
      if config.permissions.allowReplay ∧ s.phase = .streaming then
        (((Record.connected? s.record).bind (·.password)).filter (!·.isEmpty)).map fun password =>
          .write (Text.Utf8.encode (password ++ config.lineEnding).toList)
      else none
  | .ok (.resize d) => some (.resize d)
  | _ => none

/-- The octets that a message brings for the stream. -/
def typed? (s : Session ρ) : Inbound → Option Octets
  | .ok (.data bytes) => if s.phase = .streaming then some bytes else none
  | _ => none

theorem given?_octets {config : Config} (h : config.permissions.allowReplay = false)
    (m : Inbound) : (s.given? config m).bind Call.octets? = s.typed? m := by
  match m with
  | .ok (.data bytes) =>
      by_cases hp : s.phase = .streaming <;> simp [given?, typed?, hp, Call.octets?]
  | .ok (.control .replayCredentials) => simp [given?, typed?, h]
  | .error _ | .ok (.auth _) | .ok (.terminal _) | .ok (.exec _) | .ok (.resize _)
  | .ok (.control .reauth) | .ok (.control .clearCredentials) | .ok (.control .disconnect) => rfl

theorem Coherent.connected?_of_streaming (h : s.Coherent) (hp : s.phase = .streaming) :
    Record.connected? s.record = s.credentials := by
  obtain ⟨c, hc, hk⟩ := h.connected (.inr hp)
  simp [Record.connected?, hk, hc]

variable [Remote ρ]

/-- The operations that messages ask for give a stream what is due to it. -/
theorem Coherent.given (h : s.Coherent) {config : Config}
    (hset : s.settings = (config, config.permissions)) (m : Inbound) :
    (s.operation? m).bind (fun o => o.entry.input?) = s.given? config m := by
  obtain ⟨hconfig, hpermissions⟩ := Prod.mk.inj hset
  match m with
  | .ok (.data bytes) =>
      by_cases hp : s.phase = .streaming <;>
        simp [operation?, given?, hp, Operation.entry, Entry.input?]
  | .ok (.resize d) => rfl
  | .ok (.terminal r) =>
      by_cases hp : s.phase = .connected <;>
        simp [operation?, given?, hp, Operation.entry, Entry.input?]
  | .ok (.exec r) =>
      by_cases hp : s.phase = .connected <;>
        simp [operation?, given?, hp, Operation.entry, Entry.input?]
  | .ok (.control .replayCredentials) =>
      rw [operation?, given?, hpermissions]
      split
      next hr =>
        rw [h.connected?_of_streaming hr.2, ← hconfig, Option.bind_map, ← replayable?]
        cases s.replayable? <;> rfl
      next => rfl
  | .error _ | .ok (.auth _) | .ok (.control .reauth) | .ok (.control .clearCredentials)
  | .ok (.control .disconnect) => rfl

/-- A stream is given what the messages that are handled give to it, each once and in their order:
the octets of data and the password of the connection while it is open, and every size. Where
passwords must not be typed, nothing but data is. -/
theorem inputs_run (config : Config) (remote : ρ) (cached : Option Credentials)
    (env : Environment.Pairs) (σs : List Stimulus) :
    let begun := start config remote cached env
    let s := begun.run σs
    let dispatches := begun.dispatches σs
    Record.handled s.record = dispatches.map (·.2) ∧
    (∀ x ∈ dispatches, ∃ past σ rest, σs = past ++ σ :: rest ∧ x.1 = begun.run past ∧
      x.1.dispatched? σ = some x.2) ∧
    Record.inputs s.record = dispatches.filterMap (fun x => x.1.given? config x.2) ∧
    (config.permissions.allowReplay = false →
      (Record.inputs s.record).filterMap Call.octets? =
        dispatches.filterMap fun x => x.1.typed? x.2) := by
  intro begun s dispatches
  have hb : begun.Coherent := coherent_start config remote cached env
  have hgiven : Record.inputs s.record = dispatches.filterMap fun x => x.1.given? config x.2 := by
    have hall : ∀ x ∈ dispatches,
        ((x.1.operation? x.2).map Operation.entry).bind Entry.input? = x.1.given? config x.2 := by
      intro x hx
      obtain ⟨past, -, -, -, hpast, -⟩ := mem_dispatches hx
      have hx1 : x.1.Coherent := hpast ▸ hb.run past
      have hset : x.1.settings = (config, config.permissions) := hpast ▸ hb.settings_run past
      rw [Option.bind_map]
      exact hx1.given hset x.2
    rw [← Record.inputs_operations, hb.operations_run σs]
    change Record.inputs (dispatches.filterMap _) = _
    rw [Record.inputs, List.filterMap_filterMap]
    have hmap := congrArg (List.filterMap id) (List.map_congr_left hall)
    rwa [List.filterMap_map, List.filterMap_map] at hmap
  refine ⟨hb.handled_run σs, fun x => mem_dispatches, hgiven, fun h => ?_⟩
  rw [hgiven, List.filterMap_filterMap]
  simp only [given?_octets h]

/-- A login, a terminal and the password typed into it; the same on another host; then a word. -/
def movingOn : List Stimulus :=
  [.message (.ok (.auth ⟨⟨"h", 22, "user", some "pw", none, none⟩, none, none⟩)), .settle,
    .message (.ok (.terminal ⟨none, .standard⟩)), .message (.ok (.control .replayCredentials)),
    .message (.ok (.auth ⟨⟨"k", 22, "user", some "sesame", none, none⟩, none, none⟩)), .settle,
    .message (.ok (.terminal ⟨none, .standard⟩)), .message (.ok (.control .replayCredentials)),
    .message (.ok (.data [104, 105]))]

theorem inputs_run_movingOn :
    let replaying := { Config.standard with permissions.allowReplay := true }
    let s := (start replaying ({} : Script) none []).run movingOn
    let strict := (start Config.standard ({} : Script) none []).run movingOn
    Record.inputs s.record =
      [.write [112, 119, 10], .write [115, 101, 115, 97, 109, 101, 10], .write [104, 105]] ∧
    Config.standard.permissions.allowReplay = false ∧
    (Record.inputs strict.record).filterMap Call.octets? = [[104, 105]] := by
  intro replaying s strict
  obtain ⟨-, -, hs, -⟩ := inputs_run replaying ({} : Script) none [] movingOn
  obtain ⟨-, -, -, hstrict⟩ := inputs_run Config.standard ({} : Script) none [] movingOn
  exact ⟨hs.trans (by decide +kernel), rfl, (hstrict rfl).trans (by decide +kernel)⟩

end Session

end TerminalGateway
