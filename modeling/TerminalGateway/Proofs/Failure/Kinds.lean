import TerminalGateway.Failure.Transport
import TerminalGateway.Proofs.Text.Fold

/-!
What decides the kind of a failure. Level and code come first; where they say nothing, the words of
the message do, and more text around a message can only make its kind stronger. The words of a
system's text are heard for failures of a socket too.
-/

namespace TerminalGateway

/-! ### The words of a message -/

variable {words : List String} {message : String}

theorem mentions_iff :
    mentions words message = true ↔
      ∃ w ∈ words, w.toList <:+: Text.fold message.toList := by
  simp [mentions, Text.occursIn_eq_true_iff]

theorem mentions_wrapped (h : mentions words message = true) (before after : String) :
    mentions words (before ++ message ++ after) = true := by
  obtain ⟨w, hw, hi⟩ := mentions_iff.mp h
  refine mentions_iff.mpr ⟨w, hw, ?_⟩
  simpa only [String.toList_append] using
    Text.infix_fold_append hi before.toList after.toList

/-- A word in letters of any case is heard. -/
theorem mentions_of_fold {w : String} (hw : w ∈ words)
    (h : Text.fold message.toList = w.toList) : mentions words message = true :=
  mentions_iff.mpr ⟨w, hw, h ▸ List.infix_rfl⟩

/-- Texts for which a search is the same by every rule for small letters. -/
def PlainWords (words : List String) : Prop :=
  ∀ w ∈ words, w.toList ≠ [] ∧ ∀ c ∈ w.toList, c.toNat < 0x80

theorem mentions_eq_lowerBy {rule : List Char → Char → List Char → List Char}
    (hr : Text.IsCaseRule rule) (hw : PlainWords words) (message : String) :
    mentions words message =
      words.any fun w => Text.occursIn w.toList (Text.lowerBy rule [] message.toList) := by
  unfold mentions
  rw [Bool.eq_iff_iff, List.any_eq_true, List.any_eq_true]
  refine exists_congr fun w => and_congr_right fun h => ?_
  rw [hr.occursIn_lowerBy (hw w h).1 (hw w h).2]

/-! ### Level and code before the words -/

/-- The level or the code says what a failure is. -/
def Conclusive (code : Option String) (level : Option FailureLevel) : Prop :=
  level ∈ [some .clientAuthentication, some .clientTimeout, some .stream] ∨
    ∃ given ∈ code, ∃ known ∈ timeoutCodes ++ networkCodes, Text.sameWord given known = true

namespace FailureKind

variable {code : Option String} {level : Option FailureLevel}

theorem ofCode?_eq_none_iff {given : String} :
    ofCode? given = none ↔
      ¬ ∃ known ∈ timeoutCodes ++ networkCodes, Text.sameWord given known = true := by
  unfold ofCode?
  simp only [List.mem_append, or_and_right, exists_or, ← List.any_eq_true]
  repeat' split
  all_goals simp [*]

theorem ofSignals?_eq_none_iff : ofSignals? code level = none ↔ ¬ Conclusive code level := by
  have hcode : code.bind ofCode? = none ↔
      ¬ ∃ given ∈ code, ∃ known ∈ timeoutCodes ++ networkCodes,
        Text.sameWord given known = true := by
    cases code with
    | none => simp
    | some given => simpa using ofCode?_eq_none_iff
  unfold Conclusive
  rw [not_or, ← hcode]
  cases level with
  | none => cases h : code.bind ofCode? <;> simp [ofSignals?, h]
  | some level => cases level <;> cases h : code.bind ofCode? <;> simp [ofSignals?, h]

theorem classify_of_conclusive (h : Conclusive code level) (one other : String) :
    classify code level one = classify code level other := by
  cases hs : ofSignals? code level with
  | none => exact absurd h (ofSignals?_eq_none_iff.mp hs)
  | some kind => simp [classify, hs]

theorem classify_of_not_conclusive (h : ¬ Conclusive code level) (message : String) :
    classify code level message = ofMessage message := by
  simp [classify, ofSignals?_eq_none_iff.mpr h]

/-! ### The order of kinds -/

/-- How strong a kind is among those that words tell. -/
def strength? : FailureKind → Option Nat
  | .authentication => some 3
  | .network => some 2
  | .timeout => some 1
  | .unknown => some 0
  | .protocol => none

/-- No words tell of a protocol failure, which has no place in the order. -/
def AtMost (a b : FailureKind) : Prop := ∃ m ∈ a.strength?, ∃ n ∈ b.strength?, m ≤ n

instance (a b : FailureKind) : Decidable (AtMost a b) := by
  unfold AtMost
  infer_instance

/-- The kind told by words that are searched for after a rule for small letters. -/
def ofLowered (rule : List Char → Char → List Char → List Char) (message : String) :
    FailureKind :=
  let found words :=
    words.any fun (w : String) => Text.occursIn w.toList (Text.lowerBy rule [] message.toList)
  if found authenticationWords then .authentication
  else if found networkWords then .network
  else if found timeoutWords then .timeout
  else .unknown

theorem ofMessage_eq_ofLowered {rule : List Char → Char → List Char → List Char}
    (h : Text.IsCaseRule rule) (message : String) :
    ofMessage message = ofLowered rule message := by
  have hplain : ∀ words ∈ [authenticationWords, networkWords, timeoutWords], PlainWords words := by
    simp [PlainWords, authenticationWords, networkWords, timeoutWords]
  unfold ofMessage ofLowered
  rw [mentions_eq_lowerBy h (hplain _ (by simp)), mentions_eq_lowerBy h (hplain _ (by simp)),
    mentions_eq_lowerBy h (hplain _ (by simp))]

theorem ofMessage_wrapped (before message after : String) :
    (ofMessage message).AtMost (ofMessage (before ++ message ++ after)) := by
  have hkept (words : List String) (h : mentions words message = true) :=
    mentions_wrapped h before after
  unfold ofMessage
  split
  case isTrue h =>
      rw [if_pos (hkept _ h)]
      decide
  case isFalse =>
      split
      case isTrue h =>
          rw [if_pos (c := mentions networkWords _ = true) (hkept _ h)]
          split <;> decide
      case isFalse =>
          split
          case isTrue h =>
              rw [if_pos (c := mentions timeoutWords _ = true) (hkept _ h)]
              repeat' split
              all_goals decide
          case isFalse =>
              repeat' split
              all_goals decide

theorem ofMessage_eq_authentication_iff {message : String} :
    ofMessage message = .authentication ↔ mentions authenticationWords message = true := by
  unfold ofMessage
  repeat' split
  all_goals simp [*]

end FailureKind

/-! ### Failures of a socket -/

/-- The server, or its name, was not found. -/
def IoError.IsUnreached (e : IoError) : Prop :=
  e.kind ∈ [.connectionRefused, .networkUnreachable, .hostUnreachable] ∨
    e.kind ≠ .timedOut ∧ e.isLookupFailure = true

namespace Failure

variable {e : IoError}

theorem ofTransport_io (h : e.isHangUp = false) (authenticated : Bool) :
    ofTransport (.io e) authenticated = ofIo e := by
  simp [ofTransport, h]

theorem ofIo_kind_of_timedOut (h : e.kind = .timedOut) : (ofIo e).kind = .timeout := by
  simp only [kind, ofIo, IoError.code?, h]
  rfl

theorem ofIo_kind_of_unreached (hup : e.isHangUp = false) (h : e.IsUnreached) :
    (ofIo e).kind = .network := by
  cases hk : e.kind with
  | connectionRefused | networkUnreachable | hostUnreachable =>
      simp only [kind, ofIo, IoError.code?, hk]
      rfl
  | connectionReset | connectionAborted | brokenPipe | unexpectedEnd =>
      simp [IoError.isHangUp, hk] at hup
  | timedOut => simp [IoError.IsUnreached, hk] at h
  | _ =>
      have hl : e.isLookupFailure = true := by simpa [IoError.IsUnreached, hk] using h
      simp only [kind, ofIo, IoError.code?, hk, hl]
      rfl

theorem ofIo_kind_of_reached (hup : e.isHangUp = false) (ht : e.kind ≠ .timedOut)
    (h : ¬ e.IsUnreached) : (ofIo e).kind = .ofMessage e.text := by
  cases hk : e.kind with
  | connectionRefused | networkUnreachable | hostUnreachable =>
      simp [IoError.IsUnreached, hk] at h
  | connectionReset | connectionAborted | brokenPipe | unexpectedEnd =>
      simp [IoError.isHangUp, hk] at hup
  | timedOut => exact absurd hk ht
  | _ =>
      have hl : e.isLookupFailure = false := by simpa [IoError.IsUnreached, hk] using h
      simp only [kind, ofIo, IoError.code?, hk, hl]
      rfl

/-- A failure to reach the server counts as rejected credentials by the words of the system. -/
theorem ofTransport_io_kind (e : IoError) (h : e.isHangUp = false) (authenticated : Bool) :
    (e.kind = .timedOut → (ofTransport (.io e) authenticated).kind = .timeout) ∧
    (e.IsUnreached → (ofTransport (.io e) authenticated).kind = .network) ∧
    (e.kind ≠ .timedOut → ¬ e.IsUnreached →
      (ofTransport (.io e) authenticated).kind = .ofMessage e.text) ∧
    ((ofTransport (.io e) authenticated).kind = .authentication ↔
      e.kind ≠ .timedOut ∧ ¬ e.IsUnreached ∧ mentions authenticationWords e.text = true) := by
  rw [ofTransport_io h]
  refine ⟨ofIo_kind_of_timedOut, ofIo_kind_of_unreached h, ofIo_kind_of_reached h, ?_⟩
  by_cases ht : e.kind = .timedOut
  · simp [ofIo_kind_of_timedOut ht, ht]
  by_cases hu : e.IsUnreached
  · simp [ofIo_kind_of_unreached h hu, hu]
  · simp [ofIo_kind_of_reached h ht hu, ht, hu, FailureKind.ofMessage_eq_authentication_iff]

/-- The system may refuse a connection before any server hears of it. -/
theorem ofTransport_io_kind_refusedBySystem :
    (IoError.ofNumber 13).isHangUp = false ∧
      (ofTransport (.io (.ofNumber 13)) false).kind = .authentication := by
  have h : (IoError.ofNumber 13).isHangUp = false := by decide
  refine ⟨h, (ofTransport_io_kind _ h false).2.2.2.mpr ⟨by decide, ?_, by decide +kernel⟩⟩
  rintro (hk | ⟨-, hl⟩)
  · exact absurd hk (by decide)
  · exact absurd hl (by decide +kernel)

theorem unreached_counts_as_rejected :
    ¬ ∀ (e : IoError) (authenticated : Bool), e.isHangUp = false →
      (ofTransport (.io e) authenticated).kind ≠ .authentication := by
  intro h
  exact h (.ofNumber 13) false (by decide) (by decide +kernel)

end Failure

end TerminalGateway
