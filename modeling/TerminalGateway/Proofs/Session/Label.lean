import TerminalGateway.Proofs.Numeral.Digits
import TerminalGateway.Proofs.Session.News
import TerminalGateway.Proofs.Session.Shown
import TerminalGateway.Proofs.Text.Split

/-!
The label of a target. Its text gives the host and the port back, and the footer of a client shows
it of no connection but the one that was just made, of which the coordinator is told the same.
-/

namespace TerminalGateway

/-! ### The text of a label -/

namespace Credentials

/-- A host as it stands in a label. -/
def shownHost (host : String) : List Char :=
  if ':' ∈ host.toList then '[' :: (host.toList ++ [']']) else host.toList

theorem toList_label (c : Credentials) :
    c.label.toList = "ssh://".toList ++ (shownHost c.host ++ ':' :: Numeral.digits 10 c.port) := by
  by_cases h : ':' ∈ c.host.toList <;> simp [label, shownHost, Numeral.decimal, h]

theorem colon_mem_shownHost {host : String} : ':' ∈ shownHost host ↔ ':' ∈ host.toList := by
  by_cases h : ':' ∈ host.toList <;> simp [shownHost, h]

/-- A host in brackets is not taken for one that has them: with a colon in it, it would stand in two
pairs of them. -/
theorem shownHost_injective {host host' : String} (h : shownHost host = shownHost host') :
    host = host' := by
  have hcolon : ':' ∈ host.toList ↔ ':' ∈ host'.toList := by
    rw [← colon_mem_shownHost, h, colon_mem_shownHost]
  refine String.toList_inj.mp ?_
  by_cases hc : ':' ∈ host'.toList
  · simpa [shownHost, hcolon.mpr hc, hc] using h
  · simpa [shownHost, mt hcolon.mp hc, hc] using h

theorem colon_notMem_digits (n : Nat) : ':' ∉ Numeral.digits 10 n := fun hm =>
  absurd (Numeral.isDigit_of_mem_digits n ':' hm) (by decide)

/-- Credentials have the same label exactly if they are for the same host and port. -/
theorem label_eq_iff {c d : Credentials} :
    c.label = d.label ↔ c.host = d.host ∧ c.port = d.port := by
  constructor
  · intro h
    have htext := congrArg String.toList h
    rw [toList_label, toList_label, List.append_cancel_left_eq] at htext
    -- whatever the hosts are, the last colon stands before the port
    obtain ⟨hhost, hport⟩ := Text.split_last_unique (colon_notMem_digits _) (colon_notMem_digits _)
      htext
    exact ⟨shownHost_injective hhost, Numeral.digits_injective (by decide) (by decide) hport⟩
  · rintro ⟨hhost, hport⟩
    simp only [label, hhost, hport]

end Credentials

/-! ### Where labels are told -/

namespace Record

variable {record es : List Entry} {c : Credentials}

/-- A record whose footers are labels of the connection made last, each of which the coordinator
was told too. -/
structure Labelled (record : List Entry) : Prop where
  shown : Each (fun past e => ∀ label, e = .sent (.footer label) →
    ∃ c, lastConnection? past = some (c, some (.ok ())) ∧ label = c.label) record
  told : targets record = footers record

/-- A record of which the last footer is that of the connection there is. -/
def UpToDate (record : List Entry) : Prop :=
  ∀ c, lastConnection? record = some (c, some (.ok ())) →
    (footers record).getLast? = some c.label

theorem unlabelled (he : ∀ e ∈ es, e.isUnlabelled = true) : footers es = [] ∧ targets es = [] := by
  refine ⟨List.filterMap_eq_nil_iff.mpr fun e hm => ?_,
    List.filterMap_eq_nil_iff.mpr fun e hm => ?_⟩
  all_goals
    have hu := he e hm
    unfold Entry.isUnlabelled at hu
    split at hu <;> simp_all

theorem Labelled.append (h : Labelled record) (he : ∀ e ∈ es, e.isUnlabelled = true) :
    Labelled (record ++ es) where
  shown := by
    refine each_append.mpr ⟨h.shown, ?_⟩
    rintro past e rest rfl label rfl
    cases he (.sent (.footer label)) (by simp)
  told := by simp [h.told, unlabelled he]

theorem Labelled.settled (h : Labelled record) (outcome : Outcome) :
    Labelled (record ++ [.settled outcome]) where
  shown := each_append.mpr ⟨h.shown, by simp⟩
  told := by
    rw [targets_append, footers_append, h.told]
    rfl

/-- Only the outcome of a connection makes it one that was made. -/
theorem made_of_append (he : ∀ e ∈ es, e.isUnlabelled = true)
    (h : lastConnection? (record ++ es) = some (c, some (.ok ()))) :
    lastConnection? record = some (c, some (.ok ())) := by
  rw [lastConnection?_append] at h
  generalize lastConnection? record = last at h ⊢
  induction es generalizing last with
  | nil => exact h
  | cons e es ih =>
      obtain ⟨hu, hes⟩ := List.forall_mem_cons.mp he
      have hafter := ih hes _ h
      unfold connectionAfter at hafter
      split at hafter
      · simp at hafter
      · rename_i outcome
        obtain ⟨_, -, hout⟩ := Option.map_eq_some_iff.mp hafter
        obtain ⟨-, rfl⟩ : _ ∧ outcome = .ok () := by simpa using hout
        cases hu
      · exact hafter

theorem UpToDate.append (h : UpToDate record) (he : ∀ e ∈ es, e.isUnlabelled = true) :
    UpToDate (record ++ es) := by
  intro c hc
  rw [footers_append, (unlabelled he).1, List.append_nil]
  exact h c (made_of_append he hc)

section Welcome

variable (hc : lastConnection? record = some (c, some (.ok ()))) (permissions : Permissions)

theorem footers_welcome :
    footers (record ++ Session.welcome permissions c.label) = footers record ++ [c.label] := by
  simp [footers, Session.welcome, ServerEvent.footer]

include hc

theorem Labelled.welcome (h : Labelled record) :
    Labelled (record ++ Session.welcome permissions c.label) where
  shown := by
    refine each_append.mpr ⟨h.shown, ?_⟩
    simp [Session.welcome, ServerEvent.footer, connectionAfter, hc]
  told := by
    rw [targets_append, h.told, footers_welcome]
    rfl

theorem upToDate_welcome : UpToDate (record ++ Session.welcome permissions c.label) := by
  intro d hd
  have hsame : lastConnection? (record ++ Session.welcome permissions c.label) =
      lastConnection? record := by
    simp [Session.welcome, connectionAfter]
  obtain rfl : c = d := by simpa [hsame, hc] using hd
  rw [footers_welcome, List.getLast?_concat]

end Welcome

end Record

namespace Session

variable {ρ : Type} {s t : Session ρ}

/-- A session whose labels are those of its connections. -/
structure Labelled (s : Session ρ) : Prop where
  labelled : Record.Labelled s.record
  upToDate : s.phase ≠ .closed → Record.UpToDate s.record

variable [Remote ρ]

theorem Moves.labelled {σ : Stimulus} (h : Moves s σ t) (hs : s.Coherent) (ho : s.Open)
    (hl : s.Labelled) : t.Labelled := by
  have hcurrent := hl.upToDate fun hp => by simpa [isClosing, hp] using ho.goesOn
  rcases h.plain with ⟨es, hr, he⟩ | ⟨x, -, rfl⟩ | ⟨c, remote, ha, rfl⟩ | ⟨remote, outcome, rfl⟩
  · have hu : ∀ e ∈ es, e.isUnlabelled = true := fun e hm => (Bool.and_eq_true _ _ ▸ he e hm).2
    exact ⟨hr ▸ hl.labelled.append hu, fun _ => hr ▸ hcurrent.append hu⟩
  · have hu : ∀ e ∈ [Entry.sent (.countdown x)], e.isUnlabelled = true := by
      simp [Entry.isUnlabelled]
    exact ⟨hl.labelled.append hu, fun _ => hcurrent.append hu⟩
  · obtain ⟨-, hk⟩ := hs.connecting _ ha
    have hmade : Record.lastConnection? (s.settled remote (.ok ())).record =
        some (c, some (.ok ())) := by simp [settled, hk, Record.connectionAfter]
    exact ⟨(hl.labelled.settled _).welcome hmade s.permissions,
      fun _ => Record.upToDate_welcome hmade s.permissions⟩
  · have hu : ∀ e ∈ farewell, e.isUnlabelled = true := by simp [farewell, Entry.isUnlabelled]
    exact ⟨(hl.labelled.settled outcome).append hu, fun hp => absurd rfl hp⟩

theorem Begun.labelled (h : s.Begun) : s.Labelled := by
  obtain ⟨config, remote, cached, env, σs, rfl⟩ := h
  refine (coherent_start config remote cached env).run_induction (P := Labelled) ?_
    (fun t hl => ⟨hl.labelled, hl.upToDate⟩) fun t σ t' _ ht ho hl hm => hm.labelled ht ho hl
  refine ⟨⟨Record.each_nil _, rfl⟩, fun _ c hc => ?_⟩
  simp [Session.start, Record.lastConnection?] at hc

/-- The footer of a session that has its connection is the label of its credentials. -/
theorem Begun.footer_of_connected (h : s.Begun)
    (hp : s.phase = .connected ∨ s.phase = .streaming) :
    ∃ c, s.credentials = some c ∧ (Record.footers s.record).getLast? = some c.label := by
  obtain ⟨c, hcred, hmade⟩ := h.coherent.connected hp
  refine ⟨c, hcred, h.labelled.upToDate (fun hc => ?_) c hmade⟩
  simp [hc] at hp

end Session

end TerminalGateway
