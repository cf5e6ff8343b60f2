import TerminalGateway.Net.Subnet
import TerminalGateway.Proofs.Text.Split

/-!
The texts of a list with commas. Between two commas stands an entry with any blanks around it, or
nothing but blanks, and just these entries are read from the list.
-/

namespace TerminalGateway.Net

variable {cs : List Char} {es : List (List Char)}

/-- What can stand between two commas: blanks alone, or one entry among them. -/
inductive PieceText : List (List Char) → List Char → Prop
  | blank {cs : List Char} (h : ∀ c ∈ cs, Text.isBlank c = true) : PieceText [] cs
  | entry {e cs : List Char} (hne : e ≠ []) (ht : Text.Trimmed e) (hcomma : ',' ∉ e)
      (h : Text.Padded e cs) : PieceText [e] cs

inductive ListText : List (List Char) → List Char → Prop
  | last {es : List (List Char)} {cs : List Char} (h : PieceText es cs) : ListText es cs
  | more {es fs : List (List Char)} {cs rest : List Char} (h : PieceText es cs)
      (hr : ListText fs rest) : ListText (es ++ fs) (cs ++ ',' :: rest)

/-- The entries that pieces leave when they are trimmed. -/
def leaves (ps : List (List Char)) : List (List Char) :=
  (ps.map Text.trim).filter (!·.isEmpty)

theorem leaves_append (ps qs : List (List Char)) : leaves (ps ++ qs) = leaves ps ++ leaves qs := by
  rw [leaves, List.map_append, List.filter_append, leaves, leaves]

theorem comma_notMem_of_blank (h : ∀ c ∈ cs, Text.isBlank c = true) : ',' ∉ cs := fun hc =>
  absurd (h ',' hc) (by decide)

theorem comma_notMem_iff_of_padded {e : List Char} (h : Text.Padded e cs) : ',' ∉ cs ↔ ',' ∉ e := by
  obtain ⟨as, bs, hblank, rfl⟩ := h
  have hcomma := comma_notMem_of_blank hblank
  simp_all

theorem pieceText_iff : PieceText es cs ↔ ',' ∉ cs ∧ leaves [cs] = es := by
  constructor
  · intro h
    cases h with
    | blank h => simp [leaves, comma_notMem_of_blank h, Text.trim_eq_nil_iff.mpr h]
    | entry hne ht hcomma h =>
        refine ⟨(comma_notMem_iff_of_padded h).mpr hcomma, ?_⟩
        simp [leaves, h.trim ht, hne]
  · rintro ⟨hcomma, rfl⟩
    by_cases hne : Text.trim cs = []
    · simpa [leaves, hne] using PieceText.blank (Text.trim_eq_nil_iff.mp hne)
    · have hpadded := Text.padded_trim cs
      simpa [leaves, hne] using PieceText.entry hne (Text.trimmed_trim cs)
        ((comma_notMem_iff_of_padded hpadded).mp hcomma) hpadded

theorem PieceText.pieces (h : PieceText es cs) : Text.pieces ',' cs = [cs] := by
  have hpieces : Text.pieces ',' ([','].intercalate [cs]) = [cs] :=
    Text.pieces_intercalate (List.forall_mem_singleton.mpr (pieceText_iff.mp h).1) (by simp)
  rwa [List.intercalate_singleton] at hpieces

theorem ListText.leaves_pieces (h : ListText es cs) : leaves (Text.pieces ',' cs) = es := by
  induction h with
  | last h => rw [h.pieces, (pieceText_iff.mp h).2]
  | more h _ ih =>
      rw [Text.pieces_append, leaves_append, h.pieces, (pieceText_iff.mp h).2, ih]

theorem listText_intercalate {ps : List (List Char)} (hcomma : ∀ p ∈ ps, ',' ∉ p) (hne : ps ≠ []) :
    ListText (leaves ps) ([','].intercalate ps) := by
  induction ps with
  | nil => exact absurd rfl hne
  | cons p ps ih =>
      obtain ⟨hp, hps⟩ := List.forall_mem_cons.mp hcomma
      have hpiece : PieceText (leaves [p]) p := pieceText_iff.mpr ⟨hp, rfl⟩
      cases ps with
      | nil => simpa using ListText.last hpiece
      | cons q ps =>
          rw [← List.singleton_append, leaves_append]
          simpa using ListText.more hpiece (ih hps (by simp))

/-- Each text is a list in one way, and its entries are those that are read. -/
theorem listText_iff : ListText es cs ↔ entries (String.ofList cs) = es := by
  have hentries : entries (String.ofList cs) = leaves (Text.pieces ',' cs) := by
    rw [entries, String.toList_ofList, leaves]
  rw [hentries]
  constructor
  · exact ListText.leaves_pieces
  · rintro rfl
    have hlist : [','].intercalate (Text.pieces ',' cs) = cs := by
      rw [Text.pieces_eq_splitOn, List.intercalate_splitOn]
    have htext := listText_intercalate (fun _ => Text.notMem_of_mem_pieces)
      (Text.pieces_ne_nil ',' cs)
    rwa [hlist] at htext

end TerminalGateway.Net
