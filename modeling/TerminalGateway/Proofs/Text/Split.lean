import Mathlib.Data.List.TakeWhile
import TerminalGateway.Text.Blank
import TerminalGateway.Text.Split

/-!
Cutting and trimming as equations of the text: where a run of characters ends, what stands between
the separators, what stands before and after the first and the last of them, and what is left of a
text without the blanks at its ends.
-/

namespace TerminalGateway.Text

/-! ### Where a run ends -/

section Run

variable {α : Type} {p : α → Bool} {run rest : List α} (hrun : ∀ x ∈ run, p x = true)
  (hend : ∀ x ∈ rest.head?, p x = false)
include hrun hend

theorem takeWhile_run : (run ++ rest).takeWhile p = run := by
  rw [List.takeWhile_append_of_pos hrun]
  cases rest with
  | nil => simp
  | cons x rest => simp [hend x rfl]

theorem dropWhile_run : (run ++ rest).dropWhile p = rest := by
  rw [List.dropWhile_append_of_pos hrun]
  cases rest with
  | nil => rfl
  | cons x rest => simp [hend x rfl]

end Run

theorem exists_run {α : Type} (p : α → Bool) (l : List α) :
    ∃ run, l = run ++ l.dropWhile p ∧ (∀ x ∈ run, p x = true) ∧
      ∀ x ∈ (l.dropWhile p).head?, p x = false := by
  refine ⟨_, List.takeWhile_append_dropWhile.symm, List.all_eq_true.mp List.all_takeWhile, ?_⟩
  intro x hx
  have hnot := List.head?_dropWhile_not p l
  rwa [Option.mem_def.mp hx] at hnot

variable {separator : Char} {as bs cs : List Char}

/-! ### Separators -/

/-- The pieces of a text have its characters but for the separators. -/
theorem forall_pieces {p : Char → Prop} :
    (∀ piece ∈ pieces separator cs, ∀ c ∈ piece, p c) ↔ ∀ c ∈ cs, c = separator ∨ p c := by
  induction cs with
  | nil => simp [pieces]
  | cons c cs ih =>
      rw [List.forall_mem_cons, ← ih, pieces]
      by_cases hc : c = separator
      · simp [hc]
      · cases hp : pieces separator cs with
        | nil => exact absurd hp (pieces_ne_nil separator cs)
        | cons piece rest => simp [hc, and_assoc]

theorem notMem_of_mem_pieces {piece : List Char} (h : piece ∈ pieces separator cs) :
    separator ∉ piece := by
  have hall : ∀ piece ∈ pieces separator cs, ∀ c ∈ piece, c ≠ separator :=
    forall_pieces.mpr fun c _ => em (c = separator)
  exact fun hm => hall piece h separator hm rfl

theorem pieces_eq_splitOn (separator : Char) (cs : List Char) :
    pieces separator cs = cs.splitOn separator := by
  induction cs with
  | nil => rfl
  | cons c cs ih =>
      rw [pieces, ih, List.splitOn_cons_eq_if_modifyHead]
      by_cases h : c = separator
      · simp [h]
      · cases hs : cs.splitOn separator with
        | nil => exact absurd (ih.trans hs) (pieces_ne_nil separator cs)
        | cons p ps => simp [h]

theorem pieces_append (separator : Char) (as bs : List Char) :
    pieces separator (as ++ separator :: bs) = pieces separator as ++ pieces separator bs := by
  simp only [pieces_eq_splitOn, List.splitOn_append_cons_self]

theorem pieces_intercalate {ps : List (List Char)} (h : ∀ p ∈ ps, separator ∉ p) (hne : ps ≠ []) :
    pieces separator ([separator].intercalate ps) = ps :=
  (pieces_eq_splitOn _ _).trans (List.splitOn_intercalate separator h hne)

/-- A text is cut at the first separator in it. -/
theorem cut?_eq_some_iff :
    cut? separator cs = some (as, bs) ↔ cs = as ++ separator :: bs ∧ separator ∉ as := by
  induction cs generalizing as with
  | nil => simp [cut?]
  | cons c cs ih =>
      rw [cut?]
      by_cases hc : c = separator
      · subst hc
        cases as with
        | nil => simp [eq_comm]
        | cons a as => simp +contextual
      · have hne : separator ≠ c := Ne.symm hc
        cases as with
        | nil => simp [hc]
        | cons a as =>
            simp only [if_neg hc, Option.map_eq_some_iff, Prod.exists, Prod.mk.injEq,
              List.cons.injEq, List.cons_append, List.mem_cons, not_or]
            constructor
            · rintro ⟨as', bs', hcut, ⟨rfl, rfl⟩, rfl⟩
              exact ⟨⟨rfl, (ih.mp hcut).1⟩, hne, (ih.mp hcut).2⟩
            · rintro ⟨⟨rfl, rfl⟩, -, hnot⟩
              exact ⟨as, bs, ih.mpr ⟨rfl, hnot⟩, ⟨rfl, rfl⟩, rfl⟩

theorem cut?_eq_none_iff : cut? separator cs = none ↔ separator ∉ cs := by
  induction cs with
  | nil => simp [cut?]
  | cons c cs ih =>
      by_cases hc : c = separator
      · simp [cut?, hc]
      · simp [cut?, hc, ih, Ne.symm hc]

/-- Two texts that are the same have their last separator at the same place. -/
theorem split_last_unique {as' bs' : List Char} (hb : separator ∉ bs) (hb' : separator ∉ bs')
    (h : as ++ separator :: bs = as' ++ separator :: bs') : as = as' ∧ bs = bs' := by
  -- read from its end, each text is cut at its first separator
  have hcut : ∀ front {back}, separator ∉ back →
      cut? separator (front ++ separator :: back).reverse = some (back.reverse, front.reverse) :=
    fun front back hback => cut?_eq_some_iff.mpr ⟨by simp, by simpa using hback⟩
  have hsame := hcut as' hb'
  rw [← h, hcut as hb] at hsame
  simp only [Option.some.injEq, Prod.mk.injEq, List.reverse_inj] at hsame
  exact hsame.symm

/-! ### Blanks -/

theorem dropWhile_blank :
    (∀ c ∈ cs.dropWhile isBlank, isBlank c = true) ↔ ∀ c ∈ cs, isBlank c = true := by
  induction cs with
  | nil => simp
  | cons c cs ih => cases h : isBlank c <;> simp [h, ih]

theorem trimEnd_eq_nil_iff : trimEnd cs = [] ↔ ∀ c ∈ cs, isBlank c = true := by
  rw [trimEnd, List.reverse_eq_nil_iff, List.dropWhile_eq_nil_iff]
  simp

theorem trim_eq_nil_iff : trim cs = [] ↔ ∀ c ∈ cs, isBlank c = true :=
  trimEnd_eq_nil_iff.trans dropWhile_blank

/-- A text that neither begins nor ends in a blank. -/
structure Trimmed (cs : List Char) : Prop where
  head : ∀ c ∈ cs.head?, isBlank c = false
  last : ∀ c ∈ cs.getLast?, isBlank c = false

theorem trimmed_of_forall (h : ∀ c ∈ cs, isBlank c = false) : Trimmed cs where
  head c hc := h c (List.mem_of_mem_head? hc)
  last c hc := h c (List.mem_of_mem_getLast? hc)

theorem trimEnd_append (hb : ∀ c ∈ bs, isBlank c = true)
    (ha : ∀ c ∈ as.getLast?, isBlank c = false) : trimEnd (as ++ bs) = as := by
  rw [trimEnd, List.reverse_append, dropWhile_run (by simpa using hb) (by simpa using ha),
    List.reverse_reverse]

theorem exists_append_blank (cs : List Char) :
    ∃ bs, (∀ c ∈ bs, isBlank c = true) ∧ cs = trimEnd cs ++ bs := by
  obtain ⟨as, hcs, ha, -⟩ := exists_run isBlank cs.reverse
  refine ⟨as.reverse, by simpa using ha, ?_⟩
  rw [trimEnd, ← List.reverse_append, ← hcs, List.reverse_reverse]

theorem head?_dropWhile_blank {c : Char} (h : c ∈ (cs.dropWhile isBlank).head?) :
    isBlank c = false := by
  obtain ⟨-, -, -, hend⟩ := exists_run isBlank cs
  exact hend c h

theorem trimmed_trim (cs : List Char) : Trimmed (trim cs) where
  head c hc := by
    obtain ⟨bs, -, hcs⟩ := exists_append_blank (cs.dropWhile isBlank)
    have hhead : (trim cs).head? = some c := hc
    have hmem : c ∈ (cs.dropWhile isBlank).head? := by
      rw [hcs, List.head?_append, ← trim, hhead]
      rfl
    exact head?_dropWhile_blank hmem
  last c hc := head?_dropWhile_blank (by simpa [trim, trimEnd] using hc)

theorem trim_eq_self_iff : trim cs = cs ↔ Trimmed cs := by
  constructor
  · exact fun h => h ▸ trimmed_trim cs
  · intro h
    have hfront : ([] ++ cs).dropWhile isBlank = cs := dropWhile_run (by simp) h.head
    have hback : trimEnd (cs ++ []) = cs := trimEnd_append (by simp) h.last
    rw [List.nil_append] at hfront
    rw [List.append_nil] at hback
    rw [trim, hfront, hback]

/-- A text with blanks before and after it, or with none. -/
def Padded (core cs : List Char) : Prop :=
  ∃ as bs, (∀ c ∈ as ++ bs, isBlank c = true) ∧ cs = as ++ core ++ bs

/-- What trimming takes off are blanks at the two ends. -/
theorem padded_trim (cs : List Char) : Padded (trim cs) cs := by
  obtain ⟨as, hcs, ha, -⟩ := exists_run isBlank cs
  obtain ⟨bs, hb, htail⟩ := exists_append_blank (cs.dropWhile isBlank)
  refine ⟨as, bs, fun c hc => ?_, ?_⟩
  · exact (List.mem_append.mp hc).elim (ha c) (hb c)
  · rw [List.append_assoc, trim, ← htail, ← hcs]

theorem Padded.trim {core : List Char} (h : Padded core cs) (hcore : Trimmed core) :
    trim cs = core := by
  obtain ⟨as, bs, hblank, rfl⟩ := h
  obtain ⟨ha, hb⟩ := List.forall_mem_append.mp hblank
  by_cases hne : core = []
  · subst hne
    exact trim_eq_nil_iff.mpr (by simpa using hblank)
  · have hfront : (as ++ (core ++ bs)).dropWhile isBlank = core ++ bs :=
      dropWhile_run ha (by simpa [hne] using hcore.head)
    rw [List.append_assoc, Text.trim, hfront, trimEnd_append hb hcore.last]

end TerminalGateway.Text
