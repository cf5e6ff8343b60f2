import TerminalGateway.Text.Fold
import TerminalGateway.Text.Split

/-!
Searching text for words of ASCII letters. The small forms of letters may depend on what stands
around them, as that of a capital sigma does. No search for an ASCII word can tell such a rule from
the small forms of single characters.
-/

namespace TerminalGateway.Text

variable {w as bs cs xs : List Char}

theorem occursIn_eq_true_iff : occursIn w cs = true ↔ w <:+: cs := by
  induction cs with
  | nil => simp [occursIn]
  | cons c cs ih => simp [occursIn, ih, List.infix_cons_iff]

/-- What occurs in a text occurs in every text around it, in letters of any case. -/
theorem infix_fold_append (h : w <:+: fold cs) (before after : List Char) :
    w <:+: fold (before ++ cs ++ after) := by
  rw [fold_append, fold_append]
  exact h.trans (List.infix_append _ _ _)

/-! ### Rules that look at the text around a character -/

def IsAscii (c : Char) : Prop := c.toNat < 0x80

/-- The small forms of all characters by a rule that is told what stands before and after each. -/
def lowerBy (rule : List Char → Char → List Char → List Char) (before : List Char) :
    List Char → List Char
  | [] => []
  | c :: cs => rule before c cs ++ lowerBy rule (before ++ [c]) cs

/-- A rule for small letters as Unicode has it. A character with ASCII in its small form has that
one everywhere; any other has some form without ASCII, which may depend on where it stands. -/
structure IsCaseRule (rule : List Char → Char → List Char → List Char) : Prop where
  plain : ∀ before c after, (∃ x ∈ smallForm c, IsAscii x) → rule before c after = smallForm c
  filled : ∀ before c after, rule before c after ≠ []
  apart : ∀ before c after, (∀ x ∈ smallForm c, ¬ IsAscii x) →
    ∀ x ∈ rule before c after, ¬ IsAscii x

/-- Texts that are the same but for what stands in stretches without ASCII. -/
inductive AsciiAlike : List Char → List Char → Prop
  | nil : AsciiAlike [] []
  | same (c : Char) {as bs : List Char} (h : AsciiAlike as bs) : AsciiAlike (c :: as) (c :: bs)
  | apart {xs ys as bs : List Char} (hxs : xs ≠ []) (hys : ys ≠ []) (hx : ∀ x ∈ xs, ¬ IsAscii x)
      (hy : ∀ y ∈ ys, ¬ IsAscii y) (h : AsciiAlike as bs) : AsciiAlike (xs ++ as) (ys ++ bs)

namespace AsciiAlike

theorem append (xs : List Char) (h : AsciiAlike as bs) : AsciiAlike (xs ++ as) (xs ++ bs) := by
  induction xs with
  | nil => exact h
  | cons x xs ih => exact .same x ih

theorem symm (h : AsciiAlike as bs) : AsciiAlike bs as := by
  induction h with
  | nil => exact .nil
  | same c _ ih => exact .same c ih
  | apart hxs hys hx hy _ ih => exact .apart hys hxs hy hx ih

theorem isPrefix (h : AsciiAlike as bs) (hw : ∀ c ∈ w, IsAscii c) (hp : w <+: as) : w <+: bs := by
  induction h generalizing w with
  | nil => exact hp
  | same c _ ih =>
      cases w with
      | nil => exact List.nil_prefix
      | cons d w =>
          obtain ⟨rfl, htail⟩ := List.cons_prefix_cons.mp hp
          exact List.cons_prefix_cons.mpr ⟨rfl, ih (fun c hc => hw c (.tail _ hc)) htail⟩
  | @apart xs _ _ _ hxs _ hx _ _ _ =>
      cases w with
      | nil => exact List.nil_prefix
      | cons d w =>
          obtain ⟨x, xs, rfl⟩ := List.exists_cons_of_ne_nil hxs
          obtain ⟨rfl, -⟩ := List.cons_prefix_cons.mp hp
          exact absurd (hw d (.head _)) (hx d (.head _))

theorem isInfix_of_apart (hne : w ≠ []) (hw : ∀ c ∈ w, IsAscii c) (hx : ∀ x ∈ xs, ¬ IsAscii x)
    (h : w <:+: xs ++ as) : w <:+: as := by
  induction xs with
  | nil => exact h
  | cons x xs ih =>
      obtain ⟨hhead, htail⟩ := List.forall_mem_cons.mp hx
      rcases List.infix_cons_iff.mp h with hp | h
      · obtain ⟨d, w, rfl⟩ := List.exists_cons_of_ne_nil hne
        obtain ⟨rfl, -⟩ := List.cons_prefix_cons.mp hp
        exact absurd (hw d (.head _)) hhead
      · exact ih htail h

theorem isInfix (h : AsciiAlike as bs) (hne : w ≠ []) (hw : ∀ c ∈ w, IsAscii c)
    (hi : w <:+: as) : w <:+: bs := by
  induction h with
  | nil => exact hi
  | same c h ih =>
      rcases List.infix_cons_iff.mp hi with hp | hi
      · exact ((AsciiAlike.same c h).isPrefix hw hp).isInfix
      · exact List.infix_cons (ih hi)
  | apart _ _ hx _ _ ih =>
      exact List.infix_append_of_infix_right (ih (isInfix_of_apart hne hw hx hi))

end AsciiAlike

theorem IsCaseRule.asciiAlike {rule : List Char → Char → List Char → List Char}
    (h : IsCaseRule rule) (before cs : List Char) :
    AsciiAlike (lowerBy rule before cs) (fold cs) := by
  induction cs generalizing before with
  | nil => exact .nil
  | cons c cs ih =>
      change AsciiAlike (rule before c cs ++ _) (smallForm c ++ fold cs)
      by_cases hc : ∃ x ∈ smallForm c, IsAscii x
      · rw [h.plain before c cs hc]
        exact (ih _).append _
      · have hnone : ∀ x ∈ smallForm c, ¬ IsAscii x := fun x hx ha => hc ⟨x, hx, ha⟩
        refine .apart (h.filled before c cs) ?_ (h.apart before c cs hnone) hnone (ih _)
        unfold smallForm
        repeat' split
        all_goals simp

/-- A search for an ASCII word finds the same by any such rule. -/
theorem IsCaseRule.occursIn_lowerBy {rule : List Char → Char → List Char → List Char}
    (h : IsCaseRule rule) (hne : w ≠ []) (hw : ∀ c ∈ w, IsAscii c) (cs : List Char) :
    occursIn w (lowerBy rule [] cs) = occursIn w (fold cs) := by
  have halike := h.asciiAlike [] cs
  rw [Bool.eq_iff_iff, occursIn_eq_true_iff, occursIn_eq_true_iff]
  exact ⟨halike.isInfix hne hw, halike.symm.isInfix hne hw⟩

/-- The small form of a capital sigma is another one at the end of a word. -/
def finalSigma (before : List Char) (c : Char) (after : List Char) : List Char :=
  if c = 'Σ' then
    if before.getLast?.any Char.isAlpha && !after.head?.any Char.isAlpha then ['ς'] else ['σ']
  else smallForm c

theorem isCaseRule_finalSigma : IsCaseRule finalSigma where
  plain before c after h := by
    by_cases hc : c = 'Σ'
    · subst hc
      simp [smallForm, IsAscii] at h
    · exact if_neg hc
  filled before c after := by
    unfold finalSigma smallForm
    repeat' split
    all_goals simp
  apart before c after h := by
    by_cases hc : c = 'Σ'
    · subst hc
      rw [finalSigma, if_pos rfl]
      split <;> simp [IsAscii]
    · rwa [finalSigma, if_neg hc]

end TerminalGateway.Text
