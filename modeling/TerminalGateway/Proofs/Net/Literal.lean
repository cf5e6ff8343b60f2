import TerminalGateway.Net.Subnet
import TerminalGateway.Proofs.Text.Split

/-!
Hosts that are addresses. The text of an address holds digits, points and colons only, so it can
be told from a host whether brackets were taken off before an address was found in it.
-/

namespace TerminalGateway.Net

def isAddressChar (c : Char) : Bool := (Numeral.digit? 16 c).isSome || c = '.' || c = ':'

/-- A reader came from `cs` to `rest` over characters of an address. -/
def Reads (cs rest : List Char) : Prop :=
  ∃ front, cs = front ++ rest ∧ front.all isAddressChar = true

theorem Reads.refl (cs : List Char) : Reads cs cs := ⟨[], rfl, rfl⟩

theorem Reads.trans {cs mid rest : List Char} (h : Reads cs mid) (h' : Reads mid rest) :
    Reads cs rest := by
  obtain ⟨front, rfl, hf⟩ := h
  obtain ⟨front', rfl, hf'⟩ := h'
  exact ⟨front ++ front', by simp, by simp only [List.all_append, hf, hf', Bool.and_self]⟩

theorem isSome_digit?_sixteen {base : Nat} {c : Char}
    (h : (Numeral.digit? base c).isSome = true) : (Numeral.digit? 16 c).isSome = true := by
  simp only [Numeral.digit?] at h ⊢
  grind

theorem reads_of_number? {base width limit n : Nat} {zeros : Bool} {cs rest : List Char}
    (h : number? base width limit zeros cs = some (n, rest)) : Reads cs rest := by
  have hdigits : ∀ c ∈ cs.takeWhile (fun c => (Numeral.digit? base c).isSome),
      (Numeral.digit? base c).isSome = true := List.all_eq_true.mp List.all_takeWhile
  obtain ⟨after, hcs⟩ := List.takeWhile_prefix (fun c => (Numeral.digit? base c).isSome) (l := cs)
  simp only [number?] at h
  generalize cs.takeWhile (fun c => (Numeral.digit? base c).isSome) = ds at hdigits hcs h
  subst hcs
  refine ⟨ds, ?_, List.all_eq_true.mpr fun c hc => ?_⟩
  · split at h
    · simp at h
    · split at h
      · simp at h
      · obtain ⟨-, rfl⟩ := Prod.mk.inj (Option.some.inj h)
        rw [List.drop_left]
  · simp [isAddressChar, isSome_digit?_sixteen (hdigits c hc)]

theorem reads_of_after? {x : Char} {cs rest : List Char} (hx : isAddressChar x = true)
    (h : after? x cs = some rest) : Reads cs rest := by
  cases cs with
  | nil => simp [after?] at h
  | cons c cs =>
      obtain ⟨rfl, rfl⟩ : c = x ∧ cs = rest := by simpa [after?] using h
      exact ⟨[c], rfl, by simp [hx]⟩

theorem reads_of_quad? {l : Leniency} {n : Nat} {cs rest : List Char}
    (h : quad? l cs = some (n, rest)) : Reads cs rest := by
  have hp : ∀ {cs rest : List Char}, after? '.' cs = some rest → Reads cs rest :=
    fun h => reads_of_after? rfl h
  simp only [quad?, Option.bind_eq_bind, Option.bind_eq_some_iff, Option.pure_def,
    Option.some.injEq, Prod.mk.injEq, Prod.exists] at h
  obtain ⟨a, r₁, h₁, r₂, h₂, b, r₃, h₃, r₄, h₄, c, r₅, h₅, r₆, h₆, d, r₇, h₇, -, rfl⟩ := h
  exact (reads_of_number? h₁).trans ((hp h₂).trans ((reads_of_number? h₃).trans ((hp h₄).trans
    ((reads_of_number? h₅).trans ((hp h₆).trans (reads_of_number? h₇))))))

theorem reads_groups (l : Leniency) (most : Nat) (isFirst : Bool) (cs : List Char) :
    Reads cs (groups l most isFirst cs).rest := by
  induction most generalizing isFirst cs with
  | zero => exact .refl cs
  | succ most ih =>
      unfold groups
      split
      · exact .refl cs
      · rename_i r hr
        have hfirst : Reads cs r := by
          cases isFirst with
          | true =>
              obtain rfl : cs = r := by simpa using hr
              exact .refl cs
          | false => exact reads_of_after? rfl (by simpa using hr)
        split
        · rename_i q r' hq
          have hq : quad? l r = some (q, r') := by
            split at hq
            · exact hq
            · simp at hq
          exact hfirst.trans (reads_of_quad? hq)
        · split
          · exact .refl cs
          · rename_i g r' hg
            exact hfirst.trans ((reads_of_number? hg).trans (ih false r'))

theorem reads_of_eight? {l : Leniency} {gs : List Nat} {cs rest : List Char}
    (h : eight? l cs = some (gs, rest)) : Reads cs rest := by
  have hfront := reads_groups l 8 true cs
  simp only [eight?] at h
  split at h
  · obtain ⟨-, rfl⟩ := Prod.mk.inj (Option.some.inj h)
    exact hfront
  · split at h
    · simp at h
    · simp only [Option.bind_eq_bind, Option.bind_eq_some_iff, Option.pure_def,
        Option.some.injEq, Prod.mk.injEq] at h
      obtain ⟨r₁, h₁, r₂, h₂, -, rfl⟩ := h
      exact hfront.trans ((reads_of_after? rfl h₁).trans ((reads_of_after? rfl h₂).trans
        (reads_groups l _ true r₂)))

theorem all_isAddressChar {cs : List Char} {a : Address} (h : Address.ofText? cs = some a) :
    cs.all isAddressChar = true := by
  have hread : Reads cs [] := by
    unfold Address.ofText? at h
    split at h
    · rename_i n rest hq
      cases rest with
      | nil => exact reads_of_quad? hq
      | cons c rest => simp at h
    · split at h
      · rename_i gs rest he
        cases rest with
        | nil => exact reads_of_eight? he
        | cons c rest => simp at h
      · simp at h
  obtain ⟨front, rfl, hf⟩ := hread
  simpa using hf

theorem notMem_of_ofText? {cs : List Char} {a : Address} (h : Address.ofText? cs = some a)
    {c : Char} (hc : isAddressChar c = false) : c ∉ cs := by
  intro hm
  have ht := List.all_eq_true.mp (all_isAddressChar h) c hm
  simp [hc] at ht

theorem ne_nil_of_ofText? {cs : List Char} {a : Address} (h : Address.ofText? cs = some a) :
    cs ≠ [] := by
  rintro rfl
  have hnil : Address.ofText? [] = none := by decide
  simp [hnil] at h

/-- A text with so many opening and closing brackets around it. -/
def bracketed (opening closing : Nat) (cs : List Char) : List Char :=
  List.replicate opening '[' ++ cs ++ List.replicate closing ']'

theorem bracketed_succ (m n : Nat) (cs : List Char) :
    bracketed (m + 1) (n + 1) cs = '[' :: (bracketed m n cs ++ [']']) := by
  rw [bracketed, List.replicate_succ, List.replicate_succ' (n := n)]
  simp [bracketed]

theorem ofText?_bracketed {cs : List Char} {a : Address} (h : Address.ofText? cs = some a)
    (m n : Nat) :
    Address.ofText? (bracketed m n cs) = if m = 0 ∧ n = 0 then some a else none := by
  split
  · rename_i hmn
    simpa [bracketed, hmn.1, hmn.2] using h
  · rename_i hmn
    cases hb : Address.ofText? (bracketed m n cs) with
    | none => rfl
    | some b =>
        have hopen := notMem_of_ofText? hb (c := '[') (by decide)
        have hclose := notMem_of_ofText? hb (c := ']') (by decide)
        simp only [bracketed, List.mem_append, List.mem_replicate, and_true, not_or] at hopen hclose
        exact absurd ⟨by simpa using hopen.1.1, by simpa using hclose.2⟩ hmn

theorem exists_replicate_append_dropWhile (x : Char) (cs : List Char) :
    ∃ n, cs = List.replicate n x ++ cs.dropWhile (· = x) := by
  obtain ⟨run, hcs, hrun, -⟩ := Text.exists_run (· = x) cs
  have hall : ∀ c ∈ run, c = x := fun c hc => by simpa using hrun c hc
  exact ⟨run.length, by rw [← List.eq_replicate_of_mem hall, ← hcs]⟩

theorem dropWhile_replicate_append {x : Char} {cs : List Char} (h : x ∉ cs) (n : Nat) :
    (List.replicate n x ++ cs).dropWhile (· = x) = cs := by
  refine Text.dropWhile_run (by simp) fun c hc => ?_
  have hne : c ≠ x := fun heq => h (heq ▸ List.mem_of_mem_head? hc)
  simpa using hne

theorem exists_bracketed (cs : List Char) :
    ∃ m n, cs = bracketed m n
      (((cs.dropWhile (· = '[')).reverse.dropWhile (· = ']')).reverse) := by
  obtain ⟨m, hm⟩ := exists_replicate_append_dropWhile '[' cs
  obtain ⟨n, hn⟩ := exists_replicate_append_dropWhile ']' (cs.dropWhile (· = '[')).reverse
  refine ⟨m, n, ?_⟩
  have hr := congrArg List.reverse hn
  rw [List.reverse_reverse, List.reverse_append, List.reverse_replicate] at hr
  rw [bracketed, List.append_assoc, ← hr]
  exact hm

/-- The check of a target takes a host for an address whatever brackets stand around it. -/
theorem literal?_eq_some_iff {host : String} {a : Address} : literal? host = some a ↔
    ∃ m n t, host.toList = bracketed m n t ∧ Address.ofText? t = some a := by
  constructor
  · intro h
    obtain ⟨m, n, hcs⟩ := exists_bracketed host.toList
    exact ⟨m, n, _, hcs, h⟩
  · rintro ⟨m, n, t, hcs, ht⟩
    have hopen : '[' ∉ t ++ List.replicate n ']' := by
      simp [notMem_of_ofText? ht (c := '[') (by decide)]
    have hclose : ']' ∉ t.reverse := by
      simpa using notMem_of_ofText? ht (c := ']') (by decide)
    have hfront : host.toList.dropWhile (· = '[') = t ++ List.replicate n ']' := by
      rw [hcs, bracketed, List.append_assoc]
      exact dropWhile_replicate_append hopen m
    have hback : (t ++ List.replicate n ']').reverse.dropWhile (· = ']') = t.reverse := by
      rw [List.reverse_append, List.reverse_replicate]
      exact dropWhile_replicate_append hclose n
    simp only [literal?, hfront, hback, List.reverse_reverse, ht]

theorem judge_one_eq_ok_iff {nets : List Subnet} {host : String} {a : Address} :
    judge nets host (.ok [a]) = .ok () ↔ ∃ net ∈ nets, net.contains a = true := by
  cases hc : nets.any fun net => net.contains a with
  | true => simp_all [judge]
  | false => simp_all [judge]

end TerminalGateway.Net
