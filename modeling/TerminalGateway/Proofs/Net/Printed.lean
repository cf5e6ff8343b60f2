import TerminalGateway.Proofs.Net.Spelling
import TerminalGateway.Proofs.Numeral.Digits

/-!
The text that is shown for an address is one of its texts: read back, it gives that address.
-/

namespace TerminalGateway.Net

theorem figures_digits {base width limit n w : Nat} (h2 : 2 ≤ base) (h16 : base ≤ 16)
    (hn : n < base ^ (w + 1)) (hw : w < width) (hl : n < limit) (zeros : Bool) :
    Figures base width limit zeros n (Numeral.digits base n) := by
  obtain ⟨c, cs, hcs, hzero⟩ := Numeral.digits_eq_cons h2 h16 n
  refine ⟨Numeral.isSome_digit?_of_mem_digits h2 h16, by simp [hcs],
    (Numeral.length_digits_le hn).trans hw, Numeral.value_digits h2 h16 n, hl, fun _ hlen hc => ?_⟩
  obtain rfl : c = '0' := by simpa [hcs] using hc
  obtain rfl := hzero rfl
  simp [Numeral.digits, Numeral.digitsWithin] at hlen

theorem quad_quadText (l : Leniency) (n : Nat) : Quad l (n % 2 ^ 32) (quadText n).toList := by
  have hoctet : ∀ m : Nat,
      Figures 10 3 256 l.leadingZeros (m % 256) (Numeral.digits 10 (m % 256)) :=
    fun m => figures_digits (w := 2) (by decide) (by decide) (by omega) (by decide) (by omega) _
  have hquad := Quad.mk (hoctet (n / 16777216)) (hoctet (n / 65536)) (hoctet (n / 256)) (hoctet n)
  have hvalue : ((n / 16777216 % 256 * 256 + n / 65536 % 256) * 256 + n / 256 % 256) * 256 +
      n % 256 = n % 2 ^ 32 := by omega
  rw [hvalue] at hquad
  simpa [quadText, Numeral.decimal] using hquad

theorem run_groupsText (l : Leniency) {gs : List Nat} (h : ∀ g ∈ gs, g < 65536) (hne : gs ≠ []) :
    Run l gs false (groupsText gs).toList := by
  induction gs with
  | nil => exact absurd rfl hne
  | cons g gs ih =>
      obtain ⟨hg, hgs⟩ := List.forall_mem_cons.mp h
      have hfig : Figures 16 4 65536 true g (Numeral.digits 16 g) :=
        figures_digits (w := 3) (by decide) (by decide) (by omega) (by decide) hg _
      cases gs with
      | nil => simpa [groupsText, Numeral.hexadecimal] using Run.last hfig
      | cons g' gs =>
          have hrun := Run.more hfig (ih hgs (by simp))
          simpa [groupsText, Numeral.hexadecimal] using hrun

theorem part_groupsText (l : Leniency) {gs : List Nat} (h : ∀ g ∈ gs, g < 65536) :
    Part l gs false (groupsText gs).toList := by
  by_cases hne : gs = []
  · subst hne
    exact .inl ⟨rfl, rfl, rfl⟩
  · exact .inr (run_groupsText l h hne)

/-! ### The gap -/

theorem replicate_zeros_prefix {gs : List Nat} {n : Nat} (h : n ≤ zeros gs) :
    List.replicate n 0 <+: gs := by
  have hzero : gs.takeWhile (· = 0) = List.replicate (zeros gs) 0 := by
    refine List.eq_replicate_of_mem fun g hg => ?_
    simpa using List.all_eq_true.mp List.all_takeWhile g hg
  have hprefix : List.replicate (zeros gs) 0 <+: gs := hzero ▸ List.takeWhile_prefix _
  exact (List.prefix_replicate_iff.mpr ⟨by simpa using h, by simp⟩).trans hprefix

/-- The gap that is left out is a run of zeros. -/
theorem longestGap_le (gs : List Nat) :
    (longestGap gs).2 ≤ zeros (gs.drop (longestGap gs).1) := by
  refine List.foldlRecOn (motive := fun best : Nat × Nat => best.2 ≤ zeros (gs.drop best.1)) _ _
    (Nat.zero_le _) fun best h i _ => ?_
  dsimp only
  split
  · exact Nat.le_refl _
  · exact h

theorem eq_append_longestGap (gs : List Nat) :
    gs = gs.take (longestGap gs).1 ++ List.replicate (longestGap gs).2 0 ++
      gs.drop ((longestGap gs).1 + (longestGap gs).2) := by
  obtain ⟨back, hback⟩ := replicate_zeros_prefix (longestGap_le gs)
  have hdrop : gs.drop ((longestGap gs).1 + (longestGap gs).2) = back := by
    rw [← List.drop_drop, ← hback, List.drop_left' (by simp)]
  rw [hdrop, List.append_assoc, hback, List.take_append_drop]

/-! ### Eight groups -/

theorem lt_of_mem_groupsOf {bits : BitVec 128} : ∀ g ∈ groupsOf bits, g < 65536 := by
  intro g hg
  obtain ⟨shift, -, rfl⟩ := List.mem_map.mp hg
  exact Nat.mod_lt _ (by decide)

theorem ofGroups_groupsOf (bits : BitVec 128) : ofGroups (groupsOf bits) = bits := by
  refine BitVec.eq_of_toNat_eq ?_
  have hlt := bits.isLt
  simp only [ofGroups, groupsOf, List.map_cons, List.map_nil, List.foldl_cons, List.foldl_nil,
    Nat.shiftRight_eq_div_pow, BitVec.toNat_ofNat]
  generalize bits.toNat = n at hlt
  omega

theorem eight_of_gap {gs : List Nat} (h : ∀ g ∈ gs, g < 65536) (hlen : gs.length = 8)
    (hgap : 1 < (longestGap gs).2) :
    Eight .plain gs (groupsText (gs.take (longestGap gs).1) ++ "::" ++
      groupsText (gs.drop ((longestGap gs).1 + (longestGap gs).2))).toList := by
  have hgs := eq_append_longestGap gs
  have hsum := congrArg List.length hgs
  rw [List.length_append, List.length_append, List.length_replicate, hlen] at hsum
  generalize gs.take (longestGap gs).1 = front at hgs hsum ⊢
  generalize gs.drop ((longestGap gs).1 + (longestGap gs).2) = back at hgs hsum ⊢
  have hfront := part_groupsText .plain fun g (hg : g ∈ front) => h g (by rw [hgs]; simp [hg])
  have hback := part_groupsText .plain fun g (hg : g ∈ back) => h g (by rw [hgs]; simp [hg])
  have height := Eight.gap hfront hback hsum.symm (by omega) (.inr (by omega))
  rw [← hgs] at height
  simpa using height

theorem eight_mapped {bits : BitVec 128} (h : bits.toNat >>> 32 = 0xffff) :
    ∃ gs, Eight .plain gs ("::ffff:" ++ quadText bits.toNat).toList ∧ ofGroups gs = bits := by
  have hfig : Figures 16 4 65536 true 0xffff "ffff".toList :=
    figures_digits (w := 3) (n := 0xffff) (by decide) (by decide) (by decide) (by decide)
      (by decide) _
  have hrun := Run.more hfig (.quad (quad_quadText .plain bits.toNat))
  have height : Eight .plain _ _ :=
    .gap (n := 5) (.inl ⟨rfl, rfl, rfl⟩) (.inr hrun) rfl (by decide) (.inr (by decide))
  refine ⟨_, by simpa using height, BitVec.eq_of_toNat_eq ?_⟩
  have hlt := bits.isLt
  rw [Nat.shiftRight_eq_div_pow] at h
  simp only [ofGroups, BitVec.toNat_ofNat]
  generalize bits.toNat = n at hlt h
  simp only [List.foldl_cons, List.foldl_nil]
  omega

/-- What is shown for an address is a text of it. -/
theorem addressText_text (a : Address) : AddressText .plain a a.text.toList := by
  cases a with
  | v4 bits =>
      have hmod : bits.toNat % 2 ^ 32 = bits.toNat := Nat.mod_eq_of_lt bits.isLt
      have htext := AddressText.v4 (quad_quadText .plain bits.toNat)
      rwa [hmod, BitVec.ofNat_toNat, BitVec.setWidth_eq] at htext
  | v6 bits =>
      rw [Address.text]
      split
      · rename_i h
        obtain ⟨gs, height, rfl⟩ := eight_mapped h
        exact .v6 height
      · have hlen : (groupsOf bits).length = 8 := rfl
        have hlt : ∀ g ∈ groupsOf bits, g < 65536 := lt_of_mem_groupsOf
        dsimp only
        split
        · have hrun := run_groupsText .plain hlt (by simp [groupsOf])
          have htext := AddressText.v6 (.full hrun hlen)
          rwa [ofGroups_groupsOf] at htext
        · rename_i hgap
          have htext := AddressText.v6 (eight_of_gap hlt hlen (Nat.lt_of_not_le hgap))
          rwa [ofGroups_groupsOf] at htext

end TerminalGateway.Net
