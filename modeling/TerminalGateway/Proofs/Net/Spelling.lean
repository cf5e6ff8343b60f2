import TerminalGateway.Proofs.Net.Literal

/-!
How addresses and networks can be written, and that just these texts are read. The reader takes as
many digits and as many groups as it finds, so what is written is followed by something that cannot
belong to it.
-/

namespace TerminalGateway.Net

variable {base width limit n : Nat} {zeros : Bool} {l : Leniency} {cs rest : List Char}

/-! ### Numbers -/

/-- A number below a limit in at most so many digits of a base. -/
structure Figures (base width limit : Nat) (zeros : Bool) (n : Nat) (ds : List Char) : Prop where
  digits : ∀ c ∈ ds, (Numeral.digit? base c).isSome = true
  filled : ds ≠ []
  short : ds.length ≤ width
  value : Numeral.value base ds = n
  below : n < limit
  plain : zeros = false → 1 < ds.length → ds.head? ≠ some '0'

/-- What follows does not go on with a digit. -/
def Apart (base : Nat) (rest : List Char) : Prop :=
  ∀ c ∈ rest.head?, (Numeral.digit? base c).isSome = false

theorem exists_digits_append (base : Nat) (cs : List Char) :
    ∃ ds rest, cs = ds ++ rest ∧ (∀ c ∈ ds, (Numeral.digit? base c).isSome = true) ∧
      Apart base rest := by
  obtain ⟨ds, hcs, hds, hr⟩ := Text.exists_run (fun c => (Numeral.digit? base c).isSome) cs
  exact ⟨ds, _, hcs, hds, hr⟩

theorem number?_append {ds : List Char} (h : ∀ c ∈ ds, (Numeral.digit? base c).isSome = true)
    (hr : Apart base rest) :
    number? base width limit zeros (ds ++ rest) =
      if ds.isEmpty || width < ds.length || limit ≤ Numeral.value base ds then none
      else if !zeros && 1 < ds.length && ds.head? = some '0' then none
      else some (Numeral.value base ds, rest) := by
  have htake : (ds ++ rest).takeWhile (fun c => (Numeral.digit? base c).isSome) = ds :=
    Text.takeWhile_run h hr
  simp only [number?, htake, List.drop_left]

theorem number?_eq_some_iff : number? base width limit zeros cs = some (n, rest) ↔
    ∃ ds, cs = ds ++ rest ∧ Figures base width limit zeros n ds ∧ Apart base rest := by
  constructor
  · intro h
    obtain ⟨ds, rest', rfl, hds, hr⟩ := exists_digits_append base cs
    rw [number?_append hds hr] at h
    split at h
    · cases h
    · rename_i hsize
      split at h
      · cases h
      · rename_i hplain
        obtain ⟨rfl, rfl⟩ := Prod.mk.inj (Option.some.inj h)
        simp only [Bool.or_eq_true, decide_eq_true_eq, not_or, List.isEmpty_iff] at hsize
        simp only [Bool.and_eq_true, Bool.not_eq_true', decide_eq_true_eq, not_and] at hplain
        exact ⟨ds, rfl, ⟨hds, hsize.1.1, Nat.le_of_not_lt hsize.1.2, rfl,
          Nat.lt_of_not_le hsize.2, fun hz hl => hplain ⟨hz, hl⟩⟩, hr⟩
  · rintro ⟨ds, rfl, ⟨hdigits, hfilled, hshort, rfl, hbelow, hplain⟩, hr⟩
    have hsize : ¬ (ds.isEmpty || width < ds.length || limit ≤ Numeral.value base ds) = true := by
      simp [hfilled, hshort, hbelow]
    have hzero : ¬ (!zeros && 1 < ds.length && ds.head? = some '0') = true := by
      simpa using hplain
    rw [number?_append hdigits hr, if_neg hsize, if_neg hzero]

theorem number?_of_figures {ds : List Char} (h : Figures base width limit zeros n ds)
    (hr : Apart base rest) : number? base width limit zeros (ds ++ rest) = some (n, rest) :=
  number?_eq_some_iff.mpr ⟨ds, rfl, h, hr⟩

/-! ### Four octets -/

/-- Four octets with points between them. -/
inductive Quad (l : Leniency) : Nat → List Char → Prop
  | mk {a b c d : Nat} {as bs cs ds : List Char}
      (ha : Figures 10 3 256 l.leadingZeros a as) (hb : Figures 10 3 256 l.leadingZeros b bs)
      (hc : Figures 10 3 256 l.leadingZeros c cs) (hd : Figures 10 3 256 l.leadingZeros d ds) :
      Quad l (((a * 256 + b) * 256 + c) * 256 + d)
        (as ++ '.' :: (bs ++ '.' :: (cs ++ '.' :: ds)))

theorem after?_eq_some_iff {x : Char} : after? x cs = some rest ↔ cs = x :: rest := by
  cases cs with
  | nil => simp [after?]
  | cons c cs => simp [after?]

theorem apart_cons {c : Char} (h : (Numeral.digit? base c).isSome = false) (rest : List Char) :
    Apart base (c :: rest) := by
  rintro _ ⟨⟩
  exact h

theorem quad?_eq_some_iff :
    quad? l cs = some (n, rest) ↔ ∃ t, cs = t ++ rest ∧ Quad l n t ∧ Apart 10 rest := by
  constructor
  · intro h
    simp only [quad?, Option.bind_eq_bind, Option.bind_eq_some_iff, Option.pure_def,
      Option.some.injEq, Prod.mk.injEq, Prod.exists, after?_eq_some_iff, number?_eq_some_iff] at h
    obtain ⟨a, _, ⟨as, rfl, ha, -⟩, _, rfl, b, _, ⟨bs, rfl, hb, -⟩, _, rfl, c, _,
      ⟨cs, rfl, hc, -⟩, _, rfl, d, _, ⟨ds, rfl, hd, hr⟩, rfl, rfl⟩ := h
    exact ⟨_, by simp, .mk ha hb hc hd, hr⟩
  · rintro ⟨_, rfl, ⟨ha, hb, hc, hd⟩, hr⟩
    have hpoint : ∀ rest, Apart 10 ('.' :: rest) := apart_cons (by decide)
    simp [quad?, after?, number?_of_figures ha (hpoint _), number?_of_figures hb (hpoint _),
      number?_of_figures hc (hpoint _), number?_of_figures hd hr]

/-! ### Groups -/

/-- Groups with colons between them, and whether the last two are written as four octets. -/
inductive Run (l : Leniency) : List Nat → Bool → List Char → Prop
  | last {g : Nat} {t : List Char} (h : Figures 16 4 65536 true g t) : Run l [g] false t
  | quad {n : Nat} {t : List Char} (h : Quad l n t) : Run l [n / 65536, n % 65536] true t
  | more {g : Nat} {gs : List Nat} {q : Bool} {t ts : List Char}
      (h : Figures 16 4 65536 true g t) (hr : Run l gs q ts) :
      Run l (g :: gs) q (t ++ ':' :: ts)

/-- What can follow a group. -/
def EndsGroup (rest : List Char) : Prop := ∀ c ∈ rest.head?, c = ':' ∨ c = '/'

/-- What can follow the last group. -/
def EndsRun (rest : List Char) : Prop :=
  rest = [] ∨ (∃ r, rest = '/' :: r) ∨ ∃ r, rest = ':' :: ':' :: r

theorem EndsGroup.apart (h : EndsGroup rest) (hb : base ≤ 16) : Apart base rest := by
  intro c hc
  have hdigit : ∀ b ≤ 16, (Numeral.digit? b ':').isSome = false ∧
      (Numeral.digit? b '/').isSome = false := by decide
  rcases h c hc with rfl | rfl
  · exact (hdigit base hb).1
  · exact (hdigit base hb).2

theorem EndsRun.endsGroup (h : EndsRun rest) : EndsGroup rest := by
  rcases h with rfl | ⟨r, rfl⟩ | ⟨r, rfl⟩ <;> simp [EndsGroup]

theorem Quad.exists_point (h : Quad l n cs) : ∃ as bs, cs = as ++ '.' :: bs ∧
    ∀ c ∈ as, (Numeral.digit? 10 c).isSome = true := by
  obtain ⟨ha, -, -, -⟩ := h
  exact ⟨_, _, rfl, ha.digits⟩

theorem quad?_eq_none {ds : List Char} (hds : ∀ c ∈ ds, (Numeral.digit? 16 c).isSome = true)
    (hr : EndsGroup rest) : quad? l (ds ++ rest) = none := by
  rw [Option.eq_none_iff_forall_not_mem]
  rintro ⟨n, r⟩ hq
  obtain ⟨t, ht, hquad, -⟩ := quad?_eq_some_iff.mp hq
  obtain ⟨as, bs, rfl, has⟩ := hquad.exists_point
  rw [List.append_assoc, List.cons_append] at ht
  rcases List.append_eq_append_iff.mp ht with ⟨x, rfl, hx⟩ | ⟨x, rfl, hx⟩
  · cases x with
    | nil => simp [hx, EndsGroup] at hr
    | cons c x =>
        have hapart : Apart 10 rest := hr.apart (by decide)
        have hc := hapart c (by simp [hx])
        rw [has c (by simp)] at hc
        cases hc
  · cases x with
    | nil => simp [← show _ = rest from hx, EndsGroup] at hr
    | cons c x =>
        obtain ⟨rfl, -⟩ := List.cons.inj hx
        exact absurd (hds '.' (by simp)) (by decide)

/-- The colon before a group that is not the first one. -/
def lead (isFirst : Bool) : List Char := if isFirst then [] else [':']

theorem groups_lead (most : Nat) (isFirst : Bool) (r : List Char) :
    groups l (most + 1) isFirst (lead isFirst ++ r) =
      match if 1 ≤ most then quad? l r else none with
      | some (q, r) => ⟨[q / 65536, q % 65536], true, r⟩
      | none =>
          match number? 16 4 65536 true r with
          | none => ⟨[], false, lead isFirst ++ r⟩
          | some (g, r) =>
              let more := groups l most false r
              ⟨g :: more.values, more.endsInQuad, more.rest⟩ := by
  cases isFirst <;> rfl

theorem groups_of_figures {g : Nat} {t : List Char} (h : Figures 16 4 65536 true g t)
    (hr : EndsGroup rest) (most : Nat) (isFirst : Bool) :
    groups l (most + 1) isFirst (lead isFirst ++ (t ++ rest)) =
      ⟨g :: (groups l most false rest).values, (groups l most false rest).endsInQuad,
        (groups l most false rest).rest⟩ := by
  rw [groups_lead, quad?_eq_none h.digits hr, ite_self,
    number?_of_figures h (hr.apart (by decide))]

theorem groups_eq_nil (h : EndsGroup rest) (most : Nat) (isFirst : Bool) :
    groups l most isFirst (lead isFirst ++ rest) = ⟨[], false, lead isFirst ++ rest⟩ := by
  cases most with
  | zero => rfl
  | succ most =>
      have hquad : quad? l ([] ++ rest) = none := quad?_eq_none (by simp) h
      have hnumber : number? 16 4 65536 true ([] ++ rest) = none :=
        number?_append (by simp) (h.apart (by decide))
      rw [List.nil_append] at hquad hnumber
      rw [groups_lead, hquad, ite_self, hnumber]

/-- No group is read where none can follow. -/
theorem groups_endsRun (h : EndsRun rest) (most : Nat) (isFirst : Bool) :
    groups l most isFirst rest = ⟨[], false, rest⟩ := by
  cases isFirst with
  | true => exact groups_eq_nil h.endsGroup most true
  | false =>
      rcases h with rfl | ⟨r, rfl⟩ | ⟨r, rfl⟩
      · cases most <;> rfl
      · cases most <;> rfl
      · have hcolon : EndsGroup (':' :: r) := by simp [EndsGroup]
        exact groups_eq_nil hcolon most false

theorem groups_of_run {gs : List Nat} {q : Bool} {t : List Char} (h : Run l gs q t) {most : Nat}
    (hn : gs.length ≤ most) (hr : EndsRun rest) (isFirst : Bool) :
    groups l most isFirst (lead isFirst ++ (t ++ rest)) = ⟨gs, q, rest⟩ := by
  induction h generalizing most isFirst with
  | last h =>
      obtain ⟨most, rfl⟩ := Nat.exists_eq_add_of_le' hn
      rw [List.length_singleton, groups_of_figures h hr.endsGroup, groups_endsRun hr]
  | quad h =>
      obtain ⟨most, rfl⟩ := Nat.exists_eq_add_of_le' hn
      have hapart : Apart 10 rest := hr.endsGroup.apart (by decide)
      have hq := quad?_eq_some_iff.mpr ⟨_, rfl, h, hapart⟩
      rw [List.length_cons, List.length_singleton, ← Nat.add_assoc, groups_lead,
        if_pos (Nat.le_add_left 1 most), hq]
  | @more g gs q t ts h _ ih =>
      obtain ⟨most, rfl⟩ := Nat.exists_eq_add_of_le' hn
      have hcolon : EndsGroup (':' :: (ts ++ rest)) := by simp [EndsGroup]
      have htail : groups l (most + gs.length) false (':' :: (ts ++ rest)) = ⟨gs, q, rest⟩ :=
        ih (Nat.le_add_left _ _) false
      rw [List.append_assoc, List.cons_append, List.length_cons, ← Nat.add_assoc,
        groups_of_figures h hcolon, htail]

theorem groups_of_not_lead {isFirst : Bool} (h : ¬ ∃ r, cs = lead isFirst ++ r) (most : Nat) :
    groups l (most + 1) isFirst cs = ⟨[], false, cs⟩ := by
  cases isFirst with
  | true => exact absurd ⟨cs, rfl⟩ h
  | false =>
      have hafter : after? ':' cs = none :=
        Option.eq_none_iff_forall_not_mem.mpr fun r hr => h ⟨r, after?_eq_some_iff.mp hr⟩
      simp [groups, hafter]

/-- What was read, if any group was, is a run. -/
theorem run_of_groups {gs : List Nat} {q : Bool} {most : Nat} {isFirst : Bool}
    (h : groups l most isFirst cs = ⟨gs, q, rest⟩) :
    (gs = [] ∧ q = false ∧ rest = cs) ∨
      ∃ t, Run l gs q t ∧ gs.length ≤ most ∧ cs = lead isFirst ++ (t ++ rest) := by
  induction most generalizing gs q isFirst cs rest with
  | zero =>
      obtain ⟨rfl, rfl, rfl⟩ := Groups.mk.inj h
      exact .inl ⟨rfl, rfl, rfl⟩
  | succ most ih =>
      by_cases hlead : ∃ r, cs = lead isFirst ++ r
      · obtain ⟨r, rfl⟩ := hlead
        rw [groups_lead] at h
        split at h
        · rename_i n r' hq
          obtain ⟨hmost, hq⟩ := Option.ite_none_right_eq_some.mp hq
          obtain ⟨t, rfl, hquad, -⟩ := quad?_eq_some_iff.mp hq
          obtain ⟨rfl, rfl, rfl⟩ := Groups.mk.inj h
          exact .inr ⟨t, .quad hquad, Nat.succ_le_succ hmost, rfl⟩
        · split at h
          · obtain ⟨rfl, rfl, rfl⟩ := Groups.mk.inj h
            exact .inl ⟨rfl, rfl, rfl⟩
          · rename_i g r' hg
            obtain ⟨t, rfl, hfig, -⟩ := number?_eq_some_iff.mp hg
            obtain ⟨rfl, rfl, rfl⟩ := Groups.mk.inj h
            have hmore : groups l most false r' = ⟨(groups l most false r').values, _, _⟩ := rfl
            rcases ih hmore with ⟨hgs, hq, hrest⟩ | ⟨ts, hrun, hn, hr⟩
            · rw [hgs, hq, hrest]
              exact .inr ⟨t, .last hfig, by simp, rfl⟩
            · refine .inr ⟨t ++ ':' :: ts, .more hfig hrun, Nat.succ_le_succ hn, ?_⟩
              have hr : r' = ':' :: (ts ++ (groups l most false r').rest) := hr
              rw [List.append_assoc, List.cons_append, ← hr]
      · rw [groups_of_not_lead hlead] at h
        obtain ⟨rfl, rfl, rfl⟩ := Groups.mk.inj h
        exact .inl ⟨rfl, rfl, rfl⟩

/-- A run, or no group at all. -/
def Part (l : Leniency) (gs : List Nat) (q : Bool) (t : List Char) : Prop :=
  (gs = [] ∧ q = false ∧ t = []) ∨ Run l gs q t

theorem groups_of_part {gs : List Nat} {q : Bool} {t : List Char} (h : Part l gs q t) {most : Nat}
    (hn : gs.length ≤ most) (hr : EndsRun rest) :
    groups l most true (t ++ rest) = ⟨gs, q, rest⟩ := by
  rcases h with ⟨rfl, rfl, rfl⟩ | h
  · exact groups_endsRun hr most true
  · exact groups_of_run h hn hr true

theorem part_of_groups {gs : List Nat} {q : Bool} {most : Nat}
    (h : groups l most true cs = ⟨gs, q, rest⟩) :
    ∃ t, Part l gs q t ∧ gs.length ≤ most ∧ cs = t ++ rest := by
  rcases run_of_groups h with ⟨rfl, rfl, rfl⟩ | ⟨t, hrun, hn, hcs⟩
  · exact ⟨[], .inl ⟨rfl, rfl, rfl⟩, Nat.zero_le _, rfl⟩
  · exact ⟨t, .inr hrun, hn, hcs⟩

/-- Eight groups, or fewer with two colons for the groups of zeros that are missing. Before the
colons no octets stand. -/
inductive Eight (l : Leniency) : List Nat → List Char → Prop
  | full {gs : List Nat} {q : Bool} {t : List Char} (h : Run l gs q t) (hn : gs.length = 8) :
      Eight l gs t
  | gap {front back : List Nat} {q : Bool} {ts us : List Char} {n : Nat}
      (hf : Part l front false ts) (hb : Part l back q us)
      (hn : front.length + n + back.length = 8) (hfront : front.length < 8)
      (hgap : l.emptyGap = true ∨ 1 ≤ n) :
      Eight l (front ++ List.replicate n 0 ++ back) (ts ++ ':' :: ':' :: us)

/-- What can follow an address. -/
def EndsAddress (rest : List Char) : Prop := rest = [] ∨ ∃ r, rest = '/' :: r

theorem EndsAddress.endsRun (h : EndsAddress rest) : EndsRun rest :=
  h.elim .inl fun h => .inr (.inl h)

theorem eight?_of_eight {gs : List Nat} {t : List Char} (h : Eight l gs t)
    (hr : EndsAddress rest) : eight? l (t ++ rest) = some (gs, rest) := by
  cases h with
  | full h hn =>
      have hfront := groups_of_run h hn.le hr.endsRun true
      simp only [lead, if_true, List.nil_append] at hfront
      simp [eight?, hfront, hn]
  | @gap front back q ts us n hf hb hn hlt hgap =>
      have hfront := groups_of_part hf hlt.le
        (show EndsRun (':' :: ':' :: (us ++ rest)) from .inr (.inr ⟨_, rfl⟩))
      have hmost : back.length ≤ 8 - front.length - (if l.emptyGap then 0 else 1) := by
        split <;> simp_all <;> omega
      have hback := groups_of_part hb hmost hr.endsRun
      have hcount : 8 - front.length - back.length = n := by omega
      simp [eight?, hfront, hlt.ne, after?, hback, hcount]

theorem eight_of_eight? {gs : List Nat} (h : eight? l cs = some (gs, rest)) :
    ∃ t, cs = t ++ rest ∧ Eight l gs t := by
  rcases hfront : groups l 8 true cs with ⟨front, q, r⟩
  obtain ⟨ts, hpart, hn, rfl⟩ := part_of_groups hfront
  simp only [eight?, hfront, Option.bind_eq_bind, Option.pure_def] at h
  split at h
  · rename_i h8
    obtain ⟨rfl, rfl⟩ := Prod.mk.inj (Option.some.inj h)
    have hrun : Run l front q ts := hpart.resolve_left fun hnil => by simp [hnil.1] at h8
    exact ⟨ts, rfl, .full hrun h8⟩
  · rename_i h8
    cases q with
    | true => simp at h
    | false =>
        simp only [Bool.false_eq_true, if_false, Option.bind_eq_some_iff, after?_eq_some_iff,
          Option.some.injEq, Prod.mk.injEq] at h
        obtain ⟨_, rfl, r, rfl, rfl, rfl⟩ := h
        rcases hback : groups l (8 - front.length - if l.emptyGap then 0 else 1) true r with
          ⟨back, q, rest⟩
        obtain ⟨us, hpart', hn', rfl⟩ := part_of_groups hback
        have hsum : back.length ≤ 8 - front.length := Nat.le_trans hn' (Nat.sub_le _ _)
        refine ⟨ts ++ ':' :: ':' :: us, by simp, ?_⟩
        show Eight l (front ++ List.replicate (8 - front.length - back.length) 0 ++ back) _
        refine .gap hpart hpart' (by omega) (by omega) ?_
        cases hl : l.emptyGap with
        | true => exact .inl rfl
        | false =>
            rw [hl, if_neg Bool.false_ne_true] at hn'
            exact .inr (by omega)

/-! ### Addresses and networks -/

/-- The texts of an address. -/
inductive AddressText (l : Leniency) : Address → List Char → Prop
  | v4 {n : Nat} {t : List Char} (h : Quad l n t) : AddressText l (.v4 (BitVec.ofNat 32 n)) t
  | v6 {gs : List Nat} {t : List Char} (h : Eight l gs t) : AddressText l (.v6 (ofGroups gs)) t

theorem Part.digits_or_colon {gs : List Nat} {t : List Char} (h : Part l gs false t) :
    (∀ c ∈ t, (Numeral.digit? 16 c).isSome = true) ∨
      ∃ ds r, t = ds ++ ':' :: r ∧ ∀ c ∈ ds, (Numeral.digit? 16 c).isSome = true := by
  rcases h with ⟨-, -, rfl⟩ | h
  · simp
  · cases h with
    | last h => exact .inl h.digits
    | more h _ => exact .inr ⟨_, _, rfl, h.digits⟩

theorem Eight.exists_colon {gs : List Nat} {t : List Char} (h : Eight l gs t) :
    ∃ ds r, t = ds ++ ':' :: r ∧ ∀ c ∈ ds, (Numeral.digit? 16 c).isSome = true := by
  cases h with
  | full h hn =>
      cases h with
      | last _ | quad _ => simp at hn
      | more h _ => exact ⟨_, _, rfl, h.digits⟩
  | gap hf _ _ _ _ =>
      rcases hf.digits_or_colon with hds | ⟨ds, r, rfl, hds⟩
      · exact ⟨_, _, rfl, hds⟩
      · exact ⟨ds, _, List.append_assoc _ _ _, hds⟩

theorem quad?_eq_none_of_eight {k : Leniency} {gs : List Nat} {t : List Char} (h : Eight l gs t)
    (rest : List Char) : quad? k (t ++ rest) = none := by
  obtain ⟨ds, r, rfl, hds⟩ := h.exists_colon
  rw [List.append_assoc]
  exact quad?_eq_none hds (by simp [EndsGroup])

theorem quad?_of_quad {t : List Char} (h : Quad l n t) (hr : EndsAddress rest) :
    quad? l (t ++ rest) = some (n, rest) :=
  quad?_eq_some_iff.mpr ⟨t, rfl, h, hr.endsRun.endsGroup.apart (by decide)⟩

theorem Address.ofText?_eq_some_iff {a : Address} :
    ofText? cs = some a ↔ AddressText .plain a cs := by
  constructor
  · intro h
    unfold ofText? at h
    split at h
    · rename_i n rest hq
      obtain ⟨hrest, ha⟩ := Option.ite_none_right_eq_some.mp h
      obtain ⟨t, rfl, ht, -⟩ := quad?_eq_some_iff.mp hq
      obtain rfl := List.isEmpty_iff.mp hrest
      obtain rfl := Option.some.inj ha
      simpa using AddressText.v4 ht
    · split at h
      · rename_i gs rest he
        obtain ⟨hrest, ha⟩ := Option.ite_none_right_eq_some.mp h
        obtain ⟨t, rfl, ht⟩ := eight_of_eight? he
        obtain rfl := List.isEmpty_iff.mp hrest
        obtain rfl := Option.some.inj ha
        simpa using AddressText.v6 ht
      · cases h
  · intro h
    cases h with
    | v4 h =>
        have hq := quad?_of_quad h (.inl rfl)
        rw [List.append_nil] at hq
        simp [ofText?, hq]
    | v6 h =>
        have hq := quad?_eq_none_of_eight (k := .plain) h []
        have he := eight?_of_eight h (.inl rfl)
        rw [List.append_nil] at hq he
        simp [ofText?, hq, he]

/-- The number of bits of an address. -/
def Address.bitCount : Address → Nat
  | .v4 _ => 32
  | .v6 _ => 128

/-- The most digits of a prefix length. -/
def Address.lengthDigits : Address → Nat
  | .v4 _ => 2
  | .v6 _ => 3

/-- The network of the addresses that share their first bits with a given one. -/
def Subnet.around : Address → Nat → Subnet
  | .v4 bits, n => .v4 bits n
  | .v6 bits, n => .v6 bits n

/-- The texts of a network: an address with a prefix length, or an address alone, all of whose bits
count. -/
inductive EntryText : Address → Nat → List Char → Prop
  | network {a : Address} {n : Nat} {t ds : List Char} (ha : AddressText .network a t)
      (hn : Figures 10 a.lengthDigits (a.bitCount + 1) true n ds) : EntryText a n (t ++ '/' :: ds)
  | address {a : Address} {t : List Char} (ha : AddressText .plain a t) : EntryText a a.bitCount t

/-- What follows the address of a network. -/
theorem length_eq_some_iff {mk : Nat → Subnet} {net : Subnet} : (do
      let (n, r) ← number? 10 width limit true (← after? '/' rest)
      if r.isEmpty then some (mk n) else none) = some net ↔
    ∃ n ds, rest = '/' :: ds ∧ Figures 10 width limit true n ds ∧ net = mk n := by
  simp only [Option.bind_eq_bind, Option.bind_eq_some_iff, Prod.exists, after?_eq_some_iff,
    number?_eq_some_iff, Option.ite_none_right_eq_some, List.isEmpty_iff, Option.some.injEq]
  constructor
  · rintro ⟨_, rfl, n, _, ⟨ds, rfl, hn, -⟩, rfl, rfl⟩
    exact ⟨n, ds, by simp, hn, rfl⟩
  · rintro ⟨n, ds, rfl, hn, rfl⟩
    exact ⟨ds, rfl, n, [], ⟨ds, by simp, hn, by simp [Apart]⟩, rfl, rfl⟩

theorem Subnet.ofNetworkText?_eq_some_iff {net : Subnet} : ofNetworkText? cs = some net ↔
    ∃ a n t ds, cs = t ++ '/' :: ds ∧ AddressText .network a t ∧
      Figures 10 a.lengthDigits (a.bitCount + 1) true n ds ∧ net = around a n := by
  constructor
  · intro h
    unfold ofNetworkText? at h
    split at h
    · rename_i m rest hq
      obtain ⟨t, rfl, ht, -⟩ := quad?_eq_some_iff.mp hq
      obtain ⟨n, ds, rfl, hn, rfl⟩ := length_eq_some_iff.mp h
      exact ⟨_, n, t, ds, rfl, .v4 ht, hn, rfl⟩
    · obtain ⟨⟨gs, rest⟩, he, htail⟩ := Option.bind_eq_some_iff.mp h
      obtain ⟨t, rfl, ht⟩ := eight_of_eight? he
      obtain ⟨n, ds, rfl, hn, rfl⟩ := length_eq_some_iff.mp htail
      exact ⟨_, n, t, ds, rfl, .v6 ht, hn, rfl⟩
  · rintro ⟨a, n, t, ds, rfl, ha, hn, rfl⟩
    have hend : EndsAddress ('/' :: ds) := .inr ⟨ds, rfl⟩
    cases ha with
    | v4 h =>
        simp only [ofNetworkText?, quad?_of_quad h hend]
        exact length_eq_some_iff.mpr ⟨n, ds, rfl, hn, rfl⟩
    | v6 h =>
        simp only [ofNetworkText?, quad?_eq_none_of_eight h, eight?_of_eight h hend]
        exact length_eq_some_iff.mpr ⟨n, ds, rfl, hn, rfl⟩

theorem Subnet.ofText?_eq_some_iff {net : Subnet} :
    ofText? cs = some net ↔ ∃ a n, EntryText a n cs ∧ net = around a n := by
  have haddress : ∀ a, ofAddress a = around a a.bitCount := by rintro (_ | _) <;> rfl
  constructor
  · intro h
    unfold ofText? at h
    split at h
    · rename_i net' hnet
      obtain rfl := Option.some.inj h
      obtain ⟨a, n, t, ds, rfl, ha, hn, rfl⟩ := ofNetworkText?_eq_some_iff.mp hnet
      exact ⟨a, n, .network ha hn, rfl⟩
    · obtain ⟨a, ha, rfl⟩ := Option.map_eq_some_iff.mp h
      exact ⟨a, a.bitCount, .address (Address.ofText?_eq_some_iff.mp ha), haddress a⟩
  · rintro ⟨a, n, h, rfl⟩
    cases h with
    | network ha hn =>
        have hnet := ofNetworkText?_eq_some_iff.mpr ⟨a, n, _, _, rfl, ha, hn, rfl⟩
        simp [ofText?, hnet]
    | address ha =>
        have hread := Address.ofText?_eq_some_iff.mpr ha
        -- no text of a network is one of an address, which has no stroke in it
        have hnone : ofNetworkText? cs = none := by
          rw [Option.eq_none_iff_forall_not_mem]
          intro net hnet
          obtain ⟨_, _, t, ds, rfl, -⟩ := ofNetworkText?_eq_some_iff.mp hnet
          exact notMem_of_ofText? hread (c := '/') (by decide) (by simp)
        simp [ofText?, hnone, hread, haddress]

end TerminalGateway.Net
