import TerminalGateway.Proofs.Json.Values

/-!
Passing over values that nobody asks for. However a value is written, it is passed over as a whole,
whatever lists and objects are open around it.
-/

namespace TerminalGateway.Json

variable {cs ds es rest : List Char} {x : Char}

/-! ### Strings -/

theorem Letter.skipStringFrom (h : Letter x cs rest) (p : Position) :
    ∃ p', Json.skipStringFrom p cs = Json.skipStringFrom p' rest := by
  have hunit : ∀ {n cs ds} (p : Position), CodeUnit n cs ds →
      ∃ p', Json.skipStringFrom p ('\\' :: 'u' :: cs) = Json.skipStringFrom p' ds := by
    intro n cs ds p h
    obtain ⟨a, b, c, d, rfl, hunit⟩ := h.exists_digits
    refine ⟨p.right 6, ?_⟩
    rw [Json.skipStringFrom.eq_def]
    simp [hunit]
  cases h with
  | plain hquote hslash hcontrol =>
      refine ⟨p.past x, ?_⟩
      rw [Json.skipStringFrom.eq_def]
      simp [hquote, hslash, Char.not_lt.mpr hcontrol]
  | short h =>
      obtain ⟨hu, hshort⟩ := shortEscape?_of_mem h
      refine ⟨p.right 2, ?_⟩
      rw [Json.skipStringFrom.eq_def]
      simp [hu, hshort]
  | unit h => exact hunit p h
  | pair _ _ _ h h' =>
      obtain ⟨p₁, hp₁⟩ := hunit p h
      obtain ⟨p₂, hp₂⟩ := hunit p₁ h'
      exact ⟨p₂, hp₁.trans hp₂⟩

theorem Letters.skipStringFrom {xs : List Char} (h : Letters xs cs rest) (p : Position) :
    ∃ p', Json.skipStringFrom p cs = .ok ⟨rest, p'⟩ := by
  induction h generalizing p with
  | done rest =>
      refine ⟨p.right 1, ?_⟩
      rw [Json.skipStringFrom.eq_def]
      simp
  | more hx _ ih =>
      obtain ⟨p₁, hp₁⟩ := hx.skipStringFrom p
      obtain ⟨p₂, hp₂⟩ := ih p₁
      exact ⟨p₂, hp₁.trans hp₂⟩

/-! ### Literals, numbers and strings -/

theorem skipScalar_of_literal {n : Number} {literal : List Char} (h : Literal n literal)
    (hrest : EndsNumber rest) (p : Position) :
    ∃ p', skipScalar ⟨literal ++ rest, p⟩ = .ok ⟨rest, p'⟩ := by
  cases h with
  | negative h =>
      obtain ⟨p', hp'⟩ := isLocal_readFigure true h hrest (p.past '-')
      have hskip := skipFigure_of_readFigure hp'
      rw [List.nil_append] at hskip
      exact ⟨p', by simp [skipScalar, Cursor.advance, hskip]⟩
  | positive hx h =>
      obtain ⟨-, hn, ht, hf, hquote, hminus⟩ := digit_ne hx
      obtain ⟨p', hp'⟩ := isLocal_readFigure false h hrest p
      have hskip := skipFigure_of_readFigure hp'
      rw [List.nil_append, List.cons_append] at hskip
      exact ⟨p', by simp [skipScalar, hn, ht, hf, hquote, hminus, hx, hskip]⟩

theorem skipScalar_of_spelt {depth : Nat} {v : Value} (h : Spelt depth v cs rest) (hv : v.IsScalar)
    (hrest : EndsNumber rest) (p : Position) :
    ∃ p', skipScalar ⟨cs, p⟩ = .ok ⟨rest, p'⟩ := by
  rw [Spelt.eq_def] at h
  cases v with
  | array _ | object _ => exact hv.elim
  | null =>
      subst h
      obtain ⟨p', hp'⟩ := readLiteral_of_append ['u', 'l', 'l'] rest (p.past 'n')
      simp only [List.cons_append, List.nil_append] at hp'
      exact ⟨p', by simp [skipScalar, Cursor.advance, hp']⟩
  | bool b =>
      subst h
      cases b with
      | true =>
          obtain ⟨p', hp'⟩ := readLiteral_of_append ['r', 'u', 'e'] rest (p.past 't')
          simp only [List.cons_append, List.nil_append] at hp'
          exact ⟨p', by simp [skipScalar, Cursor.advance, hp']⟩
      | false =>
          obtain ⟨p', hp'⟩ := readLiteral_of_append ['a', 'l', 's', 'e'] rest (p.past 'f')
          simp only [List.cons_append, List.nil_append] at hp'
          exact ⟨p', by simp [skipScalar, Cursor.advance, hp']⟩
  | number n =>
      obtain ⟨literal, hl, rfl⟩ := h
      exact skipScalar_of_literal hl hrest p
  | string s =>
      cases h with
      | mk h =>
          obtain ⟨p', hp'⟩ := h.skipStringFrom (p.past '"')
          exact ⟨p', by simp [skipScalar, skipString, Cursor.advance, hp']⟩

/-! ### From place to place -/

/-- As many steps as skipping may need from a place on. -/
def Stage.need (stage : Stage) (cs : List Char) : Nat :=
  match stage with
  | .opened => 2 * cs.length + 2
  | .before | .after => 2 * cs.length + 1

/-- Skipping comes from one place to another, with enough steps left if it had enough. -/
def Reaches (stage : Stage) (frames : List Frame) (cs : List Char) (stage' : Stage)
    (frames' : List Frame) (ds : List Char) : Prop :=
  ∀ n p, stage.need cs ≤ n → ∃ m p', stage'.need ds ≤ m ∧
    skipWithin n stage frames ⟨cs, p⟩ = skipWithin m stage' frames' ⟨ds, p'⟩

variable {stage stage' stage'' : Stage} {frame : Frame} {frames frames' frames'' : List Frame}

theorem Reaches.trans (h : Reaches stage frames cs stage' frames' ds)
    (h' : Reaches stage' frames' ds stage'' frames'' es) :
    Reaches stage frames cs stage'' frames'' es := by
  intro n p hn
  obtain ⟨m, p₁, hm, hp₁⟩ := h n p hn
  obtain ⟨k, p₂, hk, hp₂⟩ := h' m p₁ hm
  exact ⟨k, p₂, hk, hp₁.trans hp₂⟩

/-- One step of skipping. -/
theorem Reaches.step (hneed : stage'.need ds + 1 ≤ stage.need cs)
    (h : ∀ n p, ∃ p', skipWithin (n + 1) stage frames ⟨cs, p⟩ =
      skipWithin n stage' frames' ⟨ds, p'⟩) : Reaches stage frames cs stage' frames' ds := by
  intro n p hn
  obtain ⟨n, rfl⟩ : ∃ k, n = k + 1 := ⟨n - 1, by omega⟩
  obtain ⟨p', hp'⟩ := h n p
  exact ⟨n, p', by omega, hp'⟩

/-- A gap makes no difference where a value or the end of an open list or object may follow. -/
theorem reaches_of_gap (hopen : stage = .before ∨ frames ≠ []) (h : Gap cs ds) :
    Reaches stage frames cs stage frames ds := by
  intro n p hn
  have hlength := h.length_le
  have hneed : stage.need ds ≤ stage.need cs := by
    cases stage <;> simp only [Stage.need] <;> omega
  obtain ⟨n, rfl⟩ : ∃ k, n = k + 1 :=
    ⟨n - 1, by cases stage <;> simp only [Stage.need] at hn <;> omega⟩
  obtain ⟨p', hp'⟩ := h.skipGap p
  refine ⟨n + 1, p', Nat.le_trans hneed hn, ?_⟩
  obtain rfl | hframes := hopen
  · rw [skipWithin, skipWithin, hp']
  · obtain ⟨frame, frames, rfl⟩ := List.exists_cons_of_ne_nil hframes
    cases stage <;> rw [skipWithin, skipWithin, hp']

theorem reaches_open (hx : (x, frame) ∈ [('[', Frame.list), ('\x7b', .object)]) :
    Reaches .before frames (x :: cs) .opened (frame :: frames) cs := by
  refine .step (by simp only [Stage.need, List.length_cons]; omega) fun n p => ⟨p.past x, ?_⟩
  have hgap : Cursor.isGap x = false := by
    simp at hx
    obtain ⟨rfl, -⟩ | ⟨rfl, -⟩ := hx <;> decide
  rw [skipWithin]
  simp only [skipGap_of_solid hgap, Cursor.sees, Cursor.advance]
  simp at hx
  obtain ⟨rfl, rfl⟩ | ⟨rfl, rfl⟩ := hx <;> simp

theorem reaches_first (h : Gap cs (x :: ds)) (hgap : Cursor.isGap x = false)
    (hend : frame.isEnd x = false)
    (hname : ∀ p, ∃ p', frame.skipName ⟨x :: ds, p⟩ = .ok ⟨es, p'⟩) (hle : es.length ≤ cs.length) :
    Reaches .opened (frame :: frames) cs .before (frame :: frames) es := by
  refine .step (by simp only [Stage.need]; omega) fun n p => ?_
  obtain ⟨p₁, hp₁⟩ := h.skipGap_eq hgap p
  obtain ⟨p₂, hp₂⟩ := hname p₁
  refine ⟨p₂, ?_⟩
  rw [skipWithin]
  simp [hp₁, Cursor.sees, hend, hp₂]

theorem reaches_next (h : Gap cs (',' :: ds))
    (hname : ∀ p, ∃ p', frame.skipName ⟨ds, p⟩ = .ok ⟨es, p'⟩) (hle : es.length ≤ ds.length) :
    Reaches .after (frame :: frames) cs .before (frame :: frames) es := by
  have hlength := h.length_le
  refine .step (by simp only [Stage.need, List.length_cons] at hlength ⊢; omega) fun n p => ?_
  obtain ⟨p₁, hp₁⟩ := h.skipGap_eq rfl p
  obtain ⟨p₂, hp₂⟩ := hname (p₁.past ',')
  have hend : frame.isEnd ',' = false := by cases frame <;> decide
  refine ⟨p₂, ?_⟩
  rw [skipWithin]
  simp [hp₁, Cursor.sees, Cursor.advance, hend, hp₂]

theorem reaches_end (hstage : stage = .opened ∨ stage = .after) (h : Gap cs (x :: rest))
    (hgap : Cursor.isGap x = false) (hend : frame.isEnd x = true) :
    Reaches stage (frame :: frames) cs .after frames rest := by
  have hlength := h.length_le
  have hneed : Stage.need .after rest + 1 ≤ stage.need cs := by
    obtain rfl | rfl := hstage <;> simp only [Stage.need, List.length_cons] at hlength ⊢ <;> omega
  refine .step hneed fun n p => ?_
  obtain ⟨p₁, hp₁⟩ := h.skipGap_eq hgap p
  refine ⟨p₁.past x, ?_⟩
  obtain rfl | rfl := hstage <;> rw [skipWithin] <;> simp [hp₁, Cursor.sees, Cursor.advance, hend]

theorem reaches_of_scalar {depth : Nat} {v : Value} (h : Spelt depth v cs rest) (hv : v.IsScalar)
    (hrest : EndsNumber rest) : Reaches .before frames cs .after frames rest := by
  obtain ⟨x, ds, rfl, hx, -, hlength, -⟩ := readScalar_of_spelt h hv
  refine .step (by simp only [Stage.need, List.length_cons]; omega) fun n p => ?_
  obtain ⟨p', hp'⟩ := skipScalar_of_spelt h hv hrest p
  refine ⟨p', ?_⟩
  rw [skipWithin]
  simp [skipGap_of_solid hx.1, Cursor.sees, hx.2.1, hx.2.2, hp']

/-! ### Lists and objects -/

/-- Values are passed over wherever they are written. -/
def Passes (written : Value → List Char → List Char → Prop) : Prop :=
  ∀ {v cs rest}, written v cs rest → EndsNumber rest →
    ∀ frames, Reaches .before frames cs .after frames rest

section Frames

variable {written : Value → List Char → List Char → Prop}

theorem Passes.items (hp : Passes written) {items : List Value}
    (h : Items written items cs rest) (frames : List Frame) :
    Reaches .before (.list :: frames) cs .after frames rest := by
  induction h with
  | last h₀ hv h₂ =>
      have hvalue := hp hv (endsNumber_bracket.of_gap h₂) (.list :: frames)
      exact ((reaches_of_gap (.inl rfl) h₀).trans hvalue).trans (reaches_end (.inr rfl) h₂ rfl rfl)
  | more h₀ hv h₂ _ ih =>
      have hvalue := hp hv ((endsNumber_of_mark (.inl rfl)).of_gap h₂) (.list :: frames)
      have hnext : Reaches .after (.list :: frames) _ .before (.list :: frames) _ :=
        reaches_next h₂ (fun p => ⟨p, rfl⟩) (Nat.le_refl _)
      exact (((reaches_of_gap (.inl rfl) h₀).trans hvalue).trans hnext).trans ih

/-- A list whose first item has no gap before it. -/
theorem Items.exists_solid (hb : BeginSolid written) {items : List Value}
    (h : Items written items cs rest) :
    ∃ x ds, Gap cs (x :: ds) ∧ Cursor.isGap x = false ∧ x ≠ ']' ∧
      Items written items (x :: ds) rest := by
  cases h with
  | last h₀ hv h₂ =>
      obtain ⟨x, ds, rfl, hgap, hend⟩ := hb hv
      exact ⟨x, ds, h₀, hgap, hend, .last (.none _) hv h₂⟩
  | more h₀ hv h₂ h =>
      obtain ⟨x, ds, rfl, hgap, hend⟩ := hb hv
      exact ⟨x, ds, h₀, hgap, hend, .more (.none _) hv h₂ h⟩

theorem Passes.bracketed (hp : Passes written) (hb : BeginSolid written) {items : List Value}
    (h : Bracketed written items cs rest) (frames : List Frame) :
    Reaches .before frames cs .after frames rest := by
  cases h with
  | empty h =>
      have hend : Reaches .opened (.list :: frames) _ .after frames rest :=
        reaches_end (.inl rfl) h rfl rfl
      exact (reaches_open (by simp)).trans hend
  | items h =>
      obtain ⟨x, ds, hgap, hsolid, hend, h⟩ := h.exists_solid hb
      have hfirst : Reaches .opened (.list :: frames) _ .before (.list :: frames) _ :=
        reaches_first hgap hsolid (decide_eq_false hend) (fun p => ⟨p, rfl⟩) hgap.length_le
      exact ((reaches_open (by simp)).trans hfirst).trans (hp.items h frames)

theorem skipName_of_quoted {name : String} {c₀ c₁ c₂ c₃ : List Char} (h₀ : Gap c₀ c₁)
    (hname : Quoted name c₁ c₂) (h₂ : Gap c₂ (':' :: c₃)) (p : Position) :
    ∃ p', Frame.object.skipName ⟨c₀, p⟩ = .ok ⟨c₃, p'⟩ := by
  cases hname with
  | mk h =>
      obtain ⟨p₁, hp₁⟩ := h₀.skipGap_eq rfl p
      obtain ⟨p₂, hp₂⟩ := h.skipStringFrom (p₁.past '"')
      obtain ⟨p₃, hp₃⟩ := readColon_of_gap h₂ p₂
      refine ⟨p₃, ?_⟩
      simp [Frame.skipName, hp₁, Cursor.advance, skipString, hp₂, hp₃, bind, Except.bind]

/-- From the value of a field on, up to what follows the field. -/
theorem Passes.member (hp : Passes written) {f : String × Value}
    (h : Member written f cs rest) (hrest : EndsNumber rest) (frames : List Frame) :
    ∃ c, c.length ≤ cs.length ∧ (∀ p, ∃ p', Frame.object.skipName ⟨cs, p⟩ = .ok ⟨c, p'⟩) ∧
      Reaches .before (.object :: frames) c .after (.object :: frames) rest := by
  cases h with
  | @mk _ _ _ c₁ c₂ c₃ c₄ c₅ _ h₀ hname h₂ h₃ hv h₅ =>
      have hlength : c₃.length ≤ cs.length := by
        have := h₀.length_le
        have := hname.length_lt
        have := h₂.length_le
        simp only [List.length_cons] at this
        omega
      refine ⟨c₃, hlength, skipName_of_quoted h₀ hname h₂, ?_⟩
      have hvalue := hp hv (hrest.of_gap h₅) (.object :: frames)
      exact ((reaches_of_gap (.inl rfl) h₃).trans hvalue).trans (reaches_of_gap (.inr (by simp)) h₅)

/-- From the value of the first field on, up to the end of the object. -/
theorem Passes.members (hp : Passes written) {fields : List (String × Value)}
    (h : Members written fields cs rest) (frames : List Frame) :
    ∃ c, c.length ≤ cs.length ∧ (∀ p, ∃ p', Frame.object.skipName ⟨cs, p⟩ = .ok ⟨c, p'⟩) ∧
      Reaches .before (.object :: frames) c .after frames rest := by
  induction h with
  | last hf =>
      obtain ⟨c, hlength, hname, hvalue⟩ := hp.member hf (endsNumber_of_mark (.inr rfl)) frames
      exact ⟨c, hlength, hname, hvalue.trans (reaches_end (.inr rfl) (.none _) rfl rfl)⟩
  | more hf _ ih =>
      obtain ⟨c, hlength, hname, hvalue⟩ := hp.member hf (endsNumber_of_mark (.inl rfl)) frames
      obtain ⟨c', hlength', hname', hrest⟩ := ih
      exact ⟨c, hlength, hname, (hvalue.trans (reaches_next (.none _) hname' hlength')).trans hrest⟩

/-- An object whose first field has no gap before it. -/
theorem Members.exists_solid {fields : List (String × Value)}
    (h : Members written fields cs rest) :
    ∃ ds, Gap cs ('"' :: ds) ∧ Members written fields ('"' :: ds) rest := by
  cases h with
  | last hf =>
      cases hf with
      | mk h₀ hname h₂ h₃ hv h₅ =>
          cases hname with
          | mk h => exact ⟨_, h₀, .last (.mk (.none _) (.mk h) h₂ h₃ hv h₅)⟩
  | more hf hrest =>
      cases hf with
      | mk h₀ hname h₂ h₃ hv h₅ =>
          cases hname with
          | mk h => exact ⟨_, h₀, .more (.mk (.none _) (.mk h) h₂ h₃ hv h₅) hrest⟩

theorem Passes.braced (hp : Passes written) {fields : List (String × Value)}
    (h : Braced written fields cs rest) (frames : List Frame) :
    Reaches .before frames cs .after frames rest := by
  cases h with
  | empty h =>
      have hend : Reaches .opened (.object :: frames) _ .after frames rest :=
        reaches_end (.inl rfl) h rfl rfl
      exact (reaches_open (by simp)).trans hend
  | fields h =>
      obtain ⟨ds, hgap, h⟩ := h.exists_solid
      obtain ⟨c, hlength, hname, hrest⟩ := hp.members h frames
      have hfirst : Reaches .opened (.object :: frames) _ .before (.object :: frames) _ :=
        reaches_first hgap rfl rfl hname (Nat.le_trans hlength hgap.length_le)
      exact ((reaches_open (by simp)).trans hfirst).trans hrest

end Frames

/-- However a value is written, it is passed over. -/
theorem passes_spelt (depth : Nat) : Passes (Spelt depth) := by
  induction depth with
  | zero =>
      intro v cs rest h hrest frames
      refine reaches_of_scalar h ?_ hrest
      cases v <;> simp [Spelt, Value.IsScalar] at h ⊢
  | succ depth ih =>
      intro v cs rest h hrest frames
      cases v with
      | null | bool _ | number _ | string _ => exact reaches_of_scalar h trivial hrest
      | array items =>
          rw [Spelt] at h
          exact ih.bracketed (beginSolid_spelt depth) h frames
      | object fields =>
          rw [Spelt] at h
          obtain ⟨given, h, -⟩ := h
          exact ih.braced h frames

theorem skipValue_of_spelt {depth : Nat} {v : Value} (hgap : Gap cs ds) (h : Spelt depth v ds rest)
    (hrest : EndsNumber rest) (p : Position) :
    ∃ p', skipValue ⟨cs, p⟩ = .ok ⟨rest, p'⟩ := by
  have hreaches := (reaches_of_gap (.inl rfl) hgap).trans (passes_spelt depth h hrest [])
  have hneed : Stage.need .before cs ≤ 2 * cs.length + 2 := Nat.le_succ _
  obtain ⟨m, p', hm, hp'⟩ := hreaches _ p hneed
  obtain ⟨m, rfl⟩ : ∃ k, m = k + 1 := ⟨m - 1, by simp only [Stage.need] at hm; omega⟩
  exact ⟨p', hp'⟩

end TerminalGateway.Json
