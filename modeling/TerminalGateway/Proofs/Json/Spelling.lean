import TerminalGateway.Json.Reader
import TerminalGateway.Proofs.Numeral.Digits
import TerminalGateway.Proofs.Text.Split

/-!
How the tokens of a text can be written: gaps of any kind and length, strings with their characters
as they are or escaped, and numbers. Every relation says what a text begins with and how it goes on
after that, and the readers find it there and go on where it ends.
-/

namespace TerminalGateway.Json

/-- A gap, of any length or none, and the text after it. -/
inductive Gap : List Char → List Char → Prop
  | none (rest : List Char) : Gap rest rest
  | more {x : Char} {cs rest : List Char} (hx : x ∈ [' ', '\t', '\n', '\r']) (h : Gap cs rest) :
      Gap (x :: cs) rest

/-- A hexadecimal digit of either case. -/
def HexDigit (n : Nat) (x : Char) : Prop :=
  "0123456789abcdef".toList[n]? = some x ∨ "0123456789ABCDEF".toList[n]? = some x

/-- A code unit in four hexadecimal digits. -/
inductive CodeUnit : Nat → List Char → List Char → Prop
  | mk {i j k l : Nat} {a b c d : Char} (ha : HexDigit i a) (hb : HexDigit j b)
      (hc : HexDigit k c) (hd : HexDigit l d) (rest : List Char) :
      CodeUnit (((i * 16 + j) * 16 + k) * 16 + l) (a :: b :: c :: d :: rest) rest

/-- The characters that a letter can stand for after a backslash. -/
def shortEscapes : List (Char × Char) :=
  [('"', '"'), ('\\', '\\'), ('/', '/'), ('\x08', 'b'), ('\x0c', 'f'), ('\n', 'n'), ('\r', 'r'),
    ('\t', 't')]

/-- A character of a string: as it is, as a short escape, as a code unit, or as a surrogate pair. -/
inductive Letter : Char → List Char → List Char → Prop
  | plain {x : Char} (hquote : x ≠ '"') (hslash : x ≠ '\\') (hcontrol : ' ' ≤ x)
      (rest : List Char) : Letter x (x :: rest) rest
  | short {x y : Char} (h : (x, y) ∈ shortEscapes) (rest : List Char) :
      Letter x ('\\' :: y :: rest) rest
  | unit {x : Char} {cs rest : List Char} (h : CodeUnit x.toNat cs rest) :
      Letter x ('\\' :: 'u' :: cs) rest
  | pair {x : Char} {lead trail : Nat} {cs ds rest : List Char} (hlead : lead < 0x400)
      (htrail : trail < 0x400) (hx : x.toNat = 0x10000 + lead * 0x400 + trail)
      (h : CodeUnit (0xd800 + lead) cs ('\\' :: 'u' :: ds))
      (h' : CodeUnit (0xdc00 + trail) ds rest) : Letter x ('\\' :: 'u' :: cs) rest

/-- The characters of a string, up to and with its closing quotation mark. -/
inductive Letters : List Char → List Char → List Char → Prop
  | done (rest : List Char) : Letters [] ('"' :: rest) rest
  | more {x : Char} {xs cs ds rest : List Char} (hx : Letter x cs ds) (h : Letters xs ds rest) :
      Letters (x :: xs) cs rest

/-- A string between quotation marks. -/
inductive Quoted : String → List Char → List Char → Prop
  | mk {s : String} {cs rest : List Char} (h : Letters s.toList cs rest) : Quoted s ('"' :: cs) rest

/-! ### Gaps -/

variable {cs ds rest : List Char} {x : Char}

theorem Gap.skipGap (h : Gap cs rest) (p : Position) :
    ∃ p', (⟨cs, p⟩ : Cursor).skipGap = (⟨rest, p'⟩ : Cursor).skipGap := by
  induction h generalizing p with
  | none => exact ⟨p, rfl⟩
  | @more x cs rest hx h ih =>
      obtain ⟨p', hp'⟩ := ih (p.past x)
      refine ⟨p', hp' ▸ ?_⟩
      have hgap : Cursor.isGap x = true := by
        revert hx
        simp only [List.mem_cons, List.not_mem_nil, or_false, Cursor.isGap]
        grind
      simp [Cursor.skipGap, Cursor.skipGapFrom, hgap]

theorem skipGap_of_solid (hx : Cursor.isGap x = false) (p : Position) :
    (⟨x :: rest, p⟩ : Cursor).skipGap = ⟨x :: rest, p⟩ := by
  simp [Cursor.skipGap, Cursor.skipGapFrom, hx]

/-- A gap before something else is passed over as a whole. -/
theorem Gap.skipGap_eq (h : Gap cs (x :: rest)) (hx : Cursor.isGap x = false) (p : Position) :
    ∃ p', (⟨cs, p⟩ : Cursor).skipGap = ⟨x :: rest, p'⟩ := by
  obtain ⟨p', hp'⟩ := h.skipGap p
  exact ⟨p', hp'.trans (skipGap_of_solid hx p')⟩

theorem Gap.length_le (h : Gap cs rest) : rest.length ≤ cs.length := by
  induction h with
  | none => exact Nat.le_refl _
  | more _ _ ih => exact Nat.le_succ_of_le ih

/-! ### Strings -/

theorem HexDigit.digit? {n : Nat} (h : HexDigit n x) : Numeral.digit? 16 x = some n := by
  have key : ∀ n : Fin 16, Numeral.digit? 16 "0123456789abcdef".toList[n] = some n.val ∧
      Numeral.digit? 16 "0123456789ABCDEF".toList[n] = some n.val := by decide
  obtain h | h := h <;> obtain ⟨hn, rfl⟩ := List.getElem?_eq_some_iff.mp h
  · exact (key ⟨n, hn⟩).1
  · exact (key ⟨n, hn⟩).2

theorem CodeUnit.exists_digits {n : Nat} (h : CodeUnit n cs rest) :
    ∃ a b c d, cs = a :: b :: c :: d :: rest ∧ codeUnit? a b c d = some n := by
  cases h with
  | mk ha hb hc hd =>
      exact ⟨_, _, _, _, rfl, by simp [codeUnit?, ha.digit?, hb.digit?, hc.digit?, hd.digit?]⟩

/-- A character is no half of a surrogate pair. -/
theorem not_surrogate (x : Char) : isLead x.toNat = false ∧ isTrail x.toNat = false := by
  have hvalid : x.toNat < 0xd800 ∨ 0xdfff < x.toNat := x.valid.imp id And.left
  simp only [isLead, isTrail, Bool.and_eq_false_imp, decide_eq_true_eq, decide_eq_false_iff_not]
  omega

theorem shortEscape?_of_mem {y : Char} (h : (x, y) ∈ shortEscapes) :
    y ≠ 'u' ∧ shortEscape? y = some x := by
  have key : ∀ e ∈ shortEscapes, e.2 ≠ 'u' ∧ shortEscape? e.2 = some e.1 := by decide
  exact key _ h

theorem Letter.readStringFrom (h : Letter x cs rest) (done : List Char) (p : Position) :
    ∃ p', Json.readStringFrom done p cs = Json.readStringFrom (x :: done) p' rest := by
  cases h with
  | plain hquote hslash hcontrol =>
      refine ⟨p.past x, ?_⟩
      rw [Json.readStringFrom.eq_def]
      simp [hquote, hslash, Char.not_lt.mpr hcontrol]
  | short h =>
      obtain ⟨hu, hshort⟩ := shortEscape?_of_mem h
      refine ⟨p.right 2, ?_⟩
      rw [Json.readStringFrom.eq_def]
      simp [hu, hshort]
  | unit h =>
      obtain ⟨a, b, c, d, rfl, hunit⟩ := h.exists_digits
      obtain ⟨hlead, htrail⟩ := not_surrogate x
      refine ⟨p.right 6, ?_⟩
      rw [Json.readStringFrom.eq_def]
      simp [hunit, hlead, htrail]
  | @pair lead trail _ _ _ hlead htrail hx h h' =>
      obtain ⟨a, b, c, d, rfl, hunit⟩ := h.exists_digits
      obtain ⟨a', b', c', d', rfl, hunit'⟩ := h'.exists_digits
      have hl : isLead (0xd800 + lead) = true ∧ isTrail (0xd800 + lead) = false := by
        simp only [isLead, isTrail, Bool.and_eq_true, Bool.and_eq_false_imp, decide_eq_true_eq,
          decide_eq_false_iff_not]
        omega
      have ht : isTrail (0xdc00 + trail) = true := by
        simp only [isTrail, Bool.and_eq_true, decide_eq_true_eq]
        omega
      have hpair : pairedChar (0xd800 + lead) (0xdc00 + trail) = x := by
        have hsum : (0xd800 + lead - 0xd800) * 0x400 + (0xdc00 + trail - 0xdc00) + 0x10000 =
            x.toNat := by omega
        rw [pairedChar, hsum, Char.ofNat_toNat]
      refine ⟨p.right 12, ?_⟩
      rw [Json.readStringFrom.eq_def]
      simp [hunit, hunit', hl, ht, hpair]

theorem Letters.readStringFrom {xs : List Char} (h : Letters xs cs rest) (done : List Char)
    (p : Position) :
    ∃ p', Json.readStringFrom done p cs = .ok (String.ofList (done.reverse ++ xs), ⟨rest, p'⟩) := by
  induction h generalizing done p with
  | done rest =>
      refine ⟨p.right 1, ?_⟩
      rw [Json.readStringFrom.eq_def]
      simp
  | @more x xs _ _ _ hx _ ih =>
      obtain ⟨p₁, hstep⟩ := hx.readStringFrom done p
      obtain ⟨p₂, hrest⟩ := ih (x :: done) p₁
      exact ⟨p₂, by simpa using hstep.trans hrest⟩

theorem Letters.readString {s : String} (h : Letters s.toList cs rest) (p : Position) :
    ∃ p', Json.readString ⟨cs, p⟩ = .ok (s, ⟨rest, p'⟩) := by
  obtain ⟨p', hp'⟩ := h.readStringFrom [] p
  exact ⟨p', by simpa [Json.readString] using hp'⟩

theorem Letter.length_lt (h : Letter x cs rest) : rest.length < cs.length := by
  cases h with
  | plain | short =>
      simp only [List.length_cons]
      omega
  | unit h =>
      obtain ⟨a, b, c, d, rfl, -⟩ := h.exists_digits
      simp only [List.length_cons]
      omega
  | pair _ _ _ h h' =>
      obtain ⟨a, b, c, d, rfl, -⟩ := h.exists_digits
      obtain ⟨a', b', c', d', rfl, -⟩ := h'.exists_digits
      simp only [List.length_cons]
      omega

theorem Letters.length_lt {xs : List Char} (h : Letters xs cs rest) : rest.length < cs.length := by
  induction h with
  | done => simp
  | more hx _ ih => exact Nat.lt_trans ih hx.length_lt

theorem Quoted.length_lt {s : String} (h : Quoted s cs rest) : rest.length < cs.length := by
  cases h with
  | mk h => exact Nat.lt_succ_of_lt h.length_lt

/-! Every string has a spelling. -/

theorem exists_codeUnit {n : Nat} (hn : n < 0x10000) (rest : List Char) :
    ∃ cs, CodeUnit n cs rest := by
  have hlength : "0123456789abcdef".toList.length = 16 := rfl
  have hdigit : ∀ d < 16, ∃ x, HexDigit d x :=
    fun d hd => ⟨_, .inl (List.getElem?_eq_getElem (hlength ▸ hd))⟩
  obtain ⟨a, ha⟩ := hdigit (n / 0x1000) (by omega)
  obtain ⟨b, hb⟩ := hdigit (n / 0x100 % 16) (by omega)
  obtain ⟨c, hc⟩ := hdigit (n / 0x10 % 16) (by omega)
  obtain ⟨d, hd⟩ := hdigit (n % 16) (by omega)
  have hsum : ((n / 0x1000 * 16 + n / 0x100 % 16) * 16 + n / 0x10 % 16) * 16 + n % 16 = n := by
    omega
  exact ⟨_, hsum ▸ CodeUnit.mk ha hb hc hd rest⟩

theorem exists_letter (x : Char) (rest : List Char) : ∃ cs, Letter x cs rest := by
  by_cases hplain : x ≠ '"' ∧ x ≠ '\\' ∧ ' ' ≤ x
  · exact ⟨_, .plain hplain.1 hplain.2.1 hplain.2.2 rest⟩
  · have hsmall : x.toNat < 0x10000 := by
      by_cases hquote : x = '"'
      · exact hquote ▸ (by decide)
      by_cases hslash : x = '\\'
      · exact hslash ▸ (by decide)
      have hcontrol : x < ' ' := Char.not_le.mp fun h => hplain ⟨hquote, hslash, h⟩
      have hlt : x.toNat < ' '.toNat := hcontrol
      exact Nat.lt_trans hlt (by decide)
    obtain ⟨cs, hcs⟩ := exists_codeUnit hsmall rest
    exact ⟨_, .unit hcs⟩

theorem exists_letters (xs rest : List Char) : ∃ cs, Letters xs cs rest := by
  induction xs with
  | nil => exact ⟨_, .done rest⟩
  | cons x xs ih =>
      obtain ⟨ds, hds⟩ := ih
      obtain ⟨cs, hcs⟩ := exists_letter x ds
      exact ⟨cs, .more hcs hds⟩

theorem exists_quoted (s : String) (rest : List Char) : ∃ cs, Quoted s cs rest := by
  obtain ⟨cs, hcs⟩ := exists_letters s.toList rest
  exact ⟨_, .mk hcs⟩

/-! ### Numbers -/

/-- What can follow a number: nothing that would belong to it. -/
def EndsNumber : List Char → Prop
  | [] => True
  | x :: _ => Numeral.isDigit x = false ∧ x ≠ '.' ∧ isPowerMark x = false

theorem EndsNumber.sees {q : Char → Bool} (h : EndsNumber rest)
    (hq : ∀ x, Numeral.isDigit x = false ∧ x ≠ '.' ∧ isPowerMark x = false → q x = false)
    (p : Position) : (⟨rest, p⟩ : Cursor).sees q = false := by
  cases rest with
  | nil => rfl
  | cons x rest => exact hq x h

/-- Only zero begins with a zero. -/
theorem digits_eq_cons (n : Nat) :
    ∃ x xs, Numeral.digits 10 n = x :: xs ∧ Numeral.isDigit x = true ∧ (x = '0' → n = 0) := by
  obtain ⟨x, xs, hxs, hzero⟩ :=
    Numeral.digits_eq_cons (show 2 ≤ 10 by decide) (show 10 ≤ 16 by decide) n
  exact ⟨x, xs, hxs, Numeral.isDigit_of_mem_digits n x (by simp [hxs]), hzero⟩

theorem le_valueFrom (start : Nat) (cs : List Char) : start ≤ Numeral.valueFrom 10 start cs := by
  induction cs generalizing start with
  | nil => exact Nat.le_refl _
  | cons x cs ih =>
      refine Nat.le_trans ?_ (ih (start * 10 + (Numeral.digit? 10 x).getD 0))
      omega

/-- Digits are taken in as long as their value has at most 64 bits. -/
theorem absorb_eq {start : Nat} (h : Numeral.valueFrom 10 start cs < 0x10000000000000000) :
    absorb start cs = (Numeral.valueFrom 10 start cs, cs.length) := by
  induction cs generalizing start with
  | nil => rfl
  | cons x cs ih =>
      have hlonger : start * 10 + (Numeral.digit? 10 x).getD 0 < 0x10000000000000000 :=
        Nat.lt_of_le_of_lt (le_valueFrom _ cs) h
      have hrest := ih h
      simp only [absorb, if_pos hlonger, hrest]
      rfl

theorem takeDigits_eq (hcs : ∀ x ∈ cs, Numeral.isDigit x = true) (hrest : EndsNumber rest)
    (p : Position) : ∃ p', (⟨cs ++ rest, p⟩ : Cursor).takeDigits = (cs, ⟨rest, p'⟩) := by
  have hend : ∀ x ∈ rest.head?, Numeral.isDigit x = false := by
    cases rest with
    | nil => simp
    | cons x rest => simpa using hrest.1
  have htake := Text.takeWhile_run hcs hend
  have hdrop := Text.dropWhile_run hcs hend
  exact ⟨_, by simp only [Cursor.takeDigits, htake, hdrop]; rfl⟩

theorem readWhole_digits (n : Nat) (hrest : EndsNumber rest) (p : Position) :
    ∃ p', readWhole ⟨Numeral.digits 10 n ++ rest, p⟩ = .ok (Numeral.digits 10 n, ⟨rest, p'⟩) := by
  obtain ⟨x, xs, hxs, hd, hzero⟩ := digits_eq_cons n
  by_cases hx : x = '0'
  · obtain rfl := hzero hx
    have hsees : (⟨rest, p.past '0'⟩ : Cursor).sees Numeral.isDigit = false :=
      hrest.sees (fun _ h => h.1) _
    exact ⟨p.past '0', by simp [readWhole, Numeral.digits, Numeral.digitsWithin, Numeral.digitOf,
      Cursor.advance, hsees]⟩
  · obtain ⟨p', hp'⟩ := takeDigits_eq (Numeral.isDigit_of_mem_digits n) hrest p
    refine ⟨p', ?_⟩
    simp only [readWhole, hp']
    simp [hxs, hx, hd]

/-- A natural number of at most 64 bits is read exactly. -/
theorem readFigure_digits {n : Nat} (hn : n < 0x10000000000000000) (hrest : EndsNumber rest)
    (p : Position) : ∃ p', readFigure false ⟨Numeral.digits 10 n ++ rest, p⟩ =
      .ok (.integer n, ⟨rest, p'⟩) := by
  obtain ⟨p', hp'⟩ := readWhole_digits n hrest p
  have hvalue : Numeral.valueFrom 10 0 (Numeral.digits 10 n) = n :=
    Numeral.value_digits (by decide) (by decide) n
  have habsorb := absorb_eq (hvalue ▸ hn)
  have hpoint : (⟨rest, p'⟩ : Cursor).sees (· = '.') = false :=
    hrest.sees (fun _ h => by simpa using h.2.1) p'
  have hmark : (⟨rest, p'⟩ : Cursor).sees isPowerMark = false := hrest.sees (fun _ h => h.2.2) p'
  refine ⟨p', ?_⟩
  simp [readFigure, hp', habsorb, hvalue, hpoint, hmark, integerOf?]

end TerminalGateway.Json
