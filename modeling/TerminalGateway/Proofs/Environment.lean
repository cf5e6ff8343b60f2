import Mathlib.Computability.RegularExpressions
import Mathlib.Data.List.Basic
import TerminalGateway.Environment
import TerminalGateway.Proofs.Text.Split
import TerminalGateway.Text.Utf8

/-!
What a client's environment is reduced to, and what a list of variables in a request stands for.
The reduction keeps the first permitted pairs, so it can be made in parts and made again without a
difference. A list is read entry by entry, and each list that can be written is read back.
-/

namespace TerminalGateway.Environment

open RegularExpression

/-! ### Permitted pairs -/

/-- One of some characters. -/
def oneOf (cs : List Char) : RegularExpression Char := (cs.map .char).sum

def nameStarts : List Char := "ABCDEFGHIJKLMNOPQRSTUVWXYZ_abcdefghijklmnopqrstuvwxyz".toList

def nameParts : List Char := "0123456789".toList ++ nameStarts

/-- The names of variables: a letter or an underscore, then letters, underscores and digits. -/
def namePattern : RegularExpression Char := oneOf nameStarts * star (oneOf nameParts)

/-- A pair that may reach a server; sizes are of the octets of its texts. -/
structure Permitted (allowlist : List String) (p : String × String) : Prop where
  listed : allowlist = [] ∨ p.1 ∈ allowlist
  name : p.1.toList ∈ namePattern.matches'
  nameSize : (Text.Utf8.encode p.1.toList).length ≤ 32
  valueSize : (Text.Utf8.encode p.2.toList).length ≤ 512

theorem mem_oneOf {cs x : List Char} : x ∈ (oneOf cs).matches' ↔ ∃ c ∈ cs, x = [c] := by
  induction cs with
  | nil => simp [oneOf]
  | cons c cs ih =>
      rw [oneOf, List.map_cons, List.sum_cons, matches'_add, Language.mem_add, ← oneOf, ih]
      exact (or_congr_left Set.mem_singleton_iff).trans (by simp)

theorem mem_star_oneOf {cs x : List Char} :
    x ∈ (star (oneOf cs)).matches' ↔ ∀ c ∈ x, c ∈ cs := by
  rw [matches'_star, Language.mem_kstar]
  constructor
  · rintro ⟨parts, rfl, hparts⟩ c hc
    obtain ⟨part, hpart, hc⟩ := List.mem_flatten.mp hc
    obtain ⟨d, hd, rfl⟩ := mem_oneOf.mp (hparts part hpart)
    rwa [List.mem_singleton.mp hc]
  · intro hx
    have hparts : x = (x.map List.singleton).flatten := (List.flatMap_singleton' x).symm
    refine ⟨_, hparts, fun part hpart => ?_⟩
    obtain ⟨c, hc, rfl⟩ := List.mem_map.mp hpart
    exact mem_oneOf.mpr ⟨c, hx c hc, rfl⟩

theorem char_toNat_injective : Function.Injective Char.toNat :=
  Function.LeftInverse.injective Char.ofNat_toNat

theorem char_le_iff {a b : Char} : a ≤ b ↔ a.toNat ≤ b.toNat := Iff.rfl

theorem isNameStart_iff {c : Char} : isNameStart c = true ↔ c ∈ nameStarts := by
  have hcodes : nameStarts.map Char.toNat = List.range' 65 26 ++ 95 :: List.range' 97 26 := by
    decide
  have hunderscore : c = '_' ↔ c.toNat = 95 := (char_toNat_injective.eq_iff (b := '_')).symm
  rw [← List.mem_map_of_injective char_toNat_injective, hcodes]
  simp only [isNameStart, Bool.or_eq_true, Bool.and_eq_true, decide_eq_true_eq, char_le_iff,
    hunderscore, List.mem_append, List.mem_cons, List.mem_range'_1, Char.reduceToNat]
  omega

theorem isNamePart_iff {c : Char} :
    (isNameStart c || ('0' ≤ c && c ≤ '9')) = true ↔ c ∈ nameParts := by
  have hcodes : "0123456789".toList.map Char.toNat = List.range' 48 10 := by decide
  have hdigit : c ∈ "0123456789".toList ↔ '0' ≤ c ∧ c ≤ '9' := by
    rw [← List.mem_map_of_injective char_toNat_injective, hcodes, List.mem_range'_1]
    simp only [char_le_iff, Char.reduceToNat]
    omega
  have hparts : c ∈ nameParts ↔ ('0' ≤ c ∧ c ≤ '9') ∨ isNameStart c = true :=
    List.mem_append.trans (or_congr hdigit isNameStart_iff.symm)
  rw [hparts, Bool.or_eq_true, Bool.and_eq_true, decide_eq_true_eq, decide_eq_true_eq, or_comm]

theorem isName_iff {cs : List Char} : isName cs = true ↔ cs ∈ namePattern.matches' := by
  rw [namePattern, matches'_mul, Language.mem_mul]
  simp only [mem_oneOf, mem_star_oneOf]
  cases cs with
  | nil => simp [isName]
  | cons c cs =>
      have hname : isName (c :: cs) = true ↔ c ∈ nameStarts ∧ ∀ d ∈ cs, d ∈ nameParts := by
        rw [isName, Bool.and_eq_true, List.all_eq_true, isNameStart_iff]
        exact and_congr_right fun _ => forall₂_congr fun d _ => isNamePart_iff
      rw [hname]
      constructor
      · rintro ⟨hc, hcs⟩
        exact ⟨[c], ⟨c, hc, rfl⟩, cs, hcs, rfl⟩
      · rintro ⟨_, ⟨d, hd, rfl⟩, rest, hrest, heq⟩
        obtain ⟨rfl, rfl⟩ : d = c ∧ rest = cs := List.cons.inj heq
        exact ⟨hd, hrest⟩

theorem utf8ByteSize_eq (s : String) : s.utf8ByteSize = (Text.Utf8.encode s.toList).length := by
  have hbytes : s.toByteArray = s.toList.utf8Encode := by simp
  rw [← String.size_toByteArray, hbytes, List.utf8Encode, List.size_toByteArray]
  rfl

variable {allowlist : List String} {p : String × String}

theorem isAllowed_iff : isAllowed allowlist p = true ↔ Permitted allowlist p := by
  simp only [isAllowed, Bool.and_eq_true, Bool.or_eq_true, decide_eq_true_eq, List.isEmpty_iff,
    List.contains_iff_mem, isName_iff, utf8ByteSize_eq, nameLimit, valueLimit]
  constructor
  · rintro ⟨⟨⟨hlisted, hname⟩, hsize⟩, hvalue⟩
    exact ⟨hlisted, hname, hsize, hvalue⟩
  · rintro ⟨hlisted, hname, hsize, hvalue⟩
    exact ⟨⟨⟨hlisted, hname⟩, hsize⟩, hvalue⟩

instance : DecidablePred (Permitted allowlist) := fun _ => decidable_of_iff _ isAllowed_iff

theorem restrict_eq (allowlist : List String) (pairs : Pairs) :
    restrict allowlist pairs = (pairs.filter (Permitted allowlist ·)).take 50 := by
  have hsame : isAllowed allowlist = fun p => decide (Permitted allowlist p) := by
    funext p
    rw [Bool.eq_iff_iff, isAllowed_iff, decide_eq_true_iff]
  rw [restrict, hsame, pairLimit]

theorem filter_restrict (allowlist : List String) (pairs : Pairs) :
    (restrict allowlist pairs).filter (Permitted allowlist ·) = restrict allowlist pairs := by
  refine List.filter_eq_self.mpr fun p hp => ?_
  rw [restrict_eq] at hp
  exact (List.mem_filter.mp (List.mem_of_mem_take hp)).2

/-- The reduction keeps the first fifty permitted pairs as they came. A pair that is not permitted
counts for nothing, wherever it stands. -/
theorem restrict_keeps_first (allowlist : List String) (a b : Pairs) :
    restrict allowlist a = (a.filter (Permitted allowlist ·)).take 50 ∧
      restrict allowlist (restrict allowlist a) = restrict allowlist a ∧
      (∀ p, ¬ Permitted allowlist p →
        restrict allowlist (a ++ p :: b) = restrict allowlist (a ++ b)) ∧
      restrict allowlist (a ++ b) =
        (restrict allowlist a ++ restrict allowlist b).take 50 := by
  refine ⟨restrict_eq allowlist a, ?_, fun p hp => ?_, ?_⟩
  · rw [restrict_eq allowlist (restrict allowlist a), filter_restrict, restrict_eq, List.take_take]
    rfl
  · simp [restrict_eq, hp]
  · simp only [restrict_eq, List.filter_append, List.take_append, List.take_take,
      List.length_take]
    congr 2
    omega

/-! ### Lists of pairs -/

/-- A pair that a list can hold as it is. -/
structure Listable (p : String × String) : Prop where
  name : ∀ c ∈ p.1.toList, c ≠ ',' ∧ c ≠ ':'
  trimmed : Text.Trimmed p.1.toList
  value : ',' ∉ p.2.toList

/-- Pairs as a list such as `LANG:C,TERM:vt100`. -/
def listText (pairs : Pairs) : String :=
  ",".intercalate (pairs.map fun p => p.1 ++ ":" ++ p.2)

theorem ofList_append (s t : String) : ofList (s ++ "," ++ t) = ofList s ++ ofList t := by
  have hcs : (s ++ "," ++ t).toList = s.toList ++ ',' :: t.toList := by simp
  rw [ofList, hcs, Text.pieces_append, List.filterMap_append, ofList, ofList]

/-- An entry is cut at its first colon; whatever stands behind that is the value. -/
theorem pair?_eq_some_iff {entry : List Char} :
    pair? entry = some p ↔ ∃ name, ':' ∉ name ∧ entry = name ++ ':' :: p.2.toList ∧
      p.1 = String.ofList (Text.trim name) := by
  rw [pair?, Option.map_eq_some_iff]
  constructor
  · rintro ⟨⟨name, value⟩, hcut, rfl⟩
    obtain ⟨hentry, hname⟩ := Text.cut?_eq_some_iff.mp hcut
    exact ⟨name, hname, by simpa using hentry, rfl⟩
  · rintro ⟨name, hname, hentry, hp⟩
    refine ⟨(name, p.2.toList), Text.cut?_eq_some_iff.mpr ⟨hentry, hname⟩, ?_⟩
    simp only [String.ofList_toList, ← hp]

theorem pair?_eq_none {entry : List Char} (h : ':' ∉ entry) : pair? entry = none := by
  rw [pair?, Text.cut?_eq_none_iff.mpr h, Option.map_none]

theorem pair?_of_listable (h : Listable p) :
    pair? (p.1 ++ ":" ++ p.2).toList = some p := by
  refine pair?_eq_some_iff.mpr ⟨p.1.toList, fun hm => (h.name _ hm).2 rfl, by simp, ?_⟩
  rw [Text.trim_eq_self_iff.mpr h.trimmed, String.ofList_toList]

/-- Whatever stands in a list, its pairs are such as could have been written. -/
theorem listable_of_mem_ofList {list : String} (h : p ∈ ofList list) : Listable p := by
  obtain ⟨entry, hentry, hp⟩ := List.mem_filterMap.mp h
  obtain ⟨name, hname, rfl, hfirst⟩ := pair?_eq_some_iff.mp hp
  have hcomma := Text.notMem_of_mem_pieces hentry
  rw [List.mem_append, List.mem_cons, not_or, not_or] at hcomma
  obtain ⟨as, bs, -, htrim⟩ := Text.padded_trim name
  have hsub : ∀ c ∈ p.1.toList, c ∈ name := by
    rw [hfirst, String.toList_ofList]
    intro c hc
    rw [htrim]
    simp [hc]
  refine ⟨fun c hc => ⟨?_, ?_⟩, ?_, hcomma.2.2⟩
  · rintro rfl
    exact hcomma.1 (hsub _ hc)
  · rintro rfl
    exact hname (hsub _ hc)
  · rw [hfirst, String.toList_ofList]
    exact Text.trimmed_trim name

theorem ofList_eq_nil {list : String} (h : ':' ∉ list.toList) : ofList list = [] := by
  refine List.filterMap_eq_nil_iff.mpr fun entry hentry => pair?_eq_none fun hm => ?_
  have hcolon : ∀ c ∈ list.toList, c = ',' ∨ c ≠ ':' :=
    fun c hc => .inr fun heq => h (heq ▸ hc)
  exact Text.forall_pieces.mpr hcolon entry hentry ':' hm rfl

theorem pieces_listText {pairs : Pairs} (h : ∀ p ∈ pairs, Listable p) (hne : pairs ≠ []) :
    Text.pieces ',' (listText pairs).toList =
      pairs.map fun p => (p.1 ++ ":" ++ p.2).toList := by
  have hcomma : ∀ entry ∈ pairs.map fun p => (p.1 ++ ":" ++ p.2).toList, ',' ∉ entry := by
    intro entry hentry
    obtain ⟨p, hp, rfl⟩ := List.mem_map.mp hentry
    have hname : ',' ∉ p.1.toList := fun hm => ((h p hp).name _ hm).1 rfl
    simp [hname, (h p hp).value]
  have htext : (listText pairs).toList =
      [','].intercalate (pairs.map fun p => (p.1 ++ ":" ++ p.2).toList) := by
    rw [listText, String.toList_intercalate, List.map_map]
    rfl
  rw [htext, Text.pieces_intercalate hcomma (by simpa using hne)]

theorem ofList_listText {pairs : Pairs} (h : ∀ p ∈ pairs, Listable p) :
    ofList (listText pairs) = pairs := by
  by_cases hne : pairs = []
  · subst hne
    decide
  · calc ofList (listText pairs)
        = (pairs.map fun p => (p.1 ++ ":" ++ p.2).toList).filterMap pair? := by
          rw [ofList, pieces_listText h hne]
      _ = pairs.filterMap some := by
          rw [List.filterMap_map]
          exact List.filterMap_congr fun p hp => pair?_of_listable (h p hp)
      _ = pairs := List.filterMap_some

/-- A list gives back exactly the pairs that it can hold as they are. Lists are read one after
another, and what has no colon counts for nothing wherever it stands. -/
theorem ofList_reads_back :
    (∀ pairs, ofList (listText pairs) = pairs ↔ ∀ p ∈ pairs, Listable p) ∧
      (∀ s t, ofList (s ++ "," ++ t) = ofList s ++ ofList t) ∧
      ∀ s entry t, ':' ∉ entry.toList → ofList (s ++ "," ++ entry ++ "," ++ t) =
        ofList s ++ ofList t := by
  refine ⟨fun pairs => ⟨fun h p hp => ?_, ofList_listText⟩, ofList_append, fun s entry t he => ?_⟩
  · exact listable_of_mem_ofList (h ▸ hp)
  · rw [ofList_append, ofList_append, ofList_eq_nil he, List.append_nil]

end TerminalGateway.Environment
