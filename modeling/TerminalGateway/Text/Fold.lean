/-!
Text without the difference of letter case, for looking up words of ASCII letters.
-/

namespace TerminalGateway.Text

/-- The small form of a character. Besides the capital ASCII letters only the Kelvin sign and
the dotted capital I have ASCII letters in their small forms; every other character stays as it
is, which no search for an ASCII word can tell from its small form. -/
def smallForm (c : Char) : List Char :=
  if 'A' ≤ c ∧ c ≤ 'Z' then [c.toLower]
  else if c = '\u212a' then ['k']
  else if c = '\u0130' then ['i', '\u0307']
  else [c]

def fold (cs : List Char) : List Char :=
  cs.flatMap smallForm

@[simp] theorem fold_append (a b : List Char) : fold (a ++ b) = fold a ++ fold b := by
  simp [fold]

/-- Equality up to the case of ASCII letters. -/
def sameWord (a b : String) : Bool :=
  a.toList.map Char.toLower == b.toList.map Char.toLower

end TerminalGateway.Text
