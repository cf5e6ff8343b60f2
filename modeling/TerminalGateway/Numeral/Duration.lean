import TerminalGateway.Numeral.Digits

/-!
Spans of time as text, in the largest unit that leaves a whole part.
-/

namespace TerminalGateway.Numeral

/-- The decimals of a number of thousandths, without zeros at the end. -/
def thousandths (n : Nat) : List Char :=
  let ds := [digitOf (n / 100), digitOf (n / 10 % 10), digitOf (n % 10)]
  (ds.reverse.dropWhile (· = '0')).reverse

def duration (ms : Nat) : String :=
  if ms = 0 then "0ns"
  else if ms < 1000 then decimal ms ++ "ms"
  else
    let decimals := thousandths (ms % 1000)
    let point := if decimals.isEmpty then "" else "."
    decimal (ms / 1000) ++ point ++ String.ofList decimals ++ "s"

end TerminalGateway.Numeral
