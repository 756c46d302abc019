-- SUMMARY: The shortest decimal text that stands for a binary64 value.
import Worksheet.Binary64.Basic

/-!
# Shortest Decimal Text

A binary64 value is written with the fewest decimal digits that round to it,
and of those with the ones nearest to the value. Between `10 ^ -4` and
`10 ^ 16` the text has a point and at least one digit on each side of it;
otherwise it has an exponent of at least two digits.
-/

namespace Worksheet.Binary64

/-- A power of ten. -/
def tenPow (e : Int) : Rat :=
  if 0 ≤ e then (Nat.pow 10 e.toNat : Nat) else mkRat 1 (Nat.pow 10 (-e).toNat)

/-- The exponent of the leading decimal digit of a positive number. -/
def decimalExponent (q : Rat) : Int :=
  let e : Int := (Digits.count q.num.natAbs : Int) - Digits.count q.den
  if tenPow e ≤ q then e else e - 1

/-- The better of the two decimals of `n` digits around a positive value that
    round to it, as coefficient and exponent. -/
def candidate? (q : Rat) (n : Nat) : Option (Nat × Int) :=
  let e := decimalExponent q - n + 1
  let grid := tenPow e
  let below := (q / grid).floor.toNat
  let rest := q / grid - below
  let hits (c : Nat) : Bool := round (c * grid) = q
  match hits below, hits (below + 1) with
  | false, false => none
  | true, false => some (below, e)
  | false, true => some (below + 1, e)
  | true, true =>
    if rest < 1 / 2 then some (below, e)
    else if 1 / 2 < rest then some (below + 1, e)
    else some (below + below % 2, e)

/-- The shortest decimal that rounds to a positive value, without trailing zeros;
    seventeen digits always suffice. -/
def shortest (q : Rat) : Nat × Int :=
  let found := (List.range 17).findSome? (fun n => candidate? q (n + 1))
  let c := found.getD (0, 0)
  Decimal.stripZeros c.1 c.2

/-- Lay out the digits `c · 10 ^ e` of a positive value. -/
def layout (c : Nat) (e : Int) : List Char :=
  let digits := Digits.ofNat c
  let leading := e + digits.length - 1
  if -4 ≤ leading ∧ leading < 16 then
    let d : Decimal := ⟨false, c, e⟩
    if e < 0 then d.plain else d.plain ++ ['.', '0']
  else
    let point := match digits with
      | first :: second :: rest => first :: '.' :: second :: rest
      | ds => ds
    let sign := if leading < 0 then '-' else '+'
    point ++ ['e', sign] ++ Digits.padded 2 leading.natAbs

/-- The text of a value. -/
def text : Binary64 → List Char
  | .nan => ['n', 'a', 'n']
  | .infinity false => ['i', 'n', 'f']
  | .infinity true => ['-', 'i', 'n', 'f']
  | .finite q =>
    if q = 0 then ['0', '.', '0']
    else
      let s := shortest (magnitude q)
      (if q < 0 then ['-'] else []) ++ layout s.1 s.2

end Worksheet.Binary64
