-- SUMMARY: The tokens of a section that shows dates.
import Worksheet.Text.Case

/-!
# Tokens of a Date Section

Runs of one of the letters y, m, d, h and s stand for parts of a date or time.
A run of m is a month or a minute, which only the parts around it tell. So a
section is first scanned into runs by letter, and then each run is resolved to
the part that it shows.
-/

namespace Worksheet.Format

/-- The letters that stand for parts of a date. -/
inductive DateLetter where
  | y
  | m
  | d
  | h
  | s
deriving DecidableEq, Repr

/-- The letter that a character is, in any case. -/
def DateLetter.ofChar? (c : Char) : Option DateLetter :=
  if c = 'y' ∨ c = 'Y' then some .y
  else if c = 'm' ∨ c = 'M' then some .m
  else if c = 'd' ∨ c = 'D' then some .d
  else if c = 'h' ∨ c = 'H' then some .h
  else if c = 's' ∨ c = 'S' then some .s
  else none

/-- The parts of a date and of a time of day. -/
inductive DatePart where
  | year
  | month
  | day
  | hour
  | minute
  | second
deriving DecidableEq, Repr

/-- The units in which elapsed time is counted. -/
inductive ElapsedUnit where
  | hours
  | minutes
  | seconds
deriving DecidableEq, Repr

def ElapsedUnit.letter : ElapsedUnit → Char
  | .hours => 'h'
  | .minutes => 'm'
  | .seconds => 's'

/-- The unit of a bracket code: a run of one letter. -/
def ElapsedUnit.ofCode? (code : List Char) : Option ElapsedUnit :=
  [ElapsedUnit.hours, .minutes, .seconds].find? fun u =>
    !code.isEmpty && code.all (· = u.letter)

/-- A token, whose runs are of kind `κ`. -/
inductive DateToken (κ : Type) where
  | run (kind : κ) (text : List Char)
  /-- Decimals of the second. -/
  | fraction (width : Nat)
  | elapsed (unit : ElapsedUnit) (width : Nat)
  /-- The mark AM or PM. -/
  | halfDay (text : List Char)
  /-- The first letter of that mark. -/
  | halfDayLetter (text : List Char)
  | literal (text : List Char)
deriving DecidableEq, Repr

namespace DateToken

variable {κ : Type}

/-- The text of a token, without brackets and the point of decimals. -/
def text : DateToken κ → List Char
  | .run _ text => text
  | .fraction width => List.replicate width '0'
  | .elapsed unit width => List.replicate width unit.letter
  | .halfDay text => text
  | .halfDayLetter text => text
  | .literal text => text

/-- The same token with runs of another kind. -/
def mapKind {μ : Type} (f : κ → List Char → μ) : DateToken κ → DateToken μ
  | .run kind text => .run (f kind text) text
  | .fraction width => .fraction width
  | .elapsed unit width => .elapsed unit width
  | .halfDay text => .halfDay text
  | .halfDayLetter text => .halfDayLetter text
  | .literal text => .literal text

@[simp] theorem text_mapKind {μ : Type} (f : κ → List Char → μ) (t : DateToken κ) :
    (t.mapKind f).text = t.text := by
  cases t <;> rfl

def isLiteral : DateToken κ → Bool
  | .literal _ => true
  | _ => false

/-! ## Scanning -/

/-- Whether a token shows hours. -/
def isHour : DateToken DateLetter → Bool
  | .run .h _ => true
  | .elapsed .hours _ => true
  | _ => false

/-- Whether a token shows seconds. -/
def isSecond : DateToken DateLetter → Bool
  | .run .s _ => true
  | .elapsed .seconds _ => true
  | _ => false

/-- The token of a text that begins with an opening bracket, if it has one, and
    how many characters after the bracket are used up. -/
def bracketed (rest : List Char) : Option (DateToken DateLetter) × Nat :=
  let code := rest.takeWhile (· ≠ ']')
  if code.length = rest.length then (some (.literal ('[' :: rest)), rest.length)
  else ((ElapsedUnit.ofCode? (Text.lowerAll code)).map (.elapsed · code.length), code.length + 1)

/-- The token of a text that begins with `c` and goes on with `rest`, if it has
    one, and how many characters of the rest are used up. Decimals come only
    after seconds. -/
def first (afterSecond : Bool) (c : Char) (rest : List Char) :
    Option (DateToken DateLetter) × Nat :=
  if c = '[' then bracketed rest
  else if c = '\\' ∧ rest ≠ [] then (some (.literal (rest.take 1)), 1)
  else if Text.upperAll (c :: rest.take 4) = "AM/PM".toList then
    (some (.halfDay (c :: rest.take 4)), 4)
  else if Text.upperAll (c :: rest.take 2) = "A/P".toList then
    (some (.halfDayLetter (c :: rest.take 2)), 2)
  else match DateLetter.ofChar? c with
    | some l =>
      let more := rest.takeWhile (fun x => DateLetter.ofChar? x = some l)
      (some (.run l (c :: more)), more.length)
    | none =>
      if c = '.' ∧ afterSecond = true ∧ rest.head? = some '0' then
        let zeros := rest.takeWhile (· = '0')
        (some (.fraction zeros.length), zeros.length)
      else (some (.literal [c]), 0)

/-- The tokens of a text after some characters that are used up already. -/
def scan : Bool → Nat → List Char → List (DateToken DateLetter)
  | _, _, [] => []
  | afterSecond, used + 1, _ :: rest => scan afterSecond used rest
  | afterSecond, 0, c :: rest =>
    match first afterSecond c rest with
    | (some t, used) => t :: scan t.isSecond used rest
    | (none, used) => scan afterSecond used rest

/-! ## Resolving -/

/-- Whether the next token that is not literal shows seconds. -/
def beforeSecond (ts : List (DateToken DateLetter)) : Bool :=
  (ts.find? (!·.isLiteral)).any isSecond

/-- The part that a run shows. One or two letters m are a minute after an hour or
    before a second. -/
def partOf (afterHour beforeSecond : Bool) (l : DateLetter) (width : Nat) : DatePart :=
  match l with
  | .y => .year
  | .d => .day
  | .h => .hour
  | .s => .second
  | .m => if width ≤ 2 ∧ (afterHour || beforeSecond) = true then .minute else .month

/-- Resolve the runs. The flag says that the last token before, literals apart,
    shows hours. -/
def resolve : Bool → List (DateToken DateLetter) → List (DateToken DatePart)
  | _, [] => []
  | afterHour, t :: rest =>
    t.mapKind (fun l text => partOf afterHour (beforeSecond rest) l text.length)
      :: resolve (if t.isLiteral then afterHour else t.isHour) rest

/-- The tokens of a section. -/
def ofSection (s : List Char) : List (DateToken DatePart) := resolve false (scan false 0 s)

end DateToken

end Worksheet.Format
