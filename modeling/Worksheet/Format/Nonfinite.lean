-- SUMMARY: Infinity and not-a-number in a section.
import Worksheet.Format.Number
import Worksheet.Format.Section

/-!
# Values that are not Finite

Infinity and not-a-number are shown by their names where a section holds the word
General or an `@`. In places for digits nothing can be shown for them; what
fails first depends on the kind of the section.
-/

namespace Worksheet

inductive Nonfinite where
  | infinity (negative : Bool)
  /-- Not-a-number, with the digits of its payload. -/
  | nan (negative : Bool) (payload : List Char)
  /-- Not-a-number of the kind that no operation accepts. -/
  | signaling
deriving DecidableEq, Repr

namespace Nonfinite

/-- The digits of a payload without leading zeros. -/
def payload? (s : List Char) : Option (List Char) :=
  if s.all Char.isDigit then some (s.dropWhile (· = '0')) else none

/-- The value with a name, which is in lower case. -/
def named? (negative : Bool) : List Char → Option Nonfinite
  | 'n' :: 'a' :: 'n' :: digits => (payload? digits).map (.nan negative)
  | 's' :: 'n' :: 'a' :: 'n' :: digits => (payload? digits).map (fun _ => .signaling)
  | name =>
    if name = "inf".toList ∨ name = "infinity".toList then some (.infinity negative) else none

/-- The value that a text names, in any case and with an optional sign. -/
def parse? (s : List Char) : Option Nonfinite :=
  match Text.lowerAll (Text.trim s) with
  | '-' :: rest => named? true rest
  | '+' :: rest => named? false rest
  | rest => named? false rest

/-- A failure of the arithmetic. -/
def refused {α : Type} : Except Fault α := .error (.arithmetic .invalidOperation)

/-- The sign, which only infinity has. -/
def sign : Nonfinite → Except Fault Sign
  | .infinity negative => .ok (if negative then .negative else .positive)
  | _ => refused

/-- The last digits of a payload, as many as General shows of a number. -/
def shownPayload (payload : List Char) : List Char :=
  (payload.drop (payload.length - Format.General.digits)).dropWhile (· = '0')

/-- The name of a value. -/
def general : Nonfinite → Except Fault (List Char)
  | .infinity negative => .ok ((if negative then ['-'] else []) ++ "Infinity".toList)
  | .nan negative payload =>
    .ok ((if negative then ['-'] else []) ++ "NaN".toList ++ shownPayload payload)
  | .signaling => refused

/-- What fails in a fraction. -/
def fractionFault (s : Format.Fraction.Shape) : Nonfinite → Fault
  | .infinity _ =>
    if s.isFixed && (Integer.natural? s.denominator).isNone then .unreadableNumeral
    else if s.isFixed && s.whole.isEmpty then .arithmetic .invalidOperation
    else .tooLarge
  | .nan _ _ => .unreadableNumeral
  | .signaling => .arithmetic .invalidOperation

/-- What fails in a body other than a fraction. -/
def bodyFault (body : List Format.NumberToken) : Nonfinite → Fault
  | .nan _ _ =>
    if !body.any Format.NumberToken.isMark && !(Format.Fixed.fractionPlaces body).isEmpty
    then .noDigits else .arithmetic .invalidOperation
  | _ => .arithmetic .invalidOperation

/-- A value in a layout: there is nothing that could be shown. -/
def inLayout (v : Nonfinite) (l : Format.Layout) : Except Fault (List Char) :=
  match Format.Fraction.Shape.ofBody? l.body with
  | some s => .error (v.fractionFault s)
  | none => .error (v.bodyFault l.body)

/-- A value in a cleaned section. -/
def text (v : Nonfinite) (s : List Char) : Except Fault (List Char) :=
  Format.inSection v.general v.inLayout s

end Nonfinite

end Worksheet
