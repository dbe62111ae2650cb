/-
The spellings of TOML numbers and dates.
-/
import SqlScript.Toml.Value

namespace SqlScript.Toml

/-- Digits of some kind, with single underscores between them. -/
def isDigitRun (digit : Char → Bool) : Text → Bool
  | [] => false
  | [c] => digit c
  | c :: '_' :: rest => digit c && isDigitRun digit rest
  | c :: rest => digit c && isDigitRun digit rest

/-- The text behind a sign, if there is one. -/
def unsigned : Text → Text
  | '+' :: rest => rest
  | '-' :: rest => rest
  | t => t

/-- Decimal digits without a leading zero. -/
def isDecimal (t : Text) : Bool :=
  t == ['0'] || (t.head? != some '0' && isDigitRun Char.isDigit t)

/-- The value of digits in some base; underscores do not count. -/
def valueOf (base : Nat) (digits : Text) : Nat :=
  (digits.filterMap hexValue?).foldl (fun n digit => base * n + digit) 0

/-- The number that an integer is spelled for. -/
def integer? (t : Text) : Option Int :=
  match t with
  | '0' :: 'x' :: digits =>
      if isDigitRun (fun c => (hexValue? c).isSome) digits then some (valueOf 16 digits) else none
  | '0' :: 'o' :: digits =>
      if isDigitRun (fun c => '0' ≤ c && c ≤ '7') digits then some (valueOf 8 digits) else none
  | '0' :: 'b' :: digits =>
      if isDigitRun (fun c => c == '0' || c == '1') digits then some (valueOf 2 digits) else none
  | t =>
      if isDecimal (unsigned t) then
        let size : Int := valueOf 10 (unsigned t)
        some (if t.head? = some '-' then -size else size)
      else none

/-- Integers have 128 bits, with a sign or without. -/
def fitsInteger : Int → Bool
  | .ofNat n => n < Nat.pow 2 128
  | .negSucc n => n < Nat.pow 2 127

/-- An integer that is not too large. -/
def isInteger (t : Text) : Bool :=
  match integer? t with
  | some n => fitsInteger n
  | none => false

/-- The number that an exponent is spelled for; without one it is zero. -/
def exponent? : Text → Option Int
  | [] => some 0
  | c :: rest =>
      if (c == 'e' || c == 'E') && isDigitRun Char.isDigit (unsigned rest) then
        let size : Int := valueOf 10 (unsigned rest)
        some (if rest.head? = some '-' then -size else size)
      else none

def isDecimalChar (c : Char) : Bool :=
  c.isDigit || c == '_'

/-- A decimal number apart from its sign: `digits` times ten to the
`exponent`. -/
structure Scientific where
  digits : Nat
  exponent : Int
deriving Repr, DecidableEq

/-- The number that a decimal with a fraction, an exponent or both is spelled
for, apart from its sign. -/
def scientific? (t : Text) : Option Scientific :=
  let whole := t.takeWhile isDecimalChar
  if isDecimal whole then
    match t.dropWhile isDecimalChar with
    | [] => none
    | '.' :: rest =>
        let fraction := rest.takeWhile isDecimalChar
        if isDigitRun Char.isDigit fraction then
          (exponent? (rest.dropWhile isDecimalChar)).map fun exponent =>
            ⟨valueOf 10 (whole ++ fraction), exponent - (fraction.filter Char.isDigit).length⟩
        else none
    | rest => (exponent? rest).map fun exponent => ⟨valueOf 10 whole, exponent⟩
  else none

/-- The least size that is too large for a number in binary with 53 digits and
exponents up to 1023: what is halfway from the largest to the next power of two
rounds up. -/
def overflowSize : Nat := (Nat.pow 2 54 - 1) * Nat.pow 2 970

namespace Scientific

/-- How many decimal digits stand in front of the point. -/
def magnitude (s : Scientific) : Int :=
  (Nat.toDigits 10 s.digits).length + s.exponent

/-- A number is finite when its size rounds to one that can be represented.
Outside of two magnitudes the number of its digits decides. -/
def isFinite (s : Scientific) : Bool :=
  if s.digits = 0 ∨ s.magnitude ≤ 308 then true
  else if 310 < s.magnitude then false
  else if 0 ≤ s.exponent then s.digits * Nat.pow 10 s.exponent.toNat < overflowSize
  else s.digits < overflowSize * Nat.pow 10 (-s.exponent).toNat

example : isFinite ⟨17976931348623158, 292⟩ = true := by decide +kernel

example : isFinite ⟨17976931348623159, 292⟩ = false := by decide +kernel

end Scientific

/-- A decimal with a fraction, an exponent or both that is not too large, or
one of the special numbers. -/
def isFloat (t : Text) : Bool :=
  let t := unsigned t
  t == ['i', 'n', 'f'] || t == ['n', 'a', 'n'] ||
    match scientific? t with
    | some s => s.isFinite
    | none => false

/-- The value of some decimal digits, if they are all digits. -/
def digits? (t : Text) : Option Nat :=
  if t.all Char.isDigit then some (t.foldl (fun n c => 10 * n + (c.toNat - '0'.toNat)) 0)
  else none

/-- How many days a month has. -/
def daysIn (year month : Nat) : Nat :=
  if month = 2 then
    if year % 4 = 0 ∧ (year % 100 ≠ 0 ∨ year % 400 = 0) then 29 else 28
  else if month = 4 ∨ month = 6 ∨ month = 9 ∨ month = 11 then 30
  else 31

/-- A day of the calendar, as year, month and day. -/
def isDay (t : Text) : Bool :=
  match digits? (t.take 4), digits? ((t.drop 5).take 2), digits? (t.drop 8) with
  | some year, some month, some day =>
      t.length == 10 && t[4]? == some '-' && t[7]? == some '-'
        && 1 ≤ month && month ≤ 12 && 1 ≤ day && day ≤ daysIn year month
  | _, _, _ => false

/-- An hour and a minute. -/
def isHourMinute (t : Text) : Bool :=
  match digits? (t.take 2), digits? (t.drop 3) with
  | some hour, some minute =>
      t.length == 5 && t[2]? == some ':' && hour ≤ 23 && minute ≤ 59
  | _, _ => false

/-- Seconds behind an hour and a minute, with a fraction or without; or
nothing. -/
def isSeconds : Text → Bool
  | [] => true
  | ':' :: rest =>
      let second := rest.take 2
      second.length == 2 && (match digits? second with
        | some n => n ≤ 60
        | none => false)
      && (match rest.drop 2 with
        | [] => true
        | '.' :: fraction => fraction != [] && fraction.all Char.isDigit
        | _ => false)
  | _ => false

/-- A time of the day. -/
def isTime (t : Text) : Bool :=
  isHourMinute (t.take 5) && isSeconds (t.drop 5)

/-- The text in front of an offset from universal time, if it ends with one. -/
def withoutOffset (t : Text) : Text :=
  match t.reverse with
  | 'Z' :: before => before.reverse
  | 'z' :: before => before.reverse
  | _ =>
      let before := t.take (t.length - 6)
      let offset := t.drop (t.length - 6)
      match offset with
      | '+' :: time => if isHourMinute time then before else t
      | '-' :: time => if isHourMinute time then before else t
      | _ => t

/-- A day, a time of the day, or both with an offset or without. -/
def isDate (t : Text) : Bool :=
  isDay t || isTime t || (isDay (t.take 10) &&
    match t.drop 10 with
    | c :: time => (c == 'T' || c == 't' || c == ' ') && isTime (withoutOffset time)
    | [] => false)

/-- Characters that values without quotes are made of. -/
def isUnquotedChar (c : Char) : Bool :=
  c.isAlphanum || c == '_' || c == '-' || c == '+' || c == '.' || c == ':'

/-- The value that an unquoted spelling stands for. -/
def unquoted? (t : Text) : Option Value :=
  if t = ['t', 'r', 'u', 'e'] then some (.boolean true)
  else if t = ['f', 'a', 'l', 's', 'e'] then some (.boolean false)
  else if isInteger t || isFloat t then some (.number t)
  else if isDate t then some (.date t)
  else none

end SqlScript.Toml
