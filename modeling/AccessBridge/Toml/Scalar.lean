import AccessBridge.Toml.Lexis

/-!
# Numbers, dates and times

Integers are signed and have 64 bits. A float is kept as the decimal number that it is written
as; one that no double can hold is refused when it is positive.
-/

namespace AccessBridge.Toml

open Reader

/-! ## Numbers -/

/-- Takes a sign; a missing one is positive. -/
def sign : Reader Bool := do
  match ← optional (one fun c => c == '+' || c == '-') with
  | some '-' => pure true
  | _ => pure false

/-- Takes digits of a class, where an underscore may stand between any two of them. -/
def digits (isDigit : Char → Bool) : Reader (List Char) := do
  let d ← one isDigit
  let ds ← many (do let _ ← optional (char '_'); one isDigit)
  pure (d :: ds)

/-- Takes digits without a leading zero, or a zero alone. -/
def decimalDigits : Reader (List Char) :=
  (do char '0'; pure ['0']) <|> digits Char.isDigit

/-- An integer that has 64 bits. -/
def integer64 (negative : Bool) (n : Nat) : Option Value :=
  let i : Int := if negative then -n else n
  if -0x8000000000000000 ≤ i ∧ i < 0x8000000000000000 then some (.integer i) else none

/-- Takes the digits of an integer in a base. -/
def integerIn (base : Nat) (isDigit : Char → Bool) : Reader Value := do
  let ds ← digits isDigit
  liftM (integer64 false (ofDigits base ds))

/-- Takes an integer. Only decimal ones have a sign. -/
def integer : Reader Value := do
  match (← rest).take 2 with
  | ['0', 'x'] => word "0x"; integerIn 16 fun c => (hexDigit? c).isSome
  | ['0', 'o'] => word "0o"; integerIn 8 fun c => '0' ≤ c && c ≤ '7'
  | ['0', 'b'] => word "0b"; integerIn 2 fun c => c == '0' || c == '1'
  | _ =>
    let negative ← sign
    let ds ← decimalDigits
    liftM (integer64 negative (ofDigits 10 ds))

/-- Whether `digits · 10 ^ exponent` is too large for a double, even after rounding. The largest
    double is 2^1024 - 2^971, and from half a step above it on numbers round up to infinity. -/
def overflows (digits : Nat) (exponent : Int) : Bool :=
  if digits = 0 then false
  else
    let places : Int := (Nat.toDigits 10 digits).length + exponent
    if places > 400 then true
    else if places < 300 then false
    else
      let bound := 1 <<< 1024 - 1 <<< 970
      if 0 ≤ exponent then decide (bound ≤ digits * Nat.pow 10 exponent.toNat)
      else decide (bound * Nat.pow 10 (-exponent).toNat ≤ digits)

/-- Takes the exponent of a float. -/
def exponent : Reader Int := do
  let _ ← one fun c => c == 'e' || c == 'E'
  let negative ← sign
  let ds ← digits Char.isDigit
  let n : Int := ofDigits 10 ds
  pure (if negative then -n else n)

/-- Takes a float: an integer with a fraction, an exponent, or both. -/
def decimalFloat : Reader Real := do
  let negative ← sign
  let whole ← decimalDigits
  let fraction ← optional (do char '.'; digits Char.isDigit)
  let exp ← optional exponent
  if fraction.isNone && exp.isNone then failure
  else
    let places := fraction.getD []
    let value := ofDigits 10 (whole ++ places)
    let scale := exp.getD 0 - places.length
    if !negative && overflows value scale then failure
    else pure (.decimal negative value scale)

/-- Takes infinity or the number that is none. -/
def specialFloat : Reader Real := do
  let negative ← sign
  (do word "inf"; pure (.infinity negative)) <|> (do word "nan"; pure .nan)

/-! ## Dates and times -/

/-- Takes a number of a fixed count of digits, in a range. -/
def fixed (count low high : Nat) : Reader Nat := do
  let n := ofDigits 10 (← exactly Char.isDigit count)
  if low ≤ n ∧ n ≤ high then pure n else failure

/-- Whether a year has a leap day. -/
def isLeap (year : Nat) : Bool := year % 4 == 0 && (year % 100 != 0 || year % 400 == 0)

/-- The days of a month. -/
def daysIn (year month : Nat) : Nat :=
  match month with
  | 2 => if isLeap year then 29 else 28
  | 4 | 6 | 9 | 11 => 30
  | _ => 31

/-- Takes a date. -/
def date : Reader Date := do
  let year ← fixed 4 0 9999
  char '-'
  let month ← fixed 2 1 12
  char '-'
  let day ← fixed 2 1 (daysIn year month)
  pure ⟨year, month, day⟩

/-- Takes a time of day; a minute may have a leap second. -/
def time : Reader Time := do
  let hour ← fixed 2 0 23
  char ':'
  let minute ← fixed 2 0 59
  char ':'
  let second ← fixed 2 0 60
  let fraction ← optional do
    char '.'
    let d ← one Char.isDigit
    let ds ← span Char.isDigit
    pure (d :: ds)
  pure ⟨hour, minute, second, (fraction.getD []).map (·.toNat - '0'.toNat)⟩

/-- Takes an offset from universal time. -/
def offset : Reader Int :=
  (do let _ ← one fun c => c == 'Z' || c == 'z'; pure 0) <|> do
    let s ← one fun c => c == '+' || c == '-'
    let hours ← fixed 2 0 23
    char ':'
    let minutes ← fixed 2 0 59
    let n : Int := hours * 60 + minutes
    pure (if s == '-' then -n else n)

/-- Takes a time of day after the mark that sets it apart from a date. -/
def timeAfterDate : Reader (Time × Option Int) := do
  let _ ← one fun c => c == 'T' || c == 't' || c == ' '
  let t ← time
  let o ← optional offset
  pure (t, o)

/-- Takes a date, a time, or both. -/
def dateTime : Reader DateTime :=
  (do
    let d ← date
    match ← optional timeAfterDate with
    | some (t, o) => pure { date := some d, time := some t, offset := o }
    | none => pure { date := some d }) <|>
  (do
    let t ← time
    pure { time := some t })

/-- Takes a value that begins with a digit or a sign. -/
def number : Reader Value :=
  (Value.dateTime <$> dateTime) <|> (Value.real <$> decimalFloat) <|>
    (Value.real <$> specialFloat) <|> integer

end AccessBridge.Toml
