import CloudTerminal.Text.Numeral

/-!
Points in time as TOML writes them: a day, a time of day, or both, and then with the distance from
universal time if it is known. Only the form and the ranges are checked.
-/

namespace CloudTerminal.Toml.DateTime

/-- Whether a text is a number of digits in the given range. -/
def inRange (low high : Nat) (digits : List Char) : Bool :=
  (Text.readDigits? 10 digits).any fun n => low ≤ n && n ≤ high

/-- Whether a year has a twenty-ninth of February. -/
def isLeap (year : Nat) : Bool := year % 4 == 0 && (year % 100 != 0 || year % 400 == 0)

/-- The length of a month. -/
def daysIn (year month : Nat) : Nat :=
  if month = 2 then (if isLeap year then 29 else 28)
  else if [4, 6, 9, 11].contains month then 30
  else 31

/-- Whether a text is a day, such as `1979-05-27`. -/
def isDay : List Char → Bool
  | [y₁, y₂, y₃, y₄, '-', m₁, m₂, '-', d₁, d₂] =>
    match Text.readDigits? 10 [y₁, y₂, y₃, y₄], Text.readDigits? 10 [m₁, m₂] with
    | some year, some month =>
      1 ≤ month && month ≤ 12 && inRange 1 (daysIn year month) [d₁, d₂]
    | _, _ => false
  | _ => false

/-- Whether a text is a time of day, such as `07:32:00.5`. -/
def isTime : List Char → Bool
  | h₁ :: h₂ :: ':' :: m₁ :: m₂ :: ':' :: s₁ :: s₂ :: fraction =>
    inRange 0 23 [h₁, h₂] && inRange 0 59 [m₁, m₂] && inRange 0 60 [s₁, s₂] &&
      match fraction with
      | [] => true
      | '.' :: digits => (Text.readDigits? 10 digits).isSome
      | _ => false
  | _ => false

/-- Whether a text is a distance from universal time, such as `-07:00`. -/
def isOffset : List Char → Bool
  | ['Z'] | ['z'] => true
  | [sign, h₁, h₂, ':', m₁, m₂] =>
    (sign == '+' || sign == '-') && inRange 0 23 [h₁, h₂] && inRange 0 59 [m₁, m₂]
  | _ => false

/-- Whether a text is a time of day, with or without a distance from universal time. -/
def isTimeWithOffset (text : List Char) : Bool :=
  let marks := ['Z', 'z', '+', '-']
  let inTime (c : Char) : Bool := !marks.contains c
  let offset := text.dropWhile inTime
  isTime (text.takeWhile inTime) && (offset.isEmpty || isOffset offset)

/-- Whether a text is a day and a time with the letter T between them. -/
def isDayAndTime (text : List Char) : Bool :=
  isDay (text.take 10) &&
    match text.drop 10 with
    | 'T' :: time | 't' :: time => isTimeWithOffset time
    | _ => false

/-- Whether a text without blanks is a point in time. -/
def isPoint (text : List Char) : Bool := isDay text || isTime text || isDayAndTime text

example : isDay "2000-02-29".toList = true ∧ isDay "1900-02-29".toList = false := by decide +kernel

end CloudTerminal.Toml.DateTime
