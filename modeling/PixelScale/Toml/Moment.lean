import PixelScale.Text.Digit

/-!
# Dates and times in TOML

A moment is a date, a time, or a date and a time with an offset or without one. It is read from its
text and written in one form: a `T` between date and time, no zeros at the end of a fraction, at most
nine digits in it.

* `Moment.read?`: a moment at the start of a text.
* `Moment.write`: the text of a moment.
-/

namespace PixelScale.Toml

open Text

structure Date where
  year : Nat
  month : Nat
  day : Nat
deriving DecidableEq, Repr

structure Time where
  hour : Nat
  minute : Nat
  second : Nat
  nanosecond : Nat
deriving DecidableEq, Repr

inductive Offset where
  | utc
  | minutes (west : Bool) (n : Nat)
deriving DecidableEq, Repr

inductive Moment where
  | date (d : Date)
  | time (t : Time)
  | dateTime (d : Date) (t : Time) (offset : Option Offset)
deriving DecidableEq, Repr

namespace Moment

/-- A number of exactly two digits. -/
def two? : Text → Option (Nat × Text)
  | a :: b :: t => do return ((← digitValue? a) * 10 + (← digitValue? b), t)
  | _ => none

def isLeap (year : Nat) : Bool := (year % 4 == 0 && year % 100 != 0) || year % 400 == 0

def daysIn (year month : Nat) : Nat :=
  if month = 2 then if isLeap year then 29 else 28
  else if [4, 6, 9, 11].contains month then 30
  else 31

def date? (t : Text) : Option (Date × Text) := do
  let (century, t) ← two? t
  let (rest, t) ← two? t
  let year := century * 100 + rest
  let '-' :: t := t | none
  let (month, t) ← two? t
  let '-' :: t := t | none
  let (day, t) ← two? t
  if 1 ≤ month ∧ month ≤ 12 ∧ 1 ≤ day ∧ day ≤ daysIn year month then return (⟨year, month, day⟩, t)
  else none

/-- A fraction of a second in nanoseconds. -/
def fraction (t : Text) : Nat × Text :=
  match t with
  | '.' :: r =>
    let digits := r.takeWhile Char.isDigit
    let kept := digits.take 9
    if digits.isEmpty then (0, t)
    else
      ((toNat? 10 kept).getD 0 * Nat.pow 10 (9 - kept.length), r.dropWhile Char.isDigit)
  | t => (0, t)

def hourMinute? (t : Text) : Option (Nat × Nat × Text) := do
  let (hour, t) ← two? t
  let ':' :: t := t | none
  let (minute, t) ← two? t
  if hour ≤ 23 ∧ minute ≤ 59 then return (hour, minute, t) else none

def time? (t : Text) : Option (Time × Text) := do
  let (hour, minute, t) ← hourMinute? t
  let ':' :: t := t | none
  let (second, t) ← two? t
  let (nanosecond, t) := fraction t
  if second ≤ 60 then return (⟨hour, minute, second, nanosecond⟩, t) else none

def offset? : Text → Option (Offset × Text)
  | 'Z' :: t | 'z' :: t => some (.utc, t)
  | '+' :: t => do
    let (hour, minute, t) ← hourMinute? t
    return (.minutes false (hour * 60 + minute), t)
  | '-' :: t => do
    let (hour, minute, t) ← hourMinute? t
    return (.minutes true (hour * 60 + minute), t)
  | _ => none

/-- A time behind a date and a separator. -/
def timeBehind? : Text → Option (Time × Text)
  | c :: t => if c = 'T' || c = 't' || c = ' ' then time? t else none
  | [] => none

/-- A moment at the start of a text, and what follows it. -/
def read? (t : Text) : Option (Moment × Text) :=
  match date? t with
  | some (d, t) =>
    match timeBehind? t with
    | some (clock, t) =>
      match offset? t with
      | some (o, t) => some (.dateTime d clock (some o), t)
      | none => some (.dateTime d clock none, t)
    | none => some (.date d, t)
  | none => (time? t).map fun (clock, t) => (.time clock, t)

def writeDate (d : Date) : Text :=
  padded 4 d.year ++ '-' :: padded 2 d.month ++ '-' :: padded 2 d.day

def writeTime (t : Time) : Text :=
  padded 2 t.hour ++ ':' :: padded 2 t.minute ++ ':' :: padded 2 t.second ++
    if t.nanosecond = 0 then []
    else '.' :: trimRight (· == '0') (padded 9 t.nanosecond)

def writeOffset : Offset → Text
  | .utc => ['Z']
  | .minutes west n =>
    (if west && n != 0 then '-' else '+') :: padded 2 (n / 60) ++ ':' :: padded 2 (n % 60)

def write : Moment → Text
  | date d => writeDate d
  | time t => writeTime t
  | dateTime d t offset =>
    writeDate d ++ 'T' :: writeTime t ++ (offset.map writeOffset).getD []

end Moment

end PixelScale.Toml
