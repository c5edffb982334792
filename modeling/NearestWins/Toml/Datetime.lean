import NearestWins.Text.Digits
import NearestWins.Text.Scan

/-!
# Dates and times of TOML

Dates and times must exist. They are kept in a normal form: a `T` between date and time, seconds
even if none are written, a fraction of a second without trailing zeros, and a distance to universal
time that is positive when it is none.
-/

namespace NearestWins.Toml

open Scan

/-- The number of days of a month. -/
def daysIn (year month : Nat) : Nat :=
  if month = 2 then
    if year % 4 = 0 ∧ (year % 100 ≠ 0 ∨ year % 400 = 0) then 29 else 28
  else if month = 4 ∨ month = 6 ∨ month = 9 ∨ month = 11 then 30
  else 31

/-- Reads a number of so many digits between two bounds, with its text. -/
def bounded (count least most : Nat) : Scan (Nat × String) := do
  let text ← digits count
  let n ← ofOption (ofDigits? 10 text)
  guard (least ≤ n && n ≤ most)
  return (n, String.ofList text)

/-- Reads a date. -/
def date : Scan String := do
  let (y, year) ← bounded 4 0 9999
  expect "-"
  let (m, month) ← bounded 2 1 12
  expect "-"
  let (_, day) ← bounded 2 1 (daysIn y m)
  return year ++ "-" ++ month ++ "-" ++ day

/-- Reads the fraction of a second, of which nine digits are kept. -/
def fraction : Scan String := do
  if ← accept "." then
    let written ← takeWhile Char.isDigit
    guard !written.isEmpty
    let kept := ((written.take 9).reverse.dropWhile (· = '0')).reverse
    return if kept.isEmpty then "" else "." ++ String.ofList kept
  return ""

/-- Reads a time of day. -/
def time : Scan String := do
  let (_, hour) ← bounded 2 0 23
  expect ":"
  let (_, minute) ← bounded 2 0 59
  if ← accept ":" then
    let (_, second) ← bounded 2 0 60
    return hour ++ ":" ++ minute ++ ":" ++ second ++ (← fraction)
  return hour ++ ":" ++ minute ++ ":00"

/-- Reads the distance to universal time, if there is one. -/
def offset : Scan String := do
  match ← acceptOneOf ['Z', 'z', '+', '-'] with
  | none => return ""
  | some 'Z' => return "Z"
  | some 'z' => return "Z"
  | some sign =>
    let (h, hour) ← bounded 2 0 23
    expect ":"
    let (m, minute) ← bounded 2 0 59
    let sign := if h = 0 ∧ m = 0 then '+' else sign
    return String.singleton sign ++ hour ++ ":" ++ minute

/-- Reads a date, a time or both. -/
def datetime : Scan String := do
  let text ← get
  if text[2]? = some ':' then time
  else
    let day ← date
    if (← get).isEmpty then return day
    guard (← acceptOneOf ['T', 't', ' ']).isSome
    let clock ← time
    return day ++ "T" ++ clock ++ (← offset)

/-- The normal form of a date, a time or both. -/
def datetime? (text : List Char) : Option String := runAll? datetime text

end NearestWins.Toml
