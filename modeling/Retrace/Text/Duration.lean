import Retrace.Number.Binary64

/-!
# Spans of time as text

How long a run took, and how long ago something happened.
-/

namespace Retrace.Text

/-- Two digits, with a leading zero. -/
def twoDigits (n : Nat) : String := if n < 10 then "0" ++ toString n else toString n

/-- A number of hundredths with two decimal places. -/
def fixedTwo (hundredths : Nat) : String := toString (hundredths / 100) ++ "." ++ twoDigits (hundredths % 100)

/-- Whole milliseconds below one second; from there on seconds with two decimal places, taken from the sum that
double arithmetic gives. -/
def elapsed (secs nanos : Nat) : String :=
  let ms := secs * 1000 + nanos / 1000000
  if ms < 1000 then toString ms ++ "ms"
  else
    let whole := Number.Dyadic.ofFraction secs 1 128
    let part := Number.Dyadic.ofFraction nanos 1000000000 128
    fixedTwo (whole.add part).hundredths ++ "s"

/-- How long before `now` the moment `at` was, both in milliseconds, in its largest whole unit. -/
def timeAgo (now moment : Int) : String :=
  if now < moment then "in the future"
  else
    let seconds := (now - moment).toNat / 1000
    if seconds < 60 then toString seconds ++ " seconds ago"
    else if seconds < 3600 then toString (seconds / 60) ++ " minutes ago"
    else if seconds < 86400 then toString (seconds / 3600) ++ " hours ago"
    else toString (seconds / 86400) ++ " days ago"

end Retrace.Text
