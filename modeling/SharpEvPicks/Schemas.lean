import SharpEvPicks.Python.Str

/-! Shared vocabulary of `app/schemas/base.py`, and UTC times. -/
namespace SharpEvPicks

open Python

inductive Market where
  | h2h | doubleChance | dnb | spreads | totals | teamTotals | btts | correctScore | other
  deriving DecidableEq, Repr

def Market.value : Market → Str
  | .h2h => "h2h".toList
  | .doubleChance => "double_chance".toList
  | .dnb => "dnb".toList
  | .spreads => "spreads".toList
  | .totals => "totals".toList
  | .teamTotals => "team_totals".toList
  | .btts => "btts".toList
  | .correctScore => "correct_score".toList
  | .other => "other".toList

inductive Outcome where
  | won | lost | void | push | halfWon | halfLost
  deriving DecidableEq, Repr

/-- A side of a fixture; the source writes `"home"` and `"away"`. -/
inductive WinnerSide where
  | home | away
  deriving DecidableEq, Repr

/-! An aware UTC `datetime` is its microseconds from the epoch, a `date` its days. -/

def seconds (n : Int) : Int := n * 1000000
def minutes (n : Int) : Int := seconds (60 * n)
def hours (n : Int) : Int := minutes (60 * n)
def days (n : Int) : Int := hours (24 * n)

/-- `t.date()`. -/
def dateOf (t : Int) : Int := t / days 1

end SharpEvPicks
