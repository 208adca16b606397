import SharpEvPicks.Python.Dict
import SharpEvPicks.Resolution.Names
import SharpEvPicks.Schemas

/-! Final scores and the book they are looked up in, `app/settlement/results.py`.
The log lines of `lookup` and their once-a-day memory decide nothing and are left out. -/
namespace SharpEvPicks.Settlement

open Python Resolution

inductive Completion where
  | full | retired | void
  deriving DecidableEq, Repr

structure FinalScore (σ : Type) where
  homeTeam : Str
  awayTeam : Str
  matchDate : Int
  homeScore : Int
  awayScore : Int
  completion : Completion := .full
  winnerSide : Option WinnerSide := none
  /-- Not in the source: which feed the row was read from. No function reads it. -/
  feed : σ
  deriving DecidableEq, Repr

abbrev Payload := Int × Int × Completion × Option WinnerSide

/-- What grading reads of a row. -/
def FinalScore.payload {σ : Type} (s : FinalScore σ) : Payload :=
  (s.homeScore, s.awayScore, s.completion, s.winnerSide)

def transliterate : Char → Str
  | 'ø' => ['o'] | 'Ø' => ['O'] | 'æ' => ['a', 'e'] | 'Æ' => ['A', 'e']
  | 'đ' => ['d'] | 'Đ' => ['D'] | 'ð' => ['d'] | 'Ð' => ['D']
  | 'þ' => ['t', 'h'] | 'Þ' => ['T', 'h'] | 'ł' => ['l'] | 'Ł' => ['L'] | 'ß' => ['s', 's']
  | c => [c]

def nameAliases : List (Str × Str) :=
  [("f c kobenhavn", "fc copenhagen"), ("heart of midlothian", "hearts"),
    ("red star belgrade", "crvena zvezda"), ("the new saints", "tns"),
    ("din tbilisi", "dinamo tbilisi"), ("dinamo city", "dinamo tirana"),
    ("ml vitebsk", "bc maxline"), ("red bull new york", "new york red bulls"),
    ("abroath", "arbroath"), ("hapoel be er", "hapoel beer sheva"), ("pafos", "aep paphos"),
    ("botic van de zandschulo", "botic van de zandschulp")].map
    fun (spelling, name) => (spelling.toList, name.toList)

def clubTokens : List Str :=
  ["fc", "fk", "cf", "sc", "ce", "ss", "bc", "kf", "cs", "sk", "ac", "cd", "if", "bk", "afc", "nk",
    "hnk", "us", "as", "rc", "sv", "sd", "ud", "ca", "ki", "club", "fci"].map String.toList

def tokenRewrite (token : Str) : Str :=
  if token = "utd".toList then "united".toList
  else if token = "queens".toList then "queen".toList
  else token

def coreTokens (normalized : Str) : List Str :=
  ((split normalized).filter fun t => t ∉ clubTokens ∧ 1 < t.length).map tokenRewrite

def namesMatch (ours theirs : Str) : Bool :=
  if ours = theirs || contains ours theirs || contains theirs ours then true
  else
    let o := coreTokens ours
    let t := coreTokens theirs
    o ≠ [] && t ≠ [] && (o.all (· ∈ t) || t.all (· ∈ o))

section Names
variable [Unicode]

def normalizeTeam (name : Str) : Str :=
  let normalized := join [' '] (split (cleaned (name.flatMap transliterate)))
  (Dict.find nameAliases normalized).getD normalized

def markersAgree (ours theirs : Str) : Bool :=
  distinguishingMarkers ours = distinguishingMarkers theirs

end Names

structure ScoreBook (σ : Type) where
  exact : Dict (Str × Str × Int) (FinalScore σ)
  byDate : Dict Int (List (FinalScore σ))
  count : Nat

namespace ScoreBook
variable {σ : Type} [Unicode]

def empty : ScoreBook σ := ⟨Dict.empty, Dict.empty, 0⟩

def rowKey (score : FinalScore σ) : Str × Str × Int :=
  (normalizeTeam score.homeTeam, normalizeTeam score.awayTeam, score.matchDate)

def add (book : ScoreBook σ) (score : FinalScore σ) : ScoreBook σ where
  exact := book.exact.set (rowKey score) score
  byDate := book.byDate.modify score.matchDate fun old => old.getD [] ++ [score]
  count := book.count + 1

def ofRows (rows : List (FinalScore σ)) : ScoreBook σ := rows.foldl add empty

def nameHit (home away : Str) (score : FinalScore σ) : Bool :=
  namesMatch (normalizeTeam home) (normalizeTeam score.homeTeam) &&
    namesMatch (normalizeTeam away) (normalizeTeam score.awayTeam) &&
    markersAgree home score.homeTeam && markersAgree away score.awayTeam

def contained (book : ScoreBook σ) (home away : Str) (d : Int) : List (FinalScore σ) :=
  ((book.byDate.get? d).getD []).filter (nameHit home away)

/-- One candidate, or several that carry one payload. -/
def agreed : List (FinalScore σ) → Option (FinalScore σ)
  | [] => none
  | first :: rest => if rest.all fun s => s.payload = first.payload then some first else none

def lookup (book : ScoreBook σ) (home away : Str) (kickoff : Int) : Option (FinalScore σ) :=
  let h := normalizeTeam home
  let a := normalizeTeam away
  let d0 := dateOf kickoff
  match book.exact.get? (h, a, d0) with
  | some exact => some exact
  | none =>
    match book.exact.get? (h, a, d0 - 1), book.exact.get? (h, a, d0 + 1) with
    | some _, some _ => none
    | some prev, none => some prev
    | none, some nxt => some nxt
    | none, none =>
      let candidates := book.contained home away d0
      if candidates ≠ [] then agreed candidates
      else
        let before := book.contained home away (d0 - 1)
        let after := book.contained home away (d0 + 1)
        if before ≠ [] ∧ after ≠ [] then none
        else agreed (if before ≠ [] then before else after)

/-! What the two indexes hold after reading the rows. -/

def pairings (rows : List (FinalScore σ)) (key : Str × Str × Int) : List (FinalScore σ) :=
  rows.filter fun s => rowKey s = key

theorem exact_foldl (rows : List (FinalScore σ)) (book : ScoreBook σ) (key : Str × Str × Int) :
    (rows.foldl add book).exact.get? key = ((pairings rows key).getLast?).or
    (book.exact.get? key) := by
  induction rows generalizing book with
  | nil => rfl
  | cons s rows ih =>
    rw [List.foldl_cons, ih, add, Dict.get?_set]
    by_cases hit : rowKey s = key
    · simp only [pairings, List.filter_cons, hit, decide_true, if_pos, List.getLast?_cons]
      cases (rows.filter fun s => decide (rowKey s = key)).getLast? <;> rfl
    · simp only [pairings, List.filter_cons, hit, decide_false, Bool.false_eq_true, if_false,
        if_neg (Ne.symm hit)]

theorem byDate_foldl (rows : List (FinalScore σ)) (book : ScoreBook σ) (d : Int) :
    ((rows.foldl add book).byDate.get? d).getD [] =
      (book.byDate.get? d).getD [] ++ rows.filter fun s => s.matchDate = d := by
  induction rows generalizing book with
  | nil => simp
  | cons s rows ih =>
    rw [List.foldl_cons, ih, add, Dict.get?_modify]
    by_cases hit : s.matchDate = d
    · simp [hit]
    · simp [hit, Ne.symm hit]

theorem exact_ofRows (rows : List (FinalScore σ)) (key : Str × Str × Int) :
    (ofRows rows).exact.get? key = (pairings rows key).getLast? := by
  rw [ofRows, exact_foldl, empty, Dict.get?_empty, Option.or_none]

def hits (rows : List (FinalScore σ)) (home away : Str) (d : Int) : List (FinalScore σ) :=
  rows.filter fun s => s.matchDate = d ∧ nameHit home away s

@[simp] theorem contained_ofRows (rows : List (FinalScore σ)) (home away : Str) (d : Int) :
    (ofRows rows).contained home away d = hits rows home away d := by
  rw [contained, ofRows, byDate_foldl, empty, Dict.get?_empty, Option.getD_none, List.nil_append,
    List.filter_filter, hits]
  congr 1
  funext s
  simp [Bool.and_comm]

end ScoreBook
end SharpEvPicks.Settlement
