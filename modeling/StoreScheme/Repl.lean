import StoreScheme.Session
import StoreScheme.Snippet
import StoreScheme.Text.Backspace
import StoreScheme.Token.Listing

/-!
# The command line

A run evaluates a file, if there is one, and then each line of the input, writing the values of the
forms as it goes.  Instead of evaluating the lines it can list their tokens.  A source that can not
be read is shown with its errors, and the run goes on; an evaluation error ends it.

* `Repl.drawable`: the error labels that can be drawn
* `Repl.runSource`: evaluates a source
* `Repl.listTokens`: lists the tokens of a line
* `Repl.run`: a whole run
-/

namespace StoreScheme.Repl

/-- What a step of a run writes, and its result unless it ends the run. -/
structure Step (α : Type) where
  output : String := ""
  result : Option α

/-! ## Errors -/

/-- The place and text of everything wrong with a source. -/
def errorLabels : SourceError → List (Span × String)
  | .parse errors => errors.map fun e => (e.span, e.message)
  | .form e => [(e.span, e.message)]
  | .eval _ => []

/-- Keeps the labels that start where the one before ends or later, and end within the source.  An
empty span is widened by the byte before it. -/
def keepDisjoint (size : Nat) : (stop : Nat) → List (Span × String) → List (Span × String)
  | _, [] => []
  | stop, (span, text) :: rest =>
    let widened : Option Span :=
      if span.isEmpty then
        if span.start = 0 then none else some ⟨span.start - 1, span.stop⟩
      else some span
    match widened with
    | some span =>
      if stop ≤ span.start ∧ span.stop ≤ size then
        (span, text) :: keepDisjoint size span.stop rest
      else keepDisjoint size stop rest
    | none => keepDisjoint size stop rest

/-- The labels that can be drawn: in order, disjoint and not empty. -/
def drawable (source : String) (labels : List (Span × String)) : List (Span × String) :=
  keepDisjoint source.utf8ByteSize 0
    (labels.mergeSort fun a b => a.1.start ≤ b.1.start)

def unlines (lines : List String) : String := String.join (lines.map (· ++ "\n"))

/-- Writes what is wrong with a source and shows where.  If that can not be drawn, the run ends. -/
def report (title source : String) (e : SourceError) : Step Unit :=
  let message := paint (some .red) s!"error: {e.message}" ++ "\n"
  let labels := (drawable source (errorLabels e)).map fun (span, text) =>
    { span, text := paint (some .red) text, style := some .red : Label }
  match Snippet.draw? title source labels with
  | some lines => ⟨message ++ unlines lines, some ()⟩
  | none => ⟨message, none⟩

/-! ## Evaluation -/

/-- The line that shows the result of a form; errors and the void value have none. -/
def resultLine : Except EvalError Value → String
  | .ok .void => ""
  | .ok v => v.display ++ "\n"
  | .error _ => ""

/-- Runs the forms of a source one after the other, writing their values. -/
def runForms (title source : String) (s : Session) (xs : List Form) : Step Session :=
  match s.runEach Session.defaultFuel xs with
  | none => ⟨"", none⟩
  | some (results, s) =>
    let values := String.join (results.map resultLine)
    match results.getLast? with
    | some (.error e) =>
      let shown := report title source (.eval e)
      ⟨values ++ shown.output, shown.result.map fun _ => s⟩
    | _ => ⟨values, some s⟩

/-- Reads and runs a source. -/
def runSource (title source : String) (s : Session) : Step Session :=
  match s.read source with
  | (.ok forms, s) => runForms title source s forms
  | (.error e, s) =>
    let shown := report title source e
    { shown with result := shown.result.map fun _ => s }

/-! ## Token listings -/

def tokenColour : Except LexError Token → Option Colour
  | .ok (.identifier _) => some .blue
  | .ok (.number _) => some .yellow
  | .ok (.string _) => some .cyan
  | .ok _ => none
  | .error _ => some .red

def tokenLabel (l : Lexeme) : Label :=
  let text := match l.result with
    | .ok token => paint (some .green) token.listing
    | .error e => paint (some .red) e.message
  ⟨l.span, text, tokenColour l.result⟩

/-- The lexemes between line ends; after the last line end only if there are any. -/
def splitLines (line : List Lexeme) : List Lexeme → List (List Lexeme)
  | [] => if line.isEmpty then [] else [line.reverse]
  | l :: ls =>
    match l.result with
    | .ok .lineEnding => line.reverse :: splitLines [] ls
    | _ => splitLines (l :: line) ls

/-- Draws one group of tokens after the other, up to one that is empty. -/
def drawTokens (source : String) : List (List Lexeme) → Step Unit
  | [] => ⟨"", some ()⟩
  | group :: rest =>
    match Snippet.draw? "tokens" source (group.map tokenLabel) with
    | some lines =>
      let next := drawTokens source rest
      { next with output := unlines lines ++ next.output }
    | none => ⟨"", none⟩

def listTokens (source : String) : Step Unit := drawTokens source (splitLines [] (lex source))

/-! ## A whole run -/

/-- A file to run: its name, and its content unless it can not be read. -/
structure SourceFile where
  name : String
  content : Option String

/-- What is asked for on the command line. -/
structure Request where
  file : Option SourceFile := none
  tokens : Bool := false
  firstWins : Bool := false
  foldCase : Bool := false
  noRepl : Bool := false

def Request.session (r : Request) : Session :=
  { options :=
      { redefine := if r.firstWins then .firstWins else .latestWins, foldCase := r.foldCase } }

/-- Deals with one line of input, in which backspaces take effect first. -/
def runLine (r : Request) (typed : String) (s : Session) : Step Session :=
  match applyBackspaces? typed with
  | none => ⟨"", none⟩
  | some line =>
    if r.tokens then
      let shown := listTokens line
      { shown with result := shown.result.map fun _ => s }
    else runSource "repl" line s

def runLines (r : Request) (s : Session) : List String → Step Unit
  | [] => ⟨"", some ()⟩
  | line :: rest =>
    let step := runLine r line s
    match step.result with
    | some s =>
      let next := runLines r s rest
      { next with output := step.output ++ next.output }
    | none => ⟨step.output, none⟩

/-- A line without the carriage return that belongs to its end. -/
def chompReturn (line : String) : String :=
  match line.toList.getLast? with
  | some '\r' => String.ofList line.toList.dropLast
  | _ => line

/-- The lines of the input; the last one may lack a line end, which then is not there to be
removed. -/
def inputLines (input : String) : List String :=
  let pieces := input.splitOn "\n"
  let last := pieces.getLast?.getD ""
  pieces.dropLast.map chompReturn ++ if last.isEmpty then [] else [last]

/-- What a run writes, and its exit code. -/
structure Transcript where
  output : String
  exitCode : Nat
deriving Repr, DecidableEq

/-- The exit codes of runs that do not end normally. -/
def exitFailed : Nat := 101
def exitUnreadable : Nat := 1
def exitUsage : Nat := 2

def Step.transcript (s : Step Unit) : Transcript :=
  ⟨s.output, if s.result.isSome then 0 else exitFailed⟩

/-- A whole run on the given input. -/
def run (r : Request) (input : String) : Transcript :=
  match r.file with
  | none =>
    if r.noRepl then ⟨"", exitUsage⟩ else (runLines r r.session (inputLines input)).transcript
  | some ⟨_, none⟩ => ⟨"", exitUnreadable⟩
  | some ⟨name, some content⟩ =>
    let step := runSource name content r.session
    match step.result with
    | some s =>
      let next : Step Unit := if r.noRepl then ⟨"", some ()⟩ else runLines r s (inputLines input)
      Step.transcript { next with output := step.output ++ next.output }
    | none => ⟨step.output, exitFailed⟩

end StoreScheme.Repl
