import StoreScheme.Text.Bytes
import StoreScheme.Text.Span

/-!
# Snippets

A snippet shows the lines of a source that labels touch, with lines drawn from the labelled code to
the labels' texts.  Labels are in source order and do not overlap.  One that spans several lines is
drawn down the left side.  All widths are counted in bytes.

* `Label`: a text for a part of the source
* `Snippet.linesOf`: the touched lines, cut into parts
* `Snippet.draw?`: the drawing
-/

namespace StoreScheme

inductive Colour
  | red
  | green
  | yellow
  | blue
  | cyan
deriving Repr, DecidableEq

/-- The number of a colour in terminal escapes. -/
def Colour.code : Colour → Nat
  | .red => 31
  | .green => 32
  | .yellow => 33
  | .blue => 34
  | .cyan => 36

/-- A text in a colour, or as it is. -/
def paint (style : Option Colour) (text : String) : String :=
  match style with
  | some colour => s!"\x1b[{colour.code}m{text}\x1b[0m"
  | none => text

structure Label where
  span : Span
  text : String
  style : Option Colour

namespace Snippet

/-! ## Lines and their parts -/

/-- A line of a source, without its end. -/
structure SourceLine where
  number : Nat
  start : Nat
  text : String

def SourceLine.stop (l : SourceLine) : Nat := l.start + l.text.utf8ByteSize

/-- The lines that follow each other from an offset on. -/
def numberLines (number start : Nat) : List String → List SourceLine
  | [] => []
  | text :: rest =>
    ⟨number, start, text⟩ :: numberLines (number + 1) (start + text.utf8ByteSize + 1) rest

/-- A stretch of code on a line, with its label if it has one. -/
structure Part where
  code : String
  label : Option Label := none

namespace Part

def width (p : Part) : Nat := p.code.utf8ByteSize

/-- The part's width to the left of the middle, where a label is attached. -/
def left (p : Part) : Nat := p.width / 2

def right (p : Part) : Nat := p.width - p.left - 1

def style (p : Part) : Option Colour := p.label.bind (·.style)

end Part

/-- A touched line: the end of a label from above, the labels and other code within the line, and
the start of a label that goes on below. -/
structure Line where
  number : Nat
  incoming : Option Part := none
  inside : List Part := []
  outgoing : Option Part := none

/-- A stretch without a label, left out if it is empty. -/
def gap (slice : Nat → Nat → String) (start stop : Nat) : List Part :=
  if start < stop then [{ code := slice start stop }] else []

/-- Cuts the code between two offsets of a line into labelled parts and the gaps around them. -/
def cut (slice : Nat → Nat → String) (start stop : Nat) : List Label → List Part
  | [] => gap slice start stop
  | l :: ls =>
    gap slice start l.span.start ++
      ⟨slice l.span.start l.span.stop, some l⟩ :: cut slice l.span.stop stop ls

/-- The parts of a line, if a label touches it. -/
def touchedLine? (labels : List Label) (line : SourceLine) : Option Line :=
  let touching := labels.filter fun l => l.span.start ≤ line.stop && line.start ≤ l.span.stop
  if touching.isEmpty then none
  else
    let slice (start stop : Nat) : String :=
      Bytes.slice (start - line.start) (stop - line.start) line.text.toList
    let fromAbove (l : Label) : Bool := l.span.start < line.start
    let goesOn (l : Label) : Bool := line.stop < l.span.stop
    if touching.any fun l => fromAbove l && goesOn l then
      some { number := line.number, inside := [{ code := line.text }] }
    else
      let incoming := touching.find? fromAbove
      let outgoing := touching.find? goesOn
      let start := (incoming.map (·.span.stop)).getD line.start
      let stop := (outgoing.map (·.span.start)).getD line.stop
      some {
        number := line.number
        incoming := incoming.map fun l => ⟨slice line.start l.span.stop, some l⟩
        inside := cut slice start stop (touching.filter fun l => !fromAbove l && !goesOn l)
        outgoing := outgoing.map fun l => ⟨slice l.span.start line.stop, some l⟩ }

/-- The touched lines of a source. -/
def linesOf (source : String) (labels : List Label) : List Line :=
  (numberLines 1 0 ((source.toList.splitOn '\n').map String.ofList)).filterMap (touchedLine? labels)

/-! ## Drawing -/

def times (n : Nat) (c : Char) : String := String.ofList (List.replicate n c)

def spaces (n : Nat) : String := times n ' '

def bars (n : Nat) : String := times n '─'

def widths (ps : List Part) : Nat := ps.foldr (fun p n => p.width + n) 0

def optionWidth (p : Option Part) : Nat := (p.map Part.width).getD 0

/-- What is the same for all lines: the width of the numbers, and whether a label is drawn down the
left side anywhere. -/
structure Layout where
  numberWidth : Nat
  hasIncoming : Bool

namespace Layout

def margin (y : Layout) : String := spaces y.numberWidth

/-- Room for the line of a label down the left side. -/
def side (y : Layout) : String := if y.hasIncoming then "  " else ""

end Layout

/-- Whether a label from above is open, and in which style. -/
abbrev Open := Option (Option Colour)

namespace Line

def outgoingMark (line : Line) (mark : String) : String :=
  match line.outgoing with
  | some p => paint p.style mark
  | none => ""

/-- The code of a line with its number. -/
def code (line : Line) (y : Layout) (openLabel : Open) : String :=
  let number := toString line.number
  let plain (p : Part) : String :=
    match p.label, openLabel, line.incoming with
    | none, some style, none => paint style p.code
    | _, _, _ => paint p.style p.code
  let side := match openLabel with
    | some style => " " ++ paint style "│"
    | none => y.side
  let whole (p : Option Part) : String := (p.map fun p => paint p.style p.code).getD ""
  spaces (y.numberWidth - number.length) ++ number ++ " │" ++ side ++ " " ++
    whole line.incoming ++ String.join (line.inside.map plain) ++ whole line.outgoing

/-- Marks below the code where labels are attached. -/
def marks (line : Line) (y : Layout) (openLabel : Open) : String :=
  let side := match openLabel, line.incoming with
    | some style, some p => paint style "│" ++ spaces p.width ++ paint style "▲"
    | some style, none => paint style "│"
    | none, _ => y.side
  let mark (p : Part) : String :=
    match p.label with
    | some l => paint l.style (bars p.left ++ "┬" ++ bars p.right)
    | none => spaces p.width
  y.margin ++ " ┆ " ++ side ++ String.join (line.inside.map mark) ++ line.outgoingMark "▲"

/-- Vertical lines below all parts of `after`, which follow parts that are already dealt with. -/
def verticals (line : Line) (before after : List Part) : String :=
  let vertical (p : Part) : String :=
    match p.label with
    | some l => paint l.style (spaces p.left ++ "│" ++ spaces p.right)
    | none => spaces p.width
  spaces (widths before) ++ String.join (after.map vertical) ++ line.outgoingMark "│"

def labelText (p : Part) : String := (p.label.map (·.text)).getD ""

/-- The end of a label from above, with its text. -/
def incomingText (line : Line) (y : Layout) (openLabel : Open) : List String :=
  match openLabel, line.incoming with
  | some style, some p =>
    let below := widths line.inside + optionWidth line.outgoing
    [y.margin ++ " ┆ " ++ paint style "│" ++ spaces p.width ++ paint style "│" ++
        line.verticals [] line.inside,
      y.margin ++ " ┆ " ++ paint style ("╰" ++ bars p.width ++ "┴" ++ bars (below + 1)) ++
        " " ++ labelText p]
  | _, _ => []

/-- The texts of the labels within a line, first to last. -/
def insideTexts (line : Line) (y : Layout) (before : List Part) : List Part → List String
  | [] => []
  | p :: rest =>
    let start := y.margin ++ " ┆" ++ y.side ++ " " ++ spaces (optionWidth line.incoming)
    let below := widths rest + optionWidth line.outgoing
    let lines := match p.label with
      | some l =>
        [start ++ line.verticals before (p :: rest),
          start ++ spaces (widths before + p.left) ++
            paint l.style ("╰" ++ bars (p.right + below + 1)) ++ " " ++ l.text]
      | none => []
    lines ++ line.insideTexts y (before ++ [p]) rest

/-- The turn of a label that goes on below, to the left side. -/
def outgoingTurn (line : Line) (y : Layout) : List String :=
  match line.outgoing with
  | some p =>
    let above := optionWidth line.incoming + widths line.inside
    [y.margin ++ " ┆ " ++ paint p.style ("╭" ++ bars (above + 1) ++ "╯")]
  | none => []

/-- Whether a label is open after the line. -/
def openAfter (line : Line) (openLabel : Open) : Open :=
  match line.outgoing, line.incoming with
  | some p, _ => some p.style
  | none, some _ => none
  | none, none => openLabel

def draw (line : Line) (y : Layout) (openLabel : Open) : List String :=
  [line.code y openLabel, line.marks y openLabel] ++ line.incomingText y openLabel ++
    line.insideTexts y [] line.inside ++ line.outgoingTurn y

end Line

def drawLines (y : Layout) : Open → List Line → List String
  | _, [] => []
  | openLabel, line :: rest =>
    line.draw y openLabel ++ drawLines y (line.openAfter openLabel) rest

/-- Whether the source can be cut where a label starts and ends. -/
def canCut (source : String) (l : Label) : Bool :=
  Bytes.isBoundary l.span.start source.toList && Bytes.isBoundary l.span.stop source.toList

/-- The lines of a drawing under a title.  There is none without labels, or if a label does not
start and end between characters. -/
def draw? (title source : String) (labels : List Label) : Option (List String) :=
  let lines := linesOf source labels
  match lines.getLast? with
  | none => none
  | some last =>
    if labels.all (canCut source) then
      let y : Layout := ⟨(toString last.number).length, lines.any (·.incoming.isSome)⟩
      some ([y.margin ++ " ╭─[" ++ title ++ "]", y.margin ++ " │"] ++ drawLines y none lines ++
        [bars (y.numberWidth + 1) ++ "╯"])
    else none

end Snippet

end StoreScheme
