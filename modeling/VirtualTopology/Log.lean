import VirtualTopology.Environment

/-!
# The log

What a process logs goes to its standard output, among what it prints. A setting says which events
are let through, `info` and what is more severe if it says nothing that can be understood, and another
one whether they are written as JSON. A line of the log and a printed text are each written in one
piece.

## Main definitions

- `Log`: what shows the events of a process.
- `Log.filter`, `Log.isJson`: what the settings ask of it.
- `Log.output`: printed texts with the lines of the log between them.
-/

namespace VirtualTopology

/-- What shows the events of a process. The lines tell of times, of identifiers that are drawn at
random and of threads side by side, so they are whatever they are; only a filter that is off lets
none through. -/
structure Log where
  /-- Whether a text is a filter. -/
  accepts : String → Bool
  /-- The lines that stand after so many printed texts, through a filter and as JSON or not. -/
  shown : (filter : String) → (json : Bool) → (printed : Nat) → List String
  accepts_off : accepts "off" = true
  shown_off (json : Bool) (printed : Nat) : shown "off" json printed = []

/-- Something on the standard output. -/
inductive Piece where
  | printed (text : String)
  | logged (line : String)
deriving DecidableEq, Repr

namespace Piece

def text : Piece → String
  | printed text => text
  | logged line => line

def printed? : Piece → Option String
  | printed text => some text
  | logged _ => none

def logged? : Piece → Option String
  | printed _ => none
  | logged line => some line

end Piece

namespace Log

/-- A log that shows nothing. -/
def silent : Log := ⟨fun _ => true, fun _ _ _ => [], rfl, fun _ _ => rfl⟩

/-- The filter that the settings ask for. -/
def filter (log : Log) (env : Environment) : String :=
  match env.read? .log with
  | some raw => if log.accepts raw then raw else "info"
  | none => "info"

/-- Whether the settings ask for JSON. -/
def isJson (env : Environment) : Bool :=
  (env.read? .traceJson).elim false fun raw => raw == "1" || raw == "true"

/-- Texts from the one numbered `printed` on, each after the lines that stand before it, and then the
lines that come last. -/
def weave (lines : Nat → List String) (printed : Nat) : List String → List Piece
  | [] => (lines printed).map .logged
  | text :: texts => (lines printed).map .logged ++ .printed text :: weave lines (printed + 1) texts

section Weave

variable (lines : Nat → List String) (printed : Nat) (texts : List String)

end Weave

/-- What stands on the standard output when texts are printed. -/
def output (log : Log) (env : Environment) (texts : List String) : List Piece :=
  weave (log.shown (log.filter env) (isJson env)) 0 texts

end Log

end VirtualTopology
