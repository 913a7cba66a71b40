import VhdlOutline.Group.Reduce
import VhdlOutline.Outline.Parser

/-!
# From source text to groups

`parseDocument` tokenizes, outlines and groups a source text. `parseLog` tells what happens
meanwhile.
-/

namespace VhdlOutline

/-- Why a source text could not be parsed. -/
inductive ParseError
  | outline (e : OutlineError)
  | groups (e : GroupError)
  deriving DecidableEq

namespace ParseError

/-- The error in words. -/
def message : ParseError → String
  | .outline e => e.message
  | .groups e => e.message

/-- The error for a reader. -/
def diagnostic : ParseError → Diagnostic
  | .outline e => e.diagnostic
  | .groups e => e.diagnostic

end ParseError

/-- Tokenize, outline and group a source text. -/
def parseDocument (source : String) (options : Options) :
    Except ParseError (Document × GroupChain) :=
  match outline (tokenize source) options with
  | .error e => .error (.outline e)
  | .ok d =>
    match groupBlocks d.blocks with
    | .error e => .error (.groups e)
    | .ok gs => .ok (d, gs)

/-! ## The log -/

/-- How important a record is. -/
inductive Level
  | warn
  | debug
  | trace
  deriving DecidableEq

namespace Level

/-- The name of a level. -/
def name : Level → String
  | .warn => "WARN"
  | .debug => "DEBUG"
  | .trace => "TRACE"

/-- Whether records of the level `l` are kept up to the level `most`. -/
def isWithin (l most : Level) : Bool :=
  match l, most with
  | .warn, _ | _, .trace | .debug, .debug => true
  | _, _ => false

end Level

/-- A line of the log. -/
structure Record where
  level : Level
  message : String
  deriving DecidableEq

/-- A text filled up with spaces to a width of at least `n`. -/
def padRight (n : Nat) (s : String) : String :=
  s ++ String.ofList (List.replicate (n - s.length) ' ')

/-- The record of an event. -/
def Event.record (options : Options) : Event → Record
  | .visit state t =>
    ⟨if options.trace then .debug else .trace, s!"{padRight 32 state} {t.shown}"⟩
  | .note (.entering k (some name)) => ⟨.debug, s!"entering {k.spelling} `{name}`"⟩
  | .note (.entering k none) => ⟨.debug, s!"entering {k.spelling}"⟩
  | .note (.label name) => ⟨.debug, s!"statement label `{name}`"⟩
  | .mismatch m => ⟨.warn, m.message⟩
  | .endOfDocument => ⟨.debug, "reached end of document"⟩

/-- The record of a split group. -/
def Group.record? (g : Group) : Option Record :=
  if g.isSplit then
    some ⟨.trace, s!"{g.kind.description} split into {g.parts.length} parts"⟩
  else none

/-- The records of grouping a document. -/
def groupingRecords (d : Document) : List Record × Option GroupError :=
  let splits := (reduce d.blocks).filterMap fun g => g.toOption.bind Group.record?
  match groupBlocks d.blocks with
  | .error e => (splits, some e)
  | .ok gs =>
    (splits ++
      [⟨.debug, s!"reduced {d.blocks.size} blocks to {gs.size} groups"⟩,
        ⟨.debug, s!"parsed {d.tokens.size} tokens into {d.blocks.size} blocks and {gs.size} groups"⟩],
      none)

/-- The records of parsing a source text, and the error if there is one. -/
def parseLog (source : String) (options : Options) : List Record × Option ParseError :=
  let (m, error) := Machine.run { options } (tokenize source)
  let records := m.events.toList.map (Event.record options)
  match error with
  | some e => (records, some (.outline e))
  | none =>
    let (more, error) := groupingRecords m.document
    (records ++ more, error.map .groups)

end VhdlOutline
