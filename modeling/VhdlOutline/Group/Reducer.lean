import VhdlOutline.Group.Reduce

/-!
# Groups on demand

A reducer delivers one group for each call. It follows the links of the blocks on its way, and
checks of each that the next block links back. Nothing is assumed of the links: they may be missing,
lead nowhere, or lead round in circles. So a computation that follows them may end with a result,
with a reason why it cannot go on, or not at all, and `Walk` has a place for each of these.

* `Reducer.next` delivers the next group.
* `Reducer.answer` is what a reducer delivers with one of the calls to come.
-/

namespace VhdlOutline

/-- Why the blocks cannot be followed any further. -/
inductive Halt
  | fault (e : GroupError)
  /-- A block was looked at that does not exist. -/
  | outside (i : Nat)
  deriving DecidableEq

/-- A computation that follows links. If it does not end it is `none`. -/
abbrev Walk := ExceptT Halt Option

namespace BlockChain

/-- The element `i` of the blocks. -/
def look (bs : BlockChain) (i : Nat) : Walk (Linked Block) :=
  match bs.nodes[i]? with
  | some x => pure x
  | none => throw (.outside i)

/-- The block after `i`, which has to link back. -/
def advance (bs : BlockChain) (i : Nat) : Walk (Option Nat) := do
  match (← bs.look i).next with
  | none => pure none
  | some j =>
    if bs.nodes[j]?.bind Linked.previous = some i then pure (some j)
    else throw (.fault (.brokenLink j))

/-- Search on from the block `cursor` for fragments of the given kind. Those found before are
`parts`; the result adds the others, and the kind of the block that ended the search. -/
def searchFrom (bs : BlockChain) (kind : BlockKind) (parts : List Nat) (cursor : Option Nat) :
    Walk (List Nat × Option BlockKind) :=
  match cursor with
  | none => pure (parts, none)
  | some i => do
    let b := (← bs.look i).item
    if b.isFragment ∧ b.kind = kind then
      bs |>.searchFrom kind (parts ++ [i]) (← bs.advance i)
    else if b.kind.isSkippable then
      bs |>.searchFrom kind parts (← bs.advance i)
    else pure (parts, some b.kind)
partial_fixpoint

/-- The group of the fragment `i` and its siblings. -/
def collect (bs : BlockChain) (i : Nat) : Walk Group := do
  let kind := (← bs.look i).item.kind
  let (parts, found) ← bs.searchFrom kind [i] (← bs.advance i)
  if parts.length < 2 then throw (.fault (.lonelyFragment kind i found))
  else pure ⟨kind, i, parts.getLastD i, parts⟩

/-- The group that starts with the block `cursor`, and the block after it. The group before ended
with the block `previous`. After the end of the document there is none. -/
def groupAt (bs : BlockChain) (cursor previous : Option Nat) :
    Walk (Option (Group × Option Nat)) := do
  match cursor, previous with
  | none, none => throw (.fault .missingEndOfDocument)
  | none, some p =>
    if (← bs.look p).item.kind = .endOfDocument then pure none
    else throw (.fault .missingEndOfDocument)
  | some i, previous =>
    let x ← bs.look i
    if x.previous ≠ previous then throw (.fault (.brokenLink i))
    let g ← if x.item.isFragment then bs.collect i else pure ⟨x.item.kind, i, i, [i]⟩
    pure (some (g, ← bs.advance g.last))

/-- The first group, if the document starts as it should. -/
def firstGroup (bs : BlockChain) : Walk (Option (Group × Option Nat)) := do
  match bs.first? with
  | none => throw (.fault .missingStartOfDocument)
  | some i =>
    if (← bs.look i).item.kind ≠ .startOfDocument then throw (.fault .missingStartOfDocument)
    bs.groupAt (some i) none

end BlockChain

/-- A reducer on its way through the blocks. -/
inductive Reducer
  /-- Nothing was delivered yet. -/
  | fresh (blocks : BlockChain)
  /-- The group that was delivered last ends with the block `previous`, and the block `cursor` comes
  next. -/
  | reading (blocks : BlockChain) (cursor previous : Option Nat)
  /-- The end of the document or an error was reached. -/
  | finished
  deriving DecidableEq

namespace Reducer

/-- What a reducer delivers of a group, and the reducer after it. -/
def deliver (bs : BlockChain) (x : Walk (Option (Group × Option Nat))) :
    Option (Option (Except Halt Group) × Reducer) :=
  x.run.map fun
    | .error h => (some (.error h), finished)
    | .ok none => (none, finished)
    | .ok (some (g, cursor)) => (some (.ok g), reading bs cursor (some g.last))

/-- Deliver the next group or the error; nothing once there is nothing more. The call does not
return if this is `none`. -/
def next : Reducer → Option (Option (Except Halt Group) × Reducer)
  | fresh bs => deliver bs bs.firstGroup
  | reading bs cursor previous => deliver bs (bs.groupAt cursor previous)
  | finished => some (none, finished)

/-- The reducer after `n` calls, if they all return. -/
def after (r : Reducer) : Nat → Option Reducer
  | 0 => some r
  | n + 1 => r.next.bind fun x => x.2.after n

/-- What the reducer delivers after `n` other calls, if all of them return. -/
def answer (r : Reducer) (n : Nat) : Option (Option (Except Halt Group)) :=
  (r.after n).bind fun r => r.next.map Prod.fst

end Reducer

end VhdlOutline
