import VhdlOutline.Lexeme.Tokens

/-!
# Tokens on demand

A lexer delivers one token for each call, and reads no further than it takes to find where that
token ends. After the end of the document, and after an error, it has nothing more to deliver.

* `Lexer.next` delivers the next token.
* `Lexer.answer` is what a lexer delivers with one of the calls to come: the tokens of `tokenize`,
  in order and once each (`Lexer.answer_fresh`).
-/

namespace VhdlOutline

/-- The token at the start of every document. -/
def Token.startOfDocument : Token := ⟨.startOfDocument, "", .start, .start⟩

/-- The token at the end of a document that ends at the position `p`. -/
def Token.endOfDocument (p : Position) : Token := ⟨.endOfDocument, "", p, p⟩

/-- A place between two tokens of a source text. -/
structure Place where
  /-- What the lexer remembers of the token before. -/
  context : Lexeme.Context := {}
  cursor : Cursor := .start
  /-- The text that follows. -/
  rest : List Char
  deriving DecidableEq

namespace Place

/-- The tokens that follow, up to the end of the document or an error. -/
def tokens (p : Place) : List (Except LexError Token) := tokensFrom p.context p.cursor p.rest

/-- The place after a lexeme that stands at the cursor. -/
def after (k : Cursor) (l : Lexeme) : Place := ⟨l.context, k.advanceAll l.text, l.rest⟩

variable {x : Lexeme.Context} {k : Cursor} {c : Char} {cs : List Char}

theorem tokens_nil : (mk x k []).tokens = [.ok (.endOfDocument k.endPosition)] := by
  rw [tokens, tokensFrom]
  rfl

theorem tokens_of_error {fault : LexFault} (h : Lexeme.scan x c cs = .error fault) :
    (mk x k (c :: cs)).tokens = [.error ⟨fault, k.stamp c⟩] := by
  rw [tokens, tokensFrom]
  split
  · simp_all
  · simp_all

theorem tokens_of_ok {l : Lexeme} (h : Lexeme.scan x c cs = .ok l) :
    (mk x k (c :: cs)).tokens = .ok (l.token k c) :: (after k l).tokens := by
  rw [tokens, tokensFrom]
  split
  · simp_all
  · simp_all [tokens, after]

end Place

/-- A lexer on its way through a source text. -/
inductive Lexer
  /-- Nothing was delivered yet. -/
  | fresh (source : String)
  | reading (place : Place)
  /-- The end of the document or an error was delivered. -/
  | finished
  deriving DecidableEq

namespace Lexer

/-- Deliver the next token or the error; nothing once there is nothing more. -/
def next : Lexer → Option (Except LexError Token) × Lexer
  | fresh source => (some (.ok .startOfDocument), reading { rest := source.toList })
  | reading ⟨_, k, []⟩ => (some (.ok (.endOfDocument k.endPosition)), finished)
  | reading ⟨x, k, c :: cs⟩ =>
    match Lexeme.scan x c cs with
    | .error fault => (some (.error ⟨fault, k.stamp c⟩), finished)
    | .ok l => (some (.ok (l.token k c)), reading (.after k l))
  | finished => (none, finished)

/-- The lexer after `n` calls. -/
def after (l : Lexer) : Nat → Lexer
  | 0 => l
  | n + 1 => l.next.2.after n

/-- What the lexer delivers after `n` other calls. -/
def answer (l : Lexer) (n : Nat) : Option (Except LexError Token) := (l.after n).next.1

/-! ## All that a lexer delivers -/

/-- What the lexer still has to deliver. -/
def pending : Lexer → List (Except LexError Token)
  | fresh source => tokenize source
  | reading p => p.tokens
  | finished => []

/-- A call delivers the first of what is pending, and leaves the others. -/
theorem next_eq (l : Lexer) : l.next.1 = l.pending.head? ∧ l.next.2.pending = l.pending.tail := by
  match l with
  | fresh source => exact ⟨rfl, rfl⟩
  | reading ⟨x, k, []⟩ =>
    rw [next, pending, Place.tokens_nil]
    exact ⟨rfl, rfl⟩
  | reading ⟨x, k, c :: cs⟩ =>
    rw [next, pending]
    cases h : Lexeme.scan x c cs with
    | error fault =>
      rw [Place.tokens_of_error h]
      exact ⟨rfl, rfl⟩
    | ok l =>
      rw [Place.tokens_of_ok h]
      exact ⟨rfl, rfl⟩
  | finished => exact ⟨rfl, rfl⟩

theorem pending_after (l : Lexer) (n : Nat) : (l.after n).pending = l.pending.drop n := by
  induction n generalizing l with
  | zero => rfl
  | succ n ih => rw [after, ih, (next_eq l).2, List.drop_tail]

/-- The calls deliver what is pending, one after the other. -/
theorem answer_eq (l : Lexer) (n : Nat) : l.answer n = l.pending[n]? := by
  rw [answer, (next_eq _).1, pending_after, List.head?_drop]

/-- The calls deliver the tokens of the source text. -/
theorem answer_fresh (source : String) (n : Nat) :
    (fresh source).answer n = (tokenize source)[n]? :=
  answer_eq _ n

end Lexer

end VhdlOutline
