import VhdlOutline.Engine.Nested
import VhdlOutline.Proofs.Engine.Desk

/-!
# What actions do

For each part that routines are made of, one lemma says what it does to an engine that is shown the
token `t`: to an engine whose desk faces `t`. Parts that ask for something have the result they ask
for.
-/

namespace VhdlOutline

namespace Token

variable {t : Token}

theorem settled_of_ne_word (h : t.kind ≠ .word) : t.settled = t.kind := by
  unfold settled
  split
  · exact absurd ‹_› h
  · rfl

theorem settled_of_isChar {c : Char} (h : t.isChar c) : t.settled = t.kind :=
  settled_of_ne_word (by rw [of_decide_eq_true h]; simp)

theorem settled_of_isCompound {s : Compound} (h : t.isCompound s) : t.settled = t.kind :=
  settled_of_ne_word (by rw [of_decide_eq_true h]; simp)

/-- A word that is a name becomes an identifier. -/
theorem settled_of_isName (h : t.isName) (hw : t.kind = .word) : t.settled = .identifier := by
  have hfind : Keyword.find? t.text = none := by simpa [isName, hw] using h
  simp [settled, hw, hfind]

end Token

/-- The engine once the kind of the current token, `t`, has been settled. -/
def Engine.settled (e : Engine) (t : Token) : Engine :=
  { e with desk := e.desk.reclassify t.settled }

namespace Action

variable {α β : Type} {e : Engine} {t : Token}

theorem run_bind_of_eq {a : Action α} {f : α → Action β} {x : α} {e' : Engine}
    (h : a.run e = .ok x e') : (a >>= f).run e = (f x).run e' := by
  rw [EStateM.run_bind, h]

theorem bind_get {f : Engine → Action β} : (get >>= f).run e = (f e).run e := rfl

/-! ## The current token -/

theorem run_demand {o : Option α} {x : α} (h : o = some x) : (demand o).run e = .ok x e := by
  rw [h]
  rfl

theorem run_current (h : e.desk.Faces t) : current.run e = .ok t e := by
  rw [current, bind_get, run_demand h.current]

theorem bind_current (h : e.desk.Faces t) {f : Token → Action β} :
    (current >>= f).run e = (f t).run e :=
  run_bind_of_eq (run_current h)

theorem run_reclassify (h : e.desk.Faces t) (kind : TokenKind) :
    (reclassify kind).run e = .ok () { e with desk := e.desk.reclassify kind } := by
  rw [reclassify, bind_current h]
  rfl

theorem settled_self (h : e.desk.Faces t) (hk : t.settled = t.kind) : e.settled t = e := by
  rw [Engine.settled, hk, h.reclassify_self]

theorem run_classifyWord (h : e.desk.Faces t) : classifyWord.run e = .ok () (e.settled t) := by
  rw [classifyWord, bind_current h]
  split
  · rename_i hw
    unfold Token.keyword?
    rw [hw]
    dsimp only
    cases hk : Keyword.find? t.text with
    | none =>
      rw [run_reclassify h, Engine.settled, show t.settled = .identifier by
        simp [Token.settled, hw, hk]]
    | some k =>
      rw [run_reclassify h, Engine.settled, show t.settled = .keyword k by
        simp [Token.settled, hw, hk]]
  · rename_i hw
    rw [settled_self h (Token.settled_of_ne_word hw)]
    rfl

theorem bind_classifyWord (h : e.desk.Faces t) {f : Unit → Action β} :
    (classifyWord >>= f).run e = (f ()).run (e.settled t) :=
  run_bind_of_eq (run_classifyWord h)

theorem faces_settled (h : e.desk.Faces t) :
    (e.settled t).desk.Faces { t with kind := t.settled } :=
  h.reclassify t.settled

/-- A name is settled as an identifier, if it is a word. -/
theorem run_settleName (h : e.desk.Faces t) (hn : t.kind = .word → t.settled = .identifier) :
    settleName.run e = .ok () (e.settled t) := by
  rw [settleName, bind_current h]
  split
  · rename_i hw
    rw [run_reclassify h, Engine.settled, hn hw]
  · rename_i hw
    rw [settled_self h (Token.settled_of_ne_word hw)]
    rfl

theorem bind_identifier (h : e.desk.Faces t) (hn : t.kind = .word → t.settled = .identifier)
    {f : String → Action β} : (identifier >>= f).run e = (f t.text).run (e.settled t) := by
  refine run_bind_of_eq ?_
  rw [identifier, run_bind_of_eq (run_settleName h hn), bind_current (faces_settled h)]
  rfl

/-! ## Refusals -/

theorem run_complain (h : e.desk.Faces t) (c : Complaint) :
    (complain c : Action α).run e = .error (.failed (.refused t c)) e := by
  rw [complain, bind_current h]
  rfl

theorem run_refuse (h : e.desk.Faces t) (alternatives : List String) :
    (refuse alternatives : Action α).run e =
      .error (.failed (.refused t (.expected alternatives))) e :=
  run_complain h _

theorem bind_complain (h : e.desk.Faces t) (c : Complaint) {f : α → Action β} :
    (complain c >>= f).run e = .error (.failed (.refused t c)) e := by
  rw [EStateM.run_bind, run_complain h]

/-! ## Tables, blocks and frames -/

/-- A table that is there is found. -/
theorem bind_table {f : Tables → Option α} {x : α} (h : f e.context = some x) {what : String}
    {g : α → Action β} : (table what f >>= g).run e = (g x).run e := by
  refine run_bind_of_eq ?_
  rw [table, bind_get, h]
  rfl

theorem bind_emit {kind : BlockKind} {f : Unit → Action β} :
    (emit kind >>= f).run e = (f ()).run { e with desk := e.desk.emit kind } := rfl

/-- There is a token before the current one where one is referred to. -/
theorem bind_emitBefore {kind : BlockKind} {f : Unit → Action β} :
    (emitBefore kind >>= f).run e = (f ()).run { e with desk := e.desk.cut kind } := by
  refine run_bind_of_eq ?_
  rw [emitBefore, bind_get, run_bind_of_eq (run_demand (e.desk.emitBefore?_eq kind))]
  rfl

/-- What is left is the frame that is resumed. -/
def resume (e : Engine) (f : Frame) (stack : List Frame) : Engine :=
  { e with stack, next := f.routine, counter := f.counter, context := f.context }

theorem run_pop {f : Frame} {stack : List Frame} (h : e.stack = f :: stack) :
    (pop 1).run e = .ok () (resume e f stack) := by
  rw [pop, bind_get, h]
  rfl

/-! ## Blanks and comments -/

theorem bind_absorbTrivia (h : e.desk.Faces t) (ht : t.kind.isTrivia = false)
    {f : Bool → Action β} : (absorbTrivia >>= f).run e = (f false).run e := by
  refine run_bind_of_eq ?_
  rw [absorbTrivia, bind_current h]
  generalize t.kind = kind at ht
  cases kind <;> first | rfl | cases ht

theorem run_inside (h : e.desk.Faces t) (ht : t.kind.isTrivia = false) {body : Action Unit} :
    (inside body).run e = body.run e := by
  rw [inside, bind_absorbTrivia h ht]
  rfl

theorem run_apart (h : e.desk.Faces t) (ht : t.kind.isTrivia = false) {body : Action Unit} :
    (apart body).run e = body.run e := by
  have htrivia : regionTrivia.run e = .ok false e := by
    rw [regionTrivia, bind_current h, bind_get, Desk.triviaKind?_eq, ht]
    rfl
  rw [apart, run_bind_of_eq htrivia]
  rfl

/-- The reserved word is taken where it stands. -/
theorem run_keyword (h : e.desk.Faces t) {k : Keyword} (hk : t.isKeyword k) {body : Action Unit} :
    (keyword k body).run e = body.run (e.settled t) := by
  rw [keyword, bind_current h, if_pos hk, bind_classifyWord h]

end Action

end VhdlOutline
