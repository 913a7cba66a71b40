import VhdlOutline.Proofs.Lossless
import VhdlOutline.Proofs.Outline.Nesting

/-!
# Where statements stand

Which constructs are open at a block, and whether their statement parts have begun, shows in the
kinds of the blocks before it (`BlockKind.enter`). `Placed` says of all blocks in turn that they
stand where they may.

That each block of a document stands in the right place is a property of the grammar. Read as a
program that writes blocks, a shape has a weakest liberal precondition (`Shape.wlp`): where it may
start, so that all it writes stands in the right place. The rules of the grammar preserve what is
open where they are used (`Symbol.wlp_rule`), and this carries over to all that they derive
(`Derives.placed`). The one block that may stand where it should not is a variable assignment among
the statements of an entity or architecture.
-/

namespace VhdlOutline

/-- An open construct. -/
structure Enclosure where
  construct : Construct
  /-- Whether its statement part has begun. -/
  begun : Bool
  deriving DecidableEq

/-- The open constructs after a block of the kind, innermost first, given those before it. Branches
and loops do not count. -/
def BlockKind.enter (k : BlockKind) (es : List Enclosure) : List Enclosure :=
  match k with
  | .entityName => ⟨.entity, false⟩ :: es
  | .architectureName => ⟨.architecture, false⟩ :: es
  | .packageName => ⟨.package, false⟩ :: es
  | .packageBodyName => ⟨.packageBody, false⟩ :: es
  | .procedureName => ⟨.procedure, false⟩ :: es
  | .functionName => ⟨.function, false⟩ :: es
  | .processName => ⟨.process, false⟩ :: es
  | .entityBegin | .architectureBegin | .procedureBegin | .functionBegin | .processBegin =>
    es.modifyHead fun e => { e with begun := true }
  | .entityEnd | .architectureEnd | .packageEnd | .packageBodyEnd | .procedureEnd | .functionEnd
  | .processEnd | .procedureDeclarationEnd | .functionDeclarationEnd => es.tail
  | _ => es

/-- What stands here is directly inside the statement part of an entity or architecture. -/
def inConcurrentPart : List Enclosure → Bool
  | ⟨.entity, true⟩ :: _ | ⟨.architecture, true⟩ :: _ => true
  | _ => false

/-- What stands here is inside the statement part of a process or subprogram. -/
def inSequentialPart (es : List Enclosure) : Bool :=
  es.any fun e => e.begun && [.process, .procedure, .function].contains e.construct

/-- The blocks that stand directly inside the statement part of an entity or architecture: the first
lines of processes, assertions, signal assignments and procedure calls. -/
def concurrentKinds : List BlockKind :=
  [.processName, .assertStart, .assertCondition, .assertReport, .assertMessage, .assertSeverity,
    .assertSeverityLevel, .assertEnd, .signalAssignment, .signalAssignmentExpression,
    .signalAssignmentEnd, .procedureCall, .procedureCallEnd]

/-- A block of the kind may stand here, as far as statements are concerned. A statement part is
followed by the end of its construct. -/
def IsInPlace (es : List Enclosure) (k : BlockKind) : Prop :=
  (inConcurrentPart es = true →
    k ∈ concurrentKinds ∨ k ∈ es.head?.map fun e => e.construct.endKind) ∧
  (k = .variableAssignment → inSequentialPart es = true)

/-- Each of the blocks stands where `ok` says. -/
def Placed (ok : List Enclosure → BlockKind → Prop) : List Enclosure → List BlockKind → Prop
  | _, [] => True
  | es, k :: ks => ok es k ∧ Placed ok (k.enter es) ks

instance (es : List Enclosure) (k : BlockKind) : Decidable (IsInPlace es k) :=
  inferInstanceAs (Decidable (_ ∧ _))

/-- No variable assignment stands directly inside the statement part of an entity or
architecture. -/
def NoConcurrentVariable (es : List Enclosure) (k : BlockKind) : Prop :=
  k = .variableAssignment → inConcurrentPart es = false

instance decidablePlaced {ok : List Enclosure → BlockKind → Prop}
    [∀ es k, Decidable (ok es k)] : ∀ es ks, Decidable (Placed ok es ks)
  | _, [] => .isTrue trivial
  | es, k :: ks =>
    have : Decidable (Placed ok (k.enter es) ks) := decidablePlaced (k.enter es) ks
    instDecidableAnd

instance (es : List Enclosure) (k : BlockKind) : Decidable (NoConcurrentVariable es k) :=
  inferInstanceAs (Decidable (_ → _))

/-- The open constructs after several blocks. -/
def enterAll (es : List Enclosure) (ks : List BlockKind) : List Enclosure :=
  ks.foldl (fun es k => k.enter es) es

/-! ## Shapes as programs that write blocks -/

/-- Where the grammar puts what the symbol defines. -/
def Symbol.MayStand : Symbol → List Enclosure → Prop
  | .document, es => es = []
  | .declaration, es => ∃ c rest, es = ⟨c, false⟩ :: rest
  | .concurrent, es => inConcurrentPart es = true
  | .sequential, es => ∃ c rest, es = ⟨c, true⟩ :: rest ∧ c ∈ [.process, .procedure, .function]

mutual

/-- Where the shape may start, so that what it derives stands in the right place and ends in `Q`,
unless a variable assignment stands directly inside the statement part of an entity or
architecture. -/
def Shape.wlp : Shape → (List Enclosure → Prop) → List Enclosure → Prop
  | .block k, Q, es => NoConcurrentVariable es k → IsInPlace es k ∧ Q (k.enter es)
  | .ref s, Q, es => s.MayStand es ∧ Q es
  | .seq shapes, Q, es => Shape.wlpAll shapes Q es
  | .alt shapes, Q, es => Shape.wlpAny shapes Q es
  | .optional shape, Q, es => Q es ∧ shape.wlp Q es
  | .many shape, Q, es => Q es ∧ shape.wlp (· = es) es

/-- The same for shapes one after the other. -/
def Shape.wlpAll : List Shape → (List Enclosure → Prop) → List Enclosure → Prop
  | [], Q, es => Q es
  | shape :: shapes, Q, es => shape.wlp (fun es => Shape.wlpAll shapes Q es) es

/-- The same for each of several shapes. -/
def Shape.wlpAny : List Shape → (List Enclosure → Prop) → List Enclosure → Prop
  | [], _, _ => True
  | shape :: shapes, Q, es => shape.wlp Q es ∧ Shape.wlpAny shapes Q es

end

namespace Shape

mutual

theorem wlp_mono {Q Q' : List Enclosure → Prop} (hq : ∀ es, Q es → Q' es) :
    ∀ (shape : Shape) {es : List Enclosure}, shape.wlp Q es → shape.wlp Q' es
  | .block _, _, h => fun hv => ⟨(h hv).1, hq _ (h hv).2⟩
  | .ref _, _, h => ⟨h.1, hq _ h.2⟩
  | .seq shapes, _, h => wlpAll_mono hq shapes h
  | .alt shapes, _, h => wlpAny_mono hq shapes h
  | .optional shape, _, h => ⟨hq _ h.1, wlp_mono hq shape h.2⟩
  | .many _, _, h => ⟨hq _ h.1, h.2⟩

theorem wlpAll_mono {Q Q' : List Enclosure → Prop} (hq : ∀ es, Q es → Q' es) :
    ∀ (shapes : List Shape) {es : List Enclosure}, wlpAll shapes Q es → wlpAll shapes Q' es
  | [], _, h => hq _ h
  | shape :: shapes, _, h => wlp_mono (fun _ h => wlpAll_mono hq shapes h) shape h

theorem wlpAny_mono {Q Q' : List Enclosure → Prop} (hq : ∀ es, Q es → Q' es) :
    ∀ (shapes : List Shape) {es : List Enclosure}, wlpAny shapes Q es → wlpAny shapes Q' es
  | [], _, _ => trivial
  | shape :: shapes, _, h => ⟨wlp_mono hq shape h.1, wlpAny_mono hq shapes h.2⟩

end

variable {es : List Enclosure} {Q : List Enclosure → Prop}

theorem wlpAll_append (shapes rest : List Shape) (h : wlpAll shapes (wlpAll rest Q) es) :
    wlpAll (shapes ++ rest) Q es := by
  induction shapes generalizing es with
  | nil => exact h
  | cons shape shapes ih => exact wlp_mono (fun _ h => ih h) shape h

theorem wlp_of_wlpAny {shape : Shape} {shapes : List Shape} (hs : shape ∈ shapes)
    (h : wlpAny shapes Q es) : shape.wlp Q es := by
  induction shapes with
  | nil => cases hs
  | cons shape' shapes ih =>
    rcases List.mem_cons.1 hs with rfl | hs
    · exact h.1
    · exact ih hs h.2

end Shape

open Shape in
/-- **What a symbol defines leaves open what was open**, and what it writes is in place. -/
theorem Symbol.wlp_rule (s : Symbol) {es : List Enclosure} (h : s.MayStand es) :
    s.rule.wlp (· = es) es := by
  cases s with
  | document =>
    obtain rfl : es = [] := h
    simp [Symbol.rule, wlp, wlpAll, wlpAny, designUnit, clause, body, region, BlockKind.enter,
      Symbol.MayStand, IsInPlace, inConcurrentPart, Construct.endKind]
  | declaration =>
    -- The statement part has not begun, so that nothing is asked of blocks but where they lead.
    obtain ⟨c, rest, rfl⟩ := h
    simp [Symbol.rule, wlp, wlpAll, wlpAny, Shape.declaration, object, clause, genericClause,
      genericItem, portClause, portItem, parameterList, parameterItem, interface, moreItems,
      procedure, procedureBody, procedureEnd, function, functionBody, functionEnd, body,
      BlockKind.enter, Symbol.MayStand, IsInPlace, inConcurrentPart, Construct.endKind]
  | concurrent =>
    obtain ⟨c, rest, rfl, hc⟩ : ∃ c rest, es = ⟨c, true⟩ :: rest ∧
        inConcurrentPart (⟨c, true⟩ :: rest) = true := by
      change inConcurrentPart es = true at h
      unfold inConcurrentPart at h
      split at h <;> simp_all [inConcurrentPart]
    simp [Symbol.rule, wlp, wlpAll, wlpAny, concurrentStatement, body, commonStatements, assertion,
      assertSeverity, assignment, call, BlockKind.enter, Symbol.MayStand, IsInPlace,
      NoConcurrentVariable, concurrentKinds, hc]
    simp [inConcurrentPart]
  | sequential =>
    obtain ⟨c, rest, rfl, hc⟩ := h
    simp only [List.mem_cons, List.not_mem_nil, or_false] at hc
    have hcon : inConcurrentPart (⟨c, true⟩ :: rest) = false := by
      rcases hc with rfl | rfl | rfl <;> rfl
    have hseq : inSequentialPart (⟨c, true⟩ :: rest) = true := by
      simp [inSequentialPart, hc]
    simp [Symbol.rule, wlp, wlpAll, wlpAny, sequentialStatement, simple, commonStatements,
      assertion, assertSeverity, assignment, call, report, reportSeverity, ifStatement,
      moreBranches, elsif, else_, loop, loopBody, direction, BlockKind.enter, Symbol.MayStand,
      IsInPlace, hcon, hseq, hc]

/-- **What shapes derive is in place** where they may start, unless a variable assignment stands
directly inside the statement part of an entity or architecture. -/
theorem Derives.placed {shapes : List Shape} {ks : List BlockKind} (h : Derives shapes ks)
    {Q : List Enclosure → Prop} {es : List Enclosure} (hw : Shape.wlpAll shapes Q es)
    (hv : Placed NoConcurrentVariable es ks) : Placed IsInPlace es ks ∧ Q (enterAll es ks) := by
  induction h generalizing Q es with
  | nil => exact ⟨trivial, hw⟩
  | block h ih =>
    obtain ⟨hplace, hrest⟩ := hw hv.1
    obtain ⟨hplaced, hq⟩ := ih hrest hv.2
    exact ⟨⟨hplace, hplaced⟩, hq⟩
  | @ref s rest ks h ih =>
    refine ih (Shape.wlp_mono ?_ _ (s.wlp_rule hw.1)) hv
    rintro _ rfl
    exact hw.2
  | seq h ih => exact ih (Shape.wlpAll_append _ _ hw) hv
  | alt hs h ih => exact ih (Shape.wlp_of_wlpAny hs hw) hv
  | without h ih => exact ih hw.1 hv
  | with_ h ih => exact ih hw.2 hv
  | done h ih => exact ih hw.1 hv
  | more h ih =>
    refine ih (Shape.wlp_mono ?_ _ hw.2) hv
    rintro _ rfl
    exact hw

/-! ## Documents -/

theorem Placed.mono {ok ok' : List Enclosure → BlockKind → Prop} (hok : ∀ es k, ok es k → ok' es k)
    {es : List Enclosure} {ks : List BlockKind} (h : Placed ok es ks) : Placed ok' es ks := by
  induction ks generalizing es with
  | nil => trivial
  | cons k ks ih => exact ⟨hok es k h.1, ih h.2⟩

/-- A variable assignment is none of the statements of an entity or architecture. -/
theorem IsInPlace.noConcurrentVariable {es : List Enclosure} {k : BlockKind} (h : IsInPlace es k) :
    NoConcurrentVariable es k := by
  rintro rfl
  refine Bool.eq_false_iff.2 fun hc => ?_
  rcases h.1 hc with hk | hk
  · exact absurd hk (by decide)
  · obtain ⟨e, -, he⟩ := Option.map_eq_some_iff.1 (Option.mem_def.1 hk)
    exact absurd he (by cases e.construct <;> decide)

/-- The kinds of the blocks of a document, each split block once. -/
def logicalKinds (source : String) (options : Options) : List BlockKind :=
  (logicalBlocks (tokenize source) options).map Completion.kind

/-- **Where statements stand.** In an accepted source, only processes, assertions, signal
assignments and procedure calls stand directly inside the statement part of an entity or
architecture, and variable assignments only inside that of a process or subprogram, just if no
variable assignment stands directly inside the statement part of an entity or architecture. -/
theorem statements_placed_iff {source : String} {options : Options} {d : Document} {gs : GroupChain}
    (h : parseDocument source options = .ok (d, gs)) :
    Spells (logicalKinds source options) d.proper ∧
      (Placed IsInPlace [] (logicalKinds source options) ↔
        Placed NoConcurrentVariable [] (logicalKinds source options)) := by
  obtain ⟨hd, -⟩ := parseDocument_ok h
  obtain ⟨hparts, hwhole, -⟩ := outline_parts hd
  obtain ⟨m, hrun, rfl⟩ := outline_ok hd
  obtain ⟨_, _, _, -, -, -, -, -, hnests⟩ :=
    Machine.run_induction Machine.kept_nests (Machine.sound_start options) rfl rfl
      (Machine.nests_start options) hrun
  refine ⟨hparts ▸ spells_parts hwhole, .mono fun _ _ => IsInPlace.noConcurrentVariable, ?_⟩
  intro hv
  have hks := hnests [] (by rw [Machine.done_of_run hrun]; rfl)
  rw [List.nil_append, List.append_nil] at hks
  exact (hks.placed (Q := fun _ => True) ⟨rfl, trivial⟩ hv).1

/-- A variable assignment in a process, and a signal assignment beside it. -/
theorem statements_placed_process : ∃ d gs,
    parseDocument
        "architecture a of e is begin process begin x := 1; end process; s <= x; end;" {} =
          .ok (d, gs) ∧
      BlockKind.variableAssignment ∈ logicalKinds
        "architecture a of e is begin process begin x := 1; end process; s <= x; end;" {} ∧
      Placed IsInPlace [] (logicalKinds
        "architecture a of e is begin process begin x := 1; end process; s <= x; end;" {}) := by
  generalize hsource :
    "architecture a of e is begin process begin x := 1; end process; s <= x; end;" = source
  obtain ⟨hok, hmem, hfree⟩ : (parseDocument source {}).isOk = true ∧
      BlockKind.variableAssignment ∈ logicalKinds source {} ∧
      Placed NoConcurrentVariable [] (logicalKinds source {}) := by
    rw [← hsource]
    decide +kernel
  generalize hr : parseDocument source {} = r at hok
  match r with
  | .error e => cases hok
  | .ok (d, gs) => exact ⟨d, gs, rfl, hmem, (statements_placed_iff hr).2.2 hfree⟩

/-- A variable assignment among the statements of an architecture is accepted. -/
theorem statements_misplaced : ∃ d gs,
    parseDocument "architecture a of e is begin x := 1; end;" {} = .ok (d, gs) ∧
      ¬ Placed IsInPlace [] (logicalKinds "architecture a of e is begin x := 1; end;" {}) := by
  obtain ⟨hok, hno⟩ : (parseDocument "architecture a of e is begin x := 1; end;" {}).isOk = true ∧
      ¬ Placed IsInPlace [] (logicalKinds "architecture a of e is begin x := 1; end;" {}) := by
    decide +kernel
  generalize parseDocument "architecture a of e is begin x := 1; end;" {} = r at hok
  match r with
  | .error e => cases hok
  | .ok (d, gs) => exact ⟨d, gs, rfl, hno⟩

end VhdlOutline
