import Interlude.Proofs.Program.Compile
/-!
# Code that keeps to itself

The code of a block writes no cell that was in use where the block begins, saves all of those cells
where it can stop, and goes on inside itself or right behind itself, never with its first
instruction. The code of a range stands in a fixed order: the start, the look for the next number,
the body, and the way back; its body writes none of the three cells of the range, and is that of a
range in the template (`compileBody_orderly`).
-/

namespace Interlude

/-- The cells an operation writes, apart from those its expressions keep results in. -/
def Op.writes : Op → List Nat
  | store slot _ _ => [slot]
  | storeThunk slot _ => [slot]
  | rangeInit base _ _ _ => [base, base + 1, base + 2]
  | rangeStep base _ => [base]
  | eachInit base _ _ => [base, base + 1, base + 2]
  | eachStep base _ => [base + 1]
  | beginBuffer slot => [slot]
  | endBuffer slot dst _ => [dst, slot]
  | call _ slot _ _ => [slot]
  | log slot => [slot]
  | beginWrap _ slot _ _ => [slot]
  | endWrap slot => [slot]
  | _ => []

/-- The places an operation may go on to. -/
def Op.onward (pc : Nat) : Op → List Nat
  | jump target => [target]
  | jumpIfFalse _ target => [pc + 1, target]
  | caseMatch _ _ target => [pc + 1, target]
  | rangeNext _ target => [pc + 1, target]
  | rangeStep _ target => [target]
  | eachInit _ _ target => [pc + 1, target]
  | eachNext _ target => [pc + 1, target]
  | eachStep _ target => [target]
  | _ => [pc + 1]

/-- Whether an operation starts a range. -/
def Op.startsRange : Op → Bool
  | rangeInit .. => true
  | _ => false

/-- The cells of an instruction lie behind a mark, and all cells before the mark are saved. -/
structure Extent.Behind (low : Nat) (x : Extent) : Prop where
  own : ∀ j, x.low ≤ j → j < x.high → low ≤ j
  low_le : x.low ≤ x.memo
  site : ∃ mark, low ≤ mark ∧ x.site.slots = List.range mark

/-- An instruction that leaves alone the cells before `low` and goes on between `first` and
`last`. -/
structure Instr.Confined (low first last pc : Nat) (i : Instr) : Prop where
  writes : ∀ j ∈ i.op.writes, low ≤ j
  onward : ∀ target ∈ i.op.onward pc, first ≤ target ∧ target ≤ last
  extent : ∀ x, i.extent = some x → x.Behind low

theorem Extent.Behind.mono {low low' : Nat} {x : Extent} (h : x.Behind low) (hle : low' ≤ low) :
    x.Behind low' where
  own j hj hj' := Nat.le_trans hle (h.own j hj hj')
  low_le := h.low_le
  site := by
    obtain ⟨mark, hmark, hslots⟩ := h.site
    exact ⟨mark, Nat.le_trans hle hmark, hslots⟩

theorem Instr.Confined.mono {low low' first first' last last' pc : Nat} {i : Instr}
    (h : i.Confined low first last pc) (hlow : low' ≤ low) (hfirst : first' ≤ first)
    (hlast : last ≤ last') : i.Confined low' first' last' pc where
  writes j hj := Nat.le_trans hlow (h.writes j hj)
  onward target ht := ⟨Nat.le_trans hfirst (h.onward target ht).1,
    Nat.le_trans (h.onward target ht).2 hlast⟩
  extent x hx := (h.extent x hx).mono hlow

/-! ## Where ranges come from -/

namespace Plan

section

variable (S : Stmt → Prop)

mutual

/-- Every range in a plan is one of the statements `S`, and has the plan of that statement's
body. -/
def Sourced : Plan → Prop
  | .text _ => True
  | .print .. => True
  | .cond branches otherwise => SourcedBranches branches ∧ SourcedAll otherwise
  | .switch _ cases default => SourcedCases cases ∧ SourcedDefault default
  | .forRange var start stop step source body =>
    (S (.forRange var start stop step source) ∧ body = ofBlock source) ∧ SourcedAll body
  | .forEach _ _ _ body ifEmpty => SourcedAll body ∧ SourcedAll ifEmpty
  | .eager .. => True
  | .deferred .. => True
  | .content _ _ body => SourcedAll body
  | .stream _ body _ => SourcedAll body
  | .call _ _ _ params _ => SourcedParams params
  | .log body => SourcedAll body

def SourcedAll : List Plan → Prop
  | [] => True
  | p :: rest => p.Sourced ∧ SourcedAll rest

def SourcedBranches : List (Expr × List Plan) → Prop
  | [] => True
  | (_, body) :: rest => SourcedAll body ∧ SourcedBranches rest

def SourcedCases : List (List Expr × List Plan) → Prop
  | [] => True
  | (_, body) :: rest => SourcedAll body ∧ SourcedCases rest

def SourcedDefault : Option (List Plan) → Prop
  | none => True
  | some body => SourcedAll body

def SourcedParams : List (CallParam (List Plan)) → Prop
  | [] => True
  | .value .. :: rest => SourcedParams rest
  | .content _ _ body :: rest => SourcedAll body ∧ SourcedParams rest

end

end

variable {S : Stmt → Prop}

/-- Content that moves to its print takes its ranges along. -/
theorem sourcedAll_streaming {kind : ContentKind} {body ps : List Plan} (hbody : SourcedAll S body)
    (hps : SourcedAll S ps) (i : Nat) : SourcedAll S (ps.modify i (streaming kind body)) := by
  have hmoved (p : Plan) (hp : p.Sourced S) : (streaming kind body p).Sourced S := by
    cases p with
    | print e ds => exact hbody
    | _ => exact hp
  induction ps generalizing i with
  | nil => cases i <;> trivial
  | cons p rest ih =>
    cases i with
    | zero => exact ⟨hmoved p hps.1, hps.2⟩
    | succ i => exact ⟨hps.1, ih hps.2 i⟩

mutual

/-- The ranges in the plan of a block are the block's own. -/
theorem ofBlock_sourced (body : List Stmt) (h : ∀ s ∈ Stmt.flattenAll body, S s) :
    SourcedAll S (ofBlock body) := by
  match body with
  | [] =>
    unfold ofBlock
    trivial
  | s :: rest =>
    have hs : ∀ t ∈ s.flatten, S t := fun t ht => h t (List.mem_append_left _ ht)
    have hlater := ofBlock_sourced rest fun t ht => h t (List.mem_append_right _ ht)
    unfold ofBlock
    match s with
    | .text _ | .print .. => exact ⟨trivial, hlater⟩
    | .cond branches otherwise =>
      have hparts := List.forall_mem_append.1 (List.forall_mem_cons.1 hs).2
      exact ⟨⟨ofBranches_sourced branches hparts.1, ofBlock_sourced otherwise hparts.2⟩, hlater⟩
    | .switch subject cases default =>
      have hparts := List.forall_mem_append.1 (List.forall_mem_cons.1 hs).2
      exact ⟨⟨ofCases_sourced cases hparts.1, ofDefault_sourced default hparts.2⟩, hlater⟩
    | .forRange var start stop step body =>
      obtain ⟨hown, hbody⟩ := List.forall_mem_cons.1 hs
      exact ⟨⟨⟨hown, rfl⟩, ofBlock_sourced body hbody⟩, hlater⟩
    | .forEach var list body ifEmpty =>
      have hparts := List.forall_mem_append.1 (List.forall_mem_cons.1 hs).2
      exact ⟨⟨ofBlock_sourced body hparts.1, ofBlock_sourced ifEmpty hparts.2⟩, hlater⟩
    | .letValue name e =>
      simp only
      split
      · exact hlater
      · exact ⟨trivial, hlater⟩
      · exact ⟨trivial, hlater⟩
    | .letContent name kind body =>
      have hbody := ofBlock_sourced body (List.forall_mem_cons.1 hs).2
      simp only
      split
      · exact hlater
      · split
        · exact sourcedAll_streaming hbody hlater _
        · exact ⟨hbody, hlater⟩
    | .call callee target data params ds =>
      exact ⟨ofParams_sourced params (List.forall_mem_cons.1 hs).2, hlater⟩
    | .log body => exact ⟨ofBlock_sourced body (List.forall_mem_cons.1 hs).2, hlater⟩
termination_by sizeOf body
decreasing_by all_goals simp +arith

theorem ofBranches_sourced (branches : List (Expr × List Stmt))
    (h : ∀ s ∈ Stmt.flattenBranches branches, S s) :
    SourcedBranches S (ofBranches branches) := by
  match branches with
  | [] =>
    unfold ofBranches
    trivial
  | (c, body) :: rest =>
    unfold ofBranches
    obtain ⟨hbody, hrest⟩ := List.forall_mem_append.1 h
    exact ⟨ofBlock_sourced body hbody, ofBranches_sourced rest hrest⟩
termination_by sizeOf branches
decreasing_by all_goals simp +arith

theorem ofCases_sourced (cases : List (List Expr × List Stmt))
    (h : ∀ s ∈ Stmt.flattenCases cases, S s) :
    SourcedCases S (ofCases cases) := by
  match cases with
  | [] =>
    unfold ofCases
    trivial
  | (values, body) :: rest =>
    unfold ofCases
    obtain ⟨hbody, hrest⟩ := List.forall_mem_append.1 h
    exact ⟨ofBlock_sourced body hbody, ofCases_sourced rest hrest⟩
termination_by sizeOf cases
decreasing_by all_goals simp +arith

theorem ofDefault_sourced (default : Option (List Stmt))
    (h : ∀ s ∈ Stmt.flattenOption default, S s) :
    SourcedDefault S (ofDefault default) := by
  match default with
  | none =>
    unfold ofDefault
    trivial
  | some body =>
    unfold ofDefault
    exact ofBlock_sourced body h
termination_by sizeOf default
decreasing_by all_goals simp +arith

theorem ofParams_sourced (params : List (CallParam (List Stmt)))
    (h : ∀ s ∈ Stmt.flattenParams params, S s) :
    SourcedParams S (ofParams params) := by
  match params with
  | [] =>
    unfold ofParams
    trivial
  | .value name e :: rest =>
    unfold ofParams
    exact ofParams_sourced rest h
  | .content name kind body :: rest =>
    unfold ofParams
    obtain ⟨hbody, hrest⟩ := List.forall_mem_append.1 h
    exact ⟨ofBlock_sourced body hbody, ofParams_sourced rest hrest⟩
termination_by sizeOf params
decreasing_by all_goals simp +arith

end

end Plan

namespace Program

variable {S : Stmt → Prop}

/-- The code of a range from its start on, which stands at `pc`: behind the look for the next number
come a pause, if there is one, and the body of a range statement from `S`, for which the variable of
that statement is the local in the cell `base`. -/
def RangeCode (S : Stmt → Prop) (pc base : Nat) (code : List Instr) : Prop :=
  ∃ (init : Instr) (pause body rest : List Instr),
    code = init :: { op := .rangeNext base (pc + 3 + (pause ++ body).length) } ::
      ((pause ++ body) ++ { op := .rangeStep base (pc + 1) } :: rest) ∧
    (∀ (k : Nat) (i : Instr), (pause ++ body)[k]? = some i →
      i.Confined (base + 3) (pc + 3) (pc + 2 + (pause ++ body).length) (pc + 2 + k)) ∧
    ∃ (var : String) (start : Option Expr) (stop : Expr) (step : Option Expr)
      (source : List Stmt) (out : Out) (a : Analyzer) (b b' : Builder),
      S (.forRange var start stop step source) ∧
        b.locals.lookup var = some { slot := base, kind := .int } ∧
      Build.inScope (compileBlock out (pc + 2 + pause.length) (Plan.ofBlock source)) a b =
        .ok (body, b')

/-- Code that stands at `pc` and leaves alone the cells before `low`, goes on between `first` and
`last`, and starts ranges only where their code follows. -/
structure Orderly (S : Stmt → Prop) (low first last pc : Nat) (code : List Instr) : Prop where
  confined : ∀ (k : Nat) (i : Instr), code[k]? = some i → i.Confined low first last (pc + k)
  ranges : ∀ (k : Nat) (i : Instr) base start stop step, code[k]? = some i →
    i.op = .rangeInit base start stop step → RangeCode S (pc + k) base (code.drop k)

theorem RangeCode.append {pc base : Nat} {code : List Instr} (h : RangeCode S pc base code)
    (more : List Instr) :
    RangeCode S pc base (code ++ more) := by
  obtain ⟨init, pause, body, rest, rfl, hbody, hvar⟩ := h
  exact ⟨init, pause, body, rest ++ more, by simp, hbody, hvar⟩

namespace Orderly

variable {low low' first first' last last' pc : Nat} {code code' : List Instr}

theorem mono (h : Orderly S low first last pc code) (hlow : low' ≤ low) (hfirst : first' ≤ first)
    (hlast : last ≤ last') :
    Orderly S low' first' last' pc code where
  confined k i hi := (h.confined k i hi).mono hlow hfirst hlast
  ranges := h.ranges

theorem nil : Orderly S low first last pc [] where
  confined k i hi := by cases hi
  ranges k i base start stop step hi := by cases hi

theorem append (h : Orderly S low first last pc code)
    (h' : Orderly S low first last (pc + code.length) code') :
    Orderly S low first last pc (code ++ code') where
  confined k i hi := by
    by_cases hk : k < code.length
    · rw [List.getElem?_append_left hk] at hi
      exact h.confined k i hi
    · rw [List.getElem?_append_right (by omega)] at hi
      have := h'.confined (k - code.length) i hi
      rwa [show pc + code.length + (k - code.length) = pc + k by omega] at this
  ranges k i base start stop step hi hop := by
    by_cases hk : k < code.length
    · rw [List.getElem?_append_left hk] at hi
      rw [List.drop_append_of_le_length (Nat.le_of_lt hk)]
      exact (h.ranges k i base start stop step hi hop).append code'
    · rw [List.getElem?_append_right (by omega)] at hi
      rw [List.drop_append, List.drop_eq_nil_of_le (by omega), List.nil_append]
      have := h'.ranges (k - code.length) i base start stop step hi hop
      rwa [show pc + code.length + (k - code.length) = pc + k by omega] at this

theorem single {i : Instr} (hi : i.Confined low first last pc) (hop : i.op.startsRange = false) :
    Orderly S low first last pc [i] where
  confined k j hj := by
    cases k with
    | zero => cases hj; exact hi
    | succ k => cases hj
  ranges k j base start stop step hj hstart := by
    cases k with
    | zero =>
      cases hj
      rw [hstart] at hop
      cases hop
    | succ k => cases hj

theorem cons {i : Instr} (hi : Orderly S low first last pc [i])
    (h : Orderly S low first last (pc + 1) code) :
    Orderly S low first last pc (i :: code) :=
  append hi h

/-- The start of a range. -/
theorem start {i : Instr} {base : Nat} {a b c : Option Compiled}
    (hop : i.op = .rangeInit base a b c) (hi : i.Confined low first last pc)
    (hrange : RangeCode S pc base (i :: code)) (h : Orderly S low first last (pc + 1) code) :
    Orderly S low first last pc (i :: code) where
  confined k j hj := by
    cases k with
    | zero => cases hj; exact hi
    | succ k =>
      have := h.confined k j hj
      rwa [show pc + 1 + k = pc + (k + 1) by omega] at this
  ranges k j base' a' b' c' hj hop' := by
    cases k with
    | zero =>
      cases hj
      rw [hop] at hop'
      cases hop'
      exact hrange
    | succ k =>
      have := h.ranges k j base' a' b' c' hj hop'
      rwa [show pc + 1 + k = pc + (k + 1) by omega] at this

/-- An instruction without cells of its own. -/
theorem plain {op : Op} (hwrites : ∀ j ∈ op.writes, low ≤ j)
    (honward : ∀ target ∈ op.onward pc, first ≤ target ∧ target ≤ last)
    (hop : op.startsRange = false) : Orderly S low first last pc [{ op }] :=
  single ⟨hwrites, honward, fun x hx => by cases hx⟩ hop

end Orderly

/-! ## Single instructions -/

theorem Build.Stepped.behind {b b' : Builder} {state : Option SlotKind} {slot : Nat} {x : Extent}
    (h : Build.Stepped b b' state slot x) {low : Nat} (hlow : low ≤ b.slots.mark) :
    x.Behind low where
  own j hj _ := Nat.le_trans hlow (by rw [← h.low]; exact hj)
  low_le := h.low_le
  site := ⟨x.high, Nat.le_trans hlow (by rw [← h.low]; exact Nat.le_trans h.low_le h.memo_le),
    h.site⟩

/-- An instruction with cells of its own. -/
theorem stepped_orderly {b b' : Builder} {state : Option SlotKind} {slot : Nat} {x : Extent}
    (hx : Build.Stepped b b' state slot x) {low first last pc : Nat}
    (hlow : low ≤ b.slots.mark) {op : Op} (hwrites : ∀ j ∈ op.writes, low ≤ j)
    (honward : ∀ target ∈ op.onward pc, first ≤ target ∧ target ≤ last)
    (hop : op.startsRange = false) : Orderly S low first last pc [{ op, extent := some x }] :=
  .single ⟨hwrites, honward, by rintro y ⟨⟩; exact hx.behind hlow⟩ hop

/-- A check whether the sink asks for a pause, before what `f` compiles. -/
theorem check_orderly {r : Analyzer} {b b' : Builder} {α : Type} {f : Instr → Build α} {a : α}
    (hw : b.slots.Wf) (h : (Build.checkLimit >>= f) r b = .ok (a, b')) :
    ∃ check, f check r b = .ok (a, b') ∧
      ∀ first last pc, first ≤ pc + 1 → pc + 1 ≤ last →
    Orderly S b.slots.mark first last pc [check] := by
  obtain ⟨i, b₁, hi, hrest⟩ := Build.bind_ok h
  obtain ⟨site, rfl, hsite, rfl⟩ := Build.checkLimit_ok hw hi
  refine ⟨_, hrest, fun first last pc hfirst hlast => .single ⟨?_, fun target ht => ?_, ?_⟩ rfl⟩
  · intro j hj
    cases hj
  · obtain rfl := List.mem_singleton.1 ht
    exact ⟨hfirst, hlast⟩
  · rintro x ⟨⟩
    exact ⟨fun j _ hj => absurd hj (Nat.not_lt_zero j), Nat.le_refl _, _, Nat.le_refl _, hsite⟩

/-! ## Statements -/

/-- Compiling a body gives orderly code. -/
def Settles (S : Stmt → Prop) (r : Analyzer) (body : Out → Nat → Build (List Instr)) : Prop :=
  ∀ {out : Out} {pc : Nat} {b b' : Builder} {g : Shapes} {code : List Instr},
    b.Holds g → out.Fits g → body out pc r b = .ok (code, b') →
    Orderly S b.slots.mark (pc + 1) (pc + code.length) pc code

variable {r : Analyzer}

/-- A body in a scope of its own. -/
theorem Settles.scope {body : Out → Nat → Build (List Instr)} (hbody : Settles S r body)
    {out : Out} {pc : Nat} {b b' : Builder} {g : Shapes} {code : List Instr} (hb : b.Holds g)
    (ho : out.Fits g) (h : Build.inScope (body out pc) r b = .ok (code, b')) :
    Orderly S b.slots.mark (pc + 1) (pc + code.length) pc code := by
  obtain ⟨b₁, hrun, _⟩ := Build.inScope_ok h
  have horderly := hbody hb.inner ho hrun
  exact horderly

/-- Compiling tests with their bodies gives orderly code, whatever place the bodies jump to when
they are through. -/
def SettlesSegments (S : Stmt → Prop) (r : Analyzer) (see : Seeing)
    (tests : Out → Nat → Build (List Segment)) : Prop :=
  ∀ {out : Out} {pc : Nat} {b b' : Builder} {g : Shapes} {segments : List Segment},
    b.Holds g → out.Fits g → (∀ i, see i → g i ≠ .free) → tests out pc r b = .ok (segments, b') →
    ∀ stop, pc + Segment.length segments ≤ stop →
      Orderly S b.slots.mark (pc + 1) stop pc (Segment.code stop segments)

/-- A test with its body before others. -/
theorem segment_orderly {low pc stop : Nat} {s : Segment} {rest : List Segment}
    (hstop : pc + Segment.length (s :: rest) ≤ stop)
    (htest : Orderly S low (pc + 1) stop pc [s.test])
    (hbody : Orderly S low (pc + 1 + 1) (pc + 1 + s.body.length) (pc + 1) s.body)
    (hrest : Orderly S low (s.next pc + 1) stop (s.next pc) (Segment.code stop rest)) :
    Orderly S low (pc + 1) stop pc (Segment.code stop (s :: rest)) := by
  rw [Segment.length_cons] at hstop
  have hnext : s.next pc = pc + 1 + s.body.length + if s.jumps then 1 else 0 := rfl
  rw [Segment.code_cons]
  refine (htest.cons (hbody.mono (Nat.le_refl _) (by omega) (by omega)) |>.append ?_).append ?_
  · split
    · refine .plain (fun j hj => by cases hj) (fun target ht => ?_) rfl
      obtain rfl := List.mem_singleton.1 ht
      omega
    · exact .nil
  · have hplace : pc +
        (s.test :: s.body ++ if s.jumps then [({ op := .jump stop } : Instr)] else []).length =
            s.next pc := by
      rw [hnext]
      cases s.jumps <;> simp <;> omega
    rw [hplace]
    exact hrest.mono (Nat.le_refl _) (by omega) (Nat.le_refl _)

theorem text_orderly (t : String) : Settles S r fun out pc => compilePlan out pc (.text t) := by
  intro out pc b b' g code hb ho h
  unfold compilePlan at h
  obtain ⟨rfl, rfl⟩ := Build.pure_ok h
  split
  · exact .nil
  · refine .plain (fun j hj => by cases hj) (fun target ht => ?_) rfl
    obtain rfl := List.mem_singleton.1 ht
    exact ⟨Nat.le_refl _, Nat.le_refl _⟩

theorem print_orderly (e : Expr) (ds : List Directive) : Settles S r fun out pc =>
    compilePlan out pc (.print e ds) := by
  intro out pc b b' g code hb ho h
  unfold compilePlan at h
  obtain ⟨⟨⟨c, fs⟩, slot, x⟩, b₁, hstep, h⟩ := Build.bind_ok h
  obtain ⟨rfl, rfl⟩ := Build.pure_ok h
  obtain ⟨hx, -⟩ := Build.step_ok (P := fun keep _ => touchPrint (g · ≠ .free) keep c fs)
      hb.slots hstep <| by
    intro b₁ b₂ hw hl hparts
    obtain ⟨c', b₃, hc, hparts⟩ := Build.bind_ok hparts
    obtain ⟨fs', b₄, hfs, hparts⟩ := Build.bind_ok hparts
    obtain ⟨hpair, rfl⟩ := Build.pure_ok hparts
    cases hpair
    exact Build.print_ok hw (by rw [hl]; exact hb.locals) hc hfs
  refine stepped_orderly hx (Nat.le_refl _) (fun j hj => by cases hj) (fun target ht => ?_) rfl
  obtain rfl := List.mem_singleton.1 ht
  exact ⟨Nat.le_refl _, Nat.le_refl _⟩

theorem orNothing_orderly {isMissing : Bool} {body : Out → Nat → Build (List Instr)}
    (hbody : Settles S r body) {out : Out} {pc : Nat} {b b' : Builder} {g : Shapes}
    {code : List Instr} (hb : b.Holds g) (ho : out.Fits g)
    (h : Build.orNothing isMissing (body out pc) r b = .ok (code, b')) :
    Orderly S b.slots.mark (pc + 1) (pc + code.length) pc code := by
  cases isMissing with
  | true =>
    obtain ⟨rfl, rfl⟩ := Build.pure_ok h
    exact .nil
  | false => exact hbody.scope hb ho h

theorem cond_orderly {branches : List (Expr × List Plan)} {otherwise : List Plan}
    (hbranches : SettlesSegments S r (fun _ => False) fun out pc =>
      compileBranches out (!otherwise.isEmpty) pc branches)
    (hother : Settles S r fun out pc => compileBlock out pc otherwise) :
    Settles S r fun out pc => compilePlan out pc (.cond branches otherwise) := by
  intro out pc b b' g code hb ho h
  unfold compilePlan at h
  obtain ⟨check, h, hcheck⟩ := check_orderly hb.slots h
  obtain ⟨segments, b₂, hsegments, h⟩ := Build.bind_ok h
  obtain ⟨last, b₃, hlast, h⟩ := Build.bind_ok h
  obtain ⟨rfl, rfl⟩ := Build.pure_ok h
  obtain ⟨hr₂, -⟩ := compileBranches_ok _ branches hb ho (fun _ h => h.elim) hsegments
  have horderly := hbranches hb ho (fun _ h => h.elim) hsegments
    (pc + 1 + Segment.length segments + last.length) (Nat.le_add_right ..)
  have hlength : pc + (check :: Segment.code (pc + 1 + Segment.length segments + last.length)
      segments ++ last).length = pc + 1 + Segment.length segments + last.length := by
    rw [List.length_append, List.length_cons, Segment.length_code]
    omega
  rw [hlength]
  refine (hcheck _ _ _ (by omega) (by omega)).cons
    ((horderly.mono (Nat.le_refl _) (by omega) (Nat.le_refl _)).append ?_)
  rw [Segment.length_code]
  have hrest := orNothing_orderly hother (hr₂.holds hb) ho hlast
  rw [hr₂.mark] at hrest
  exact hrest.mono (Nat.le_refl _) (by omega) (Nat.le_refl _)

theorem branch_orderly {c : Expr} {body : List Plan} {rest : List (Expr × List Plan)} {more : Bool}
    (hbody : Settles S r fun out pc => compileBlock out pc body)
    (hrest : SettlesSegments S r (fun _ => False) fun out pc => compileBranches out more pc rest) :
    SettlesSegments S r (fun _ => False) fun out pc =>
    compileBranches out more pc ((c, body) :: rest) := by
  intro out pc b b' g segments hb ho hsee h stop hstop
  unfold compileBranches at h
  obtain ⟨⟨e, slot, x⟩, b₁, hstep, h⟩ := Build.bind_ok h
  obtain ⟨code, b₂, hcode, h⟩ := Build.bind_ok h
  obtain ⟨later, b₃, hlater, h⟩ := Build.bind_ok h
  obtain ⟨rfl, rfl⟩ := Build.pure_ok h
  obtain ⟨hx, -⟩ := step_expr_ok hb hstep
  have hb₁ := hx.resized.holds hb
  obtain ⟨hr₂, -⟩ := Compiles.scope (compileBlock_ok body) (pc + 1) hb₁ ho hcode
  have hnext := hstop
  rw [Segment.length_cons] at hnext
  refine segment_orderly hstop ?_ ?_ ?_
  · refine stepped_orderly hx (Nat.le_refl _) (fun j hj => by cases hj) (fun target ht => ?_) rfl
    simp only [Op.onward, Segment.next, List.mem_cons, List.not_mem_nil, or_false] at ht hnext
    omega
  · have := hbody.scope hb₁ ho hcode
    rwa [hx.resized.mark] at this
  · have := hrest (hr₂.holds hb₁) ho hsee hlater stop hnext
    rwa [hr₂.mark, hx.resized.mark] at this

theorem case_orderly {slot : Nat} {values : List Expr} {body : List Plan}
    {rest : List (List Expr × List Plan)}
    (hbody : Settles S r fun out pc => compileBlock out pc body)
    (hrest : SettlesSegments S r (· = slot) fun out pc => compileCases out slot pc rest) :
    SettlesSegments S r (· = slot) fun out pc =>
    compileCases out slot pc ((values, body) :: rest) := by
  intro out pc b b' g segments hb ho hsee h stop hstop
  unfold compileCases at h
  obtain ⟨⟨vs, slot', x⟩, b₁, hstep, h⟩ := Build.bind_ok h
  obtain ⟨code, b₂, hcode, h⟩ := Build.bind_ok h
  obtain ⟨later, b₃, hlater, h⟩ := Build.bind_ok h
  obtain ⟨rfl, rfl⟩ := Build.pure_ok h
  obtain ⟨hx, -⟩ := Build.step_ok hb.slots hstep fun b₁ b₂ hw hl hc =>
    have hseen : b₁.locals.Seen (g · ≠ .free) := by rw [hl]; exact hb.locals
    Build.exprs_ok hw hseen hc
  have hb₁ := hx.resized.holds hb
  obtain ⟨hr₂, -⟩ := Compiles.scope (compileBlock_ok body) (pc + 1) hb₁ ho hcode
  have hnext := hstop
  rw [Segment.length_cons] at hnext
  refine segment_orderly hstop ?_ ?_ ?_
  · refine stepped_orderly hx (Nat.le_refl _) (fun j hj => by cases hj) (fun target ht => ?_) rfl
    simp only [Op.onward, Segment.next, List.mem_cons, List.not_mem_nil, or_false, if_true]
      at ht hnext
    omega
  · have := hbody.scope hb₁ ho hcode
    rwa [hx.resized.mark] at this
  · have := hrest (hr₂.holds hb₁) ho hsee hlater stop hnext
    rwa [hr₂.mark, hx.resized.mark] at this

theorem default_orderly {default : Option (List Plan)}
    (hbody : ∀ body, default = some body → Settles S r fun out pc => compileBlock out pc body)
    {out : Out} {pc : Nat} {b b' : Builder} {g : Shapes} {code : List Instr} (hb : b.Holds g)
    (ho : out.Fits g) (h : compileDefault out pc default r b = .ok (code, b')) :
    Orderly S b.slots.mark (pc + 1) (pc + code.length) pc code := by
  unfold compileDefault at h
  cases default with
  | none =>
    obtain ⟨rfl, rfl⟩ := Build.pure_ok h
    exact .nil
  | some body => exact Settles.scope (hbody body rfl) hb ho h

theorem switch_orderly {subject : Expr} {cases : List (List Expr × List Plan)}
    {default : Option (List Plan)}
    (hcases : ∀ slot, SettlesSegments S r (· = slot) fun out pc => compileCases out slot pc cases)
    (hdefault : ∀ body, default = some body → Settles S r fun out pc => compileBlock out pc body) :
    Settles S r fun out pc => compilePlan out pc (.switch subject cases default) := by
  intro out pc b b' g code hb ho h
  unfold compilePlan at h
  obtain ⟨check, h, hcheck⟩ := check_orderly hb.slots h
  obtain ⟨b₂, h, -⟩ := Build.inScope_ok h
  obtain ⟨slot, b₃, hslot, h⟩ := Build.bind_ok h
  obtain ⟨⟨c, state, x⟩, b₄, hstep, h⟩ := Build.bind_ok h
  obtain ⟨segments, b₅, hsegments, h⟩ := Build.bind_ok h
  obtain ⟨last, b₆, hlast, h⟩ := Build.bind_ok h
  obtain ⟨rfl, rfl⟩ := Build.pure_ok h
  obtain ⟨hsyn, hl₃⟩ := Build.onSlots_ok hslot
  obtain ⟨hi, hm, hg⟩ := hb.slots.synthetic "switch" .value
  injection hsyn with hsyn
  change Slots.synthetic b.slots.enter "switch" .value = (slot, b₃.slots) at hsyn
  rw [hsyn] at hi hm hg
  change slot = b.slots.mark at hi
  change b₃.slots.mark = b.slots.mark + 1 at hm
  have hb₃ := hb.inner.grow hg hl₃
  have hw := Shapes.within_set (s := .any) (hb.free (Nat.le_of_eq hi.symm))
  obtain ⟨hx, -⟩ := step_expr_ok hb₃ hstep
  have hb₄ := hx.resized.holds (hb₃.set (s := .any) (by omega : slot < b₃.slots.mark) (by simp))
  have hsee : ∀ i, i = slot → g.set slot .any i ≠ .free := by
    rintro i rfl
    rw [Shapes.set_self]
    simp
  obtain ⟨hr₅, -⟩ := compileCases_ok slot cases hb₄ (ho.mono hw) hsee hsegments
  have hmark : b₄.slots.mark = b.slots.mark + 1 := hx.resized.mark.trans hm
  have hsegs := hcases slot hb₄ (ho.mono hw) hsee hsegments
    (pc + 2 + Segment.length segments + last.length) (Nat.le_add_right ..)
  have hrest := default_orderly hdefault (hr₅.holds hb₄) (ho.mono hw) hlast
  rw [hr₅.mark] at hrest
  have hlength : pc + (check :: { op := .store slot .value c, extent := some x } ::
      Segment.code (pc + 2 + Segment.length segments + last.length) segments ++ last).length =
      pc + 2 + Segment.length segments + last.length := by
    simp only [List.length_append, List.length_cons, Segment.length_code]
    omega
  rw [hlength]
  refine (hcheck _ _ _ (by omega) (by omega)).cons
    (.cons ?_ ((hsegs.mono (by omega) (by omega) (Nat.le_refl _)).append ?_))
  · refine stepped_orderly hx (by omega) (fun j hj => ?_) (fun target ht => ?_) rfl
    · obtain rfl := List.mem_singleton.1 hj
      omega
    · obtain rfl := List.mem_singleton.1 ht
      omega
  · rw [Segment.length_code]
    exact hrest.mono (by omega) (by omega) (Nat.le_refl _)

/-! ## Loops -/

/-- One round of a loop. -/
theorem round_orderly {source : List Stmt} {body : List Plan}
    (hbody : Settles S r fun out pc => compileBlock out pc body) {out : Out} (pc : Nat)
    {b b₁ b₂ : Builder} {g : Shapes} {pause code : List Instr} (hb : b.Holds g) (ho : out.Fits g)
    (hpause : Build.loopCheck source r b = .ok (pause, b₁))
    (hcode : Build.inScope (compileBlock out (pc + pause.length) body) r b₁ = .ok (code, b₂)) :
    Orderly S b.slots.mark (pc + 1) (pc + (pause ++ code).length) pc (pause ++ code) := by
  obtain ⟨b₃, b₄, hget, hpause⟩ := Build.bind_ok hpause
  cases hget
  obtain ⟨r', b₅, hread, hpause⟩ := Build.bind_ok hpause
  cases hread
  rw [List.length_append, ← Nat.add_assoc]
  split at hpause
  · obtain ⟨check, hpause, hcheck⟩ := check_orderly hb.slots hpause
    obtain ⟨rfl, rfl⟩ := Build.pure_ok hpause
    have hinner := hbody.scope hb ho hcode
    refine (hcheck (pc + 1) _ pc (Nat.le_refl _) ?_).append
      (hinner.mono (Nat.le_refl _) (Nat.le_add_right ..) (Nat.le_refl _))
    simp
  · obtain ⟨rfl, rfl⟩ := Build.pure_ok hpause
    exact hbody.scope hb ho hcode

/-- What a loop compiles before its body: its three slots lie behind all that is in use. -/
theorem loopSlots_mark {b b₁ b₂ : Builder} {var : String} {kind : SlotKind} {base i : Nat}
    (hw : b.slots.Wf) (hvar : Build.alloc var kind r b = .ok (base, b₁))
    (hblock : Build.onSlots (·.block "" .int 2) r b₁ = .ok (i, b₂)) :
    base = b.slots.mark ∧ b₂.slots.mark = base + 3 := by
  obtain ⟨hbase, hm₁, hg₁, _⟩ := Build.alloc_ok hw hvar
  obtain ⟨hs, _⟩ := Build.onSlots_ok hblock
  obtain ⟨_, hm₂, _⟩ := hg₁.wf.block hs
  omega

/-- The instructions around the rounds of a range. -/
theorem rangeLoop_orderly {low first last pc base stop : Nat} {round : List Instr}
    (hlow : low ≤ base) (hfirst : first ≤ pc) (hstop : stop = pc + 2 + round.length)
    (hlast : stop ≤ last) (hround : Orderly S low first last (pc + 1) round) :
    Orderly S low first last pc
      ({ op := .rangeNext base stop } :: (round ++ [{ op := .rangeStep base pc }])) := by
  have hnext : Orderly S low first last pc [{ op := .rangeNext base stop }] := by
    refine .plain (fun j hj => ?_) (fun target ht => ?_) rfl
    · simp [Op.writes] at hj
    · simp only [Op.onward, List.mem_cons, List.not_mem_nil, or_false] at ht
      omega
  have hback : Orderly S low first last (pc + 1 + round.length) [{ op := .rangeStep base pc }] := by
    refine .plain (fun j hj => ?_) (fun target ht => ?_) rfl
    · obtain rfl := List.mem_singleton.1 hj
      exact hlow
    · obtain rfl := List.mem_singleton.1 ht
      omega
  exact hnext.cons (hround.append hback)

theorem forRange_orderly {var : String} {start : Option Expr} {stop : Expr} {stride : Option Expr}
    {source : List Stmt} {body : List Plan}
    (hsource : S (.forRange var start stop stride source) ∧ body = Plan.ofBlock source)
    (hbody : Settles S r fun out pc => compileBlock out pc body) :
    Settles S r fun out pc => compilePlan out pc (.forRange var start stop stride source body) := by
  obtain ⟨hsource, rfl⟩ := hsource
  intro out pc b b' g code hb ho h
  unfold compilePlan at h
  obtain ⟨check, h, hcheck⟩ := check_orderly hb.slots h
  obtain ⟨b₁, h, -⟩ := Build.inScope_ok h
  obtain ⟨base, b₂, hbase, h⟩ := Build.bind_ok h
  obtain ⟨i, b₃, hblock, h⟩ := Build.bind_ok h
  obtain ⟨⟨⟨cstart, cstop, cstride⟩, state, x⟩, b₄, hstep, h⟩ := Build.bind_ok h
  obtain ⟨u, b₅, hbind, h⟩ := Build.bind_ok h
  obtain ⟨pause, b₆, hpause, h⟩ := Build.bind_ok h
  obtain ⟨inner, b₇, hinner, h⟩ := Build.bind_ok h
  obtain ⟨hcode, rfl⟩ := Build.pure_ok h
  cases hbind
  obtain ⟨hfirst, hmark⟩ := loopSlots_mark hb.inner.slots hbase hblock
  change base = b.slots.mark at hfirst
  obtain ⟨hb₃, hb₃', -, -, hw⟩ := loopSlots_ok hb.inner hbase hblock
  obtain ⟨hx, -⟩ := rangeParts_ok hb₃ hstep
  have hb₅ := (hx.resized.holds hb₃').bind var (x := { slot := base, kind := .int })
    (Binding.seen_of_slot _ (by rw [Shapes.loop_first]; simp))
  have hround := round_orderly hbody (pc + 2 + 1) hb₅ (ho.mono hw) hpause hinner
  change Orderly S b₄.slots.mark _ _ _ _ at hround
  rw [hx.resized.mark, hmark] at hround
  have hsame : code = check :: { op := .rangeInit base cstart cstop cstride, extent := some x } ::
      { op := .rangeNext base (pc + 1 + 3 + (pause ++ inner).length) } ::
        ((pause ++ inner) ++ [{ op := .rangeStep base (pc + 1 + 1) }]) := by
    rw [hcode, List.length_append]
    simp only [List.cons_append, List.append_assoc, List.cons.injEq, true_and, Instr.mk.injEq,
      Op.rangeNext.injEq, and_true]
    omega
  have hlength : pc + code.length = pc + 1 + 3 + (pause ++ inner).length := by
    rw [hsame]
    simp only [List.length_append, List.length_cons, List.length_nil]
    omega
  rw [hlength, hsame]
  have hloop := rangeLoop_orderly (Nat.le_of_eq hfirst.symm) (by omega : pc + 1 ≤ pc + 1 + 1)
    (by omega : pc + 1 + 3 + (pause ++ inner).length = _) (Nat.le_refl _)
    (hround.mono (by omega) (by omega) (by omega))
  refine (hcheck _ _ _ (by omega) (by omega)).cons
    (.start rfl ⟨fun j hj => ?_, fun target ht => ?_, ?_⟩ ?_ hloop)
  · simp only [Op.writes, List.mem_cons, List.not_mem_nil, or_false] at hj
    omega
  · obtain rfl := List.mem_singleton.1 ht
    omega
  · rintro y ⟨⟩
    exact hx.behind (by omega)
  · obtain ⟨rfl, -⟩ := loopCheck_ok hb₅ hpause
    refine ⟨_, pause, inner, [], rfl, hround.confined, var, start, stop, stride, source, out, r, _,
      _, hsource, ?_, hinner⟩
    rw [Locals.lookup_bind, if_pos (by simp)]

theorem forEach_orderly {var : String} {list : Expr} {source : List Stmt} {body ifEmpty : List Plan}
    (hbody : Settles S r fun out pc => compileBlock out pc body)
    (hempty : Settles S r fun out pc => compileBlock out pc ifEmpty) :
    Settles S r fun out pc => compilePlan out pc (.forEach var list source body ifEmpty) := by
  intro out pc b b' g code hb ho h
  unfold compilePlan at h
  obtain ⟨check, h, hcheck⟩ := check_orderly hb.slots h
  obtain ⟨b₁, h, -⟩ := Build.inScope_ok h
  obtain ⟨base, b₂, hbase, h⟩ := Build.bind_ok h
  obtain ⟨i, b₃, hblock, h⟩ := Build.bind_ok h
  obtain ⟨⟨c, state, x⟩, b₄, hstep, h⟩ := Build.bind_ok h
  obtain ⟨u, b₅, hbind, h⟩ := Build.bind_ok h
  obtain ⟨pause, b₆, hpause, h⟩ := Build.bind_ok h
  obtain ⟨inner, b₇, hinner, h⟩ := Build.bind_ok h
  obtain ⟨last, b₈, hlast, h⟩ := Build.bind_ok h
  obtain ⟨hcode, rfl⟩ := Build.pure_ok h
  cases hbind
  obtain ⟨hfirst, hmark⟩ := loopSlots_mark hb.inner.slots hbase hblock
  change base = b.slots.mark at hfirst
  obtain ⟨hb₃, hb₃', -, -, hw⟩ := loopSlots_ok hb.inner hbase hblock
  obtain ⟨hx, -⟩ := step_expr_ok hb₃ hstep
  have hb₅ := (hx.resized.holds hb₃').bind var
    (x := { slot := base, kind := .value, loop := some (base + 1, base + 2) }) <| by
      refine ⟨by rw [Shapes.loop_first]; simp, ?_⟩
      rintro i l ⟨⟩
      exact ⟨by rw [Shapes.loop_second]; simp, by rw [Shapes.loop_third]; simp⟩
  have hround := round_orderly hbody (pc + 2 + 1) hb₅ (ho.mono hw) hpause hinner
  obtain ⟨hr₇, hp⟩ := round_ok (compileBlock_ok body) (pc + 2 + 1) hb₅ (ho.mono hw) hpause hinner
  have hafter := orNothing_orderly hempty hp.holds (ho.mono hw) hlast
  rw [hr₇.mark] at hafter
  change Orderly S b₄.slots.mark _ _ _ _ at hround hafter
  rw [hx.resized.mark, hmark] at hround hafter
  let emptyAt := pc + 2 + 1 + pause.length + inner.length + 1
  have hsame : code = check :: { op := .eachInit base c emptyAt, extent := some x } ::
      { op := .eachNext base (emptyAt + last.length) } ::
        ((pause ++ inner) ++ { op := .eachStep base (pc + 2) } :: last) := by
    rw [hcode]
    simp only [List.cons_append, List.append_assoc, emptyAt]
  have hlength : pc + code.length = emptyAt + last.length := by
    rw [hsame]
    simp only [List.length_append, List.length_cons, emptyAt]
    omega
  have hplace : pc + 2 + 1 + (pause ++ inner).length = emptyAt - 1 := by
    simp only [List.length_append, emptyAt]
    omega
  have hempty : emptyAt = pc + 4 + (pause ++ inner).length := by
    simp only [List.length_append, emptyAt]
    omega
  rw [hlength, hsame]
  change Orderly S (base + 3) (emptyAt + 1) (emptyAt + last.length) emptyAt last at hafter
  generalize emptyAt = emptyAt at hafter hplace hempty ⊢
  have hround' : Orderly S b.slots.mark (pc + 1) (emptyAt + last.length) (pc + 2 + 1)
      (pause ++ inner) :=
    hround.mono (by omega) (by omega) (by omega)
  refine (hcheck (pc + 1) (emptyAt + last.length) pc (by omega) (by omega)).cons
    (.cons ?_ (.cons ?_ (.append hround' (.cons ?_ ?_))))
  · refine stepped_orderly hx (by omega) (fun j hj => ?_) (fun target ht => ?_) rfl
    · simp only [Op.writes, List.mem_cons, List.not_mem_nil, or_false] at hj
      omega
    · simp only [Op.onward, List.mem_cons, List.not_mem_nil, or_false] at ht
      omega
  · refine .plain (fun j hj => ?_) (fun target ht => ?_) rfl
    · simp [Op.writes] at hj
    · simp only [Op.onward, List.mem_cons, List.not_mem_nil, or_false] at ht
      omega
  · refine .plain (fun j hj => ?_) (fun target ht => ?_) rfl
    · obtain rfl := List.mem_singleton.1 hj
      omega
    · obtain rfl := List.mem_singleton.1 ht
      omega
  · rw [hplace, Nat.sub_add_cancel (by omega)]
    exact hafter.mono (by omega) (by omega) (Nat.le_refl _)

/-! ## Locals and content -/

theorem eager_orderly {name : String} {e : Expr} : Settles S r fun out pc =>
    compilePlan out pc (.eager name e) := by
  intro out pc b b' g code hb ho h
  unfold compilePlan at h
  obtain ⟨slot, b₁, halloc, h⟩ := Build.bind_ok h
  obtain ⟨⟨c, state, x⟩, b₂, hstep, h⟩ := Build.bind_ok h
  obtain ⟨u, b₃, hbind, h⟩ := Build.bind_ok h
  obtain ⟨rfl, rfl⟩ := Build.pure_ok h
  obtain ⟨hslot, hm, hg, hl⟩ := Build.alloc_ok hb.slots halloc
  obtain ⟨hx, -⟩ := step_expr_ok (hb.grow hg hl) hstep
  refine stepped_orderly hx hg.mark (fun j hj => ?_) (fun target ht => ?_) rfl
  · obtain rfl := List.mem_singleton.1 hj
    exact Nat.le_of_eq hslot.symm
  · obtain rfl := List.mem_singleton.1 ht
    exact ⟨Nat.le_refl _, Nat.le_refl _⟩

theorem deferred_orderly {name : String} {e : Expr} :
    Settles S r fun out pc => compilePlan out pc (.deferred name e) := by
  intro out pc b b' g code hb ho h
  unfold compilePlan at h
  obtain ⟨slot, b₁, halloc, h⟩ := Build.bind_ok h
  obtain ⟨r', b₂, hread, h⟩ := Build.bind_ok h
  obtain ⟨b₃, b₄, hget, h⟩ := Build.bind_ok h
  obtain ⟨thunk, b₅, hlift, h⟩ := Build.bind_ok h
  obtain ⟨u, b₆, hbind, h⟩ := Build.bind_ok h
  obtain ⟨rfl, rfl⟩ := Build.pure_ok h
  obtain ⟨hslot, -⟩ := Build.alloc_ok hb.slots halloc
  refine .plain (fun j hj => ?_) (fun target ht => ?_) rfl
  · obtain rfl := List.mem_singleton.1 hj
    exact Nat.le_of_eq hslot.symm
  · obtain rfl := List.mem_singleton.1 ht
    exact ⟨Nat.le_refl _, Nat.le_refl _⟩

/-- A body between an instruction that prepares a cell and one that gives it up. -/
theorem enclosed_orderly {low pc : Nat} {before after : Instr} {code : List Instr}
    (hbefore : Orderly S low (pc + 1) (pc + 2 + code.length) pc [before])
    (hcode : Orderly S low (pc + 1 + 1) (pc + 1 + code.length) (pc + 1) code)
    (hafter : Orderly S low (pc + 1) (pc + 2 + code.length) (pc + 1 + code.length) [after]) :
    Orderly S low (pc + 1) (pc + (before :: code ++ [after]).length) pc
      (before :: code ++ [after]) := by
  have hlength : pc + (before :: code ++ [after]).length = pc + 2 + code.length := by
    simp only [List.length_append, List.length_cons, List.length_nil]
    omega
  rw [hlength]
  refine (hbefore.cons (hcode.mono (Nat.le_refl _) (by omega) (by omega))).append ?_
  rw [List.length_cons, Nat.add_comm code.length 1, ← Nat.add_assoc]
  exact hafter

/-- An instruction that writes some cells behind a mark and goes on with the next. -/
theorem next_orderly {low first last pc : Nat} {op : Op} (hwrites : ∀ j ∈ op.writes, low ≤ j)
    (honward : op.onward pc = [pc + 1]) (hop : op.startsRange = false) (hfirst : first ≤ pc + 1)
    (hlast : pc + 1 ≤ last) : Orderly S low first last pc [{ op }] := by
  refine .plain hwrites (fun target ht => ?_) hop
  rw [honward] at ht
  obtain rfl := List.mem_singleton.1 ht
  exact ⟨hfirst, hlast⟩

theorem buffered_orderly {body : Out → Nat → Build (List Instr)} (hbody : Settles S r body)
    {b b' : Builder} {g : Shapes} {low pc dst : Nat} {kind : ContentKind} {code : List Instr}
    (hb : b.Holds g) (hlow : low ≤ b.slots.mark) (hdst : low ≤ dst)
    (h : Build.buffered pc dst kind body r b = .ok (code, b')) :
    Orderly S low (pc + 1) (pc + code.length) pc code := by
  obtain ⟨b₃, h, -⟩ := Build.inScope_ok h
  obtain ⟨slot, b₁, halloc, h⟩ := Build.bind_ok h
  obtain ⟨inner, b₂, hcode, h⟩ := Build.bind_ok h
  obtain ⟨rfl, rfl⟩ := Build.pure_ok h
  obtain ⟨hslot, hm, -⟩ := Build.alloc_ok hb.inner.slots halloc
  change slot = b.slots.mark at hslot
  obtain ⟨-, -, -, -, hset, -⟩ := local_ok (s := .buffer) hb.inner halloc (.refl b₁) (by simp)
  have hinner := hbody hset (show Out.Fits _ (.cell slot) from .inl (Shapes.set_self ..)) hcode
  rw [hm] at hinner
  refine enclosed_orderly (next_orderly (fun j hj => ?_) rfl rfl (by omega) (by omega))
    (hinner.mono (Nat.le_trans hlow (Nat.le_succ _)) (Nat.le_refl _) (Nat.le_refl _))
    (next_orderly (fun j hj => ?_) rfl rfl (by omega) (by omega))
  · obtain rfl := List.mem_singleton.1 hj
    omega
  · simp only [Op.writes, List.mem_cons, List.not_mem_nil, or_false] at hj
    omega

theorem content_orderly {name : String} {kind : ContentKind} {body : List Plan}
    (hbody : Settles S r fun out pc => compileBlock out pc body) :
    Settles S r fun out pc => compilePlan out pc (.content name kind body) := by
  intro out pc b b' g code hb ho h
  unfold compilePlan at h
  obtain ⟨slot, b₁, halloc, h⟩ := Build.bind_ok h
  obtain ⟨inner, b₂, hcode, h⟩ := Build.bind_ok h
  obtain ⟨u, b₃, hbind, h⟩ := Build.bind_ok h
  obtain ⟨rfl, rfl⟩ := Build.pure_ok h
  obtain ⟨hslot, -, hg, hl⟩ := Build.alloc_ok hb.slots halloc
  exact buffered_orderly hbody (hb.grow hg hl) hg.mark (Nat.le_of_eq hslot.symm) hcode

theorem stream_orderly {kind : ContentKind} {body : List Plan} {ds : List Directive}
    (hbody : Settles S r fun out pc => compileBlock out pc body) :
    Settles S r fun out pc => compilePlan out pc (.stream kind body ds) := by
  intro out pc b b' g code hb ho h
  unfold compilePlan at h
  obtain ⟨b₄, h, -⟩ := Build.inScope_ok h
  obtain ⟨slot, b₁, halloc, h⟩ := Build.bind_ok h
  obtain ⟨⟨fs, state, x⟩, b₂, hstep, h⟩ := Build.bind_ok h
  obtain ⟨inner, b₃, hcode, h⟩ := Build.bind_ok h
  obtain ⟨rfl, rfl⟩ := Build.pure_ok h
  obtain ⟨hslot, hm, -⟩ := Build.alloc_ok hb.inner.slots halloc
  change slot = b.slots.mark at hslot
  change b₁.slots.mark = b.slots.mark + 1 at hm
  obtain ⟨hb₁, -⟩ := local_ok (s := .wrap) hb.inner halloc (.refl b₁) (by simp)
  obtain ⟨hx, -⟩ := Build.step_ok hb₁.slots hstep fun b₂ b₃ hw hl hc =>
    have hseen : b₂.locals.Seen (g · ≠ .free) := by rw [hl]; exact hb₁.locals
    Build.filters_ok hw hseen hc
  obtain ⟨-, -, -, -, hset, -⟩ := local_ok (s := .wrap) hb.inner halloc hx.resized (by simp)
  have hinner := hbody hset (show Out.Fits _ (.cell slot) from .inr (Shapes.set_self ..)) hcode
  rw [hx.resized.mark, hm] at hinner
  refine enclosed_orderly (stepped_orderly hx (by omega) (fun j hj => ?_) (fun target ht => ?_) rfl)
    (hinner.mono (Nat.le_succ _) (Nat.le_refl _) (Nat.le_refl _))
    (next_orderly (fun j hj => ?_) rfl rfl (by omega) (by omega))
  · obtain rfl := List.mem_singleton.1 hj
    omega
  · obtain rfl := List.mem_singleton.1 ht
    omega
  · obtain rfl := List.mem_singleton.1 hj
    omega

theorem log_orderly {body : List Plan}
    (hbody : Settles S r fun out pc => compileBlock out pc body) :
    Settles S r fun out pc => compilePlan out pc (.log body) := by
  intro out pc b b' g code hb ho h
  unfold compilePlan at h
  obtain ⟨b₃, h, -⟩ := Build.inScope_ok h
  obtain ⟨slot, b₁, halloc, h⟩ := Build.bind_ok h
  obtain ⟨inner, b₂, hcode, h⟩ := Build.bind_ok h
  obtain ⟨rfl, rfl⟩ := Build.pure_ok h
  obtain ⟨hslot, hm, -⟩ := Build.alloc_ok hb.inner.slots halloc
  change slot = b.slots.mark at hslot
  change b₁.slots.mark = b.slots.mark + 1 at hm
  obtain ⟨-, -, -, -, hset, -⟩ := local_ok (s := .buffer) hb.inner halloc (.refl b₁) (by simp)
  have hinner := hbody hset (show Out.Fits _ (.cell slot) from .inl (Shapes.set_self ..)) hcode
  rw [hm] at hinner
  have hcell : ∀ j, j ∈ [slot] → b.slots.mark ≤ j := by
    intro j hj
    obtain rfl := List.mem_singleton.1 hj
    omega
  exact enclosed_orderly (next_orderly hcell rfl rfl (by omega) (by omega))
    (hinner.mono (Nat.le_succ _) (Nat.le_refl _) (Nat.le_refl _))
    (next_orderly hcell rfl rfl (by omega) (by omega))

/-! ## Calls -/

/-- Compiling the content params of a call gives orderly code. -/
def SettlesContents (S : Stmt → Prop) (r : Analyzer)
    (params : List (CallParam (List Plan))) : Prop :=
  ∀ {pc : Nat} {b b' : Builder} {g : Shapes} {slots : List (Option Nat)} {code : List Instr},
    b.Holds g → compileContents pc params r b = .ok ((slots, code), b') →
    Orderly S b.slots.mark (pc + 1) (pc + code.length) pc code

theorem contentParam_orderly {name : String} {kind : ContentKind} {body : List Plan}
    {rest : List (CallParam (List Plan))}
    (hbody : Settles S r fun out pc => compileBlock out pc body)
    (hrest : SettlesContents S r rest) : SettlesContents S r (.content name kind body :: rest) := by
  intro pc b b' g slots code hb h
  unfold compileContents at h
  obtain ⟨slot, b₁, halloc, h⟩ := Build.bind_ok h
  obtain ⟨inner, b₂, hcode, h⟩ := Build.bind_ok h
  obtain ⟨⟨later, laterCode⟩, b₃, hlater, h⟩ := Build.bind_ok h
  obtain ⟨hpair, rfl⟩ := Build.pure_ok h
  cases hpair
  obtain ⟨hslot, -, hg, hl⟩ := Build.alloc_ok hb.slots halloc
  obtain ⟨hb₁, hlt, -⟩ := local_ok (s := .value) hb halloc (.refl b₁) (by simp)
  obtain ⟨hr, -⟩ := buffered_ok (compileBlock_ok body) hb₁ hlt hcode
  obtain ⟨-, -, -, hgrows, hset, -⟩ := local_ok (s := .value) hb halloc hr (by simp)
  have hfirst := buffered_orderly hbody hb₁ hg.mark (Nat.le_of_eq hslot.symm) hcode
  have hsecond := hrest hset hlater
  rw [List.length_append, ← Nat.add_assoc]
  exact (hfirst.mono (Nat.le_refl _) (Nat.le_refl _) (Nat.le_add_right ..)).append
    (hsecond.mono hgrows.mark (by omega) (Nat.le_refl _))

theorem valueParam_orderly {name : String} {e : Expr} {rest : List (CallParam (List Plan))}
    (hrest : SettlesContents S r rest) : SettlesContents S r (.value name e :: rest) := by
  intro pc b b' g slots code hb h
  unfold compileContents at h
  obtain ⟨⟨later, laterCode⟩, b₁, hlater, h⟩ := Build.bind_ok h
  obtain ⟨hpair, rfl⟩ := Build.pure_ok h
  cases hpair
  exact hrest hb hlater

theorem call_orderly {name : String} {target : CallTarget} {data : CallData}
    {params : List (CallParam (List Plan))} {ds : List Directive}
    (hparams : SettlesContents S r params) :
    Settles S r fun out pc => compilePlan out pc (.call name target data params ds) := by
  intro out pc b b' g code hb ho h
  unfold compilePlan at h
  obtain ⟨check, h, hcheck⟩ := check_orderly hb.slots h
  obtain ⟨b₁, h, -⟩ := Build.inScope_ok h
  obtain ⟨⟨slots, contents⟩, b₂, hcontents, h⟩ := Build.bind_ok h
  obtain ⟨⟨⟨site, fs⟩, slot, x⟩, b₃, hstep, h⟩ := Build.bind_ok h
  obtain ⟨rfl, rfl⟩ := Build.pure_ok h
  obtain ⟨g', hp, hslots⟩ := compileContents_ok params hb.inner hcontents
  obtain ⟨hx, -⟩ := Build.step_ok (P := fun keep _ => site.Touches (g' · ≠ .free) keep fs ∧
      ∀ a ∈ site.args, a.Fits g') hp.holds.slots hstep fun _ _ hw hl h =>
    callParts_ok hw (by rw [hl]; exact hp.holds.locals) hslots h
  obtain ⟨hslot, -⟩ := hx.state rfl
  have hmark : b.slots.mark ≤ b₂.slots.mark := hp.grows.mark
  have hbefore := hparams hb.inner hcontents
  change Orderly S b.slots.mark _ _ _ _ at hbefore
  have hlength : pc + (check :: contents ++
      [({ op := .call out slot site fs, extent := some x } : Instr)]).length =
          pc + 2 + contents.length := by
    simp only [List.length_append, List.length_cons, List.length_nil]
    omega
  rw [hlength]
  refine ((hcheck _ _ _ (by omega) (by omega)).cons
    (hbefore.mono (Nat.le_refl _) (by omega) (by omega))).append ?_
  refine stepped_orderly hx hmark (fun j hj => ?_) (fun target ht => ?_) rfl
  · obtain rfl := List.mem_singleton.1 hj
    rw [hslot, hx.low]
    exact hmark
  · obtain rfl := List.mem_singleton.1 ht
    simp only [List.length_cons]
    omega

/-! ## Blocks -/

theorem noPlan_orderly : Settles S r fun out pc => compileBlock out pc [] := by
  intro out pc b b' g code hb ho h
  unfold compileBlock at h
  obtain ⟨rfl, rfl⟩ := Build.pure_ok h
  exact .nil

theorem plans_orderly {p : Plan} {rest : List Plan}
    (hp : Settles S r fun out pc => compilePlan out pc p)
    (hrest : Settles S r fun out pc => compileBlock out pc rest) :
    Settles S r fun out pc => compileBlock out pc (p :: rest) := by
  intro out pc b b' g code hb ho h
  unfold compileBlock at h
  obtain ⟨first, b₁, hfirst, h⟩ := Build.bind_ok h
  obtain ⟨later, b₂, hlater, h⟩ := Build.bind_ok h
  obtain ⟨rfl, rfl⟩ := Build.pure_ok h
  obtain ⟨g₁, hp₁⟩ := compilePlan_ok p hb ho hfirst
  have hone := hp hb ho hfirst
  have htwo := hrest hp₁.holds (ho.mono hp₁.within) hlater
  rw [List.length_append, ← Nat.add_assoc]
  exact (hone.mono (Nat.le_refl _) (Nat.le_refl _) (Nat.le_add_right ..)).append
    (htwo.mono hp₁.grows.mark (by omega) (Nat.le_refl _))

theorem noBranch_orderly (more : Bool) :
    SettlesSegments S r (fun _ => False) fun out pc => compileBranches out more pc [] := by
  intro out pc b b' g segments hb ho hsee h stop hstop
  unfold compileBranches at h
  obtain ⟨rfl, rfl⟩ := Build.pure_ok h
  exact .nil

theorem noCase_orderly (slot : Nat) : SettlesSegments S r (· = slot) fun out pc =>
    compileCases out slot pc [] := by
  intro out pc b b' g segments hb ho hsee h stop hstop
  unfold compileCases at h
  obtain ⟨rfl, rfl⟩ := Build.pure_ok h
  exact .nil

theorem noParam_orderly : SettlesContents S r [] := by
  intro pc b b' g slots code hb h
  unfold compileContents at h
  obtain ⟨hpair, rfl⟩ := Build.pure_ok h
  cases hpair
  exact .nil

mutual

/-- Every block compiles to orderly code. -/
theorem compileBlock_orderly : (ps : List Plan) → Plan.SourcedAll S ps →
    Settles S r fun out pc => compileBlock out pc ps
  | [], _ => noPlan_orderly
  | p :: rest, h => plans_orderly (compilePlan_orderly p h.1) (compileBlock_orderly rest h.2)

theorem compilePlan_orderly : (p : Plan) → p.Sourced S → Settles S r fun out pc =>
    compilePlan out pc p
  | .text t, _ => text_orderly t
  | .print e ds, _ => print_orderly e ds
  | .cond branches otherwise, h =>
    cond_orderly (compileBranches_orderly _ branches h.1) (compileBlock_orderly otherwise h.2)
  | .switch _ cases none, h =>
    switch_orderly (compileCases_orderly · cases h.1) fun _ hd => by cases hd
  | .switch _ cases (some body), h =>
    switch_orderly (compileCases_orderly · cases h.1) fun _ hd => by
      cases hd; exact compileBlock_orderly body h.2
  | .forRange _ _ _ _ _ body, h => forRange_orderly h.1 (compileBlock_orderly body h.2)
  | .forEach _ _ _ body ifEmpty, h =>
    forEach_orderly (compileBlock_orderly body h.1) (compileBlock_orderly ifEmpty h.2)
  | .eager .., _ => eager_orderly
  | .deferred .., _ => deferred_orderly
  | .content _ _ body, h => content_orderly (compileBlock_orderly body h)
  | .stream _ body _, h => stream_orderly (compileBlock_orderly body h)
  | .call _ _ _ params _, h => call_orderly (compileContents_orderly params h)
  | .log body, h => log_orderly (compileBlock_orderly body h)

theorem compileBranches_orderly (more : Bool) : (branches : List (Expr × List Plan)) →
    Plan.SourcedBranches S branches →
    SettlesSegments S r (fun _ => False) fun out pc => compileBranches out more pc branches
  | [], _ => noBranch_orderly more
  | (_, body) :: rest, h =>
    branch_orderly (compileBlock_orderly body h.1) (compileBranches_orderly more rest h.2)

theorem compileCases_orderly (slot : Nat) : (cases : List (List Expr × List Plan)) →
    Plan.SourcedCases S cases → SettlesSegments S r (· = slot) fun out pc =>
    compileCases out slot pc cases
  | [], _ => noCase_orderly slot
  | (_, body) :: rest, h =>
    case_orderly (compileBlock_orderly body h.1) (compileCases_orderly slot rest h.2)

theorem compileContents_orderly : (params : List (CallParam (List Plan))) →
    Plan.SourcedParams S params → SettlesContents S r params
  | [], _ => noParam_orderly
  | .value .. :: rest, h => valueParam_orderly (compileContents_orderly rest h)
  | .content _ _ body :: rest, h =>
    contentParam_orderly (compileBlock_orderly body h.1) (compileContents_orderly rest h.2)

end

end Program

end Interlude
