import Interlude.Template.Plan
/-!
# Plans that cannot suspend

A body that is judged safe calls nobody, runs over no list, and reads no local but those that are
known where it begins and that it does not bind itself. All this passes on to its plan, wherever
content has moved (`ofBlock_safe`).
-/

namespace Interlude

/-- A statement that does not wait by itself and binds no known name. -/
structure Stmt.Safe (known : String → Bool) (s : Stmt) : Prop where
  exprs : ∀ e ∈ s.exprs, e.maySuspend known = false
  binds : ∀ name, s.binds? = some name → known name = false
  uncalling : ∀ callee target data params ds, s ≠ .call callee target data params ds
  unlisted : ∀ var list body ifEmpty, s ≠ .forEach var list body ifEmpty

/-- The names that are known in a body: those that are settled where it begins, unless it binds
them. -/
def Stmt.known (settled : String → Bool) (body : List Stmt) (name : String) : Bool :=
  !((flattenAll body).filterMap binds?).contains name && settled name

/-- All statements of a body that is judged safe are, at any depth. -/
theorem Stmt.safe_of_body {settled : String → Bool} {body : List Stmt}
    (h : maySuspend settled body = false) :
    ∀ s ∈ flattenAll body, s.Safe (known settled body) := by
  intro s hs
  have hany := List.any_eq_false.1 h s hs
  refine ⟨fun e he => ?_, fun name hname => ?_, ?_, ?_⟩
  · cases s with
    | call | forEach => simp at hany
    | _ => exact Bool.eq_false_iff.2 (List.any_eq_false.1 (Bool.eq_false_iff.2 hany) e he)
  · have hbound : name ∈ (flattenAll body).filterMap binds? := List.mem_filterMap.2 ⟨s, hs, hname⟩
    unfold known
    rw [List.contains_iff_mem.2 hbound]
    rfl
  · rintro callee target data params ds rfl
    simp at hany
  · rintro var list body ifEmpty rfl
    simp at hany

namespace Plan

variable (known : String → Bool)

/-- The arguments of directives are safe. -/
def SafeArgs (ds : List Directive) : Prop := ∀ d ∈ ds, ∀ e ∈ d.args, e.maySuspend known = false

mutual

/-- A plan that does not wait and binds no known name. -/
def Safe : Plan → Prop
  | .text _ => True
  | .print e ds => e.maySuspend known = false ∧ SafeArgs known ds
  | .cond branches otherwise => SafeBranches branches ∧ SafeAll otherwise
  | .switch subject cases default =>
    subject.maySuspend known = false ∧ SafeCases cases ∧ SafeDefault default
  | .forRange var start stop step _ body =>
    known var = false ∧ (∀ e ∈ start, e.maySuspend known = false) ∧ stop.maySuspend known = false ∧
      (∀ e ∈ step, e.maySuspend known = false) ∧ SafeAll body
  | .forEach .. => False
  | .eager name e => known name = false ∧ e.maySuspend known = false
  | .deferred name _ => known name = false
  | .content name _ body => known name = false ∧ SafeAll body
  | .stream _ body ds => SafeAll body ∧ SafeArgs known ds
  | .call .. => False
  | .log body => SafeAll body

def SafeAll : List Plan → Prop
  | [] => True
  | p :: rest => p.Safe ∧ SafeAll rest

def SafeBranches : List (Expr × List Plan) → Prop
  | [] => True
  | (c, body) :: rest => c.maySuspend known = false ∧ SafeAll body ∧ SafeBranches rest

def SafeCases : List (List Expr × List Plan) → Prop
  | [] => True
  | (values, body) :: rest =>
    (∀ e ∈ values, e.maySuspend known = false) ∧ SafeAll body ∧ SafeCases rest

def SafeDefault : Option (List Plan) → Prop
  | none => True
  | some body => SafeAll body

end

variable {known}

/-- Content that moves to its print stays safe. -/
theorem safeAll_streaming {kind : ContentKind} {body ps : List Plan} (hbody : SafeAll known body)
    (hps : SafeAll known ps) (i : Nat) : SafeAll known (ps.modify i (streaming kind body)) := by
  have hmoved (p : Plan) (hp : p.Safe known) : (streaming kind body p).Safe known := by
    cases p with
    | print e ds => exact ⟨hbody, hp.2⟩
    | _ => exact hp
  induction ps generalizing i with
  | nil => cases i <;> trivial
  | cons p rest ih =>
    cases i with
    | zero => exact ⟨hmoved p hps.1, hps.2⟩
    | succ i => exact ⟨hps.1, ih hps.2 i⟩

theorem safeArgs_of_exprs {ds : List Directive}
    (h : ∀ e ∈ Stmt.directiveArgs ds, e.maySuspend known = false) :
    SafeArgs known ds :=
  fun d hd e he => h e (List.mem_flatMap.2 ⟨d, hd, he⟩)

mutual

/-- The plan of a safe block is safe. -/
theorem ofBlock_safe (body : List Stmt) (h : ∀ s ∈ Stmt.flattenAll body, s.Safe known) :
    SafeAll known (ofBlock body) := by
  match body with
  | [] =>
    unfold ofBlock
    trivial
  | s :: rest =>
    have hs : ∀ t ∈ s.flatten, t.Safe known := fun t ht => h t (List.mem_append_left _ ht)
    have hlater := ofBlock_safe rest fun t ht => h t (List.mem_append_right _ ht)
    unfold ofBlock
    match s with
    | .text t => exact ⟨trivial, hlater⟩
    | .print e ds =>
      have hown := hs _ (List.mem_singleton_self _)
      exact ⟨⟨hown.exprs e List.mem_cons_self, safeArgs_of_exprs fun a ha =>
        hown.exprs a (List.mem_cons_of_mem _ ha)⟩, hlater⟩
    | .cond branches otherwise =>
      have hown := hs _ List.mem_cons_self
      refine ⟨⟨ofBranches_safe branches (fun e he => hown.exprs e he) fun t ht =>
        hs t ?_, ofBlock_safe otherwise fun t ht => hs t ?_⟩, hlater⟩
      · exact List.mem_cons_of_mem _ (List.mem_append_left _ ht)
      · exact List.mem_cons_of_mem _ (List.mem_append_right _ ht)
    | .switch subject cases default =>
      have hown := hs _ List.mem_cons_self
      refine ⟨⟨hown.exprs subject List.mem_cons_self, ofCases_safe cases ?_ fun t ht => hs t ?_,
        ofDefault_safe default fun t ht => hs t ?_⟩, hlater⟩
      · exact fun e he => hown.exprs e (List.mem_cons_of_mem _ he)
      · exact List.mem_cons_of_mem _ (List.mem_append_left _ ht)
      · exact List.mem_cons_of_mem _ (List.mem_append_right _ ht)
    | .forRange var start stop step body =>
      have hown := hs _ List.mem_cons_self
      have hexprs : ∀ e ∈ start.toList ++ [stop] ++ step.toList, e.maySuspend known = false :=
        hown.exprs
      simp only [List.forall_mem_append, List.forall_mem_singleton, Option.mem_toList] at hexprs
      exact ⟨⟨hown.binds var rfl, hexprs.1.1, hexprs.1.2, hexprs.2,
        ofBlock_safe body fun t ht => hs t (List.mem_cons_of_mem _ ht)⟩, hlater⟩
    | .forEach var list body ifEmpty => exact ((hs _ List.mem_cons_self).unlisted _ _ _ _ rfl).elim
    | .letValue name e =>
      have hown := hs _ (List.mem_singleton_self _)
      simp only
      split
      · exact hlater
      · exact ⟨⟨hown.binds name rfl, hown.exprs e (List.mem_singleton_self e)⟩, hlater⟩
      · exact ⟨hown.binds name rfl, hlater⟩
    | .letContent name kind body =>
      have hown := hs _ List.mem_cons_self
      have hbody := ofBlock_safe body fun t ht => hs t (List.mem_cons_of_mem _ ht)
      simp only
      split
      · exact hlater
      · split
        · exact safeAll_streaming hbody hlater _
        · exact ⟨⟨hown.binds name rfl, hbody⟩, hlater⟩
    | .call callee target data params ds =>
      exact ((hs _ List.mem_cons_self).uncalling _ _ _ _ _ rfl).elim
    | .log body => exact ⟨ofBlock_safe body fun t ht => hs t (List.mem_cons_of_mem _ ht), hlater⟩
termination_by sizeOf body
decreasing_by all_goals simp +arith

theorem ofBranches_safe (branches : List (Expr × List Stmt))
    (he : ∀ e ∈ branches.map (·.1), e.maySuspend known = false)
    (h : ∀ s ∈ Stmt.flattenBranches branches, s.Safe known) :
    SafeBranches known (ofBranches branches) := by
  match branches with
  | [] =>
    unfold ofBranches
    trivial
  | (c, body) :: rest =>
    unfold ofBranches
    obtain ⟨hc, he⟩ := List.forall_mem_cons.1 he
    exact ⟨hc, ofBlock_safe body fun t ht => h t (List.mem_append_left _ ht),
      ofBranches_safe rest he fun t ht => h t (List.mem_append_right _ ht)⟩
termination_by sizeOf branches
decreasing_by all_goals simp +arith

theorem ofCases_safe (cases : List (List Expr × List Stmt))
    (he : ∀ e ∈ cases.flatMap (·.1), e.maySuspend known = false)
    (h : ∀ s ∈ Stmt.flattenCases cases, s.Safe known) : SafeCases known (ofCases cases) := by
  match cases with
  | [] =>
    unfold ofCases
    trivial
  | (values, body) :: rest =>
    unfold ofCases
    rw [List.flatMap_cons] at he
    exact ⟨fun e hv => he e (List.mem_append_left _ hv), ofBlock_safe body fun t ht =>
      h t (List.mem_append_left _ ht),
        ofCases_safe rest (fun e hr => he e (List.mem_append_right _ hr)) fun t ht =>
        h t (List.mem_append_right _ ht)⟩
termination_by sizeOf cases
decreasing_by all_goals simp +arith

theorem ofDefault_safe (default : Option (List Stmt))
    (h : ∀ s ∈ Stmt.flattenOption default, s.Safe known) :
    SafeDefault known (ofDefault default) := by
  match default with
  | none =>
    unfold ofDefault
    trivial
  | some body =>
    unfold ofDefault
    exact ofBlock_safe body h
termination_by sizeOf default
decreasing_by all_goals simp +arith

end

end Plan

end Interlude
