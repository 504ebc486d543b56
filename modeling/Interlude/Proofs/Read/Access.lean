import Interlude.Proofs.Read.Agree
import Interlude.Proofs.Read.Guarded
import Interlude.Proofs.Eval.Frame
/-!
# Where code reads

The nodes of code that may ask a future are among the reads of the expression it was compiled from,
one for each and in the same order: no read is compiled twice. Evaluations ask at these nodes only,
and at those of the deferred values they evaluate (`Compiled.visits_within`).
-/

namespace Interlude

/-- What reads through futures: a param, a variable, a field, an item, or the items of a list that
are joined. -/
inductive Access where
  | param (name : String) (injected : Bool)
  | var
  | field (name : String)
  | item
  | join
deriving DecidableEq, Repr

namespace Expr

mutual

/-- The reads of an expression, operands first. -/
def accesses : Expr → List Access
  | lit .. => []
  | param _ name injected => [.param name injected]
  | var .. => [.var]
  | unary _ _ x => x.accesses
  | binary _ _ x y => x.accesses ++ y.accesses
  | cond _ c x y => c.accesses ++ (x.accesses ++ y.accesses)
  | field _ x name _ => x.accesses ++ [.field name]
  | item _ x key _ => x.accesses ++ (key.accesses ++ [.item])
  | list _ es => accessesAll es
  | map _ es => accessesEntries es
  | record _ fs => accessesFields fs
  | call _ name es => accessesAll es ++ if name = "join" then [.join] else []

def accessesAll : List Expr → List Access
  | [] => []
  | e :: es => e.accesses ++ accessesAll es

def accessesEntries : List (Expr × Expr) → List Access
  | [] => []
  | (k, v) :: es => k.accesses ++ (v.accesses ++ accessesEntries es)

def accessesFields : List (String × Expr) → List Access
  | [] => []
  | (_, e) :: fs => e.accesses ++ accessesFields fs

end

end Expr

namespace Access

/-- Nodes of an operand, seen from the term around it. -/
def below (i : Nat) (nodes : List (List Nat × Access)) : List (List Nat × Access) :=
  nodes.map fun (path, a) => (i :: path, a)

@[simp] theorem map_snd_below (i : Nat) (nodes : List (List Nat × Access)) :
    (below i nodes).map (·.2) = nodes.map (·.2) := by
  simp [below, Function.comp_def]

theorem head_of_mem_below {i : Nat} {nodes : List (List Nat × Access)} {node : List Nat × Access}
    (h : node ∈ below i nodes) : node.1.head? = some i := by
  obtain ⟨_, _, rfl⟩ := List.mem_map.1 h
  rfl

/-- No two nodes are the same. -/
def Apart (nodes : List (List Nat × Access)) : Prop := nodes.Pairwise fun u v => u.1 ≠ v.1

variable {nodes nodes' : List (List Nat × Access)} {i : Nat}

theorem Apart.below (h : Apart nodes) (i : Nat) : Apart (below i nodes) :=
  List.pairwise_map.2 (h.imp fun hne heq => hne (List.cons.inj heq).2)

/-- Nodes of an operand are apart from those of later operands and from the term itself. -/
theorem Apart.before (h : Apart nodes) (h' : Apart nodes')
    (hne : ∀ node ∈ nodes', node.1.head? ≠ some i) :
    Apart (Access.below i nodes ++ nodes') := by
  refine List.pairwise_append.2 ⟨h.below i, h', fun u hu v hv heq => hne v hv ?_⟩
  rw [← heq]
  exact head_of_mem_below hu

end Access

namespace Term

open Access (below)

/-- The nodes of a term that may ask a future, operands first. -/
@[simp] def accesses : {f : Form} → Term f → List (List Nat × Access)
  | _, const _ _ | _, constInt _ | _, constFloat _ | _, constBool _ | _, constStr _ | _, cellInt _
  | _, cellFloat _
  | _, cellBool _ | _, cellStr _ | _, isFirst _ | _, isLast _ _ | _, nil | _, noEntries => []
  | _, param name injected => [([], .param name injected)]
  | _, .local b => if b.loop.isSome then [([], .var)] else []
  | _, boxInt x | _, boxFloat x | _, boxBool x | _, boxStr x | _, unboxInt x | _, unboxFloat x
  | _, widen x
  | _, truthy x | _, textOfInt x | _, textOfFloat x | _, textOfBool x | _, text x | _, .not x
  | _, negInt x
  | _, negFloat x | _, neg x | _, list x | _, map x | _, record _ x | _, memo _ x =>
    below 0 x.accesses
  | _, arithInt _ x y | _, arithFloat _ x y | _, arith _ x y | _, concat x y | _, both x y
  | _, either x y
  | _, coalesce x y | _, compareInt _ x y | _, compareFloat _ x y | _, compareStr _ x y
  | _, compare _ x y
  | _, cons x y => below 0 x.accesses ++ below 1 y.accesses
  | _, cond x y z | _, entry x y z =>
    below 0 x.accesses ++ (below 1 y.accesses ++ below 2 z.accesses)
  | _, field x name _ => below 0 x.accesses ++ [([], .field name)]
  | _, item x key _ => below 0 x.accesses ++ (below 1 key.accesses ++ [([], .item)])
  | _, call f args => below 0 args.accesses ++ if f = .join then [([], .join)] else []

theorem apart_accesses {f : Form} (x : Term f) : Access.Apart x.accesses := by
  have hother {i j : Nat} (hij : i ≠ j) (nodes : List (List Nat × Access)) :
      ∀ node ∈ below j nodes, node.1.head? ≠ some i := fun node hnode h => by
    rw [Access.head_of_mem_below hnode] at h
    exact hij (Option.some.inj h).symm
  have hself (i : Nat) (a : Access) : ∀ node ∈ [(([] : List Nat), a)],
    node.1.head? ≠ some i := by simp
  induction x with
  | const | constInt | constFloat | constBool | constStr | cellInt | cellFloat | cellBool | cellStr
  | isFirst | isLast
  | nil | noEntries => exact .nil
  | param => exact List.pairwise_singleton _ _
  | «local» b =>
    unfold accesses
    split
    · exact List.pairwise_singleton _ _
    · exact .nil
  | boxInt _ ih | boxFloat _ ih | boxBool _ ih | boxStr _ ih | unboxInt _ ih | unboxFloat _ ih
  | widen _ ih
  | truthy _ ih | textOfInt _ ih | textOfFloat _ ih | textOfBool _ ih | text _ ih | not _ ih
  | negInt _ ih
  | negFloat _ ih | neg _ ih | list _ ih | map _ ih | record _ _ ih | memo _ _ ih =>
    exact ih.below 0
  | arithInt _ _ _ ih ih' | arithFloat _ _ _ ih ih' | arith _ _ _ ih ih' | concat _ _ ih ih'
  | both _ _ ih ih'
  | either _ _ ih ih' | coalesce _ _ ih ih' | compareInt _ _ _ ih ih' | compareFloat _ _ _ ih ih'
  | compareStr _ _ _ ih ih' | compare _ _ _ ih ih' | cons _ _ ih ih' =>
    exact ih.before (ih'.below 1) (hother (by decide) _)
  | cond _ _ _ ih ih' ih'' | entry _ _ _ ih ih' ih'' =>
    refine ih.before (ih'.before (ih''.below 2) (hother (by decide) _)) fun node hnode => ?_
    rcases List.mem_append.1 hnode with h | h
    · exact hother (by decide) _ node h
    · exact hother (by decide) _ node h
  | field _ _ _ ih => exact ih.before (List.pairwise_singleton _ _) (hself _ _)
  | item _ _ _ ih ih' =>
    refine ih.before (ih'.before (List.pairwise_singleton _ _) (hself _ _)) fun node hnode => ?_
    rcases List.mem_append.1 hnode with h | h
    · exact hother (by decide) _ node h
    · exact hself _ _ node h
  | call f _ ih =>
    unfold accesses
    split
    · exact ih.before (List.pairwise_singleton _ _) (hself _ _)
    · exact ih.before .nil fun node h => by cases h

end Term

/-! ## Compiling keeps reads apart -/

namespace Lowered

/-- What the term of an expression reads. -/
def reads (x : Lowered) : List Access := x.toBoxed.accesses.map (·.2)

section

variable (x y c : Lowered)

@[simp] theorem reads_toBoxed : x.toBoxed.accesses.map (·.2) = x.reads := rfl

@[simp] theorem reads_toInt : x.toInt.accesses.map (·.2) = x.reads := by
  cases x <;> simp [reads, toInt, toBoxed]

@[simp] theorem reads_toFloat : x.toFloat.accesses.map (·.2) = x.reads := by
  cases x <;> simp [reads, toFloat, toBoxed]

@[simp] theorem reads_toBool : x.toBool.accesses.map (·.2) = x.reads := by
  cases x <;> simp [reads, toBool, toBoxed]

@[simp] theorem reads_toStr : x.toStr.accesses.map (·.2) = x.reads := by
  cases x <;> simp [reads, toStr, toBoxed]

@[simp] theorem reads_boxed (x : Term .boxed) : (boxed x).reads = x.accesses.map (·.2) := rfl

@[simp] theorem reads_int (x : Term .int) : (int x).reads = x.accesses.map (·.2) :=
    reads_toInt (.int x) ▸ rfl

@[simp] theorem reads_float (x : Term .float) : (float x).reads = x.accesses.map (·.2) :=
    reads_toFloat (.float x) ▸ rfl

@[simp] theorem reads_bool (x : Term .bool) : (bool x).reads = x.accesses.map (·.2) :=
    reads_toBool (.bool x) ▸ rfl

@[simp] theorem reads_str (x : Term .str) : (str x).reads = x.accesses.map (·.2) :=
    reads_toStr (.str x) ▸ rfl

@[simp] theorem reads_unary (op : UnaryOp) (t : StaticType) : (unary op t x).reads = x.reads := by
  unfold unary
  split
  · simp
  · split
    · simp
    · split <;> simp

theorem reads_arith (op : Arith) (t u : StaticType) :
    (arith op t u x y).reads = x.reads ++ y.reads := by
  unfold arith
  simp only
  split
  · split <;> simp
  · split <;> simp
  · split
    · simp
    · split
      · simp
      · split <;> simp

theorem reads_comparison (op : Comparison) (t u : StaticType) :
    (comparison op t u x y).reads = x.reads ++ y.reads := by
  unfold comparison
  split
  · simp
  · split
    · simp
    · split <;> simp

@[simp] theorem reads_binary (op : BinaryOp) (t u : StaticType) :
    (binary op t u x y).reads = x.reads ++ y.reads := by
  cases op with
  | add | sub | mul | div | mod => simp only [binary, reads_arith]
  | eq | notEq | less | lessEq | greater | greaterEq => simp only [binary, reads_comparison]
  | and | or | coalesce => simp [binary]

@[simp] theorem reads_cond : (cond c x y).reads = c.reads ++ (x.reads ++ y.reads) := by
  unfold cond
  split <;> simp

end

theorem reads_ofLiteral (v : Value) (plain : v.holdsFuture = false) :
    (ofLiteral v plain).reads = [] := by
  unfold ofLiteral
  split <;> simp

theorem reads_ofBinding (b : Binding) : (ofBinding b).reads.Sublist [.var] := by
  unfold ofBinding
  split
  · next hl => simp [hl]
  · next hl => split <;> simp [hl]

end Lowered

namespace Expr

theorem reads_loopHelper {s : Scope} {name : String} {args : List Expr} {x : Lowered}
    (h : loopHelper s name args = .ok x) : x.reads = [] := by
  unfold loopHelper at h
  split at h
  · split at h
    · split at h
      · cases h; rfl
      · split at h <;> cases h <;> rfl
    · cases h
  · cases h
  · cases h

section

variable {s : Scope} {may : Bool}

/-- The code of an expression reads where the expression does, and at no place twice. -/
def ReadsApart (s : Scope) (e : Expr) : Prop :=
  ∀ (under : Bool) (k k' : Nat) (x : Lowered), e.lower s under k = .ok (x, k') →
    x.reads.Sublist e.accesses

theorem lowerAll_reads {es : List Expr} (h : ∀ c ∈ es, c.ReadsApart s) {k k' : Nat}
    {xs : List (Term .boxed)} (hxs : lowerAll s may es k = .ok (xs, k')) :
    ((valueList xs).accesses.map (·.2)).Sublist (accessesAll es) := by
  induction es generalizing k xs with
  | nil => cases hxs; exact .slnil
  | cons e rest ih =>
    obtain ⟨x, l, hx, hrest⟩ := StateT.bind_ok hxs
    obtain ⟨ys, l', hys, hend⟩ := StateT.bind_ok hrest
    cases hend
    have hhead := h e List.mem_cons_self _ _ _ _ hx
    have htail := ih (fun c hc => h c (List.mem_cons_of_mem _ hc)) hys
    change ((Term.cons x.toBoxed (valueList ys)).accesses.map (·.2)).Sublist _
    simpa [accessesAll] using hhead.append htail

theorem accessesFields_eq (fs : List (String × Expr)) :
    accessesFields fs = accessesAll (fs.map (·.2)) := by
  induction fs with
  | nil => rfl
  | cons f rest ih => simp [accessesFields, accessesAll, ih]

theorem pairEntries_reads {es : List (Expr × Expr)}
    (h : ∀ c ∈ es.map (·.1) ++ es.map (·.2), c.ReadsApart s) {k k' l l' : Nat}
    {ks vs : List (Term .boxed)} (hks : lowerKeys s may es k = .ok (ks, k'))
    (hvs : lowerValues s may es l = .ok (vs, l')) :
    ((pairEntries ks vs).accesses.map (·.2)).Sublist (accessesEntries es) := by
  induction es generalizing k l ks vs with
  | nil => cases hks; cases hvs; exact .slnil
  | cons e rest ih =>
    obtain ⟨x, n, hx, hkeys⟩ := StateT.bind_ok hks
    obtain ⟨xs, n', hxs, hend⟩ := StateT.bind_ok hkeys
    cases hend
    obtain ⟨y, n, hy, hvalues⟩ := StateT.bind_ok hvs
    obtain ⟨ys, n', hys, hend⟩ := StateT.bind_ok hvalues
    cases hend
    have hkey := h e.1 (by simp) _ _ _ _ hx
    have hvalue := h e.2 (by simp) _ _ _ _ hy
    have htail := ih (fun c hc => h c (by simp at hc ⊢; grind)) hxs hys
    simpa [pairEntries, accessesEntries] using hkey.append (hvalue.append htail)

theorem keepIf_reads {needed : Bool} {act : Lowering Lowered} {k k' : Nat} {x : Lowered}
    (h : keepIf needed act k = .ok (x, k')) : ∃ y l, act k = .ok (y, l) ∧ x.reads = y.reads := by
  obtain ⟨y, l, hy, hx⟩ := StateT.bind_ok h
  refine ⟨y, l, hy, ?_⟩
  cases needed with
  | true =>
    cases hx
    simp
  | false =>
    cases hx
    rfl

theorem lower_reads (s : Scope) (e : Expr) : e.ReadsApart s := by
  refine of_parts (P := fun e => e.ReadsApart s) ?_ e
  intro e ih under k k' x h
  unfold lower at h
  obtain ⟨y, l, hy, hx⟩ := keepIf_reads h
  rw [hx]
  cases e with
  | lit _ v plain =>
    cases hy
    rw [Lowered.reads_ofLiteral]
    exact List.nil_sublist _
  | param _ name injected =>
    cases hy
    exact .refl _
  | var _ name =>
    cases hb : s.locals.lookup name with
    | none => simp only [hb] at hy; cases hy
    | some b =>
      simp only [hb] at hy
      cases hy
      exact Lowered.reads_ofBinding b
  | unary _ op a =>
    obtain ⟨c, _, hc, hy⟩ := StateT.bind_ok hy
    cases hy
    simpa [accesses] using ih a (by simp [parts, children]) _ _ _ _ hc
  | binary _ op a b =>
    obtain ⟨c, _, hc, hy⟩ := StateT.bind_ok hy
    obtain ⟨d, _, hd, hy⟩ := StateT.bind_ok hy
    cases hy
    have ha := ih a (by simp [parts, children]) _ _ _ _ hc
    have hb := ih b (by simp [parts, children]) _ _ _ _ hd
    simpa [accesses] using ha.append hb
  | cond _ c a b =>
    obtain ⟨x₀, _, h₀, hy⟩ := StateT.bind_ok hy
    obtain ⟨x₁, _, h₁, hy⟩ := StateT.bind_ok hy
    obtain ⟨x₂, _, h₂, hy⟩ := StateT.bind_ok hy
    cases hy
    have hc := ih c (by simp [parts, children]) _ _ _ _ h₀
    have ha := ih a (by simp [parts, children]) _ _ _ _ h₁
    have hb := ih b (by simp [parts, children]) _ _ _ _ h₂
    simpa [accesses] using hc.append (ha.append hb)
  | field _ a name nullSafe =>
    obtain ⟨c, _, hc, hy⟩ := StateT.bind_ok hy
    cases hy
    have ha := ih a (by simp [parts, children]) _ _ _ _ hc
    simpa [accesses] using ha.append (.refl [Access.field name])
  | item _ a key nullSafe =>
    obtain ⟨c, _, hc, hy⟩ := StateT.bind_ok hy
    obtain ⟨d, _, hd, hy⟩ := StateT.bind_ok hy
    cases hy
    have ha := ih a (by simp [parts, children]) _ _ _ _ hc
    have hb := ih key (by simp [parts, children]) _ _ _ _ hd
    simpa [accesses] using ha.append (hb.append (.refl [Access.item]))
  | list _ es =>
    obtain ⟨xs, _, hxs, hy⟩ := StateT.bind_ok hy
    cases hy
    have hall : ((valueList xs).accesses.map (·.2)).Sublist (accessesAll es) :=
      lowerAll_reads ih hxs
    simpa [accesses] using hall
  | map _ es =>
    obtain ⟨ks, _, hks, hy⟩ := StateT.bind_ok hy
    obtain ⟨vs, _, hvs, hy⟩ := StateT.bind_ok hy
    cases hy
    simpa [accesses] using pairEntries_reads ih hks hvs
  | record _ fs =>
    obtain ⟨xs, _, hxs, hy⟩ := StateT.bind_ok hy
    cases hy
    rw [lowerFields_eq] at hxs
    have hall : ((valueList xs).accesses.map (·.2)).Sublist (accessesAll (fs.map (·.2))) :=
      lowerAll_reads ih hxs
    simpa [accesses, accessesFields_eq] using hall
  | call _ name es =>
    by_cases hname : isLoopHelper name = true
    · simp only [hname, if_true] at hy
      obtain ⟨hl, rfl⟩ := lift_ok hy
      rw [reads_loopHelper hl]
      exact List.nil_sublist _
    · simp only [hname, if_false, Bool.false_eq_true] at hy
      obtain ⟨f, _, hlift, hcall⟩ := StateT.bind_ok hy
      obtain ⟨xs, _, hxs, hend⟩ := StateT.bind_ok hcall
      obtain ⟨hf, rfl⟩ := lift_ok hlift
      cases hend
      have hall := lowerAll_reads (fun c hc => ih c (by simpa [parts, hname] using hc)) hxs
      have hown : ((if f = .join then [(([] : List Nat), Access.join)] else []).map (·.2)).Sublist
          (if name = "join" then [Access.join] else []) := by
        rw [← name_of_function hf]
        split
        · next hjoin => simp [hjoin, Function.name]
        · simp
      simpa [accesses] using hall.append hown

end

end Expr

/-- Code that reads where an expression does: its nodes that read are reads of the expression, each
at most once and in order. -/
structure Compiled.ReadsAs (c : Compiled) (e : Expr) : Prop where
  apart : Access.Apart c.root.toBoxed.accesses
  order : (c.root.toBoxed.accesses.map (·.2)).Sublist e.accesses

theorem Expr.compile_reads {s : Expr.Scope} {slots slots' : Slots} {e : Expr} {c : Compiled}
    (h : e.compile s slots = .ok (c, slots')) : c.ReadsAs e := by
  refine ⟨Term.apart_accesses _, ?_⟩
  unfold compile at h
  simp only at h
  split at h
  all_goals
    obtain ⟨⟨root, k'⟩, hl, hend⟩ := Except.bind_ok h
    cases hend
    exact lower_reads s e _ _ _ _ hl

theorem ThunkCode.compile_reads {s : Expr.Scope} {e : Expr} {t : ThunkCode}
    (h : compile s e = .ok t) :
    t.code.ReadsAs e := by
  unfold compile at h
  obtain ⟨⟨slots, inner, copies⟩, _, h⟩ := Except.bind_ok h
  obtain ⟨⟨code, slots'⟩, hcode, h⟩ := Except.bind_ok h
  cases h
  exact Expr.compile_reads hcode

/-! ## Evaluations ask where code reads -/

/-- The code of the deferred values of a heap is as told. -/
def Heap.Codes (codes : ThunkId → Compiled → Prop) (h : Heap) : Prop :=
  ∀ (id : ThunkId) (t : Thunk), h.thunks[id]? = some t → codes id t.code

theorem Heap.Codes.later {codes : ThunkId → Compiled → Prop} {h h' : Heap} (hc : h.Codes codes)
    (hl : h.Later h') :
    h'.Codes codes := by
  intro id t' ht'
  obtain ⟨t, ht, hlater⟩ := hl.thunks id t' ht'
  rw [hlater.code]
  exact hc id t ht

/-- The visit is to a node that reads: one of those told, or one of a deferred value. -/
def Visit.At (codes : ThunkId → Compiled → Prop) (nodes : List (List Nat × Access))
    (v : Visit) : Prop :=
  match v.frame with
  | none => ∃ a, (v.path, a) ∈ nodes
  | some id => ∃ code a, codes id code ∧ (v.path, a) ∈ code.root.toBoxed.accesses

/-- An evaluation asks at these nodes only, and at those of deferred values. -/
def Trace.Within (codes : ThunkId → Compiled → Prop) (nodes : List (List Nat × Access))
    (tr : Trace) : Prop :=
  ∀ env m, m.heap.Codes codes → ∀ v ∈ tr env m, v.resolves = true → v.At codes nodes

namespace Trace.Within

variable {codes : ThunkId → Compiled → Prop} {nodes nodes' : List (List Nat × Access)} {tr : Trace}

theorem silent : Trace.silent.Within codes nodes := fun _ _ _ _ hv => by cases hv

theorem mono (h : tr.Within codes nodes) (hs : nodes ⊆ nodes') : tr.Within codes nodes' := by
  intro env m hm v hv hr
  have hat := h env m hm v hv hr
  obtain ⟨kind, path, frame⟩ := v
  cases frame with
  | none =>
    obtain ⟨a, ha⟩ := hat
    exact ⟨a, hs ha⟩
  | some id => exact hat

theorem andThen (h : tr.Within codes nodes) {α : Type} {x : Eval α}
    (hx : ∀ env, Eval.Tame (fun _ => True) (fun _ => False) env α x x) {next : α → Trace}
    (hnext : ∀ a, (next a).Within codes nodes) : (tr.andThen x next).Within codes nodes := by
  intro env m hm v hv hr
  rcases List.mem_append.1 hv with hv | hv
  · exact h env m hm v hv hr
  · cases hxm : x env m with
    | ok a m' =>
      have hleaves := hx env m fun _ h => h.elim
      rw [hxm] at hv hleaves
      exact hnext a env m' (hm.later hleaves.heap) v hv hr
    | error e m' =>
      rw [hxm] at hv
      cases hv

theorem operand (h : tr.Within codes nodes) (i : Nat) :
    (tr.operand i).Within codes (Access.below i nodes) := by
  intro env m hm v hv hr
  obtain ⟨u, hu, rfl⟩ := List.mem_map.1 hv
  rw [Visit.resolves, Visit.kind_inOperand] at hr
  have hat := h env m hm u hu hr
  obtain ⟨kind, path, frame⟩ := u
  cases frame with
  | none =>
    obtain ⟨a, ha⟩ := hat
    exact ⟨a, List.mem_map.2 ⟨_, ha, rfl⟩⟩
  | some id => exact hat

theorem skip (i : Nat) : (Trace.skip i).Within codes nodes := by
  intro env m hm v hv hr
  rw [List.mem_singleton.1 hv] at hr
  cases hr

theorem instead (h : tr.Within codes nodes) (skipped i : Nat) :
    (Trace.instead skipped i tr).Within codes (Access.below i nodes) := by
  intro env m hm v hv hr
  rcases List.mem_append.1 hv with hv | hv
  · exact skip skipped env m hm v hv hr
  · exact h.operand i env m hm v hv hr

theorem read {a : Access} (h : ([], a) ∈ nodes) (v : Value) :
    (Trace.read v).Within codes nodes := by
  intro env m hm u hu hr
  obtain ⟨k, _, rfl⟩ := List.mem_map.1 hu
  exact ⟨a, h⟩

theorem part {a : Access} (h : ([], a) ∈ nodes) (v : Option Value) :
    (Trace.part v).Within codes nodes := by
  cases v with
  | some v => exact read h v
  | none => exact silent

theorem field {a : Access} (h : ([], a) ∈ nodes) (v : Value) (name : String) :
    (Trace.field v name).Within codes nodes := by
  unfold Trace.field
  split
  · exact part h _
  · exact part h _
  · exact silent

theorem item {a : Access} (h : ([], a) ∈ nodes) (v key : Value) :
    (Trace.item v key).Within codes nodes := by
  unfold Trace.item
  split
  · split
    · exact read h _
    · exact silent
  · exact part h _
  · split
    · exact part h _
    · exact silent
  · exact silent

theorem texts {a : Access} (h : ([], a) ∈ nodes) (items : List Value) :
    (Trace.texts items).Within codes nodes := by
  induction items with
  | nil => exact silent
  | cons v rest ih =>
    refine (read h v).andThen (fun env => ?_) fun _ => ih
    have hcompatible := Eval.Tame.compatible (fun _ => True) (fun _ => False) env
    exact hcompatible.bind (hcompatible.resolve v) fun w => hcompatible.text w

theorem call {f : Function} (h : f = .join → ([], Access.join) ∈ nodes) (args : List Value) :
    (Trace.call f args).Within codes nodes := by
  unfold Trace.call
  split
  · exact texts (h rfl) _
  · exact silent

end Trace.Within

namespace Term

variable {codes : ThunkId → Compiled → Prop} {force : ThunkId → Eval Value}
  {forced : ThunkId → Trace}

theorem visits_within
    (ht : ∀ env id, Eval.Tame (fun _ => True) (fun _ => False) env Value (force id) (force id))
    (hf : ∀ id nodes, (forced id).Within codes nodes) {f : Form} (x : Term f) :
    ∀ p, (x.visits force forced p).Within codes x.accesses := by
  have htame {f : Form} (x : Term f) (p : List Nat) (env : Env) :
      Eval.Tame (fun _ => True) (fun _ => False) env f.carrier (x.eval (.keeping force) p)
          (x.eval (.keeping force) p) :=
    (Eval.Tame.congruence (fun _ _ _ _ => trivial) (ht env)).term x p (touches_everywhere x p)
  have hleft {a b : List (List Nat × Access)} : a ⊆ a ++ b := List.subset_append_left _ _
  have hright {a b : List (List Nat × Access)} : b ⊆ a ++ b := List.subset_append_right _ _
  induction x with
  | const | constInt | constFloat | constBool | constStr | cellInt | cellFloat | cellBool | cellStr
  | isFirst | isLast
  | nil | noEntries => exact fun _ => .silent
  | param name injected =>
    intro p env m hm
    unfold visits
    split
    · exact Trace.Within.read (List.mem_singleton.2 rfl) _ env m hm
    · exact fun v hv => by cases hv
  | «local» b =>
    intro p env m hm v hv hr
    unfold visits Binding.visits at hv
    split at hv
    · next il hl =>
      split at hv
      · refine Trace.Within.read (a := .var) ?_ _ env m hm v hv hr
        simp [accesses, hl]
      · cases hv
    · split at hv
      · rcases List.mem_cons.1 hv with rfl | hv
        · cases hr
        · exact hf _ _ env m hm v hv hr
      · cases hv
  | boxInt _ ih | boxFloat _ ih | boxBool _ ih | boxStr _ ih | unboxInt _ ih | unboxFloat _ ih
  | widen _ ih
  | truthy _ ih | textOfInt _ ih | textOfFloat _ ih | textOfBool _ ih | text _ ih | not _ ih
  | negInt _ ih
  | negFloat _ ih | neg _ ih => exact fun p => (ih p).operand 0
  | list _ ih | map _ ih | record _ _ ih => exact fun p => (ih (0 :: p)).operand 0
  | memo slot x ih =>
    intro p env m hm
    unfold visits Trace.kept
    split
    · exact fun v hv => by cases hv
    · exact (ih p).operand 0 env m hm
  | arithInt _ x _ ih ih' | arithFloat _ x _ ih ih' | arith _ x _ ih ih' | concat x _ ih ih'
  | compareInt _ x _ ih ih'
  | compareFloat _ x _ ih ih' | compareStr _ x _ ih ih' | compare _ x _ ih ih' | cons x _ ih ih' =>
    exact fun p => (((ih (0 :: p)).operand 0).mono hleft).andThen (htame x _) fun _ =>
      ((ih' (1 :: p)).operand 1).mono hright
  | both x _ ih ih' | coalesce x _ ih ih' =>
    refine fun p => (((ih (0 :: p)).operand 0).mono hleft).andThen (htame x _) fun a => ?_
    split
    · exact ((ih' (1 :: p)).operand 1).mono hright
    · exact .skip 1
  | either x _ ih ih' =>
    refine fun p => (((ih (0 :: p)).operand 0).mono hleft).andThen (htame x _) fun a => ?_
    split
    · exact .skip 1
    · exact ((ih' (1 :: p)).operand 1).mono hright
  | cond c _ _ ih ih' ih'' =>
    refine fun p => (((ih (0 :: p)).operand 0).mono hleft).andThen (htame c _) fun b => ?_
    split
    · exact ((ih' (1 :: p)).instead 2 1).mono (List.Subset.trans hleft hright)
    · exact ((ih'' (2 :: p)).instead 1 2).mono (List.Subset.trans hright hright)
  | field x name _ ih =>
    exact fun p => (((ih p).operand 0).mono hleft).andThen (htame x _) fun v =>
      .field (List.mem_append_right _ List.mem_cons_self) v name
  | item x key _ ih ih' =>
    refine fun p => (((ih (0 :: p)).operand 0).mono hleft).andThen (htame x _) fun v => ?_
    split
    · exact .skip 1
    · exact (((ih' (1 :: p)).operand 1).mono (List.Subset.trans hleft hright)).andThen
          (htame key _) fun k =>
        .item (List.mem_append_right _ (List.mem_append_right _ List.mem_cons_self)) v k
  | call f args ih =>
    refine fun p => (((ih (0 :: p)).operand 0).mono hleft).andThen (htame args _) fun vs =>
      .call ?_ vs
    rintro rfl
    exact List.mem_append_right _ List.mem_cons_self
  | entry key x _ ih ih' ih'' =>
    refine fun p => (((ih (0 :: p)).operand 0).mono hleft).andThen (htame key _) fun k => ?_
    refine (((ih' (1 :: p)).operand 1).mono (List.Subset.trans hleft hright)).andThen
      (htame x _) fun _ => ?_
    split
    · exact .silent
    · exact ((ih'' (2 :: p)).operand 2).mono (List.Subset.trans hright hright)

end Term

namespace Thunk

variable {codes : ThunkId → Compiled → Prop}

/-- A deferred value asks where its code reads. -/
theorem visits_within {force : ThunkId → Eval Value} {forced : ThunkId → Trace}
    (ht : ∀ env id, Eval.Tame (fun _ => True) (fun _ => False) env Value (force id) (force id))
    (hf : ∀ id nodes, (forced id).Within codes nodes) (id : ThunkId)
    (nodes : List (List Nat × Access)) :
    (visits force forced id).Within codes nodes := by
  intro env m hm v hv hr
  unfold visits at hv
  split at hv
  · cases hv
  · next t hid =>
    split at hv
    · cases hv
    · obtain ⟨u, hu, rfl⟩ := List.mem_map.1 hv
      rw [Visit.resolves, Visit.kind_inThunk] at hr
      have hat := Term.visits_within ht hf t.code.root.toBoxed [] t.env
        { m with cells := t.cells } hm u hu hr
      obtain ⟨kind, path, frame⟩ := u
      cases frame with
      | none =>
        obtain ⟨a, ha⟩ := hat
        exact ⟨t.code, a, hm id t hid, ha⟩
      | some other => exact hat

theorem visitsBelow_within (count : Nat) (id : ThunkId) (nodes : List (List Nat × Access)) :
    (visitsBelow count id).Within codes nodes := by
  induction count generalizing id nodes with
  | zero => exact .silent
  | succ count ih =>
    unfold visitsBelow
    split
    · exact visits_within (fun _ id => tame_forceBelow count id) ih id nodes
    · exact ih id nodes

end Thunk

theorem Compiled.visits_within {codes : ThunkId → Compiled → Prop} (c : Compiled)
    (place : List Nat) :
    (c.visits place).Within codes c.root.toBoxed.accesses :=
  Term.visits_within (fun _ id => Thunk.tame_forceBelow (id + 1) id) (fun id =>
    Thunk.visitsBelow_within (id + 1) id) c.root.toBoxed place

end Interlude
