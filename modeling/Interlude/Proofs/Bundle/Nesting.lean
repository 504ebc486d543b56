import Interlude.Bundle.Statement
import Interlude.Proofs.Bundle.Inferred
/-!
# Nesting

What stands in a node is nested less deeply than the node, so reading uses up no more fuel than
twice the depth. One more unit of fuel changes nothing for nodes that fit into the fuel
(`settled_exprs`, `settled_stmts`). A document is read with more than its depth can use up, so it is
read in the same way with any more (`templates_settled`): nothing in a document is nested too
deeply.
-/

namespace Interlude

namespace Yaml.Node

theorem depth_pos (n : Node) : 0 < n.depth := by
  cases n <;> simp only [depth] <;> omega

theorem depth_le_items {items : List Node} : ∀ n ∈ items, n.depth ≤ depthItems items := by
  induction items with
  | nil => simp
  | cons n rest ih =>
    intro m hm
    rw [depthItems]
    rcases List.mem_cons.1 hm with rfl | hm
    · exact Nat.le_max_left ..
    · exact Nat.le_trans (ih m hm) (Nat.le_max_right ..)

theorem depth_le_pairs {pairs : List (Node × Node)} :
    ∀ p ∈ pairs, p.1.depth ≤ depthPairs pairs ∧ p.2.depth ≤ depthPairs pairs := by
  induction pairs with
  | nil => simp
  | cons p rest ih =>
    intro q hq
    rw [depthPairs]
    rcases List.mem_cons.1 hq with rfl | hq
    · omega
    · have := ih q hq
      omega

theorem depthPairs_le {pairs : List (Node × Node)} {b : Nat}
    (h : ∀ p ∈ pairs, p.1.depth ≤ b ∧ p.2.depth ≤ b) :
    depthPairs pairs ≤ b := by
  induction pairs with
  | nil => exact Nat.zero_le b
  | cons p rest ih =>
    obtain ⟨hp, hrest⟩ := List.forall_mem_cons.1 h
    rw [depthPairs]
    exact Nat.max_le.2 ⟨Nat.max_le.2 hp, ih hrest⟩

/-- Leaving entries of a mapping out makes it no deeper. -/
theorem depth_erase_le (n : Node) (key : String) : (n.erase key).depth ≤ n.depth := by
  cases n with
  | mapping m pairs =>
    rw [erase, depth, depth]
    exact Nat.add_le_add_left (depthPairs_le fun p hp => depth_le_pairs p (List.mem_filter.1 hp).1)
      1
  | _ => exact Nat.le_refl _

end Yaml.Node

namespace Bundle

open Yaml (Node)

variable {s : Scope} {b fuel : Nat} {node : Node} {node? : Option Node}

/-! ## Readings that go on alike -/

section

variable {α β : Type}

/-- Readings are the same if they start with the same one and go on alike after all that it can
give. -/
theorem bind_congr_ok {x : Decoding α} {f g : α → Decoding β}
    (h : ∀ a n n', x n = .ok (a, n') → f a = g a) :
    x >>= f = x >>= g := by
  funext n
  change (x n >>= fun p => f p.1 p.2) = x n >>= fun p => g p.1 p.2
  cases hx : x n with
  | error e => rfl
  | ok p => exact congrFun (h p.1 n p.2 hx) p.2

theorem mapM_congr {f g : α → Decoding β} {xs : List α} (h : ∀ x ∈ xs, f x = g x) :
    xs.mapM f = xs.mapM g := by
  induction xs with
  | nil => rfl
  | cons x rest ih =>
    obtain ⟨hx, hrest⟩ := List.forall_mem_cons.1 h
    rw [List.mapM_cons, List.mapM_cons, hx, ih hrest]

theorem foldlM_congr {f g : β → α → Decoding β} {xs : List α}
    (h : ∀ x ∈ xs, ∀ acc, f acc x = g acc x) {init : β} :
    xs.foldlM f init = xs.foldlM g init := by
  induction xs generalizing init with
  | nil => rfl
  | cons x rest ih =>
    obtain ⟨hx, hrest⟩ := List.forall_mem_cons.1 h
    rw [List.foldlM_cons, List.foldlM_cons, hx]
    exact bind_congr_ok fun acc _ _ _ => ih hrest

end

/-! ## Parts of nodes -/

/-- A node that may be absent is nested to a depth at most. -/
def Shallow (b : Nat) (node? : Option Node) : Prop := ∀ node, node? = some node → node.depth ≤ b

theorem shallow_some : Shallow b (some node) ↔ node.depth ≤ b :=
  ⟨fun h => h node rfl, by rintro h _ ⟨⟩; exact h⟩

theorem Shallow.succ (h : Shallow b (some node)) : ∃ c, b = c + 1 :=
  Nat.exists_eq_add_one.2 (Nat.lt_of_lt_of_le node.depth_pos (h node rfl))

theorem fields_shallow {what : String} {allowed : List String} {n n' : Identity} {f : Fields}
    (h : fields s node what allowed n = .ok (f, n')) (hd : node.depth ≤ b + 1) (key : String) :
    Shallow b (f.lookup key) := by
  intro v hv
  obtain ⟨m, pairs, k, rfl, hk, -⟩ := fields_lookup h hv
  have hle : v.depth ≤ Node.depthPairs pairs := (Node.depth_le_pairs (k, v) hk).2
  rw [Node.depth] at hd
  omega

theorem seq_shallow {what : String} {n n' : Identity} {items : List Node}
    (h : seq s node what n = .ok (items, n')) (hd : node.depth ≤ b + 1) : ∀ item ∈ items,
    item.depth ≤ b := by
  unfold seq at h
  split at h
  · cases h
    intro item hitem
    have := Node.depth_le_items item hitem
    rw [Node.depth] at hd
    omega
  · cases h

/-- What stands under a key, or else the mapping itself, is no deeper than the mapping. -/
theorem getD_shallow {f : Fields} {key : String} (h : Shallow b (f.lookup key))
    (hd : node.depth ≤ b + 1) :
    ((f.lookup key).getD node).depth ≤ b + 1 := by
  cases hv : f.lookup key with
  | none => exact hd
  | some v => exact Nat.le_succ_of_le (h v hv)

/-- The items under a key are no deeper than what stands under keys. -/
theorem items_shallow {what key : String} {f : Fields} (hparts : ∀ key, Shallow b (f.lookup key))
    (hkey : f.lookup key = some node) {n n' : Identity} {items : List Node}
    (h : seq s node what n = .ok (items, n')) : ∀ item ∈ items, item.depth ≤ b :=
  seq_shallow h (Nat.le_succ_of_le (hparts key node hkey))

/-! ## Expressions -/

/-- One more unit of fuel changes no reading of an expression that fits into the fuel. -/
structure SettledExprs (fuel : Nat) : Prop where
  expr : ∀ {s b node?}, Shallow b node? → 2 * b + 1 ≤ fuel →
    Bundle.expr fuel s node? = Bundle.expr (fuel + 1) s node?
  body : ∀ {s b node pairs}, node.depth ≤ b + 1 → 2 * b + 2 ≤ fuel →
    Bundle.exprBody fuel s node pairs = Bundle.exprBody (fuel + 1) s node pairs
  exprs : ∀ {s b node?}, Shallow b node? → 2 * b + 1 ≤ fuel →
    Bundle.exprs fuel s node? = Bundle.exprs (fuel + 1) s node?

theorem exprs_settled (ih : SettledExprs fuel) (hd : Shallow b node?)
    (hfuel : 2 * b + 1 ≤ fuel + 1) :
    exprs (fuel + 1) s node? = exprs (fuel + 2) s node? := by
  cases node? with
  | none => rfl
  | some node =>
    obtain ⟨b, rfl⟩ := hd.succ
    unfold exprs
    refine bind_congr_ok fun items n n' hitems => mapM_congr fun item hitem => ?_
    exact ih.expr (shallow_some.2 (seq_shallow hitems (hd node rfl) item hitem)) (by omega)

theorem expr_settled (ih : SettledExprs fuel) (hd : Shallow b node?)
    (hfuel : 2 * b + 1 ≤ fuel + 1) :
    expr (fuel + 1) s node? = expr (fuel + 2) s node? := by
  cases node? with
  | none => rfl
  | some node =>
    obtain ⟨b, rfl⟩ := hd.succ
    have hnode := hd node rfl
    unfold expr
    simp only
    split
    · rfl
    · next m p ps =>
      split
      · exact ih.body hnode (by omega)
      · refine bind_congr_ok fun t n n' ht => ?_
        split
        · next m' pairs herase =>
          rw [ih.body (Nat.le_trans (herase ▸ Node.depth_erase_le _ "type") hnode) (by omega)]
        · rfl
    · rfl

theorem body_settled (ih : SettledExprs fuel) {pairs : List (Node × Node)} (hd : node.depth ≤ b + 1)
    (hfuel : 2 * b + 2 ≤ fuel + 1) :
    exprBody (fuel + 1) s node pairs = exprBody (fuel + 2) s node pairs := by
  have hfuel : 2 * b + 1 ≤ fuel := by omega
  cases pairs with
  | nil => rfl
  | cons p rest =>
    obtain ⟨head, first⟩ := p
    unfold exprBody
    simp only
    split
    -- the forms without parts that are read with fuel
    iterate 4 rfl
    all_goals
      try rfl
    all_goals
      refine bind_congr_ok fun f n n' hf => ?_
      have hparts := fields_shallow hf hd
      try simp only [ih.expr (hparts _) hfuel, ih.exprs (hparts _) hfuel]
    · refine bind_congr_ok fun pairs n n' hpairs => ?_
      have hall := seq_shallow hpairs (getD_shallow (hparts "map") hd)
      rw [mapM_congr fun p hp => ?_]
      rw [ih.exprs (shallow_some.2 (hall p hp)) hfuel]
    · have hrecord := getD_shallow (hparts "record") hd
      split
      · next m pairs hpairs =>
        rw [hpairs, Node.depth] at hrecord
        rw [mapM_congr fun p hp => ?_]
        have hle : p.2.depth ≤ Node.depthPairs pairs := (Node.depth_le_pairs p hp).2
        rw [ih.expr (b := b) (shallow_some.2 (by omega)) hfuel]
      · rfl

theorem settled_exprs (fuel : Nat) : SettledExprs fuel := by
  induction fuel with
  | zero =>
    refine ⟨fun _ h => ?_, fun _ h => ?_, fun _ h => ?_⟩
    all_goals omega
  | succ fuel ih => exact ⟨expr_settled ih, body_settled ih, exprs_settled ih⟩

theorem directives_settled (hd : Shallow b node?) (hfuel : 2 * b + 1 ≤ fuel) :
    directives fuel s node? = directives (fuel + 1) s node? := by
  cases node? with
  | none => rfl
  | some node =>
    obtain ⟨b, rfl⟩ := hd.succ
    unfold directives
    refine bind_congr_ok fun items n n' hitems => mapM_congr fun item hitem => ?_
    have hitem := Nat.le_succ_of_le (seq_shallow hitems (hd node rfl) item hitem)
    split
    · rfl
    · refine bind_congr_ok fun f n n' hf => ?_
      simp only [(settled_exprs fuel).exprs (fields_shallow hf hitem _) (by omega)]

/-! ## Statements -/

/-- One more unit of fuel changes no reading of a statement or a body that fits into the fuel. -/
structure SettledStmts (fuel : Nat) : Prop where
  block : ∀ {s b node}, node.depth ≤ b → 2 * b + 1 ≤ fuel →
    Bundle.block fuel s node = Bundle.block (fuel + 1) s node
  optBlock : ∀ {s b node?}, Shallow b node? → 2 * b + 2 ≤ fuel →
    Bundle.optBlock fuel s node? = Bundle.optBlock (fuel + 1) s node?
  branch : ∀ {s b} {f : Fields}, (∀ key, Shallow b (f.lookup key)) → 2 * b + 3 ≤ fuel →
    Bundle.branch fuel s f = Bundle.branch (fuel + 1) s f
  stmt : ∀ {s b node}, node.depth ≤ b → 2 * b + 2 ≤ fuel →
    Bundle.stmt fuel s node = Bundle.stmt (fuel + 1) s node
  callRest : ∀ {s b callee target} {f : Fields}, (∀ key, Shallow b (f.lookup key)) →
    2 * b + 3 ≤ fuel → Bundle.callRest fuel s f callee target =
    Bundle.callRest (fuel + 1) s f callee target
  callParam : ∀ {s b node}, node.depth ≤ b → 2 * b + 1 ≤ fuel →
    Bundle.callParam fuel s node = Bundle.callParam (fuel + 1) s node

theorem block_settled (ih : SettledStmts fuel) (hd : node.depth ≤ b)
    (hfuel : 2 * b + 1 ≤ fuel + 1) :
    block (fuel + 1) s node = block (fuel + 2) s node := by
  obtain ⟨b, rfl⟩ := (shallow_some.2 hd).succ
  unfold block
  refine bind_congr_ok fun items n n' hitems => ?_
  rw [foldlM_congr fun item hitem acc => ?_]
  rw [ih.stmt (seq_shallow hitems hd item hitem) (by omega)]

theorem optBlock_settled (ih : SettledStmts fuel) (hd : Shallow b node?)
    (hfuel : 2 * b + 2 ≤ fuel + 1) :
    optBlock (fuel + 1) s node? = optBlock (fuel + 2) s node? := by
  cases node? with
  | none => rfl
  | some node => exact ih.block (hd node rfl) (by omega)

theorem branch_settled (ih : SettledStmts fuel) {f : Fields} (hd : ∀ key, Shallow b (f.lookup key))
    (hfuel : 2 * b + 3 ≤ fuel + 1) : branch (fuel + 1) s f = branch (fuel + 2) s f := by
  unfold branch
  split
  · rfl
  · next c hc =>
    rw [(settled_exprs fuel).expr (hc ▸ hd "if") (by omega), ih.optBlock (hd "then") (by omega)]

theorem callParam_settled (ih : SettledStmts fuel) (hd : node.depth ≤ b)
    (hfuel : 2 * b + 1 ≤ fuel + 1) :
    callParam (fuel + 1) s node = callParam (fuel + 2) s node := by
  obtain ⟨b, rfl⟩ := (shallow_some.2 hd).succ
  unfold callParam
  refine bind_congr_ok fun f n n' hf => ?_
  have hparts := fields_shallow hf hd
  split
  · rfl
  · refine bind_congr_ok fun name n n' hname => ?_
    split
    · next v hv => rw [(settled_exprs fuel).expr (hv ▸ hparts "value") (by omega)]
    · rw [ih.optBlock (hparts "body") (by omega)]

theorem callRest_settled (ih : SettledStmts fuel) {f : Fields} {callee : String}
    {target : CallTarget} (hd : ∀ key, Shallow b (f.lookup key)) (hfuel : 2 * b + 3 ≤ fuel + 1) :
    callRest (fuel + 1) s f callee target = callRest (fuel + 2) s f callee target := by
  have hfuel : 2 * b + 2 ≤ fuel := by omega
  have hx := settled_exprs fuel
  unfold callRest
  extract_lets read read'
  have hread : read = read' := by
    funext data
    unfold read read'
    simp only [directives_settled (hd "directives") (show 2 * b + 1 ≤ fuel by omega)]
    split
    · rfl
    · next pn hpn =>
      refine bind_congr_ok fun items n n' hitems => ?_
      have hitems := items_shallow hd hpn hitems
      rw [mapM_congr fun item hitem => ih.callParam (hitems item hitem) (by omega)]
  rw [hread]
  split
  · rfl
  · next dn hdn => rw [hx.expr (hdn ▸ hd "data") (by omega)]

theorem stmt_settled (ih : SettledStmts fuel) (hd : node.depth ≤ b) (hfuel : 2 * b + 2 ≤ fuel + 1) :
    stmt (fuel + 1) s node = stmt (fuel + 2) s node := by
  obtain ⟨b, rfl⟩ := (shallow_some.2 hd).succ
  have hfuel : 2 * b + 3 ≤ fuel := by omega
  have hx := settled_exprs fuel
  unfold stmt
  simp only
  split
  · rfl
  · next m head v rest =>
    split
    · rfl
    all_goals try
      refine bind_congr_ok fun f n n' hf => ?_
      have hparts := fields_shallow hf hd
    -- print
    · simp only [hx.expr (hparts _) (show 2 * b + 1 ≤ fuel by omega),
        directives_settled (hparts _) (show 2 * b + 1 ≤ fuel by omega)]
    -- if
    · rw [ih.branch hparts hfuel, ih.optBlock (hparts "else") (by omega)]
      refine bind_congr_ok fun first n n' hfirst => ?_
      split
      · rfl
      · next en hen =>
        refine bind_congr_ok fun items n n' hitems => ?_
        rw [mapM_congr fun item hitem => ?_]
        have hitem := Nat.le_succ_of_le (items_shallow hparts hen hitems item hitem)
        exact bind_congr_ok fun g n n' hg => ih.branch (fields_shallow hg hitem) hfuel
    -- switch: the default is read at the end, whether or not there are cases
    · have hdefault : ∀ dn, f.lookup "default" = some dn →
          block fuel s dn = block (fuel + 1) s dn :=
        fun dn hdn => ih.block (hparts "default" dn hdn) (by omega)
      rw [hx.expr (hparts "switch") (by omega)]
      refine bind_congr_ok fun subject n n' hsubject => ?_
      split
      · split
        · rfl
        · next dn hdn => rw [hdefault dn hdn]
      · next cn hcn =>
        refine bind_congr_ok fun items n n' hitems => ?_
        rw [mapM_congr fun item hitem => ?_]
        · refine bind_congr_ok fun cases n n' hcases => ?_
          split
          · rfl
          · next dn hdn => rw [hdefault dn hdn]
        · have hitem := Nat.le_succ_of_le (items_shallow hparts hcn hitems item hitem)
          refine bind_congr_ok fun cf n n' hcf => ?_
          have hcase := fields_shallow hcf hitem
          simp only [ih.optBlock (hcase "body") (show 2 * b + 2 ≤ fuel by omega)]
          split
          · rfl
          · next v hv =>
            have hv := hv ▸ hcase "case"
            split
            · rw [hx.exprs hv (by omega)]
            · rw [hx.expr hv (by omega)]
    -- for
    · simp only [ih.optBlock (hparts _) (show 2 * b + 2 ≤ fuel by omega)]
      refine bind_congr_ok fun name n n' hname => ?_
      split
      · rfl
      · rfl
      · next rn hrn hin =>
        split
        · rfl
        · rw [hx.exprs (hrn ▸ hparts "range") (by omega)]
      · next ln hrange hln => rw [hx.expr (hln ▸ hparts "in") (by omega)]
    -- let
    · simp only [ih.optBlock (hparts _) (show 2 * b + 2 ≤ fuel by omega)]
      refine bind_congr_ok fun name n n' hname => ?_
      split
      · next v hv => rw [hx.expr (hv ▸ hparts "value") (by omega)]
      · rfl
    -- a call
    · simp only [ih.callRest hparts hfuel]
    -- a call of a delegate
    · simp only [ih.callRest hparts hfuel]
      refine bind_congr_ok fun name n n' hname => ?_
      split
      · rfl
      · next v hv => rw [hx.expr (hv ▸ hparts "variant") (by omega)]
    -- log
    · rw [ih.block (getD_shallow (hparts "log") hd) (by omega)]
    · rfl
  · rfl

theorem settled_stmts (fuel : Nat) : SettledStmts fuel := by
  induction fuel with
  | zero => constructor <;> intros <;> omega
  | succ fuel ih =>
    exact ⟨block_settled ih, optBlock_settled ih, branch_settled ih, stmt_settled ih,
      callRest_settled ih, callParam_settled ih⟩

/-! ## Documents -/

theorem param_settled (hd : node.depth ≤ b) (hfuel : 2 * b + 1 ≤ fuel) :
    param fuel s node = param (fuel + 1) s node := by
  unfold param
  refine bind_congr_ok fun f n n' hf => ?_
  have hparts := fields_shallow hf (Nat.le_succ_of_le hd)
  split
  · rfl
  · simp only
    cases hdefault : f.lookup "default" with
    | none => rfl
    | some d => simp only [(settled_exprs fuel).expr (hdefault ▸ hparts "default") hfuel]

theorem template_settled (hd : node.depth ≤ b) (hfuel : 2 * b + 1 ≤ fuel) :
    template fuel s node = template (fuel + 1) s node := by
  unfold template
  refine bind_congr_ok fun f n n' hf => ?_
  have hparts := fields_shallow hf (Nat.le_succ_of_le hd)
  split
  · rfl
  · refine bind_congr_ok fun name n n' hname => bind_congr_ok fun kind n n' hkind => ?_
    extract_lets read read'
    have hread : read = read' := by
      funext ⟨params, s⟩
      unfold read read'
      simp only
      cases hbody : f.lookup "body" with
      | none => rfl
      | some body => simp only [(settled_stmts fuel).block (hparts "body" body hbody) hfuel]
    rw [hread]
    split
    · rfl
    · next pn hpn =>
      refine bind_congr_ok fun items n n' hitems => ?_
      rw [foldlM_congr fun item hitem acc => ?_]
      rw [param_settled (items_shallow hparts hpn hitems item hitem) hfuel]

theorem templates_settled {source : String} {root : Node} (hfuel : 2 * root.depth + 1 ≤ fuel) :
    templates fuel source root = templates (fuel + 1) source root := by
  unfold templates
  refine bind_congr_ok fun f n n' hf => ?_
  have hparts := fields_shallow hf (Nat.le_succ root.depth)
  extract_lets read read'
  have hread : read = read' := by
    funext space
    unfold read read'
    split
    · rfl
    · next ts hts =>
      refine bind_congr_ok fun items n n' hitems => mapM_congr fun item hitem => ?_
      exact template_settled (items_shallow hparts hts hitems item hitem) hfuel
  rw [hread]

/-- Nothing in a document is nested too deeply for the fuel with which it is read: more of it
changes nothing. -/
theorem document_enough {source : String} {root : Node} (hfuel : 8 * root.depth + 8 ≤ fuel) :
    templates fuel source root = document source root := by
  induction fuel, hfuel using Nat.le_induction with
  | base => rfl
  | succ fuel hle ih => exact (templates_settled (by omega)).symm.trans ih

end Bundle

end Interlude
