import Interlude.Bundle.Decode
import Interlude.Proofs.Term.Lower
/-!
# Inferred types

An expression that gives none of its types itself gets them all from its parts: literals from their
values, names from their declarations, and the rest by the rules of `Typing`. The expressions that
are read from nodes without such types are exactly of this sort (`infers`).
-/

namespace Interlude

namespace Yaml.Node

mutual

/-- Whether no expression in a node gives its type itself. A literal may hold anything, and a record
may have a field named like the key of types. -/
def untyped : Node → Bool
  | scalar .. => true
  | sequence _ items => untypedItems items
  | mapping _ pairs => untypedPairs pairs
  | reference .. => true

def untypedItems : List Node → Bool
  | [] => true
  | n :: rest => n.untyped && untypedItems rest

def untypedPairs : List (Node × Node) → Bool
  | [] => true
  | (k, v) :: rest =>
    k.value != "type" &&
      (k.value == "lit" || if k.value == "record" then v.untypedFields else v.untyped) &&
      untypedPairs rest

/-- The same for the fields of a record. -/
def untypedFields : Node → Bool
  | mapping _ pairs => untypedValues pairs
  | _ => true

def untypedValues : List (Node × Node) → Bool
  | [] => true
  | (_, v) :: rest => v.untyped && untypedValues rest

end

theorem untyped_of_mem_items {items : List Node} (h : untypedItems items = true) : ∀ n ∈ items,
    n.untyped = true := by
  induction items with
  | nil => simp
  | cons n rest ih =>
    simp only [untypedItems, Bool.and_eq_true] at h
    simpa [h.1] using ih h.2

theorem untyped_of_mem_values {pairs : List (Node × Node)} (h : untypedValues pairs = true) :
    ∀ p ∈ pairs, p.2.untyped = true := by
  induction pairs with
  | nil => simp
  | cons p rest ih =>
    simp only [untypedValues, Bool.and_eq_true] at h
    simpa [h.1] using ih h.2

theorem untyped_of_mem_pairs {pairs : List (Node × Node)} (h : untypedPairs pairs = true) :
    ∀ p ∈ pairs, p.1.value ≠ "type" ∧ (p.1.value = "record" → p.2.untypedFields = true) ∧
      (p.1.value ≠ "lit" → p.1.value ≠ "record" → p.2.untyped = true) := by
  induction pairs with
  | nil => simp
  | cons p rest ih =>
    simp only [untypedPairs, Bool.and_eq_true, bne_iff_ne, ne_eq, Bool.or_eq_true, beq_iff_eq] at h
    obtain ⟨⟨htype, hvalue⟩, hrest⟩ := h
    intro q hq
    rcases List.mem_cons.1 hq with rfl | hq
    · refine ⟨htype, fun hr => ?_, fun hl hr => ?_⟩
      · rcases hvalue with hl | hv
        · rw [hr] at hl
          exact absurd hl (by decide)
        · simpa [hr] using hv
      · rcases hvalue with hl' | hv
        · exact absurd hl' hl
        · simpa [hr] using hv
    · exact ih hrest q hq

/-- A mapping without types has no type. -/
theorem get_type_of_untyped {n : Node} (h : n.untyped = true) : n.get? "type" = none := by
  cases n with
  | mapping m pairs =>
    simp only [get?, Option.map_eq_none_iff, List.find?_eq_none, beq_iff_eq]
    exact fun p hp => (untyped_of_mem_pairs h p hp).1
  | _ => rfl

end Yaml.Node

/-- All types of an expression are inferred from its parts and from what is declared. -/
inductive Expr.Inferred (s : Bundle.Scope) : Expr → Prop where
  | lit (v : Value) (plain : v.holdsFuture = false) : Inferred s (.lit (Typing.ofValue v) v plain)
  | param {t : StaticType} {name : String} {injected : Bool} :
      (if injected then s.injected else s.params).lookup name = some t →
      Inferred s (.param t name injected)
  | var {t : StaticType} {name : String} : s.locals.lookup name = some t → Inferred s (.var t name)
  | not {x : Expr} : Inferred s x → Inferred s (.unary .bool .not x)
  | neg {x : Expr} : Inferred s x → Inferred s (.unary (Typing.negation x.type) .neg x)
  | binary {op : BinaryOp} {x y : Expr} : Inferred s x → Inferred s y →
      Inferred s (.binary (Typing.binary op x.type y.type) op x y)
  | cond {c x y : Expr} : Inferred s c → Inferred s x → Inferred s y →
      Inferred s (.cond (Typing.common [x, y]) c x y)
  | field {x : Expr} {name : String} {nullSafe : Bool} : Inferred s x →
    Inferred s (.field .any x name nullSafe)
  | item {x key : Expr} {nullSafe : Bool} : Inferred s x → Inferred s key →
      Inferred s (.item (Typing.item x.type) x key nullSafe)
  | list {es : List Expr} : (∀ e ∈ es, Inferred s e) →
    Inferred s (.list (.listOf (Typing.common es)) es)
  | map {es : List (Expr × Expr)} : (∀ e ∈ es, Inferred s e.1) → (∀ e ∈ es, Inferred s e.2) →
      Inferred s (.map (.mapOf (Typing.common (es.map (·.1))) (Typing.common (es.map (·.2)))) es)
  | record {fs : List (String × Expr)} : (∀ f ∈ fs, Inferred s f.2) →
    Inferred s (.record (.of .record) fs)
  | call {name : String} {es : List Expr} : (∀ e ∈ es, Inferred s e) →
      Inferred s (.call (Typing.function name es) name es)

/-- The functions on loops have the types of their results. -/
theorem Expr.Inferred.operandType {s : Bundle.Scope} {e : Expr} (h : e.Inferred s) :
    e.operandType = e.type := by
  cases h with
  | @call name es _ =>
    simp only [Expr.operandType, Expr.type, Bool.or_eq_true, beq_iff_eq]
    split
    · next hname => rcases hname with rfl | rfl <;> rfl
    · split
      · next hname =>
        subst hname
        rfl
      · rfl
  | _ => rfl

namespace Bundle

open Yaml (Node)

/-! ## Opening decodings -/

theorem mapM_ok {α β : Type} {f : α → Decoding β} {xs : List α} {n n' : Identity} {ys : List β}
    (h : xs.mapM f n = .ok (ys, n')) : ∀ y ∈ ys, ∃ x ∈ xs, ∃ k k', f x k = .ok (y, k') := by
  induction xs generalizing n ys with
  | nil =>
    rw [List.mapM_nil] at h
    cases h
    simp
  | cons x rest ih =>
    rw [List.mapM_cons] at h
    obtain ⟨y, k, hy, h⟩ := StateT.bind_ok h
    obtain ⟨zs, k', hzs, h⟩ := StateT.bind_ok h
    cases h
    intro z hz
    rcases List.mem_cons.1 hz with rfl | hz
    · exact ⟨x, by simp, n, k, hy⟩
    · obtain ⟨x', hx', hrun⟩ := ih hzs z hz
      exact ⟨x', by simp [hx'], hrun⟩

theorem mem_of_lookup {f : Fields} {key : String} {v : Node} (h : f.lookup key = some v) :
    (key, v) ∈ f := by
  obtain ⟨front, back, rfl, _⟩ := List.lookup_eq_some_iff.1 h
  simp

theorem checkKeys_mem {s : Scope} {what : String} {allowed : List String} {found : Fields}
    {pairs : List (Node × Node)} {n n' : Identity} {f : Fields}
    (h : checkKeys s what allowed found pairs n = .ok (f, n')) :
    ∀ e ∈ f, e ∈ found ∨ ∃ k, (k, e.2) ∈ pairs ∧ k.value = e.1 := by
  induction pairs generalizing found n with
  | nil =>
    cases h
    exact fun e he => .inl he
  | cons p rest ih =>
    obtain ⟨k, v⟩ := p
    unfold checkKeys at h
    split at h
    · cases h
    · split at h
      · cases h
      · intro e he
        rcases ih h e he with hf | ⟨k', hk', hv⟩
        · rcases List.mem_append.1 hf with hf | hf
          · exact .inl hf
          · rw [List.mem_singleton.1 hf]
            exact .inr ⟨k, by simp, rfl⟩
        · exact .inr ⟨k', by simp [hk'], hv⟩

/-- Every key of a mapping is found. -/
theorem checkKeys_complete {s : Scope} {what : String} {allowed : List String} {found : Fields}
    {pairs : List (Node × Node)} {n n' : Identity} {f : Fields}
    (h : checkKeys s what allowed found pairs n = .ok (f, n')) :
    (∀ e ∈ found, e ∈ f) ∧ ∀ p ∈ pairs, (p.1.value, p.2) ∈ f := by
  induction pairs generalizing found n with
  | nil =>
    cases h
    exact ⟨fun _ he => he, by simp⟩
  | cons p rest ih =>
    obtain ⟨k, v⟩ := p
    unfold checkKeys at h
    split at h
    · cases h
    · split at h
      · cases h
      · obtain ⟨hfound, hrest⟩ := ih h
        refine ⟨fun e he => hfound e (by simp [he]), fun q hq => ?_⟩
        rcases List.mem_cons.1 hq with rfl | hq
        · exact hfound _ (by simp)
        · exact hrest q hq

/-- What stands under a key of a mapping. -/
theorem fields_lookup {s : Scope} {node : Node} {what : String} {allowed : List String}
    {n n' : Identity} {f : Fields} (h : fields s node what allowed n = .ok (f, n')) {key : String}
    {v : Node} (hv : f.lookup key = some v) :
    ∃ m pairs k, node = .mapping m pairs ∧ (k, v) ∈ pairs ∧ k.value = key := by
  unfold fields at h
  split at h
  · next m pairs =>
    obtain ⟨k, hk, hkey⟩ := (checkKeys_mem h (key, v) (mem_of_lookup hv)).resolve_left (by simp)
    exact ⟨m, pairs, k, rfl, hk, hkey⟩
  · cases h

/-- What stands under a key of a mapping that is no literal and no record gives no types itself. -/
theorem fields_untyped {s : Scope} {node : Node} {what : String} {allowed : List String}
    {n n' : Identity} {f : Fields} (h : fields s node what allowed n = .ok (f, n'))
    (hu : node.untyped = true) {key : String} {v : Node} (hv : f.lookup key = some v)
    (hl : key ≠ "lit") (hr : key ≠ "record") : v.untyped = true := by
  obtain ⟨m, pairs, k, rfl, hk, rfl⟩ := fields_lookup h hv
  exact (Node.untyped_of_mem_pairs hu _ hk).2.2 hl hr

/-- The same where the mapping itself stands in for what is missing. -/
theorem getD_untyped {s : Scope} {node : Node} {what : String} {allowed : List String}
    {n n' : Identity} {f : Fields} (h : fields s node what allowed n = .ok (f, n'))
    (hu : node.untyped = true) {key : String} (hl : key ≠ "lit") (hr : key ≠ "record") :
    ((f.lookup key).getD node).untyped = true := by
  cases hv : f.lookup key with
  | none => exact hu
  | some v => exact fields_untyped h hu hv hl hr

/-- The fields of a record give no types themselves. -/
theorem record_untyped {s : Scope} {m : Yaml.Mark} {pairs : List (Node × Node)} {what : String}
    {allowed : List String} {n n' : Identity} {f : Fields}
    (h : fields s (.mapping m pairs) what allowed n = .ok (f, n'))
    (hu : (Node.mapping m pairs).untyped = true) {p : Node × Node} (hp : p ∈ pairs)
    (hkey : p.1.value = "record") :
    ((f.lookup "record").getD (.mapping m pairs)).untypedFields = true := by
  have hmem : (p.1.value, p.2) ∈ f := (checkKeys_complete h).2 p hp
  cases hv : f.lookup "record" with
  | none => exact absurd hkey.symm (by simpa using List.lookup_eq_none_iff.1 hv _ hmem)
  | some v =>
    obtain ⟨m', pairs', k, heq, hk, hvalue⟩ := fields_lookup h hv
    cases heq
    exact (Node.untyped_of_mem_pairs hu _ hk).2.1 hvalue

theorem seq_untyped {s : Scope} {node : Node} {what : String} {n n' : Identity} {items : List Node}
    (h : seq s node what n = .ok (items, n')) (hu : node.untyped = true) : ∀ item ∈ items,
    item.untyped = true := by
  unfold seq at h
  split at h
  · cases h
    exact Node.untyped_of_mem_items hu
  · cases h

theorem literal_inferred {s : Scope} {node : Node} {n n' : Identity} {e : Expr}
    (h : literal s node n = .ok (e, n')) :
    e.Inferred s := by
  unfold literal at h
  cases hd : Yaml.datum node with
  | error m =>
    rw [hd] at h
    cases h
  | ok d =>
    rw [hd] at h
    obtain ⟨v, k, _, h⟩ := StateT.bind_ok h
    split at h
    · next plain =>
      cases h
      exact .lit v plain
    · cases h

theorem paramRef_inferred {s : Scope} {node : Node} {injected : Bool} {n n' : Identity} {e : Expr}
    (h : paramRef s node injected n = .ok (e, n')) : e.Inferred s := by
  unfold paramRef at h
  obtain ⟨name, k, _, h⟩ := StateT.bind_ok h
  cases injected with
  | true =>
    cases ht : s.injected.lookup name with
    | none =>
      simp only [if_true, ht] at h
      cases h
    | some t =>
      simp only [if_true, ht] at h
      cases h
      exact .param ht
  | false =>
    cases ht : s.params.lookup name with
    | none =>
      simp only [Bool.false_eq_true, if_false, ht] at h
      cases h
    | some t =>
      simp only [Bool.false_eq_true, if_false, ht] at h
      cases h
      exact .param ht

/-! ## Decoding -/

/-- What is read with some fuel from a node without types has inferred types. -/
structure Infers (fuel : Nat) : Prop where
  expr : ∀ {s : Scope} {node? : Option Node} {n n' : Identity} {e : Expr},
    Bundle.expr fuel s node? n = .ok (e, n') → (∀ node, node? = some node → node.untyped = true) →
    e.Inferred s
  body : ∀ {s : Scope} {node : Node} {pairs : List (Node × Node)} {n n' : Identity} {e : Expr},
    Bundle.exprBody fuel s node pairs n = .ok (e, n') → (∃ m, node = .mapping m pairs) →
    node.untyped = true →
    e.Inferred s
  exprs : ∀ {s : Scope} {node? : Option Node} {n n' : Identity} {es : List Expr},
    Bundle.exprs fuel s node? n = .ok (es, n') → (∀ node, node? = some node → node.untyped = true) →
    ∀ e ∈ es, e.Inferred s

theorem exprs_inferred {fuel : Nat} (ih : Infers fuel) {s : Scope} {node? : Option Node}
    {n n' : Identity} {es : List Expr} (h : exprs (fuel + 1) s node? n = .ok (es, n'))
    (hu : ∀ node, node? = some node → node.untyped = true) : ∀ e ∈ es, e.Inferred s := by
  cases node? with
  | none =>
    cases h
    simp
  | some node =>
    obtain ⟨items, k, hitems, h⟩ := StateT.bind_ok h
    intro e he
    obtain ⟨item, hitem, k, k', hrun⟩ := mapM_ok h e he
    refine ih.expr hrun ?_
    rintro _ ⟨⟩
    exact seq_untyped hitems (hu _ rfl) item hitem

theorem expr_inferred {fuel : Nat} (ih : Infers fuel) {s : Scope} {node? : Option Node}
    {n n' : Identity} {e : Expr} (h : expr (fuel + 1) s node? n = .ok (e, n'))
    (hu : ∀ node, node? = some node → node.untyped = true) :
    e.Inferred s := by
  cases node? with
  | none => cases h
  | some node =>
    have hnode := hu node rfl
    unfold expr at h
    simp only at h
    split at h
    · exact literal_inferred h
    · rw [Node.get_type_of_untyped hnode] at h
      exact ih.body h ⟨_, rfl⟩ hnode
    · cases h

/-- An entry of a map. -/
theorem entry_inferred {fuel : Nat} (ih : Infers fuel) {s : Scope} {node : Node} {n n' : Identity}
    {e : Expr × Expr} (h : (do
      match ← exprs fuel s (some node) with
      | [k, v] => return (k, v)
      | _ => s.fail node "map entry must be [key, value]" : Decoding (Expr × Expr)) n = .ok (e, n'))
    (hu : node.untyped = true) : e.1.Inferred s ∧ e.2.Inferred s := by
  obtain ⟨es, k, hes, h⟩ := StateT.bind_ok h
  have hall := ih.exprs hes (by rintro _ ⟨⟩; exact hu)
  match es, h with
  | [x, y], h =>
    cases h
    exact ⟨hall x (by simp), hall y (by simp)⟩
  | [], h => cases h
  | [_], h => cases h
  | _ :: _ :: _ :: _, h => cases h

/-- The mapping of an expression, by its first key. -/
theorem body_inferred {fuel : Nat} (ih : Infers fuel) {s : Scope} {node : Node}
    {pairs : List (Node × Node)} {n n' : Identity} {e : Expr}
    (h : exprBody (fuel + 1) s node pairs n = .ok (e, n')) (hm : ∃ m, node = .mapping m pairs)
    (hu : node.untyped = true) : e.Inferred s := by
  obtain ⟨m, rfl⟩ := hm
  cases pairs with
  | nil => cases h
  | cons p rest =>
    obtain ⟨head, first⟩ := p
    unfold exprBody at h
    simp only at h
    generalize hkey : head.value = key at h
    split at h
    · obtain ⟨f, k, hf, h⟩ := StateT.bind_ok h
      exact literal_inferred h
    · obtain ⟨f, k, hf, h⟩ := StateT.bind_ok h
      exact paramRef_inferred h
    · obtain ⟨f, k, hf, h⟩ := StateT.bind_ok h
      exact paramRef_inferred h
    · obtain ⟨f, k, hf, h⟩ := StateT.bind_ok h
      obtain ⟨name, k', hname, h⟩ := StateT.bind_ok h
      cases ht : s.locals.lookup name with
      | none =>
        rw [ht] at h
        cases h
      | some t =>
        rw [ht] at h
        cases h
        exact .var ht
    · obtain ⟨f, k, hf, h⟩ := StateT.bind_ok h
      obtain ⟨sym, k', hsym, h⟩ := StateT.bind_ok h
      cases hop : BinaryOp.ofSymbol? sym with
      | none =>
        rw [hop] at h
        cases h
      | some op =>
        rw [hop] at h
        obtain ⟨args, l, hargs, h⟩ := StateT.bind_ok h
        have hall := ih.exprs hargs fun v hv => fields_untyped hf hu hv (by decide) (by decide)
        match args, h with
        | [x, y], h =>
          cases h
          exact .binary (hall x (by simp)) (hall y (by simp))
        | [], h => cases h
        | [_], h => cases h
        | _ :: _ :: _ :: _, h => cases h
    · obtain ⟨f, k, hf, h⟩ := StateT.bind_ok h
      obtain ⟨x, k', hx, h⟩ := StateT.bind_ok h
      cases h
      exact .not (ih.expr hx fun v hv => fields_untyped hf hu hv (by decide) (by decide))
    · obtain ⟨f, k, hf, h⟩ := StateT.bind_ok h
      obtain ⟨x, k', hx, h⟩ := StateT.bind_ok h
      cases h
      exact .neg (ih.expr hx fun v hv => fields_untyped hf hu hv (by decide) (by decide))
    · obtain ⟨f, k, hf, h⟩ := StateT.bind_ok h
      by_cases hmissing : ((f.lookup "then").isNone || (f.lookup "else").isNone) = true
      · rw [if_pos hmissing] at h
        cases h
      · rw [if_neg hmissing] at h
        obtain ⟨c, k₀, hc, h⟩ := StateT.bind_ok h
        obtain ⟨a, k₁, ha, h⟩ := StateT.bind_ok h
        obtain ⟨b, k₂, hb, h⟩ := StateT.bind_ok h
        cases h
        exact .cond (ih.expr hc fun v hv => fields_untyped hf hu hv (by decide) (by decide))
          (ih.expr ha fun v hv => fields_untyped hf hu hv (by decide) (by decide))
          (ih.expr hb fun v hv => fields_untyped hf hu hv (by decide) (by decide))
    · obtain ⟨f, k, hf, h⟩ := StateT.bind_ok h
      obtain ⟨name, k₀, _, h⟩ := StateT.bind_ok h
      obtain ⟨x, k₁, hx, h⟩ := StateT.bind_ok h
      obtain ⟨safe, k₂, _, h⟩ := StateT.bind_ok h
      cases h
      exact .field (ih.expr hx fun v hv => fields_untyped hf hu hv (by decide) (by decide))
    · obtain ⟨f, k, hf, h⟩ := StateT.bind_ok h
      obtain ⟨i, k₀, hi, h⟩ := StateT.bind_ok h
      obtain ⟨x, k₁, hx, h⟩ := StateT.bind_ok h
      obtain ⟨safe, k₂, _, h⟩ := StateT.bind_ok h
      cases h
      exact .item (ih.expr hx fun v hv => fields_untyped hf hu hv (by decide) (by decide))
        (ih.expr hi fun v hv => fields_untyped hf hu hv (by decide) (by decide))
    · obtain ⟨f, k, hf, h⟩ := StateT.bind_ok h
      obtain ⟨items, k₀, hitems, h⟩ := StateT.bind_ok h
      cases h
      exact .list (ih.exprs hitems fun v hv => fields_untyped hf hu hv (by decide) (by decide))
    · obtain ⟨f, k, hf, h⟩ := StateT.bind_ok h
      obtain ⟨pairs, k₀, hpairs, h⟩ := StateT.bind_ok h
      obtain ⟨entries, k₁, hentries, h⟩ := StateT.bind_ok h
      cases h
      have hall : ∀ e ∈ entries, e.1.Inferred s ∧ e.2.Inferred s := fun e he => by
        obtain ⟨p, hp, l, l', hrun⟩ := mapM_ok hentries e he
        exact entry_inferred ih hrun
          (seq_untyped hpairs (getD_untyped hf hu (by decide) (by decide)) p hp)
      exact .map (fun e he => (hall e he).1) fun e he => (hall e he).2
    · obtain ⟨f, k, hf, h⟩ := StateT.bind_ok h
      have hfields := record_untyped hf hu (List.mem_cons_self ..) hkey
      cases hrec : (f.lookup "record").getD (.mapping m ((head, first) :: rest)) with
      | mapping m pairs =>
        rw [hrec] at h
        obtain ⟨fs, k₀, hfs, h⟩ := StateT.bind_ok h
        cases h
        refine .record fun e he => ?_
        obtain ⟨p, hp, l, l', hrun⟩ := mapM_ok hfs e he
        obtain ⟨x, l'', hx, hrun⟩ := StateT.bind_ok hrun
        cases hrun
        refine ih.expr hx ?_
        rintro _ ⟨⟩
        rw [hrec] at hfields
        exact Node.untyped_of_mem_values hfields p hp
      | scalar _ _ _ _ => rw [hrec] at h; cases h
      | sequence _ _ => rw [hrec] at h; cases h
      | reference _ _ => rw [hrec] at h; cases h
    · obtain ⟨f, k, hf, h⟩ := StateT.bind_ok h
      obtain ⟨name, k₀, _, h⟩ := StateT.bind_ok h
      obtain ⟨args, k₁, hargs, h⟩ := StateT.bind_ok h
      cases h
      exact .call (ih.exprs hargs fun v hv => fields_untyped hf hu hv (by decide) (by decide))
    · cases h

theorem infers (fuel : Nat) : Infers fuel := by
  induction fuel with
  | zero =>
    refine ⟨fun h _ => ?_, fun h _ => ?_, fun h _ => ?_⟩
    all_goals
      cases h
  | succ fuel ih => exact ⟨expr_inferred ih, body_inferred ih, exprs_inferred ih⟩

end Bundle

end Interlude
