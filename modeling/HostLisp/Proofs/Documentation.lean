import HostLisp.Proofs.Visibility

/-!
Whose documentation is seen. The values of a scope and its documentation stand in two tables, and each
is looked up on a walk of its own. Names are documented only where they are bound, so the second walk
stops where the first one does or further out: a binding without documentation hides the value of the
binding around it, but not its documentation.
-/

namespace HostLisp

def Scope.Tidy (scope : Scope) : Prop :=
  ∀ name, scope.docs.contains name = true → scope.bindings.contains name = true

theorem Scope.tidy_empty (enclosing : List ScopeId) : ({ enclosing } : Scope).Tidy := fun _ => nofun

theorem Scope.Tidy.bind {scope : Scope} (tidy : scope.Tidy) (name : String) (value : Value)
    (doc : Option String) : (scope.bind name value doc).Tidy := by
  intro other documented
  change (scope.bindings.insert name value).contains other = true
  rw [Table.contains_insert, Bool.or_eq_true]
  cases doc with
  | none => exact .inr (tidy other documented)
  | some doc =>
    change (scope.docs.insert name doc).contains other = true at documented
    rw [Table.contains_insert, Bool.or_eq_true] at documented
    exact documented.imp_right (tidy other)

namespace Store

/-- The stores that hosts and evaluation make: by making scopes, and by binding names in them with
documentation or without. -/
inductive Made : Store → Prop where
  | empty : Made .empty
  | child {store : Store} (around : Option ScopeId) (earlier : Made store) : Made (store.child around).1
  | bind {store : Store} (id : ScopeId) (name : String) (value : Value) (doc : Option String)
      (earlier : Made store) : Made (store.bind id name value doc)

def recorded? (store : Store) (id : ScopeId) (name : String) : Option String :=
  (store.scope id).docs.get? name

def docAround (store : Store) (id : ScopeId) (name : String) : String :=
  match store.parent? id with
  | some outer => store.doc outer name
  | none => ""

variable {store before after : Store} {id owner : ScopeId} {name : String}

theorem Made.bindAll (made : Made store) (id : ScopeId) (bindings : List Binding) :
    Made (store.bindAll id bindings) := by
  induction bindings generalizing store with
  | nil => exact made
  | cons binding bindings ih => exact ih (made.bind id binding.name binding.value binding.doc)

theorem made_withRoot (bindings : List Binding) : Made (.withRoot bindings) :=
  (Made.empty.child none).bindAll _ bindings

theorem Made.tidy (made : Made store) : ∀ id, (store.scope id).Tidy := by
  induction made with
  | empty => exact fun _ => Scope.tidy_empty []
  | child around _ ih =>
    intro id
    rw [scope_child]
    split
    · exact Scope.tidy_empty _
    · exact ih id
  | bind place name value doc _ ih =>
    intro id
    rw [scope_bind]
    split
    · exact (ih id).bind name value doc
    · exact ih id

theorem Made.recorded?_eq_none (made : Made store) (free : ¬store.Binds id name) :
    store.recorded? id name = none := by
  have undocumented := mt (made.tidy id name) free
  rwa [Table.contains, Option.not_isSome_iff_eq_none] at undocumented

/-- What evaluation makes of a store: one that could have been made without it, with no more
documentation than before. -/
structure Continues (before after : Store) : Prop where
  made : Made after
  recorded : ∀ id name, after.recorded? id name = before.recorded? id name

theorem recorded?_bind (store : Store) (place id : ScopeId) (name other : String) (value : Value) :
    (store.bind place other value).recorded? id name = store.recorded? id name := by
  unfold recorded?
  rw [scope_bind]
  split
  · rfl
  · rfl

theorem recorded?_child (store : Store) (around : Option ScopeId) (id : ScopeId) (name : String) :
    (store.child around).1.recorded? id name = store.recorded? id name := by
  unfold recorded?
  rw [scope_child]
  split
  · next new =>
    rw [scope_beyond (Nat.not_lt.mpr (Nat.le_of_eq new.symm))]
  · rfl

theorem Made.continues (made : Made before) (evolves : Evolves before after) :
    Continues before after := by
  induction evolves with
  | now => exact ⟨made, fun _ _ => rfl⟩
  | bind place other value _ ih =>
    refine ⟨ih.made.bind place other value none, fun id name => ?_⟩
    rw [recorded?_bind, ih.recorded]
  | child around _ ih =>
    refine ⟨ih.made.child around, fun id name => ?_⟩
    rw [recorded?_child, ih.recorded]

theorem doc_eq (store : Store) (id : ScopeId) (name : String) :
    store.doc id name = (store.recorded? id name).getD (store.docAround id name) := by
  unfold doc docAround
  cases next : store.parent? id with
  | none =>
    rw [chain, List.head?_eq_none_iff.mp next, List.findSome?_singleton]
    rfl
  | some outer =>
    rw [chain_of_parent? next, List.findSome?_cons]
    unfold recorded?
    cases (store.scope id).docs.get? name with
    | none => rfl
    | some doc => rfl

theorem Made.doc_of_sees (made : Made store) (sees : store.Sees id name owner) :
    store.doc id name = store.doc owner name := by
  obtain ⟨front, back, split, free⟩ := sees
  have nothing : front.findSome? (store.recorded? · name) = none :=
    List.findSome?_eq_none_iff.mpr fun nearer inside => made.recorded?_eq_none (free nearer inside)
  change ((store.chain id).findSome? (store.recorded? · name)).getD "" =
    ((store.chain owner).findSome? (store.recorded? · name)).getD ""
  rw [split, (chain_split split).1, List.findSome?_append, nothing, Option.none_or]

theorem Made.doc_of_unbound (made : Made store) (unbound : store.find? id name = none) :
    store.doc id name = "" := by
  have nothing : (store.chain id).findSome? (store.recorded? · name) = none := by
    refine List.findSome?_eq_none_iff.mpr fun other inside => made.recorded?_eq_none ?_
    exact List.find?_eq_none.mp unbound other inside
  exact congrArg (·.getD "") nothing

theorem Made.doc_of_find? (made : Made store) (found : store.find? id name = some owner) :
    store.doc id name = (store.recorded? owner name).getD (store.docAround owner name) := by
  rw [made.doc_of_sees (find?_eq_some_iff.mp found).1, doc_eq]

theorem getD_eq_getD_iff {doc : Option String} {around : String} :
    doc.getD around = doc.getD "" ↔ doc.isSome = true ∨ around = "" := by
  cases doc with
  | none => exact ⟨.inr, fun either => either.resolve_left Bool.false_ne_true⟩
  | some doc => exact iff_of_true rfl (.inl rfl)

end Store

open Store

theorem Engine.evaluate_doc {host : Host} {depth : Nat} {before readied : State} {place : ScopeId}
    {head : Expr} (name : String)
    (reaches : ((ofDepth host (depth + 1)).evaluate place head).outcome before =
      (.ok (.form .doc), readied)) :
    ((ofDepth host (depth + 2)).evaluate place (.list [head, .symbol name])).outcome before =
      match readied.scopes.resolve? place name with
      | some value => (.ok (.text (documentation name (readied.scopes.doc place name) value)), readied)
      | none => (.error (.failure (.unbound name)), readied) := by
  rw [evaluate_form reaches rfl, perform, Eval.outcome_bind, evaluate_symbol]
  cases readied.scopes.resolve? place name with
  | none => rfl
  | some value => rfl

/-- A bound name shows the documentation of its own binding, and if that has none, what is seen from
around there; so it shows its own unless there is some around it only. A name that is not bound has
none. This holds in all stores that hosts make; evaluation, which records no documentation, leads from
there only to such stores. -/
theorem documentation_seen {host : Host} {leeway : Leeway} (abides : host.Abides leeway) :
    (∀ store : Store, Made store → ∀ (id : ScopeId) (name : String),
      (store.find? id name = none → store.doc id name = "") ∧
      ∀ owner, store.find? id name = some owner →
        store.doc id name = (store.recorded? owner name).getD (store.docAround owner name) ∧
        (store.doc id name = (store.recorded? owner name).getD "" ↔
          (store.recorded? owner name).isSome = true ∨ store.docAround owner name = "")) ∧
    (∀ (depth : Nat) (before readied : State) (place : ScopeId) (head : Expr) (name : String)
      (owner : ScopeId), Made readied.scopes → readied.scopes.find? place name = some owner →
      ((Engine.ofDepth host (depth + 1)).evaluate place head).outcome before =
        (.ok (.form .doc), readied) →
      ∃ value, (readied.scopes.scope owner).bindings.get? name = some value ∧
        ((Engine.ofDepth host (depth + 2)).evaluate place (.list [head, .symbol name])).outcome before =
          (.ok (.text (Engine.documentation name
            ((readied.scopes.recorded? owner name).getD (readied.scopes.docAround owner name)) value)),
            readied)) ∧
    (∀ bindings : List Binding, Made (Session.initial bindings).scopes) ∧
    ∀ state : State, Made state.scopes →
      (∀ (depth : Nat) (scope : ScopeId) (expr : Expr), Continues state.scopes
        (((Engine.ofDepth host depth).evaluate scope expr).outcome state).2.scopes) ∧
      (∀ (depth : Nat) (operator : Value) (arguments : List Value), Continues state.scopes
        (((Engine.ofDepth host depth).invoke operator arguments).outcome state).2.scopes) ∧
      ∀ after, Session.Reaches host state after → Continues state.scopes after.scopes := by
  refine ⟨fun store made id name => ⟨made.doc_of_unbound, fun owner found => ?_⟩, ?_, ?_, ?_⟩
  · have seen := made.doc_of_find? found
    exact ⟨seen, seen ▸ getD_eq_getD_iff⟩
  · intro depth before readied place head name owner made found reaches
    obtain ⟨value, held⟩ := get?_eq_some_of_binds (find?_eq_some_iff.mp found).2
    have resolved : readied.scopes.resolve? place name = some value := by
      rw [resolve?_eq, found, Option.bind_some, held]
    refine ⟨value, held, ?_⟩
    rw [Engine.evaluate_doc name reaches, resolved, made.doc_of_find? found]
  · exact fun bindings => made_withRoot bindings
  · intro state made
    refine ⟨fun depth scope expr => ?_, fun depth operator arguments => ?_, fun after reaches => ?_⟩
    · exact made.continues ((Engine.evolving_ofDepth abides depth).evaluate scope expr state)
    · exact made.continues ((Engine.evolving_ofDepth abides depth).invoke operator arguments state)
    · exact made.continues (reaches.evolves abides)

theorem documentation_seen_hidden :
    let before := Session.initial [⟨"x", .text "outer", some "A text."⟩]
    let label : Expr := .list [.value (.form .label) ⟨0, 0⟩, .symbol "x", .list []]
    let ask : Expr := .list [.value (.form .doc) ⟨0, 0⟩, .symbol "x"]
    let block : Expr := .list [.value (.form .block) ⟨0, 0⟩, label]
    let after := (((Engine.ofDepth Host.catalogue 3).evaluate 0 block).outcome before).2
    after.scopes.find? 1 "x" = some 1 ∧ after.scopes.recorded? 1 "x" = none ∧
      after.scopes.doc 1 "x" = "A text." ∧
      ((Engine.ofDepth Host.catalogue 2).evaluate 1 ask).outcome after =
        (.ok (.text "A text.\n\nPython Type: list"), after) := by
  intro before label ask block after
  have abides : Host.catalogue.Abides .full := Native.abides_catalogue
  obtain ⟨seen, asks, initial, goesOn⟩ := documentation_seen abides
  have continues := (goesOn before (initial _)).1 3 0 block
  have found : after.scopes.find? 1 "x" = some 1 := by decide +kernel
  have bare : after.scopes.recorded? 1 "x" = none := continues.recorded 1 "x"
  have around : after.scopes.docAround 1 "x" = "A text." := by decide +kernel
  have shown := ((seen after.scopes continues.made 1 "x").2 1 found).1
  obtain ⟨value, held, answers⟩ := asks 0 after after 1 (.value (.form .doc) ⟨0, 0⟩) "x" 1
    continues.made found rfl
  have bound : (after.scopes.scope 1).bindings.get? "x" = some (.list []) := rfl
  cases held.symm.trans bound
  rw [bare, around] at shown answers
  exact ⟨found, bare, shown, answers⟩

end HostLisp
