import HostLisp.Proofs.Pairing
import Mathlib.Data.Set.Insert

/-!
Sessions that correspond. Under a pairing of names, the scopes of one session hold what the paired
scopes of another one hold. While both go on in the same way, new names come up on both sides and
are paired, and scopes that are not paired stay as they are.
-/

namespace HostLisp

/-! ### Scopes -/

instance : MulAction Renaming (Table Value) where
  smul f table := ⟨table.entries.map fun entry => (entry.1, f • entry.2)⟩
  one_smul table := congrArg Table.mk (by simp)
  mul_smul f g table := by
    have same : (table.entries.map fun entry => (entry.1, (f * g) • entry.2)) =
        (table.entries.map fun entry => (entry.1, g • entry.2)).map fun entry => (entry.1, f • entry.2) := by
      simp [mul_smul]
    exact congrArg Table.mk same

namespace Table

variable (f : Renaming) (table : Table Value)

theorem lookup_map (entries : List (String × Value)) (name : String) :
    (entries.map fun entry => (entry.1, f • entry.2)).lookup name = f • entries.lookup name := by
  induction entries with
  | nil => rfl
  | cons entry entries ih =>
    rw [List.map_cons, lookup_cons_eq_ite, ih, lookup_cons_eq_ite]
    split
    · rfl
    · rfl

@[simp] theorem get?_smul (name : String) : (f • table).get? name = f • table.get? name :=
  lookup_map f table.entries name

theorem insertEntry_map (entries : List (String × Value)) (name : String) (value : Value) :
    insertEntry name (f • value) (entries.map fun entry => (entry.1, f • entry.2)) =
      (insertEntry name value entries).map fun entry => (entry.1, f • entry.2) := by
  induction entries with
  | nil => rfl
  | cons entry entries ih =>
    rw [List.map_cons, insertEntry, ih, insertEntry]
    split
    · rfl
    · rfl

theorem insert_smul (name : String) (value : Value) :
    (f • table).insert name (f • value) = f • table.insert name value :=
  congrArg Table.mk (insertEntry_map f table.entries name value)

theorem values_smul : (f • table).entries.map (·.2) = f • table.entries.map (·.2) := by
  rw [smul_eq_map, List.map_map]
  exact List.map_map

end Table

namespace Scope

instance : MulAction Renaming Scope where
  smul f scope := ⟨f • scope.bindings, scope.docs, scope.enclosing.map f.scope⟩
  one_smul scope := by
    have same : scope.enclosing.map (1 : Renaming).scope = scope.enclosing := List.map_id _
    exact congrArg₂ (Scope.mk · scope.docs ·) (one_smul _ scope.bindings) same
  mul_smul f g scope := by
    have same : scope.enclosing.map (f * g).scope = (scope.enclosing.map g.scope).map f.scope := by
      rw [List.map_map]
      rfl
    exact congrArg₂ (Scope.mk · scope.docs ·) (mul_smul f g scope.bindings) same

variable (f : Renaming) (scope : Scope)

@[simp] theorem bindings_smul : (f • scope).bindings = f • scope.bindings := rfl

@[simp] theorem docs_smul : (f • scope).docs = scope.docs := rfl

@[simp] theorem enclosing_smul : (f • scope).enclosing = scope.enclosing.map f.scope := rfl

theorem bind_smul (name : String) (value : Value) :
    (f • scope).bind name (f • value) = f • scope.bind name value :=
  congrArg (Scope.mk · scope.docs (scope.enclosing.map f.scope))
    (Table.insert_smul f scope.bindings name value)

@[simp] theorem frame_smul : (f • scope).frame = scope.frame := by
  have written : (f • scope).bindings.entries.map (fun entry => entry.1 ++ ": " ++ entry.2.describe) =
      scope.bindings.entries.map fun entry => entry.1 ++ ": " ++ entry.2.describe :=
    (List.map_map ..).trans (by simp [Function.comp_def])
  exact congrArg (fun lines => "\x7b" ++ ", ".intercalate lines ++ "\x7d") written

@[simp] theorem flaw?_smul (room : Nat) : (f • scope).flaw? room = scope.flaw? room := by
  unfold flaw?
  rw [bindings_smul, Table.values_smul, Value.flawAmong?_smul]

@[simp] theorem unseen_smul : (f • scope).unseen = scope.unseen := by
  unfold unseen
  rw [bindings_smul, Table.values_smul, Value.unseens_smul]

end Scope

/-! ### Pictures of scopes -/

def Renaming.LooksAs (f : Renaming) (domain : Set Name) (look look' : Bool → ScopeId → Value) : Prop :=
  ∀ exact id, Covers domain (Name.scope id) → look' exact (f.scope id) = f • look exact id

mutual

theorem Expr.pictured_rename {f : Renaming} {domain : Set Name} {look look' : Bool → ScopeId → Value}
    (looks : f.LooksAs domain look look') (exact : Bool) : ∀ {expr : Expr}, Covers domain expr →
    (expr.rename f).pictured look' exact = (expr.pictured look exact).rename f
  | .symbol _, _ | .number _ _, _ | .string _, _ => rfl
  | .list items, covers => by
    have held : Covers domain items := covers.part fun f g same => by simpa using same
    simp only [Expr.rename, Expr.pictured, Expr.picturedAll_renameAll looks exact held]
  | .vector items, covers => by
    have held : Covers domain items := covers.part fun f g same => by simpa using same
    simp only [Expr.rename, Expr.pictured, Expr.picturedAll_renameAll looks exact held]
  | .program items, covers => by
    have held : Covers domain items := covers.part fun f g same => by simpa using same
    simp only [Expr.rename, Expr.pictured, Expr.picturedAll_renameAll looks exact held]
  | .quote body, covers =>
    congrArg Expr.quote (Expr.pictured_rename looks exact (covers.part fun _ _ => Expr.quote.inj))
  | .value held stamp, covers =>
    congrArg (Expr.value · (f.splice stamp))
      (Value.pictured_rename looks exact (covers.part fun _ _ same => (Expr.value.inj same).1))

theorem Expr.picturedAll_renameAll {f : Renaming} {domain : Set Name}
    {look look' : Bool → ScopeId → Value} (looks : f.LooksAs domain look look') (exact : Bool) :
    ∀ {exprs : List Expr}, Covers domain exprs →
      Expr.picturedAll look' exact (Expr.renameAll f exprs) =
        Expr.renameAll f (Expr.picturedAll look exact exprs)
  | [], _ => rfl
  | _ :: _, covers =>
    congrArg₂ List.cons (Expr.pictured_rename looks exact covers.head)
      (Expr.picturedAll_renameAll looks exact covers.tail)

theorem Value.pictured_rename {f : Renaming} {domain : Set Name} {look look' : Bool → ScopeId → Value}
    (looks : f.LooksAs domain look look') (exact : Bool) : ∀ {value : Value}, Covers domain value →
    (value.rename f).pictured look' exact = (value.pictured look exact).rename f
  | .list _, covers => congrArg Value.list (Value.picturedAll_renameAll looks covers.of_list)
  | .tuple _, covers => congrArg Value.tuple (Value.picturedAll_renameAll looks covers.of_tuple)
  | .array element shape items stamp, covers => by
    have held : Covers domain items := covers.part fun f g same => by
      simp only [Value.smul_array, Value.array.injEq] at same
      exact same.2.2.1
    exact congrArg (Value.array element shape · (f.object stamp)) (Value.picturedAll_renameAll looks held)
  | .code _, covers =>
    congrArg Value.code (Expr.pictured_rename looks exact (covers.part fun _ _ => Value.code.inj))
  | .closure params body scope stamp, covers => by
    have held : Covers domain body := covers.part fun f g same => by
      simp only [Value.smul_closure, Value.closure.injEq] at same
      exact same.2.1
    exact congrArg (Value.closure params · (scope.map f.scope) (f.object stamp))
      (Expr.picturedAll_renameAll looks false held)
  | .scope id, covers => looks exact id covers.of_scope
  | .nil, _ | .bool _, _ | .float _, _ | .int _, _ | .complex _ _, _ | .text _, _ | .dict, _
  | .machineBool _, _ | .machineInt _ _, _ | .machineFloat _ _, _ | .form _, _ | .operative _ _ _, _
  | .native _, _ | .adapter _ _ _ _, _ | .kind _, _ | .picture _ _ _, _ => rfl

theorem Value.picturedAll_renameAll {f : Renaming} {domain : Set Name}
    {look look' : Bool → ScopeId → Value} (looks : f.LooksAs domain look look') :
    ∀ {values : List Value}, Covers domain values →
      Value.picturedAll look' (Value.renameAll f values) =
        Value.renameAll f (Value.picturedAll look values)
  | [], _ => rfl
  | _ :: _, covers =>
    congrArg₂ List.cons (Value.pictured_rename looks true covers.head)
      (Value.picturedAll_renameAll looks covers.tail)

end

theorem Scope.pictured_smul {f : Renaming} {domain : Set Name} {look look' : Bool → ScopeId → Value}
    (looks : f.LooksAs domain look look') {scope : Scope} (covers : Covers domain scope) :
    (f • scope).pictured look' = f • scope.pictured look := by
  have held : ∀ entry ∈ scope.bindings.entries, Covers domain entry.2 := fun entry among =>
    covers.part fun f g same => by
      have tables : f • scope.bindings = g • scope.bindings := congrArg Scope.bindings same
      have entries := List.map_inj_left.1 (congrArg Table.entries tables) entry among
      exact (Prod.mk.inj entries).2
  have written : (f • scope.bindings).entries.map (fun entry => (entry.1, entry.2.pictured look' true)) =
      (f • (⟨scope.bindings.entries.map fun entry => (entry.1, entry.2.pictured look true)⟩ :
        Table Value)).entries := by
    change (scope.bindings.entries.map _).map _ = (scope.bindings.entries.map _).map _
    rw [List.map_map, List.map_map]
    refine List.map_congr_left fun entry among => ?_
    exact congrArg (Prod.mk entry.1) (Value.pictured_rename looks true (held entry among))
  exact congrArg (fun entries => (⟨⟨entries⟩, scope.docs, scope.enclosing.map f.scope⟩ : Scope)) written

theorem Store.smul_look (f : Renaming) (store : Store) (room : Nat) (exact : Bool) (id : ScopeId) :
    f • store.look room exact id = store.look room exact id := by
  cases room with
  | zero => rfl
  | succ room => cases exact <;> rfl

/-! ### Names of a session -/

namespace State

def Has (state : State) : Name → Prop
  | .scope id => id < state.scopes.size
  | .object stamp => stamp.Before ⟨state.scopes.size, state.serial⟩
  | .splice stamp => stamp.Before ⟨state.scopes.size, state.splices⟩

theorem Has.level {state : State} {name : Name} (has : state.Has name) :
    name.level ≤ state.scopes.size := by
  cases name with
  | scope id => exact Nat.le_of_lt has
  | object stamp | splice stamp =>
    rcases has with earlier | ⟨same, -⟩
    · exact Nat.le_of_lt earlier
    · exact Nat.le_of_eq same

/-- The names that may come up next in a session. -/
inductive Next where
  | scope
  | object (count : Nat)
  | splice (count : Nat)

def next (state : State) : Next → Name
  | .scope => .scope state.scopes.size
  | .object count => .object ⟨state.scopes.size, state.serial + count⟩
  | .splice count => .splice ⟨state.scopes.size, state.splices + count⟩

def Keeps (state after : State) : Prop :=
  ∀ id < state.scopes.size, after.scopes.scope id = state.scopes.scope id

/-- Whether a session has gone on to another one without changing its scopes. -/
structure Extends (state after : State) : Prop where
  grows : ∀ name, state.Has name → after.Has name
  keeps : state.Keeps after

theorem Extends.refl (state : State) : state.Extends state := ⟨fun _ has => has, fun _ _ => rfl⟩

theorem Extends.trans {state mid after : State} (first : state.Extends mid) (second : mid.Extends after) :
    state.Extends after where
  grows name has := second.grows name (first.grows name has)
  keeps id old := (second.keeps id (first.grows (.scope id) old)).trans (first.keeps id old)

variable (state : State)

@[simp] theorem next_scope : state.next .scope = .scope state.scopes.size := rfl

@[simp] theorem next_object (count : Nat) :
    state.next (.object count) = .object ⟨state.scopes.size, state.serial + count⟩ := rfl

@[simp] theorem next_splice (count : Nat) :
    state.next (.splice count) = .splice ⟨state.scopes.size, state.splices + count⟩ := rfl

theorem next_injective : Function.Injective state.next := by
  intro a b same
  cases a <;> cases b <;> simp_all

theorem not_has_next (next : Next) : ¬state.Has (state.next next) := by
  cases next <;> simp [Has, State.next, Stamp.Before]

theorem has_stamp (name : Name) : { state with serial := state.serial + 1 }.Has name ↔
    state.Has name ∨ ∃ next ∈ ({.object 0} : Set Next), state.next next = name := by
  cases name with
  | object stamp =>
    obtain ⟨scopes, serial⟩ := stamp
    simp [Has, Stamp.Before]
    omega
  | _ => simp [Has]

theorem has_spliceStamp (name : Name) : { state with splices := state.splices + 1 }.Has name ↔
    state.Has name ∨ ∃ next ∈ ({.splice 0} : Set Next), state.next next = name := by
  cases name with
  | splice stamp =>
    obtain ⟨scopes, serial⟩ := stamp
    simp [Has, Stamp.Before]
    omega
  | _ => simp [Has]

theorem has_child (scope : Option ScopeId) (name : Name) :
    { state with scopes := (state.scopes.child scope).1, serial := 0, splices := 0 }.Has name ↔
      state.Has name ∨ ∃ next ∈ (Set.univ : Set Next), state.next next = name := by
  constructor
  · intro has
    cases name with
    | scope id =>
      rcases Nat.lt_succ_iff_lt_or_eq.1 ((Store.size_child ..).subst has) with old | rfl
      · exact .inl old
      · exact .inr ⟨.scope, trivial, rfl⟩
    | object stamp =>
      have has : stamp.Before ⟨(state.scopes.child scope).1.size, 0⟩ := has
      rw [Store.size_child, Stamp.before_succ_iff state.serial] at has
      exact has.imp_right fun ⟨count, same⟩ => ⟨.object count, trivial, congrArg Name.object same⟩
    | splice stamp =>
      have has : stamp.Before ⟨(state.scopes.child scope).1.size, 0⟩ := has
      rw [Store.size_child, Stamp.before_succ_iff state.splices] at has
      exact has.imp_right fun ⟨count, same⟩ => ⟨.splice count, trivial, congrArg Name.splice same⟩
  · rintro (has | ⟨next, -, rfl⟩)
    · cases name with
      | scope id => exact Nat.lt_of_lt_of_eq (Nat.lt_succ_of_lt has) (Store.size_child ..).symm
      | object stamp | splice stamp =>
        simp only [Has, Stamp.Before, Store.size_child] at has ⊢
        omega
    · cases next <;> simp [Has, Stamp.Before]

theorem matches_next (other : State) (among : Set Next) :
    Matches fun a b => ∃ next ∈ among, state.next next = a ∧ other.next next = b where
  kin := by
    rintro a b ⟨next, -, rfl, rfl⟩
    cases next <;> trivial
  functional := by
    rintro a b c ⟨next, -, rfl, rfl⟩ ⟨again, -, same, rfl⟩
    rw [state.next_injective same]
  injective := by
    rintro a b c ⟨next, -, rfl, rfl⟩ ⟨again, -, rfl, same⟩
    rw [other.next_injective same]

end State

namespace Pairing

/-! ### Sessions under a pairing -/

/-- Two sessions that hold alike contents in paired scopes. -/
structure Between (p : Pairing) (left right : State) : Prop where
  left_has : ∀ name ∈ p.domain, left.Has name
  right_has : ∀ name ∈ p.domain, right.Has (p.names • name)
  unstamped : .object {} ∈ p.domain
  scopes : ∀ id, .scope id ∈ p.domain →
    p.Like (left.scopes.scope id) (right.scopes.scope (p.names.scope id))

namespace Between

variable {p : Pairing} {left right : State} (between : p.Between left right)
include between

theorem mem {name : Name} (covers : Covers p.domain name) : name ∈ p.domain :=
  covers.mem (fun other among => Nat.lt_succ_of_le (between.left_has other among).level)
    between.unstamped

theorem enclosing {id : ScopeId} (among : .scope id ∈ p.domain) {outer : ScopeId}
    (around : outer ∈ (left.scopes.scope id).enclosing) : .scope outer ∈ p.domain := by
  apply between.mem
  refine (between.scopes id among).2.part fun f g same => ?_
  have moved : (left.scopes.scope id).enclosing.map f.scope =
      (left.scopes.scope id).enclosing.map g.scope := congrArg Scope.enclosing same
  exact congrArg Name.scope (List.map_inj_left.1 moved outer around)

theorem chain_mem {id : ScopeId} (among : .scope id ∈ p.domain) :
    ∀ outer ∈ left.scopes.chain id, .scope outer ∈ p.domain := by
  intro outer around
  rcases List.mem_cons.1 around with rfl | around
  · exact among
  · exact between.enclosing among around

theorem chain {id : ScopeId} (among : .scope id ∈ p.domain) :
    right.scopes.chain (p.names.scope id) = (left.scopes.chain id).map p.names.scope :=
  congrArg (p.names.scope id :: ·) (congrArg Scope.enclosing (between.scopes id among).1)

theorem findSome? {α : Type} [SMul Renaming α] (seek : Scope → Option α)
    (natural : ∀ (f : Renaming) scope, seek (f • scope) = f • seek scope) (ids : List ScopeId)
    (among : ∀ id ∈ ids, .scope id ∈ p.domain) :
    p.Like (ids.findSome? fun id => seek (left.scopes.scope id))
      ((ids.map p.names.scope).findSome? fun id => seek (right.scopes.scope id)) := by
  induction ids with
  | nil => exact .of_fixed fun _ => rfl
  | cons id ids ih =>
    have here := (between.scopes id (among id List.mem_cons_self)).map _ natural
    have there := ih fun other later => among other (List.mem_cons_of_mem id later)
    rw [List.map_cons, List.findSome?_cons, List.findSome?_cons]
    cases found : seek (left.scopes.scope id) with
    | none =>
      rw [found] at here
      rw [here.1]
      exact there
    | some a =>
      rw [found] at here
      rw [here.1]
      exact ⟨rfl, here.2⟩

theorem resolve? {id : ScopeId} (among : .scope id ∈ p.domain) (name : String) :
    p.Like (left.scopes.resolve? id name) (right.scopes.resolve? (p.names.scope id) name) := by
  unfold Store.resolve?
  rw [between.chain among]
  exact between.findSome? (fun scope => scope.bindings.get? name)
    (fun f scope => Table.get?_smul f scope.bindings name) _ (between.chain_mem among)

theorem doc {id : ScopeId} (among : .scope id ∈ p.domain) (name : String) :
    right.scopes.doc (p.names.scope id) name = left.scopes.doc id name := by
  have docs : (right.scopes.chain (p.names.scope id)).map (fun outer => (right.scopes.scope outer).docs) =
      (left.scopes.chain id).map fun outer => (left.scopes.scope outer).docs := by
    rw [between.chain among, List.map_map]
    apply List.map_congr_left
    intro outer around
    have same := (between.scopes outer (between.chain_mem among outer around)).1
    exact (congrArg Scope.docs same).trans (Scope.docs_smul ..)
  have found := congrArg (List.findSome? fun docs => Table.get? docs name) docs
  rw [List.findSome?_map, List.findSome?_map] at found
  exact congrArg (Option.getD · "") found

theorem root_mem {id : ScopeId} (among : .scope id ∈ p.domain) :
    .scope (left.scopes.root id) ∈ p.domain :=
  between.chain_mem among _ List.getLastD_mem_cons

theorem root {id : ScopeId} (among : .scope id ∈ p.domain) :
    right.scopes.root (p.names.scope id) = p.names.scope (left.scopes.root id) := by
  unfold Store.root
  rw [(between.scopes id among).1, Scope.enclosing_smul, List.getLastD_map]

theorem look (room : Nat) (exact : Bool) {id : ScopeId} (among : .scope id ∈ p.domain) :
    right.scopes.look room exact (p.names.scope id) = left.scopes.look room exact id := by
  induction room generalizing exact id with
  | zero => rfl
  | succ room ih =>
    have looks : p.names.LooksAs p.domain (left.scopes.look room) (right.scopes.look room) :=
      fun exact id covers => by rw [ih exact (between.mem covers), Store.smul_look]
    have pictures : ∀ {id : ScopeId}, .scope id ∈ p.domain →
        (right.scopes.scope (p.names.scope id)).pictured (right.scopes.look room) =
          p.names • (left.scopes.scope id).pictured (left.scopes.look room) := by
      intro id among
      obtain ⟨same, covers⟩ := between.scopes id among
      rw [same, Scope.pictured_smul looks covers]
    cases exact with
    | false =>
      rw [Store.look, Store.look, pictures among]
      simp only [Scope.frame_smul, Scope.enclosing_smul, List.isEmpty_map, Scope.unseen_smul,
        Scope.flaw?_smul]
    | true =>
      have scopes : ((right.scopes.chain (p.names.scope id)).map fun other =>
            (right.scopes.scope other).pictured (right.scopes.look room)) =
          ((left.scopes.chain id).map fun other =>
            (left.scopes.scope other).pictured (left.scopes.look room)).map (p.names • ·) := by
        rw [between.chain among, List.map_map, List.map_map]
        exact List.map_congr_left fun outer around => pictures (between.chain_mem among outer around)
      rw [Store.look, Store.look, scopes]
      simp only [List.map_map, List.findSome?_map, Function.comp_def, Scope.frame_smul,
        Scope.unseen_smul, Scope.flaw?_smul]

theorem looks (room : Nat) :
    p.names.LooksAs p.domain (left.scopes.look room) (right.scopes.look room) :=
  fun exact id covers => by rw [between.look room exact (between.mem covers), Store.smul_look]

theorem pictured {value value' : Value} (like : p.Like value value') (room : Nat) (exact : Bool) :
    value'.pictured (right.scopes.look room) exact =
      p.names • value.pictured (left.scopes.look room) exact := by
  rw [like.1]
  exact Value.pictured_rename (between.looks room) exact like.2

theorem picturedExpr {expr expr' : Expr} (like : p.Like expr expr') (room : Nat) (exact : Bool) :
    expr'.pictured (right.scopes.look room) exact =
      p.names • expr.pictured (left.scopes.look room) exact := by
  rw [like.1]
  exact Expr.pictured_rename (between.looks room) exact like.2

omit between in
theorem map_like {α : Type} [SMul Renaming α] {items items' : List α} {change change' : α → α}
    (each : ∀ {a b}, p.Like a b → change' b = p.names • change a) (like : p.Like items items') :
    items'.map change' = p.names • items.map change := by
  induction items generalizing items' with
  | nil =>
    rw [like.of_nil]
    rfl
  | cons item items ih =>
    obtain ⟨item', items', rfl, head, tail⟩ := like.of_cons
    rw [List.map_cons, List.map_cons, smul_cons, each head, ih tail]

theorem inside {around : Option ScopeId} (covers : Covers p.domain (Name.around around)) :
    p.Like ({ enclosing := left.scopes.inside around } : Scope)
      { enclosing := right.scopes.inside (around.map p.names.scope) } := by
  cases around with
  | none => exact .of_fixed fun _ => rfl
  | some id =>
    have among : .scope id ∈ p.domain :=
      between.mem (covers.part fun _ _ same => Option.some.inj same)
    have old : id < left.scopes.size := between.left_has _ among
    have other : p.names.scope id < right.scopes.size := between.right_has _ among
    rw [Option.map_some, Store.inside, if_pos old, Store.inside, if_pos other, between.chain among]
    refine ⟨rfl, fun f g agree => ?_⟩
    have moved : (left.scopes.chain id).map f.scope = (left.scopes.chain id).map g.scope :=
      List.map_congr_left fun outer around =>
        Name.scope.inj (agree _ (between.chain_mem among outer around))
    exact congrArg (fun enclosing => ({ enclosing } : Scope)) moved

end Between

/-- How two sessions go on under pairings. New pairs are of names that have just come up on both
sides; whatever comes up on the left is paired, and scopes on the right that are not paired stay as
they are. -/
structure Follows (p : Pairing) (left right : State) (q : Pairing) (left' right' : State) : Prop where
  le : p ≤ q
  left_grows : ∀ name, left.Has name → left'.Has name
  right_grows : ∀ name, right.Has name → right'.Has name
  new : ∀ name ∈ q.domain, name ∉ p.domain → ¬left.Has name ∧ ¬right.Has (q.names • name)
  complete : ∀ name, left'.Has name → left.Has name ∨ name ∈ q.domain
  kept : ∀ id, right.Has (.scope id) → (∀ name ∈ p.domain, p.names • name ≠ .scope id) →
    right'.scopes.scope id = right.scopes.scope id

namespace Follows

variable {p q r : Pairing} {left right left' right' left'' right'' : State}

theorem refl (p : Pairing) (left right : State) : p.Follows left right p left right where
  le := le_refl p
  left_grows _ has := has
  right_grows _ has := has
  new _ among apart := absurd among apart
  complete _ has := .inl has
  kept _ _ _ := rfl

theorem trans (first : p.Follows left right q left' right')
    (second : q.Follows left' right' r left'' right'') :
    p.Follows left right r left'' right'' where
  le := first.le.trans second.le
  left_grows name has := second.left_grows name (first.left_grows name has)
  right_grows name has := second.right_grows name (first.right_grows name has)
  new := by
    intro name among apart
    by_cases middle : name ∈ q.domain
    · rw [← second.le.2 name middle]
      exact first.new name middle apart
    · obtain ⟨left, right⟩ := second.new name among middle
      exact ⟨fun has => left (first.left_grows name has), fun has => right (first.right_grows _ has)⟩
  complete := by
    intro name has
    rcases second.complete name has with has | among
    · exact (first.complete name has).imp_right fun among => second.le.1 among
    · exact .inr among
  kept := by
    intro id has apart
    have still : ∀ name ∈ q.domain, q.names • name ≠ .scope id := by
      intro name among same
      by_cases paired : name ∈ p.domain
      · exact apart name paired ((first.le.2 name paired).trans same)
      · exact (first.new name among paired).2 (same ▸ has)
    rw [second.kept id (first.right_grows _ has) still, first.kept id has apart]

end Follows

theorem Between.bind {p : Pairing} {left right : State} (between : p.Between left right) {id : ScopeId}
    (among : .scope id ∈ p.domain) (name : String) {value value' : Value} (like : p.Like value value') :
    p.Follows left right p { left with scopes := left.scopes.bind id name value }
        { right with scopes := right.scopes.bind (p.names.scope id) name value' } ∧
      p.Between { left with scopes := left.scopes.bind id name value }
        { right with scopes := right.scopes.bind (p.names.scope id) name value' } := by
  have same : ∀ (state : State) (id : ScopeId) (value : Value) (other : Name),
      ({ state with scopes := state.scopes.bind id name value } : State).Has other ↔ state.Has other := by
    intro state id value other
    cases other <;> simp [State.Has]
  constructor
  · refine ⟨le_refl p, fun _ => (same _ _ _ _).2, fun _ => (same _ _ _ _).2,
      fun _ held apart => absurd held apart, fun _ has => .inl ((same _ _ _ _).1 has), ?_⟩
    intro other _ apart
    have elsewhere : p.names.scope id ≠ other := fun same => apart _ among (congrArg Name.scope same)
    rw [Store.scope_bind, if_neg fun both => elsewhere both.1]
  · refine ⟨fun name held => (same _ _ _ _).2 (between.left_has name held),
      fun name held => (same _ _ _ _).2 (between.right_has name held), between.unstamped, ?_⟩
    intro other held
    have old : other < left.scopes.size := between.left_has _ held
    have old' : p.names.scope other < right.scopes.size := between.right_has _ held
    rw [Store.scope_bind, Store.scope_bind]
    by_cases here : id = other
    · subst here
      rw [if_pos ⟨rfl, old⟩, if_pos ⟨rfl, old'⟩]
      exact (between.scopes id among).map₂ like (fun scope value => scope.bind name value)
        fun f scope value => Scope.bind_smul f scope name value
    · have elsewhere : p.names.scope id ≠ p.names.scope other := fun same =>
        here (p.names.scope.injective same)
      rw [if_neg fun both => here both.1, if_neg fun both => elsewhere both.1]
      exact between.scopes other held

theorem Between.extend {p q : Pairing} {left right left' right' : State} (between : p.Between left right)
    (le : p ≤ q) (onward : left.Extends left') (onward' : right.Extends right')
    (new : ∀ name ∈ q.domain, name ∉ p.domain → left'.Has name ∧ right'.Has (q.names • name))
    (scopes : ∀ id, .scope id ∈ q.domain → .scope id ∉ p.domain →
      q.Like (left'.scopes.scope id) (right'.scopes.scope (q.names.scope id))) :
    q.Between left' right' where
  left_has := by
    intro name among
    by_cases old : name ∈ p.domain
    · exact onward.grows name (between.left_has name old)
    · exact (new name among old).1
  right_has := by
    intro name among
    by_cases old : name ∈ p.domain
    · rw [← le.2 name old]
      exact onward'.grows _ (between.right_has name old)
    · exact (new name among old).2
  unstamped := le.1 between.unstamped
  scopes := by
    intro id among
    by_cases old : .scope id ∈ p.domain
    · have moved : p.names.scope id = q.names.scope id := Name.scope.inj (le.2 _ old)
      rw [← moved, onward.keeps id (between.left_has _ old), onward'.keeps _ (between.right_has _ old)]
      exact (between.scopes id old).mono le
    · exact scopes id among old

theorem Between.onward {p : Pairing} {left right left' right' : State} (between : p.Between left right)
    (onward : left.Extends left') (onward' : right.Extends right') : p.Between left' right' :=
  between.extend le_rfl onward onward' (fun _ among apart => absurd among apart)
    fun _ among apart => absurd among apart

theorem Between.exists_follows {p : Pairing} {left right : State} (between : p.Between left right)
    (left' right' : State) (among : Set State.Next)
    (left_has : ∀ name, left'.Has name ↔ left.Has name ∨ ∃ next ∈ among, left.next next = name)
    (right_has : ∀ name, right'.Has name ↔ right.Has name ∨ ∃ next ∈ among, right.next next = name)
    (left_kept : left.Keeps left') (right_kept : right.Keeps right')
    (scope : ∀ q ≥ p, .scope ∈ among → q.names.scope left.scopes.size = right.scopes.size →
      q.Like (left'.scopes.scope left.scopes.size) (right'.scopes.scope right.scopes.size)) :
    ∃ q, p.Follows left right q left' right' ∧ q.Between left' right' ∧
      ∀ next ∈ among, left.next next ∈ q.domain ∧ q.names • left.next next = right.next next := by
  obtain ⟨q, le, domain, moves⟩ := p.exists_adjoin (left.matches_next right among)
    (right'.scopes.size + 1)
    (fun name held => Nat.lt_succ_of_le ((right_has _).2 (.inl (between.right_has name held))).level)
    (by
      rintro a b ⟨next, inside, -, rfl⟩
      exact Nat.lt_succ_of_le ((right_has _).2 (.inr ⟨next, inside, rfl⟩)).level)
    between.unstamped
    (by
      rintro a b ⟨next, -, rfl, -⟩ held
      exact left.not_has_next next (between.left_has _ held))
    (by
      rintro a b ⟨next, -, -, rfl⟩ name held same
      exact right.not_has_next next (same ▸ between.right_has name held))
  have new : ∀ next ∈ among, left.next next ∈ q.domain ∧ q.names • left.next next = right.next next :=
    fun next inside => ⟨(domain _).2 (.inr ⟨_, next, inside, rfl, rfl⟩), moves ⟨next, inside, rfl, rfl⟩⟩
  have follows : p.Follows left right q left' right' := {
    le
    left_grows := fun name has => (left_has name).2 (.inl has)
    right_grows := fun name has => (right_has name).2 (.inl has)
    new := by
      intro name held apart
      rcases (domain name).1 held with held | ⟨_, next, inside, rfl, -⟩
      · exact absurd held apart
      · rw [(new next inside).2]
        exact ⟨left.not_has_next next, right.not_has_next next⟩
    complete := by
      intro name has
      rcases (left_has name).1 has with has | ⟨next, inside, rfl⟩
      · exact .inl has
      · exact .inr (new next inside).1
    kept := fun id has _ => right_kept id has }
  have taken : ∀ name ∈ q.domain, name ∉ p.domain → ∃ next ∈ among, left.next next = name := by
    intro name held apart
    obtain ⟨_, next, inside, same, -⟩ := ((domain name).1 held).resolve_left apart
    exact ⟨next, inside, same⟩
  refine ⟨q, follows, between.extend le ⟨follows.left_grows, left_kept⟩ ⟨follows.right_grows, right_kept⟩
    (fun name held apart => ?_) (fun id held apart => ?_), new⟩
  · obtain ⟨next, inside, rfl⟩ := taken name held apart
    rw [(new next inside).2]
    exact ⟨(left_has _).2 (.inr ⟨next, inside, rfl⟩), (right_has _).2 (.inr ⟨next, inside, rfl⟩)⟩
  · obtain ⟨next, inside, same⟩ := taken _ held apart
    cases next with
    | scope =>
      cases same
      have moved : q.names.scope left.scopes.size = right.scopes.size :=
        Name.scope.inj (new .scope inside).2
      rw [moved]
      exact scope q le inside moved
    | object count => cases same
    | splice count => cases same

end Pairing

end HostLisp
