import HostLisp.Form.Action
import HostLisp.Store
import Mathlib.Data.List.Forall2

/-!
Writing with more room. What keeps a text from being written may be nesting for which there is no room.
Apart from that, what is written does not depend on the room, nor do the pictures of scopes in it.
-/

namespace HostLisp

theorem Shape.forall₂_parts {α β : Type} {related : α → β → Prop} (size count : Nat) :
    ∀ {items : List α} {others : List β}, List.Forall₂ related items others →
      List.Forall₂ (List.Forall₂ related) (parts size count items) (parts size count others) := by
  induction count with
  | zero => exact fun _ => .nil
  | succ count ih =>
    exact fun each => .cons (List.forall₂_take size each) (ih (List.forall₂_drop size each))

namespace Grid

theorem forall₂_outer {α β : Type} {related : α → β → Prop} (shape : Shape) :
    ∀ {items : List α} {others : List β}, List.Forall₂ related items others →
      List.Forall₂ related (outer shape items) (outer shape others) := by
  induction shape with
  | nil => exact fun each => each
  | cons count shape ih =>
    intro items others each
    have rows := Shape.forall₂_parts (Shape.size shape) count each
    have kept : List.Forall₂ (List.Forall₂ related)
        (if 2 * edge < count then (Shape.parts (Shape.size shape) count items).take edge ++
          (Shape.parts (Shape.size shape) count items).drop (count - edge)
          else Shape.parts (Shape.size shape) count items)
        (if 2 * edge < count then (Shape.parts (Shape.size shape) count others).take edge ++
          (Shape.parts (Shape.size shape) count others).drop (count - edge)
          else Shape.parts (Shape.size shape) count others) := by
      split
      · exact List.rel_append (List.forall₂_take edge rows) (List.forall₂_drop (count - edge) rows)
      · exact rows
    exact List.rel_flatMap kept fun _ _ => ih

theorem forall₂_shown {α β : Type} {related : α → β → Prop} (shape : Shape) {items : List α}
    {others : List β} (each : List.Forall₂ related items others) :
    List.Forall₂ related (shown shape items) (shown shape others) := by
  unfold shown
  split
  · exact forall₂_outer shape each
  · exact each

end Grid

namespace Flaw

/-- How a flaw changes with the room: nesting may do no harm any more, everything else stays. -/
def Relieved (flaw other : Option Flaw) : Prop := flaw = some .nesting ∨ other = flaw

/-- What is read off something with some room is read off another thing with more room. -/
structure Told {α β : Type} (flaw? more? : α → Option Flaw) (view : α → β) (item other : α) : Prop where
  relieved : Relieved (flaw? item) (more? other)
  same : flaw? item = none → view item = view other

theorem Told.sequence {α β : Type} {flaw? more? : α → Option Flaw} {view : α → β} {items others : List α}
    (told : List.Forall₂ (Told flaw? more? view) items others) :
    Told (List.findSome? flaw?) (List.findSome? more?) (List.map view) items others := by
  induction told with
  | nil => exact ⟨.inr rfl, fun _ => rfl⟩
  | @cons item other items others first _ ih =>
    obtain ⟨relieved, same⟩ := first
    unfold Relieved at relieved
    cases flawed : flaw? item with
    | some flaw =>
      rw [flawed] at relieved
      refine ⟨relieved.imp ?_ ?_, ?_⟩
      · exact fun nested => by simp [flawed, nested]
      · exact fun kept => by simp [flawed, kept]
      · exact fun none => by simp [flawed] at none
    | none =>
      rw [flawed] at relieved
      have kept := relieved.resolve_left nofun
      constructor
      · simpa [List.findSome?_cons, flawed, kept] using ih.relieved
      · intro none
        rw [List.findSome?_cons, flawed] at none
        rw [List.map_cons, List.map_cons, same flawed, ih.same none]

end Flaw

open Flaw

theorem Tree.lines_eq_map (trees : List Tree) : Tree.lines trees = trees.map Tree.line := by
  induction trees with
  | nil => rfl
  | cons tree trees ih => rw [Tree.lines, ih, List.map_cons]

namespace Expr

theorem flawAmong?_eq (room : Nat) (exprs : List Expr) :
    flawAmong? room exprs = exprs.findSome? (flaw? room) := by
  unfold flawAmong?
  induction exprs with
  | nil => rfl
  | cons expr exprs ih => rw [Expr.flaws, List.findSome?_cons, ih, List.findSome?_cons]; rfl

theorem unseens_eq_map (exprs : List Expr) : Expr.unseens exprs = exprs.map Expr.unseen := by
  induction exprs with
  | nil => rfl
  | cons expr exprs ih => rw [Expr.unseens, ih, List.map_cons]

theorem sources_eq_map (exprs : List Expr) : Expr.sources exprs = exprs.map Expr.source := by
  induction exprs with
  | nil => rfl
  | cons expr exprs ih => rw [Expr.sources, ih, List.map_cons]

theorem trees_eq_map (exprs : List Expr) : Expr.trees exprs = exprs.map Expr.tree := by
  induction exprs with
  | nil => rfl
  | cons expr exprs ih => rw [Expr.trees, ih, List.map_cons]

/-- Everything that is read off an expression to write it. -/
structure View where
  tree : Tree
  source : String
  unseen : Nat

def view (expr : Expr) : View := ⟨expr.tree, expr.source, expr.unseen⟩

def Told (room more : Nat) : Expr → Expr → Prop := Flaw.Told (flaw? room) (flaw? more) view

theorem trees_of_view {exprs others : List Expr} (same : exprs.map view = others.map view) :
    Expr.trees exprs = Expr.trees others := by
  have trees := congrArg (List.map View.tree) same
  rw [List.map_map, List.map_map] at trees
  rw [trees_eq_map, trees_eq_map]
  exact trees

theorem sources_of_view {exprs others : List Expr} (same : exprs.map view = others.map view) :
    Expr.sources exprs = Expr.sources others := by
  have sources := congrArg (List.map View.source) same
  rw [List.map_map, List.map_map] at sources
  rw [sources_eq_map, sources_eq_map]
  exact sources

theorem unseens_of_view {exprs others : List Expr} (same : exprs.map view = others.map view) :
    Expr.unseens exprs = Expr.unseens others := by
  have unseens := congrArg (List.map View.unseen) same
  rw [List.map_map, List.map_map] at unseens
  rw [unseens_eq_map, unseens_eq_map]
  exact unseens

theorem Told.among {room more : Nat} {exprs others : List Expr}
    (told : List.Forall₂ (Told room more) exprs others) :
    Flaw.Told (flawAmong? room) (flawAmong? more) (List.map view) exprs others := by
  obtain ⟨relieved, same⟩ := Flaw.Told.sequence told
  simp only [← flawAmong?_eq] at relieved same
  exact ⟨relieved, same⟩

theorem told_of_succ {expr other : Expr}
    (each : ∀ room more, room ≤ more → Told (room + 1) (more + 1) expr other) :
    ∀ room more, room ≤ more → Told room more expr other := by
  intro room more wider
  cases room with
  | zero =>
    have flawed : expr.flaw? 0 = some .nesting := by rw [Expr.flaw?]
    exact ⟨.inl flawed, fun none => absurd (flawed.symm.trans none) (Option.some_ne_none _)⟩
  | succ room =>
    cases more with
    | zero => exact absurd wider (Nat.not_succ_le_zero _)
    | succ more => exact each room more (Nat.le_of_succ_le_succ wider)

theorem told_leaf {expr : Expr} (leaf : ∀ room more, expr.flaw? (room + 1) = expr.flaw? (more + 1)) :
    ∀ room more, room ≤ more → Told room more expr expr :=
  told_of_succ fun room more _ => ⟨.inr (leaf more room), fun _ => rfl⟩

end Expr

namespace Value

theorem flawAmong?_eq (room : Nat) (values : List Value) :
    flawAmong? room values = values.findSome? (flaw? room) := by
  unfold flawAmong?
  induction values with
  | nil => rfl
  | cons value values ih => rw [Value.flaws, List.findSome?_cons, ih, List.findSome?_cons]; rfl

theorem flaws_eq_map (room : Nat) (values : List Value) :
    Value.flaws room values = values.map (Value.flaw? room) := by
  induction values with
  | nil => rfl
  | cons value values ih => rw [Value.flaws, ih, List.map_cons]

theorem unseens_eq_map (values : List Value) : Value.unseens values = values.map Value.unseen := by
  induction values with
  | nil => rfl
  | cons value values ih => rw [Value.unseens, ih, List.map_cons]

theorem trees_eq_map (values : List Value) : Value.trees values = values.map Value.tree := by
  induction values with
  | nil => rfl
  | cons value values ih => rw [Value.trees, ih, List.map_cons]

structure View where
  tree : Tree
  display : String
  unseen : Nat
  real : Floating
  parts : Floating × Floating

def view (value : Value) : View :=
  ⟨value.tree, value.display, value.unseen, value.toReal, value.toParts⟩

def Told (room more : Nat) : Value → Value → Prop := Flaw.Told (flaw? room) (flaw? more) view

theorem trees_of_view {values others : List Value} (same : values.map view = others.map view) :
    Value.trees values = Value.trees others := by
  have trees := congrArg (List.map View.tree) same
  rw [List.map_map, List.map_map] at trees
  rw [trees_eq_map, trees_eq_map]
  exact trees

theorem unseens_of_view {values others : List Value} (same : values.map view = others.map view) :
    Value.unseens values = Value.unseens others := by
  have unseens := congrArg (List.map View.unseen) same
  rw [List.map_map, List.map_map] at unseens
  rw [unseens_eq_map, unseens_eq_map]
  exact unseens

theorem texts_of_views {values others : List Value} (same : values.map view = others.map view) :
    (values.map fun value => text value.display) = others.map fun value => text value.display := by
  have texts := congrArg (List.map fun view => text (View.display view)) same
  rw [List.map_map, List.map_map] at texts
  exact texts

theorem texts_of_view (element : ElementType) (shape : Shape) {values others : List Value}
    (same : (Grid.shown shape values).map view = (Grid.shown shape others).map view) :
    element.texts shape values (Tree.lines (Value.trees values)) =
      element.texts shape others (Tree.lines (Value.trees others)) := by
  have lines (values : List Value) : Grid.shown shape (Tree.lines (Value.trees values)) =
      ((Grid.shown shape values).map view).map fun view => view.tree.line := by
    rw [trees_eq_map, Tree.lines_eq_map, List.map_map, Grid.shown_map, List.map_map]
    rfl
  have reals (values : List Value) : values.map toReal = (values.map view).map View.real := by
    rw [List.map_map]
    rfl
  have parts (values : List Value) : values.map toParts = (values.map view).map View.parts := by
    rw [List.map_map]
    rfl
  unfold ElementType.texts ElementType.column
  rw [lines, lines, reals, parts, reals, parts, same]

theorem Told.among {room more : Nat} {values others : List Value}
    (told : List.Forall₂ (Told room more) values others) :
    Flaw.Told (flawAmong? room) (flawAmong? more) (List.map view) values others := by
  obtain ⟨relieved, same⟩ := Flaw.Told.sequence told
  simp only [← flawAmong?_eq] at relieved same
  exact ⟨relieved, same⟩

theorem told_of_succ {value other : Value}
    (each : ∀ room more, room ≤ more → Told (room + 1) (more + 1) value other) :
    ∀ room more, room ≤ more → Told room more value other := by
  intro room more wider
  cases room with
  | zero =>
    have flawed : value.flaw? 0 = some .nesting := by rw [Value.flaw?]
    exact ⟨.inl flawed, fun none => absurd (flawed.symm.trans none) (Option.some_ne_none _)⟩
  | succ room =>
    cases more with
    | zero => exact absurd wider (Nat.not_succ_le_zero _)
    | succ more => exact each room more (Nat.le_of_succ_le_succ wider)

theorem told_leaf {value : Value} (leaf : ∀ room more, value.flaw? (room + 1) = value.flaw? (more + 1)) :
    ∀ room more, room ≤ more → Told room more value value :=
  told_of_succ fun room more _ => ⟨.inr (leaf more room), fun _ => rfl⟩

theorem told_picture {text other : String} {unseen others : Nat} {flaw less : Option Flaw}
    (relieved : Relieved flaw less) (same : flaw = none → text = other ∧ unseen = others) :
    ∀ room more, room ≤ more → Told room more (.picture text unseen flaw) (.picture other others less) :=
  told_of_succ fun room more _ => by
    refine ⟨relieved, fun none => ?_⟩
    obtain ⟨rfl, rfl⟩ := same none
    rfl

theorem told_array (element : ElementType) (shape : Shape) (stamp : Stamp) {room more : Nat}
    {values others : List Value} (told : List.Forall₂ (Told room more) values others) :
    Told (room + 1) (more + 1) (.array element shape values stamp)
      (.array element shape others stamp) := by
  have flaw (room : Nat) (values : List Value) :
      (Value.array element shape values stamp).flaw? (room + 1) =
      flawAmong? room (Grid.shown shape values) := by
    rw [Value.flaw?, flawAmong?, flaws_eq_map, flaws_eq_map, Grid.shown_map]
  obtain ⟨relieved, same⟩ := Told.among (Grid.forall₂_shown shape told)
  refine ⟨?_, fun none => ?_⟩
  · rw [flaw, flaw]
    exact relieved
  · rw [flaw] at none
    have texts := texts_of_view element shape (same none)
    have unseens := unseens_of_view (same none)
    rw [unseens_eq_map, unseens_eq_map, ← Grid.shown_map, ← Grid.shown_map] at unseens
    simp only [view, Value.tree, Value.display, Value.unseen, Value.toReal, Value.toParts, texts,
      unseens_eq_map, unseens, told.length_eq]

end Value

/-! ### Pictures -/

/-- One look shows the scopes as another one does that has more room. -/
def Widens (look wide : Bool → ScopeId → Value) : Prop :=
  ∀ exact id room more, room ≤ more → Value.Told room more (look exact id) (wide exact id)

section

variable {look wide : Bool → ScopeId → Value}

mutual

theorem Expr.told_pictured (looks : Widens look wide) :
    ∀ (expr : Expr) (exact : Bool) (room more : Nat), room ≤ more →
    Expr.Told room more (expr.pictured look exact) (expr.pictured wide exact)
  | .symbol _, _ | .number _ _, _ | .string _, _ => Expr.told_leaf fun _ _ => rfl
  | .list items, exact => Expr.told_of_succ fun room more wider => by
    obtain ⟨relieved, same⟩ := Expr.Told.among (Expr.told_picturedAll looks items exact room more wider)
    refine ⟨relieved, fun none => ?_⟩
    simp only [Expr.pictured, Expr.view, Expr.tree, Expr.source, Expr.unseen,
      Expr.trees_of_view (same none), Expr.sources_of_view (same none),
      Expr.unseens_of_view (same none)]
  | .vector items, exact => Expr.told_of_succ fun room more wider => by
    obtain ⟨relieved, same⟩ := Expr.Told.among (Expr.told_picturedAll looks items exact room more wider)
    refine ⟨relieved, fun none => ?_⟩
    simp only [Expr.pictured, Expr.view, Expr.tree, Expr.source, Expr.unseen,
      Expr.trees_of_view (same none), Expr.sources_of_view (same none),
      Expr.unseens_of_view (same none)]
  | .program forms, exact => Expr.told_of_succ fun room more wider => by
    obtain ⟨relieved, same⟩ := Expr.Told.among (Expr.told_picturedAll looks forms exact room more wider)
    refine ⟨relieved, fun none => ?_⟩
    simp only [Expr.pictured, Expr.view, Expr.tree, Expr.source, Expr.unseen,
      Expr.trees_of_view (same none), Expr.sources_of_view (same none),
      Expr.unseens_of_view (same none)]
  | .quote body, exact => Expr.told_of_succ fun room more wider => by
    obtain ⟨relieved, same⟩ := Expr.told_pictured looks body exact room more wider
    refine ⟨relieved, fun none => ?_⟩
    have same := same none
    simp only [Expr.view, Expr.View.mk.injEq] at same
    simp only [Expr.pictured, Expr.view, Expr.tree, Expr.source, Expr.unseen, same]
  | .value held stamp, exact => Expr.told_of_succ fun room more wider => by
    obtain ⟨relieved, same⟩ := Value.told_pictured looks held exact room more wider
    refine ⟨relieved, fun none => ?_⟩
    have same := same none
    simp only [Value.view, Value.View.mk.injEq] at same
    simp only [Expr.pictured, Expr.view, Expr.tree, Expr.source, Expr.unseen, same]

theorem Expr.told_picturedAll (looks : Widens look wide) :
    ∀ (exprs : List Expr) (exact : Bool) (room more : Nat), room ≤ more →
    List.Forall₂ (Expr.Told room more) (Expr.picturedAll look exact exprs)
      (Expr.picturedAll wide exact exprs)
  | [], _, _, _, _ => .nil
  | expr :: exprs, exact, room, more, wider =>
    .cons (Expr.told_pictured looks expr exact room more wider)
      (Expr.told_picturedAll looks exprs exact room more wider)

theorem Value.told_pictured (looks : Widens look wide) :
    ∀ (value : Value) (exact : Bool) (room more : Nat), room ≤ more →
    Value.Told room more (value.pictured look exact) (value.pictured wide exact)
  | .list items, _ => Value.told_of_succ fun room more wider => by
    obtain ⟨relieved, same⟩ := Value.Told.among (Value.told_picturedAll looks items room more wider)
    refine ⟨relieved, fun none => ?_⟩
    simp only [Value.pictured, Value.view, Value.tree, Value.display, Value.unseen, Value.toReal,
      Value.toParts, Value.trees_of_view (same none), Value.unseens_of_view (same none)]
  | .tuple items, _ => Value.told_of_succ fun room more wider => by
    obtain ⟨relieved, same⟩ := Value.Told.among (Value.told_picturedAll looks items room more wider)
    refine ⟨relieved, fun none => ?_⟩
    simp only [Value.pictured, Value.view, Value.tree, Value.display, Value.unseen, Value.toReal,
      Value.toParts, Value.trees_of_view (same none), Value.unseens_of_view (same none)]
  | .array element shape items stamp, _ => Value.told_of_succ fun room more wider =>
    Value.told_array element shape stamp (Value.told_picturedAll looks items room more wider)
  | .code expr, exact => Value.told_of_succ fun room more wider => by
    obtain ⟨relieved, same⟩ := Expr.told_pictured looks expr exact room more wider
    refine ⟨relieved, fun none => ?_⟩
    have same := same none
    simp only [Expr.view, Expr.View.mk.injEq] at same
    simp only [Value.pictured, Value.view, Value.tree, Value.display, Value.unseen, Value.toReal,
      Value.toParts, same]
  | .closure params body scope stamp, _ => Value.told_of_succ fun room more wider => by
    obtain ⟨relieved, same⟩ := Expr.Told.among (Expr.told_picturedAll looks body false room more wider)
    refine ⟨relieved, fun none => ?_⟩
    simp only [Value.pictured, Value.view, Value.tree, Value.display, Value.unseen, Value.toReal,
      Value.toParts, Expr.sources_of_view (same none), Expr.unseens_of_view (same none)]
  | .scope id, exact => looks exact id
  | .nil, _ | .bool _, _ | .float _, _ | .int _, _ | .complex _ _, _ | .text _, _ | .dict, _
  | .machineBool _, _ | .machineInt _ _, _ | .machineFloat _ _, _ | .form _, _ | .operative _ _ _, _
  | .native _, _ | .adapter _ _ _ _, _ | .kind _, _ | .picture _ _ _, _ => Value.told_leaf fun _ _ => rfl

theorem Value.told_picturedAll (looks : Widens look wide) :
    ∀ (values : List Value) (room more : Nat), room ≤ more →
    List.Forall₂ (Value.Told room more) (Value.picturedAll look values) (Value.picturedAll wide values)
  | [], _, _, _ => .nil
  | value :: values, room, more, wider =>
    .cons (Value.told_pictured looks value true room more wider)
      (Value.told_picturedAll looks values room more wider)

end

theorem Expr.told_all (looks : Widens look wide) (exact : Bool) {room more : Nat} (wider : room ≤ more)
    (exprs : List Expr) : List.Forall₂ (Expr.Told room more)
      (exprs.map (Expr.pictured look exact)) (exprs.map (Expr.pictured wide exact)) := by
  rw [List.forall₂_map_left_iff, List.forall₂_map_right_iff, List.forall₂_same]
  exact fun expr _ => Expr.told_pictured looks expr exact room more wider

theorem Value.told_all (looks : Widens look wide) (exact : Bool) {room more : Nat} (wider : room ≤ more)
    (values : List Value) : List.Forall₂ (Value.Told room more)
      (values.map (Value.pictured look exact)) (values.map (Value.pictured wide exact)) := by
  rw [List.forall₂_map_left_iff, List.forall₂_map_right_iff, List.forall₂_same]
  exact fun value _ => Value.told_pictured looks value exact room more wider

theorem ShapeError.told (looks : Widens look wide) (error : ShapeError) {room more : Nat}
    (wider : room ≤ more) :
    Relieved (error.flaw? look room) (error.flaw? wide more) ∧
      (error.flaw? look room = none → error.message look = error.message wide) := by
  cases error with
  | stepNotCall operator position step =>
    obtain ⟨relieved, same⟩ := Expr.told_pictured looks step false room more wider
    refine ⟨relieved, fun none => ?_⟩
    have source := congrArg Expr.View.source (same none)
    exact congrArg (fun source => ShapeError.calledBy operator "thread" ++
      s!": argument {position} must be a function call, not '{source}'") source
  | _ =>
    refine ⟨.inr rfl, fun _ => ?_⟩
    rfl

def Scope.Told (room more : Nat) : Scope → Scope → Prop :=
  Flaw.Told (Scope.flaw? room) (Scope.flaw? more) fun scope => (scope.frame, scope.unseen)

theorem Scope.told_pictured (looks : Widens look wide) (scope : Scope) {room more : Nat}
    (wider : room ≤ more) : Scope.Told room more (scope.pictured look) (scope.pictured wide) := by
  have values (look : Bool → ScopeId → Value) : (scope.pictured look).bindings.entries.map (·.2) =
      (scope.bindings.entries.map (·.2)).map (Value.pictured look true) := by
    simp only [Scope.pictured, List.map_map, Function.comp_def]
  obtain ⟨relieved, same⟩ := Value.Told.among
    (Value.told_all looks true wider (scope.bindings.entries.map (·.2)))
  rw [← values, ← values] at relieved same
  refine ⟨relieved, fun none => ?_⟩
  have same := same none
  have unseens := Value.unseens_of_view same
  rw [values, values, List.map_map, List.map_map, List.map_map, List.map_map] at same
  have frames : (scope.pictured look).frame = (scope.pictured wide).frame := by
    unfold Scope.frame
    rw [Scope.pictured, Scope.pictured, List.map_map, List.map_map]
    congr 3
    refine List.map_congr_left fun entry present => ?_
    have tree := congrArg Value.View.tree (List.map_inj_left.mp same entry present)
    exact congrArg (fun tree => entry.1 ++ ": " ++ Tree.line tree) tree
  exact Prod.ext frames (congrArg Tree.total unseens)

end

namespace Store

/-- With more room a scope is written the same way, if it is written at all. -/
theorem widens_look (store : Store) {room : Nat} :
    ∀ {more : Nat}, room ≤ more → Widens (store.look room) (store.look more) := by
  induction room with
  | zero =>
    intro more _ exact id inner outer _
    have flawed : (store.look 0 exact id).flaw? inner = some .nesting := by
      cases inner with
      | zero => rw [Value.flaw?]
      | succ inner => rfl
    exact ⟨.inl flawed, fun none => absurd (flawed.symm.trans none) (Option.some_ne_none _)⟩
  | succ room ih =>
    intro more wider exact id
    cases more with
    | zero => exact absurd wider (Nat.not_succ_le_zero room)
    | succ more =>
      have wider := Nat.le_of_succ_le_succ wider
      have told (other : ScopeId) := Scope.told_pictured (ih wider) (store.scope other) wider
      cases exact with
      | false =>
        obtain ⟨relieved, same⟩ := told id
        refine Value.told_picture relieved fun none => ?_
        obtain ⟨frame, unseen⟩ := Prod.ext_iff.mp (same none)
        exact ⟨congrArg (· ++ if (store.scope id).enclosing.isEmpty then "" else " -> ...") frame, unseen⟩
      | true =>
        have each : List.Forall₂ (Scope.Told room more)
            ((store.chain id).map fun other => (store.scope other).pictured (store.look room))
            ((store.chain id).map fun other => (store.scope other).pictured (store.look more)) := by
          rw [List.forall₂_map_left_iff, List.forall₂_map_right_iff, List.forall₂_same]
          exact fun other _ => told other
        obtain ⟨relieved, same⟩ := Told.sequence each
        refine Value.told_picture relieved fun none => ?_
        have frames (scopes : List Scope) : scopes.map Scope.frame =
            (scopes.map fun scope => (scope.frame, scope.unseen)).map Prod.fst := by
          rw [List.map_map]
          rfl
        have unseens (scopes : List Scope) : scopes.map Scope.unseen =
            (scopes.map fun scope => (scope.frame, scope.unseen)).map Prod.snd := by
          rw [List.map_map]
          rfl
        rw [frames, frames, unseens, unseens, same none]
        exact ⟨rfl, rfl⟩

end Store

end HostLisp
