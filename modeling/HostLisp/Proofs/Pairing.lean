import HostLisp.Proofs.Arguments
import HostLisp.State
import Mathlib.Data.Set.Basic
import Mathlib.Logic.Equiv.Basic
import Mathlib.Order.Basic

/-!
Pairings of names. Two runs that do the same at different moments make the same things under different
names. A pairing says which names of one run stand for which names of the other; it grows as the
runs go on, and values that are alike under it stay alike.
-/

namespace HostLisp

def Stamp.Before (a b : Stamp) : Prop := a.scopes < b.scopes ∨ a.scopes = b.scopes ∧ a.serial < b.serial

theorem Stamp.before_succ_iff {count : Nat} (serial : Nat) {stamp : Stamp} :
    stamp.Before ⟨count + 1, 0⟩ ↔
      stamp.Before ⟨count, serial⟩ ∨ ∃ extra, ⟨count, serial + extra⟩ = stamp := by
  obtain ⟨scopes, given⟩ := stamp
  constructor
  · intro before
    by_cases earlier : (⟨scopes, given⟩ : Stamp).Before ⟨count, serial⟩
    · exact .inl earlier
    · simp only [Before] at before earlier
      refine .inr ⟨given - serial, ?_⟩
      rw [Stamp.mk.injEq]
      omega
  · rintro (earlier | ⟨extra, same⟩)
    · simp only [Before] at earlier ⊢
      omega
    · cases same
      exact .inl (Nat.lt_succ_self _)

def Stamp.later (count : Nat) : Stamp ↪ Stamp where
  toFun stamp := ⟨count + stamp.scopes, stamp.serial⟩
  inj' a b same := by
    cases a
    cases b
    simpa using same

namespace Name

def Kin : Name → Name → Prop
  | scope _, scope _ => True
  | object _, object _ => True
  | splice _, splice _ => True
  | _, _ => False

/-- How many scopes there are at the least when a name comes up. -/
def level : Name → Nat
  | scope id => id
  | object stamp => stamp.scopes
  | splice stamp => stamp.scopes

def beyond (bound : Nat) : Name → Name
  | scope id => scope (bound + id + 1)
  | object stamp => object ⟨bound + stamp.scopes + 1, stamp.serial⟩
  | splice stamp => splice ⟨bound + stamp.scopes + 1, stamp.serial⟩

theorem kin_smul (f : Renaming) (name : Name) : name.Kin (f • name) := by cases name <;> trivial

def around : Option ScopeId → Option Name := Option.map scope

theorem smul_around (f : Renaming) (id : Option ScopeId) : f • around id = around (id.map f.scope) := by
  cases id <;> rfl

theorem around_injective : Function.Injective around := Option.map_injective fun _ _ => scope.inj

theorem kin_beyond (bound : Nat) (name : Name) : name.Kin (name.beyond bound) := by
  cases name <;> trivial

theorem level_beyond (bound : Nat) (name : Name) :
    (name.beyond bound).level = bound + name.level + 1 := by cases name <;> rfl

end Name

/-! ### Renamings with given values -/

theorem exists_embedding {α : Type} (pairs : α → α → Prop)
    (functional : ∀ {a b c}, pairs a b → pairs a c → b = c)
    (injective : ∀ {a b c}, pairs a c → pairs b c → a = b) (out : α ↪ α)
    (apart : ∀ {a b c}, pairs a b → b ≠ out c) : ∃ g : α ↪ α, ∀ a b, pairs a b → g a = b := by
  classical
  refine ⟨⟨fun a => if paired : ∃ b, pairs a b then paired.choose else out a, ?_⟩, ?_⟩
  · intro a b same
    dsimp only at same
    split at same <;> split at same
    · next first second =>
      have shared := second.choose_spec
      rw [← same] at shared
      exact injective first.choose_spec shared
    · next first _ => exact absurd same (apart first.choose_spec)
    · next _ second => exact absurd same.symm (apart second.choose_spec)
    · exact out.injective same
  · intro a b paired
    have found : ∃ b, pairs a b := ⟨b, paired⟩
    exact (dif_pos found).trans (functional found.choose_spec paired)

/-- One-to-one relations of names that keep sorts apart. -/
structure Matches (pairs : Name → Name → Prop) : Prop where
  kin : ∀ {a b}, pairs a b → a.Kin b
  functional : ∀ {a b c}, pairs a b → pairs a c → b = c
  injective : ∀ {a b c}, pairs a c → pairs b c → a = b

namespace Matches

theorem graph (f : Renaming) (domain : Set Name) : Matches fun a b => a ∈ domain ∧ f • a = b where
  kin := by
    rintro a b ⟨-, rfl⟩
    exact a.kin_smul f
  functional first second := first.2.symm.trans second.2
  injective first second := Name.smul_injective f (first.2.trans second.2.symm)

theorem images (f g : Renaming) (among : Set Name) :
    Matches fun a b => ∃ name ∈ among, f • name = a ∧ g • name = b where
  kin := by
    rintro a b ⟨name, -, rfl, rfl⟩
    cases name <;> trivial
  functional := by
    rintro a b c ⟨name, -, rfl, rfl⟩ ⟨other, -, same, rfl⟩
    rw [Name.smul_injective f same]
  injective := by
    rintro a b c ⟨name, -, rfl, rfl⟩ ⟨other, -, rfl, same⟩
    rw [Name.smul_injective g same]

theorem or {first second : Name → Name → Prop} (left : Matches first) (right : Matches second)
    (apart : ∀ {a b c}, first a b → ¬second a c) (distinct : ∀ {a b c}, first a c → ¬second b c) :
    Matches fun a b => first a b ∨ second a b where
  kin := by
    rintro a b (paired | paired)
    · exact left.kin paired
    · exact right.kin paired
  functional := by
    rintro a b c (one | one) (two | two)
    · exact left.functional one two
    · exact (apart one two).elim
    · exact (apart two one).elim
    · exact right.functional one two
  injective := by
    rintro a b c (one | one) (two | two)
    · exact left.injective one two
    · exact (distinct one two).elim
    · exact (distinct two one).elim
    · exact right.injective one two

theorem exists_renaming {pairs : Name → Name → Prop} (matching : Matches pairs) (bound : Nat)
    (bounded : ∀ {a b}, pairs a b → b.level < bound) (unstamped : pairs (.object {}) (.object {})) :
    ∃ f : Renaming, ∀ {a b}, pairs a b → f • a = b := by
  have past : ∀ {a b : Name} {extra : Nat}, pairs a b → b.level ≠ bound + extra := by
    intro a b extra paired
    have below := bounded paired
    omega
  obtain ⟨scope, scopes⟩ := exists_embedding (fun a b => pairs (.scope a) (.scope b))
    (fun first second => Name.scope.inj (matching.functional first second))
    (fun first second => Name.scope.inj (matching.injective first second))
    ⟨fun id => bound + id, fun _ _ => Nat.add_left_cancel⟩ (fun paired same => past paired same)
  obtain ⟨object, objects⟩ := exists_embedding (fun a b => pairs (.object a) (.object b))
    (fun first second => Name.object.inj (matching.functional first second))
    (fun first second => Name.object.inj (matching.injective first second)) (Stamp.later bound)
    (fun paired same => past paired (congrArg Stamp.scopes same))
  obtain ⟨splice, splices⟩ := exists_embedding (fun a b => pairs (.splice a) (.splice b))
    (fun first second => Name.splice.inj (matching.functional first second))
    (fun first second => Name.splice.inj (matching.injective first second)) (Stamp.later bound)
    (fun paired same => past paired (congrArg Stamp.scopes same))
  refine ⟨⟨scope, object, splice, objects _ _ unstamped⟩, fun {a b} paired => ?_⟩
  have sorts := matching.kin paired
  cases a <;> cases b
  case scope.scope => exact congrArg Name.scope (scopes _ _ paired)
  case object.object => exact congrArg Name.object (objects _ _ paired)
  case splice.splice => exact congrArg Name.splice (splices _ _ paired)
  all_goals exact sorts.elim

end Matches

/-! ### Likeness -/

section

variable {α β : Type} [SMul Renaming α] [SMul Renaming β]

/-- Whether something has names of a domain only: renamings that agree there do the same to it. -/
def Covers (domain : Set Name) (a : α) : Prop :=
  ∀ f g : Renaming, (∀ name ∈ domain, f • name = g • name) → f • a = g • a

namespace Covers

variable {domain wider : Set Name}

theorem mono {a : α} (covers : Covers domain a) (inside : domain ⊆ wider) : Covers wider a :=
  fun f g agree => covers f g fun name among => agree name (inside among)

theorem map {a : α} (covers : Covers domain a) {change : α → β}
    (natural : ∀ (f : Renaming) a, change (f • a) = f • change a) : Covers domain (change a) :=
  fun f g agree => by rw [← natural, ← natural, covers f g agree]

theorem of_mem {name : Name} (among : name ∈ domain) : Covers domain name :=
  fun _ _ agree => agree name among

theorem of_fixed {a : α} (fixed : ∀ f : Renaming, f • a = a) : Covers domain a :=
  fun f g _ => (fixed f).trans (fixed g).symm

theorem mem {name : Name} (covers : Covers domain name) {bound : Nat}
    (bounded : ∀ other ∈ domain, other.level < bound) (unstamped : Name.object {} ∈ domain) :
    name ∈ domain := by
  by_contra outside
  -- Two renamings that agree on the domain, one of which takes the name beyond all names of it.
  have far := name.level_beyond bound
  have kept := Matches.graph 1 domain
  have moved : Matches fun a b => a = name ∧ b = name.beyond bound := {
    kin := by
      rintro a b ⟨rfl, rfl⟩
      exact a.kin_beyond bound
    functional := fun first second => first.2.trans second.2.symm
    injective := fun first second => first.1.trans second.1.symm }
  have joined := kept.or moved
    (fun held paired => outside (paired.1 ▸ held.1))
    (by
      rintro a b c ⟨among, rfl⟩ ⟨-, same⟩
      have below := bounded a among
      rw [one_smul] at same
      rw [same, far] at below
      omega)
  obtain ⟨f, moves⟩ := joined.exists_renaming (bound + name.level + 2)
    (by
      rintro a b (⟨among, rfl⟩ | ⟨-, rfl⟩)
      · have below := bounded a among
        rw [one_smul]
        omega
      · omega)
    (.inl ⟨unstamped, one_smul _ _⟩)
  have same := covers f 1 fun other among => moves (.inl ⟨among, rfl⟩)
  rw [moves (.inr ⟨rfl, rfl⟩), one_smul] at same
  rw [same] at far
  omega

theorem part {a : α} (covers : Covers domain a) {b : β}
    (inside : ∀ f g : Renaming, f • a = g • a → f • b = g • b) : Covers domain b :=
  fun f g agree => inside f g (covers f g agree)

theorem head {a : α} {as : List α} (covers : Covers domain (a :: as)) : Covers domain a :=
  covers.part fun _ _ same => (List.cons.inj same).1

theorem tail {a : α} {as : List α} (covers : Covers domain (a :: as)) : Covers domain as :=
  covers.part fun _ _ same => (List.cons.inj same).2

theorem of_float {x : Floating} (covers : Covers domain (Value.float x)) : Covers domain x :=
  covers.part fun _ _ same => Value.float.inj same

theorem of_list {items : List Value} (covers : Covers domain (Value.list items)) : Covers domain items :=
  covers.part fun f g same => by simpa using same

theorem of_tuple {items : List Value} (covers : Covers domain (Value.tuple items)) :
    Covers domain items := covers.part fun f g same => by simpa using same

theorem of_scope {id : ScopeId} (covers : Covers domain (Value.scope id)) :
    Covers domain (Name.scope id) :=
      covers.part fun _ _ same => congrArg Name.scope (Value.scope.inj same)

end Covers

end

/-- Which names of one run stand for which names of another one. -/
structure Pairing where
  names : Renaming
  domain : Set Name

namespace Pairing

instance : Preorder Pairing where
  le p q := p.domain ⊆ q.domain ∧ ∀ name ∈ p.domain, p.names • name = q.names • name
  le_refl _ := ⟨subset_rfl, fun _ _ => rfl⟩
  le_trans _ _ _ first second :=
    ⟨first.1.trans second.1, fun name inside =>
      (first.2 name inside).trans (second.2 name (first.1 inside))⟩

variable {p q : Pairing}

/-- Whether two things are the same up to the paired names. -/
def Like {α : Type} [SMul Renaming α] (p : Pairing) (a b : α) : Prop :=
  b = p.names • a ∧ Covers p.domain a

namespace Like

variable {α β γ : Type} [SMul Renaming α] [SMul Renaming β] [SMul Renaming γ]

theorem mono {a b : α} (like : p.Like a b) (le : p ≤ q) : q.Like a b :=
  ⟨like.1.trans (like.2 _ _ le.2), like.2.mono le.1⟩

theorem of_fixed {a : α} (fixed : ∀ f : Renaming, f • a = a) : p.Like a a :=
  ⟨(fixed p.names).symm, .of_fixed fixed⟩

theorem map {a b : α} (like : p.Like a b) (change : α → β)
    (natural : ∀ (f : Renaming) a, change (f • a) = f • change a) : p.Like (change a) (change b) :=
  ⟨by rw [like.1, natural], like.2.map natural⟩

theorem map₂ {a b : α} {c d : β} (first : p.Like a b) (second : p.Like c d) (change : α → β → γ)
    (natural : ∀ (f : Renaming) a c, change (f • a) (f • c) = f • change a c) :
    p.Like (change a c) (change b d) :=
  ⟨by rw [first.1, second.1, natural], fun f g agree => by
    rw [← natural, ← natural, first.2 f g agree, second.2 f g agree]⟩

theorem part {a b : α} (like : p.Like a b) {c : β}
    (inside : ∀ f g : Renaming, f • a = g • a → f • c = g • c) : p.Like c (p.names • c) :=
  ⟨rfl, like.2.part inside⟩

theorem nil : p.Like ([] : List α) [] := .of_fixed fun _ => rfl

theorem cons {a b : α} {as bs : List α} (head : p.Like a b) (tail : p.Like as bs) :
    p.Like (a :: as) (b :: bs) := head.map₂ tail List.cons fun _ _ _ => rfl

theorem append {as bs cs ds : List α} (first : p.Like as bs) (second : p.Like cs ds) :
    p.Like (as ++ cs) (bs ++ ds) :=
      first.map₂ second List.append fun f as cs => (smul_append f as cs).symm

theorem float {x y : Floating} (like : p.Like x y) : p.Like (Value.float x) (.float y) :=
  like.map _ fun _ _ => rfl

theorem list {items others : List Value} (like : p.Like items others) :
    p.Like (Value.list items) (.list others) :=
  like.map _ fun f items => (Value.smul_list f items).symm

theorem tuple {items others : List Value} (like : p.Like items others) :
    p.Like (Value.tuple items) (.tuple others) :=
  like.map _ fun f items => (Value.smul_tuple f items).symm

theorem code {expr other : Expr} (like : p.Like expr other) : p.Like (Value.code expr) (.code other) :=
  like.map _ fun _ _ => rfl

theorem listExpr {exprs others : List Expr} (like : p.Like exprs others) :
    p.Like (Expr.list exprs) (.list others) :=
  like.map _ fun f exprs => (Expr.smul_list f exprs).symm

theorem spliced {value other : Value} {stamp stamp' : Stamp} (like : p.Like value other)
    (placed : p.Like (Name.splice stamp) (.splice stamp')) :
    p.Like (Expr.value value stamp) (.value other stamp') := by
  refine ⟨?_, fun f g agree => ?_⟩
  · rw [like.1, Name.splice.inj placed.1, Expr.smul_value]
  · rw [Expr.smul_value, Expr.smul_value, like.2 f g agree, Name.splice.inj (placed.2 f g agree)]

theorem closure (params : List String) {body other : List Expr} {scope scope' : Option ScopeId}
    {stamp stamp' : Stamp} (like : p.Like body other)
    (scopes : p.Like (Name.around scope) (Name.around scope'))
    (stamps : p.Like (Name.object stamp) (.object stamp')) :
    p.Like (Value.closure params body scope stamp) (.closure params other scope' stamp') := by
  refine ⟨?_, fun f g agree => ?_⟩
  · have captured := scopes.1.trans (Name.smul_around p.names scope)
    rw [like.1, Name.around_injective captured, Name.object.inj stamps.1, Value.smul_closure]
  · have captured := scopes.2 f g agree
    rw [Name.smul_around, Name.smul_around] at captured
    rw [Value.smul_closure, Value.smul_closure, like.2 f g agree, Name.around_injective captured,
      Name.object.inj (stamps.2 f g agree)]

theorem wrapped (make : Value → Stamp → Value)
    (natural : ∀ (f : Renaming) function stamp,
      f • make function stamp = make (f • function) (f.object stamp))
    {function other : Value} {stamp stamp' : Stamp} (like : p.Like function other)
    (stamps : p.Like (Name.object stamp) (.object stamp')) :
    p.Like (make function stamp) (make other stamp') := by
  refine ⟨?_, fun f g agree => ?_⟩
  · rw [like.1, Name.object.inj stamps.1, natural]
  · rw [natural, natural, like.2 f g agree, Name.object.inj (stamps.2 f g agree)]

theorem scope {id id' : ScopeId} (like : p.Like (Name.scope id) (.scope id')) :
    p.Like (Value.scope id) (.scope id') :=
  ⟨congrArg Value.scope (Name.scope.inj like.1), fun f g agree =>
    congrArg Value.scope (Name.scope.inj (like.2 f g agree))⟩

theorem around {id id' : ScopeId} (like : p.Like (Name.scope id) (.scope id')) :
    p.Like (Name.around (some id)) (Name.around (some id')) := like.map some fun _ _ => rfl

theorem of_cons {a : α} {as others : List α} (like : p.Like (a :: as) others) :
    ∃ b bs, others = b :: bs ∧ p.Like a b ∧ p.Like as bs :=
  ⟨_, _, like.1, like.part fun _ _ same => (List.cons.inj same).1,
    like.part fun _ _ same => (List.cons.inj same).2⟩

theorem of_nil {others : List α} (like : p.Like [] others) : others = [] := like.1

end Like

theorem exists_adjoin (p : Pairing) {pairs : Name → Name → Prop} (matching : Matches pairs) (bound : Nat)
    (room : ∀ name ∈ p.domain, (p.names • name).level < bound)
    (bounded : ∀ {a b}, pairs a b → b.level < bound) (unstamped : Name.object {} ∈ p.domain)
    (apart : ∀ {a b}, pairs a b → a ∉ p.domain)
    (distinct : ∀ {a b}, pairs a b → ∀ name ∈ p.domain, p.names • name ≠ b) :
    ∃ q, p ≤ q ∧ (∀ name, name ∈ q.domain ↔ name ∈ p.domain ∨ ∃ other, pairs name other) ∧
      ∀ {a b}, pairs a b → q.names • a = b := by
  have joined := (Matches.graph p.names p.domain).or matching
    (fun held paired => apart paired held.1) (fun held paired => distinct paired _ held.1 held.2)
  obtain ⟨f, moves⟩ := joined.exists_renaming bound
    (by
      rintro a b (⟨held, rfl⟩ | paired)
      · exact room a held
      · exact bounded paired)
    (.inl ⟨unstamped, congrArg Name.object p.names.object_default⟩)
  refine ⟨⟨f, {name | name ∈ p.domain ∨ ∃ other, pairs name other}⟩, ⟨fun name held => .inl held, ?_⟩,
    fun name => Iff.rfl, fun paired => moves (.inr paired)⟩
  exact fun name held => (moves (.inl ⟨held, rfl⟩)).symm

end Pairing

end HostLisp
